import SmbClient.Signing.Verify

namespace SmbClient.Signing
open SmbClient.Lib SmbClient.Mbuf SmbClient.Session

def smb3VerifyFeed (d : Absorber UInt8) (ctx : d.Ctx) (mb : Chain) (nextCmdOffset : Nat) :
    Except Errno (Option d.Ctx) :=
  (zeroSignature mb).map fun mb => d.feedUpTo ctx mb (replyLen mb nextCmdOffset)

def smb2Fed (mb : Chain) (nextCmdOffset : Nat) : Option Bytes :=
  (smb2VerifyFeed .recorder [] mb nextCmdOffset).toOption

def smb3Fed (mb : Chain) (nextCmdOffset : Nat) : Option Bytes :=
  (smb3VerifyFeed .recorder [] mb nextCmdOffset).toOption.join

theorem smb3Fed_eq (mb : Chain) (nextCmdOffset : Nat) :
    smb3Fed mb nextCmdOffset =
      if smb2HdrLen ≤ (bytes mb).length then some (signedBytes (bytes mb) nextCmdOffset) else none := by
  unfold smb3Fed smb3VerifyFeed
  by_cases enough : smb2HdrLen ≤ (bytes mb).length
  · obtain ⟨zeroed, found, content⟩ := zeroSignature_ok enough
    rw [if_pos enough, found]
    exact feedUpTo_signedBytes Absorber.recorder [] enough content nextCmdOffset
  · rw [if_neg enough, zeroSignature_short (Nat.lt_of_not_le enough)]
    rfl

def InChain (rest : Bytes) (nextCmdOffset : Nat) : Prop :=
  nextCmdOffset = 0 ∨ smb2HdrLen ≤ nextCmdOffset ∧ nextCmdOffset ≤ rest.length

instance (rest : Bytes) (nextCmdOffset : Nat) : Decidable (InChain rest nextCmdOffset) :=
  inferInstanceAs (Decidable (_ ∨ _))

variable (di : Digest UInt8) (hc : di.Ctx) (mb : Chain) (nextCmdOffset : Nat)

theorem signedBytes_eq {rest : Bytes} {nextCmdOffset len : Nat} (enough : smb2HdrLen ≤ rest.length)
    (length : (if nextCmdOffset = 0 then rest.length else nextCmdOffset) = len) (header : smb2HdrLen ≤ len) :
    signedBytes rest nextCmdOffset = rest.take smb2SigOff ++ List.replicate smb2SigLen 0 ++
      (rest.drop smb2HdrLen).take (len - smb2SigOff - smb2SigLen) := by
  have front : (rest.take smb2SigOff ++ List.replicate smb2SigLen (0 : UInt8)).length = smb2HdrLen := by
    rw [List.length_append, List.length_take, List.length_replicate,
      Nat.min_eq_left (Nat.le_trans (by decide) enough)]
    rfl
  rw [signedBytes, length, overwrite, List.take_append, front, List.take_of_length_le (by rwa [front]),
    List.length_replicate]
  rfl

theorem smb2VerifyFeed_inChain
    (enough : smb2HdrLen ≤ (bytes mb).length) (inChain : InChain (bytes mb) nextCmdOffset) :
    smb2VerifyFeed di hc mb nextCmdOffset = .ok (di.update hc (signedBytes (bytes mb) nextCmdOffset)) := by
  have length : (if nextCmdOffset = 0 then (bytes mb).length else nextCmdOffset) =
      replyLen mb nextCmdOffset := by
    rw [replyLen, mbufGetChainLen_eq]
  have bounds : smb2HdrLen ≤ replyLen mb nextCmdOffset ∧ replyLen mb nextCmdOffset ≤ (bytes mb).length := by
    rw [← length]
    obtain rfl | ⟨least, most⟩ := inChain
    · exact ⟨enough, le_refl _⟩
    · rw [if_neg (Nat.ne_of_gt (Nat.lt_of_lt_of_le (by decide) least))]
      exact ⟨least, most⟩
  obtain ⟨afterFront, front, rest1⟩ := di.feed_ok hc mb smb2SigOff (Nat.le_trans (by decide) enough)
  obtain ⟨afterSig, skipped, rest2⟩ := Digest.unit.feed_ok () afterFront smb2SigLen
    (by rw [rest1, List.length_drop]; exact Nat.le_sub_of_add_le enough)
  have left : afterSig.flatten = (bytes mb).drop smb2HdrLen := by
    rw [rest2, rest1, List.drop_drop]
    rfl
  obtain ⟨_, back, -⟩ := di.feed_ok (di.update (di.update hc (mb.flatten.take smb2SigOff))
    (List.replicate smb2SigLen 0)) afterSig (replyLen mb nextCmdOffset - smb2SigOff - smb2SigLen)
    (by rw [left, List.length_drop, Nat.sub_sub]; exact Nat.sub_le_sub_right bounds.2 _)
  rw [smb2VerifyFeed]
  simp only [if_neg (Nat.not_lt.mpr bounds.1), front, skipped, back]
  rw [signedBytes_eq enough length bounds.1, di.update_append, di.update_append, left]
  rfl

theorem smb2VerifyFeed_rejects (outside : ¬(smb2HdrLen ≤ (bytes mb).length ∧ InChain (bytes mb) nextCmdOffset)) :
    smb2VerifyFeed di hc mb nextCmdOffset = .error .ebadrpc := by
  rw [smb2VerifyFeed]
  by_cases short : replyLen mb nextCmdOffset < smb2HdrLen
  · simp only [if_pos short]
  -- a reply of at least a header that is not in the chain has to run out of it
  have beyond : (bytes mb).length < replyLen mb nextCmdOffset := by
    by_contra within
    apply outside
    have least := Nat.le_of_not_lt short
    refine ⟨Nat.le_trans least (Nat.le_of_not_lt within), ?_⟩
    by_cases last : nextCmdOffset = 0
    · exact .inl last
    · rw [replyLen, if_neg last] at least within
      exact .inr ⟨least, Nat.le_of_not_lt within⟩
  simp only [if_neg short]
  by_cases front : smb2SigOff ≤ (bytes mb).length
  · obtain ⟨afterFront, fed, rest1⟩ := di.feed_ok hc mb smb2SigOff front
    have left1 : afterFront.flatten.length = (bytes mb).length - smb2SigOff := by
      rw [rest1, List.length_drop]
      rfl
    simp only [fed]
    by_cases signature : smb2SigLen ≤ afterFront.flatten.length
    · obtain ⟨afterSig, skipped, rest2⟩ := Digest.unit.feed_ok () afterFront smb2SigLen signature
      have left2 : afterSig.flatten.length < replyLen mb nextCmdOffset - smb2SigOff - smb2SigLen := by
        rw [rest2, List.length_drop]
        omega
      simp only [skipped, di.feed_short _ _ _ left2]
    · simp only [Digest.unit.feed_short () _ _ (Nat.lt_of_not_le signature)]
  · simp only [di.feed_short hc mb _ (Nat.lt_of_not_le front)]

theorem smb2Verify_eq_ok {hmac : Hmac} {sessionp : SmbSession} {mdp : MdChain} {nextCmdOffset : Nat}
    {signature : Bytes} (verified : smb2Verify hmac sessionp mdp nextCmdOffset signature = .ok true) :
    InChain mdp.rest nextCmdOffset ∧ signature = (hmac.final (hmac.digest.update
      (hmac.init (sessionp.mackey.getD [])) (signedBytes mdp.rest nextCmdOffset))).take smb2SigLen := by
  unfold smb2Verify at verified
  by_cases inside : smb2HdrLen ≤ (bytes mdp.unread).length ∧ InChain (bytes mdp.unread) nextCmdOffset
  · rw [smb2VerifyFeed_inChain _ _ _ _ inside.1 inside.2] at verified
    exact ⟨inside.2, of_decide_eq_true (Except.ok.inj verified)⟩
  · rw [smb2VerifyFeed_rejects _ _ _ _ inside] at verified
    cases verified

theorem smb2Fed_eq : smb2Fed mb nextCmdOffset =
      if smb2HdrLen ≤ (bytes mb).length ∧ InChain (bytes mb) nextCmdOffset then
        some (signedBytes (bytes mb) nextCmdOffset)
      else none := by
  unfold smb2Fed
  split
  · rename_i inside
    exact congrArg Except.toOption (smb2VerifyFeed_inChain Digest.recorder [] mb _ inside.1 inside.2)
  · rename_i outside
    exact congrArg Except.toOption (smb2VerifyFeed_rejects Digest.recorder [] mb _ outside)

/-- The two verifiers give their digests the same bytes, those of the reply with the signature
zeroed, and both reject a reply that goes beyond the chain. -/
structure FeedsAgree (mdp : MdChain) (nextCmdOffset : Nat) : Prop where
  same : smb2Fed mdp.unread nextCmdOffset = smb3Fed mdp.unread nextCmdOffset
  content : ∀ fed, smb3Fed mdp.unread nextCmdOffset = some fed → fed = signedBytes mdp.rest nextCmdOffset
  beyond : mdp.rest.length < nextCmdOffset →
    smb2Fed mdp.unread nextCmdOffset = none ∧ smb3Fed mdp.unread nextCmdOffset = none

theorem feedsAgree_iff (mdp : MdChain) (nextCmdOffset : Nat) :
    FeedsAgree mdp nextCmdOffset ↔
      mdp.rest.length < smb2HdrLen ∨ nextCmdOffset = 0 ∨
        smb2HdrLen ≤ nextCmdOffset ∧ nextCmdOffset ≤ mdp.rest.length := by
  constructor
  · intro agree
    by_cases short : mdp.rest.length < smb2HdrLen
    · exact .inl short
    right
    have enough : smb2HdrLen ≤ (bytes mdp.unread).length := Nat.le_of_not_lt short
    by_contra outside
    have rejected : ¬(smb2HdrLen ≤ (bytes mdp.unread).length ∧ InChain (bytes mdp.unread) nextCmdOffset) :=
      fun inside => outside inside.2
    have same := agree.same
    rw [smb2Fed_eq, if_neg rejected, smb3Fed_eq, if_pos enough] at same
    cases same
  · intro cond
    by_cases enough : smb2HdrLen ≤ (bytes mdp.unread).length
    · have inChain : InChain (bytes mdp.unread) nextCmdOffset :=
        cond.resolve_left (Nat.not_lt.mpr enough)
      have fed2 := (smb2Fed_eq mdp.unread nextCmdOffset).trans (if_pos ⟨enough, inChain⟩)
      have fed3 := (smb3Fed_eq mdp.unread nextCmdOffset).trans (if_pos enough)
      refine ⟨fed2.trans fed3.symm, fun fed found => ?_, fun beyond => ?_⟩
      · rw [fed3, Option.some.injEq] at found
        exact found.symm
      · obtain rfl | ⟨-, most⟩ := inChain
        · exact absurd beyond (Nat.not_lt_zero _)
        · exact absurd beyond (Nat.not_lt.mpr most)
    · have fed2 := (smb2Fed_eq mdp.unread nextCmdOffset).trans (if_neg fun inside => enough inside.1)
      have fed3 := (smb3Fed_eq mdp.unread nextCmdOffset).trans (if_neg enough)
      refine ⟨fed2.trans fed3.symm, fun fed found => ?_, fun _ => ⟨fed2, fed3⟩⟩
      rw [fed3] at found
      cases found

theorem feeds_differ_beyond_chain :
    let mdp := mdInitm [List.replicate 64 1]
    smb2Fed mdp.unread 100 = none ∧
      smb3Fed mdp.unread 100 = some (List.replicate 48 1 ++ List.replicate 16 0) := by
  decide +kernel

end SmbClient.Signing
