import SmbClient.Signing.Verify

namespace SmbClient.Signing
open SmbClient.Lib SmbClient.Mbuf SmbClient.Session

def ascii (text : String) : Bytes := text.toList.map fun c => UInt8.ofNat c.toNat

/-- `smb3_derive_channel_keys`, with the key derivation function as a parameter: `none` is its
failure, after which the channel is left with a key of length zero. -/
def smb3DeriveChannelKeys (kdf : (key label context : Bytes) → Option Bytes) (sessionp : SmbSession)
    (iod : SmbIod) : Option Errno × SmbIod :=
  match iod.mackey with
  | none => (some .einval, iod)
  | some mackey =>
    let derived :=
      if sessionp.dialect = .smb311 then kdf mackey (ascii "SMBSigningKey" ++ [0]) iod.preAuthIntHash
      else kdf mackey (ascii "SMB2AESCMAC" ++ [0]) (ascii "SmbSign" ++ [0])
    match derived with
    | some key => (none, { iod with smb3SigningKey := key.take smb3KeyLen })
    | none => (some .einval, { iod with smb3SigningKey := [] })

section
variable (modes : SigningModes) (stack : Bytes) (sessionp : SmbSession) (iod : Option SmbIod) (rqp : VerifyRq)

def Smb3Accepts (mdp : MdChain) (nextCmdOffset : Nat) (signature : Bytes) : Prop :=
  ∃ mb, smb3Verify modes stack sessionp iod rqp mdp nextCmdOffset signature = .ok (true, mb)

def replyMac (rest : Bytes) (nextCmdOffset : Nat) : Option Bytes :=
  if (verifyKey sessionp iod).length < smb3KeyLen then none
  else
    (signingMac modes sessionp.smb3SigningAlgorithm rqp true).bind fun (mac, iv) =>
      mac.compute ((verifyKey sessionp iod).take smb3KeyLen) iv (signedBytes rest nextCmdOffset)

/-- `signature` is the code of the reply, and all of the reply is there. -/
def Authentic (rest : Bytes) (nextCmdOffset : Nat) (signature : Bytes) : Prop :=
  nextCmdOffset ≤ rest.length ∧ replyMac modes sessionp iod rqp rest nextCmdOffset = some signature

def comparedSignature (rest : Bytes) (nextCmdOffset : Nat) : Bytes :=
  if (verifyKey sessionp iod).length < smb3KeyLen then List.replicate smb2SigLen 0
  else
    match (signingMac modes sessionp.smb3SigningAlgorithm rqp true).bind fun (mac, iv) =>
        (mac.init ((verifyKey sessionp iod).take smb3KeyLen) iv).bind fun ctx =>
          (mac.absorber.absorb ctx (signedBytes rest nextCmdOffset)).map fun ctx =>
            (mac.final ctx).getD stack with
    | none => List.replicate smb2SigLen 0
    | some mac => mac.take smb2SigLen

variable {modes stack sessionp iod rqp} {mdp : MdChain}

theorem smb3Accepts_iff (keyed : smb3KeyLen ≤ sessionp.smb3SigningKey.length)
    (enough : smb2HdrLen ≤ mdp.rest.length) (nextCmdOffset : Nat) (signature : Bytes) :
    Smb3Accepts modes stack sessionp iod rqp mdp nextCmdOffset signature ↔
      signature = comparedSignature modes stack sessionp iod rqp mdp.rest nextCmdOffset := by
  obtain ⟨zeroed, found, content⟩ := zeroSignature_ok enough
  have some' : ¬replyLen zeroed nextCmdOffset = 0 :=
    Nat.ne_of_gt (replyLen_pos enough content nextCmdOffset)
  have same : smb3GetSignature modes stack sessionp.smb3SigningAlgorithm rqp true (verifyKey sessionp iod)
      zeroed (replyLen zeroed nextCmdOffset) (List.replicate smb2SigLen 0) =
        comparedSignature modes stack sessionp iod rqp mdp.rest nextCmdOffset := by
    unfold smb3GetSignature comparedSignature smb3GetSignatureBlocks
    simp only [if_neg some', feedUpTo_signedBytes _ _ enough content]
    rfl
  unfold Smb3Accepts smb3Verify
  simp [Nat.not_lt.mpr keyed, found, Except.map, same]

variable {nextCmdOffset : Nat}

theorem smb3Accepts_false (early : sessionp.smb3SigningKey.length < smb3KeyLen ∨ mdp.rest.length < smb2HdrLen)
    {signature : Bytes} :
    ¬Smb3Accepts modes stack sessionp iod rqp mdp nextCmdOffset signature := by
  rintro ⟨mb, accepted⟩
  by_cases keyed : sessionp.smb3SigningKey.length < smb3KeyLen
  · simp [smb3Verify, keyed] at accepted
  · have short := early.resolve_left keyed
    simp [smb3Verify, keyed, zeroSignature_short short, Except.map] at accepted

theorem length_comparedSignature (room : stack.length = smb2SigLen) (rest : Bytes) (nextCmdOffset : Nat) :
    (comparedSignature modes stack sessionp iod rqp rest nextCmdOffset).length = smb2SigLen := by
  unfold comparedSignature
  split
  · exact List.length_replicate
  · split
    · exact List.length_replicate
    · rename_i mac computed
      simp only [Option.bind_eq_some_iff, Option.map_eq_some_iff] at computed
      obtain ⟨⟨mac, iv⟩, -, _, -, ctx, -, rfl⟩ := computed
      have full : ((mac.final ctx).getD stack).length = smb2SigLen := by
        cases final : mac.final ctx with
        | none => exact room
        | some code => exact mac.final_length ctx code final
      rw [List.length_take, full, Nat.min_self]

theorem comparedSignature_eq {rest mac : Bytes}
    (computed : replyMac modes sessionp iod rqp rest nextCmdOffset = some mac) :
    comparedSignature modes stack sessionp iod rqp rest nextCmdOffset = mac := by
  unfold replyMac at computed
  split at computed
  · cases computed
  · rename_i keyed
    simp only [Mac.compute, Option.bind_eq_some_iff] at computed
    obtain ⟨⟨code, iv⟩, algorithm, ctx, initialised, last, absorbed, final⟩ := computed
    have full : mac.take smb2SigLen = mac :=
      List.take_of_length_le (Nat.le_of_eq (code.final_length last mac final))
    dsimp only at initialised absorbed final
    simp [comparedSignature, keyed, algorithm, initialised, absorbed, final, full]

theorem Smb3Accepts.authentic {signature : Bytes}
    (accepted : Smb3Accepts modes stack sessionp iod rqp mdp nextCmdOffset signature)
    (within : nextCmdOffset ≤ mdp.rest.length)
    (available : replyMac modes sessionp iod rqp mdp.rest nextCmdOffset ≠ none) :
    Authentic modes sessionp iod rqp mdp.rest nextCmdOffset signature := by
  by_cases early : sessionp.smb3SigningKey.length < smb3KeyLen ∨ mdp.rest.length < smb2HdrLen
  · exact absurd accepted (smb3Accepts_false early)
  obtain ⟨keyed, enough⟩ := not_or.mp early
  obtain ⟨mac, computed⟩ := Option.ne_none_iff_exists'.mp available
  rw [smb3Accepts_iff (Nat.le_of_not_lt keyed) (Nat.le_of_not_lt enough),
    comparedSignature_eq computed] at accepted
  exact ⟨within, accepted ▸ computed⟩

theorem smb3Verify_authentic_iff (modes : SigningModes) (stack : Bytes) (room : stack.length = smb2SigLen)
    (sessionp : SmbSession) (iod : Option SmbIod) (rqp : VerifyRq) (mdp : MdChain) (nextCmdOffset : Nat) :
    (∀ signature : Bytes, signature.length = smb2SigLen →
        Smb3Accepts modes stack sessionp iod rqp mdp nextCmdOffset signature →
          Authentic modes sessionp iod rqp mdp.rest nextCmdOffset signature) ↔
      sessionp.smb3SigningKey.length < smb3KeyLen ∨ mdp.rest.length < smb2HdrLen ∨
        nextCmdOffset ≤ mdp.rest.length ∧ replyMac modes sessionp iod rqp mdp.rest nextCmdOffset ≠ none := by
  constructor
  · intro authentic
    by_cases keyed : sessionp.smb3SigningKey.length < smb3KeyLen
    · exact .inl keyed
    by_cases short : mdp.rest.length < smb2HdrLen
    · exact .inr (.inl short)
    obtain ⟨within, computed⟩ := authentic _ (length_comparedSignature room _ _)
      ((smb3Accepts_iff (Nat.le_of_not_lt keyed) (Nat.le_of_not_lt short) nextCmdOffset _).mpr rfl)
    exact .inr (.inr ⟨within, by simp [computed]⟩)
  · intro cond signature _ accepted
    by_cases early : sessionp.smb3SigningKey.length < smb3KeyLen ∨ mdp.rest.length < smb2HdrLen
    · exact absurd accepted (smb3Accepts_false early)
    obtain ⟨keyed, enough⟩ := not_or.mp early
    obtain ⟨within, available⟩ := (cond.resolve_left keyed).resolve_left enough
    exact accepted.authentic within available

end

def checksumModes : SigningModes := ⟨.checksum, .checksum⟩

def signedSession : SmbSession where
  sessionId := 7
  dialect := .smb311
  mackey := some (List.replicate 16 3)
  smb3SigningKey := List.replicate 16 9
  smb3EncryptCiper := 2
  smb3EncryptKey := []
  smb3DecryptKey := []

def readReply : VerifyRq := ⟨4, 0x0008⟩

def boundChannel : SmbIod where
  useChannelKeys := true
  mackey := some (List.replicate 16 3)

theorem smb3Verify_authentic_split :
    (List.replicate 16 (0 : UInt8)).length = smb2SigLen ∧ ∀ signature : Bytes, signature.length = smb2SigLen →
      let mdp := mdInitm [List.replicate 50 1, [], List.replicate 10 2, List.replicate 20 3]
      let iod := (smb3DeriveChannelKeys (fun key _ _ => some key) signedSession boundChannel).2
      Smb3Accepts checksumModes (List.replicate 16 0) signedSession (some iod) readReply mdp 0 signature →
        Authentic checksumModes signedSession (some iod) readReply mdp.rest 0 signature :=
  ⟨by decide, (smb3Verify_authentic_iff checksumModes (List.replicate 16 0) (by decide) signedSession _
    readReply _ 0).mpr (.inr (.inr (by decide +kernel)))⟩

theorem smb3Verify_zero_signature :
    let mdp := mdInitm [List.replicate 80 1]
    let iod := (smb3DeriveChannelKeys (fun _ _ _ => none) signedSession boundChannel).2
    Smb3Accepts checksumModes (List.replicate 16 0) signedSession (some iod) readReply mdp 0
        (List.replicate smb2SigLen 0) ∧
      replyMac checksumModes signedSession (some iod) readReply mdp.rest 0 = none := by
  refine ⟨⟨[List.replicate 48 1 ++ List.replicate 16 0 ++ List.replicate 16 1], ?_⟩, ?_⟩
  · decide +kernel
  · decide +kernel

end SmbClient.Signing
