import SmbClient.Receive.Dispatch

/-!
Which replies reach their requests without having been authenticated. Every reply that is parsed comes
from a message on the wire; it is authentic when that message was opened with its AEAD tag or when
`smb2_rq_verify` found its signature.
-/

namespace SmbClient.Receive
open SmbClient.Lib SmbClient.Mbuf SmbClient.Session SmbClient.Credits SmbClient.Signing
  SmbClient.Crypt SmbClient.Compression

/-- Signing was negotiated and there is a session key, or the session or the share is flagged for
encryption. -/
def Attempt.Protected (a : Attempt) : Prop :=
  a.sessionp.securitySignature = true ∧ a.sessionp.mackey ≠ none ∨ a.sessionp.encryptData = true ∨
    a.rqp.share.any (·.encryptData) = true

/-- Negotiate, Session Setup and break replies, and sessions without a user. -/
def Attempt.Exempt (a : Attempt) : Prop :=
  a.rqp.command = .negotiate ∨ a.rqp.command = .sessionSetup ∨ a.rqp.command = .oplockBreak ∨
    a.sessionp.anonymousAccess = true ∨ a.sessionp.guestAccess = true

def Attempt.nextCmdOffset (a : Attempt) : Nat := ofLe (slice a.reply.mdp.rest 20 4)

def Attempt.signature (a : Attempt) : Bytes := slice a.reply.mdp.rest smb2SigOff smb2SigLen

section
variable (env : Env)

def Delivery.Brings (d : Delivery) (m : Chain) : Prop :=
  ∃ payload smb1Allowed packet, (smbNbstRecv env d.sessionp d.wire).1 = .ok payload ∧
    (openPacket env (smbNbstRecv env d.sessionp d.wire).2 smb1Allowed payload).1 = some packet ∧
    packet.chain = m

def Reply.FromWire (reply : Reply) : Prop :=
  ∃ m, reply.delivery.Brings env m ∧ reply.mdp.rest <:+ bytes m

/-- The message had a transform header, and its payload has the AEAD tag that stands in it. -/
def Delivery.Unwrapped (d : Delivery) : Prop :=
  (bytes d.wire).head? = some 0xfd ∧ ∃ payload, (smbNbstRecv env d.sessionp d.wire).1 = .ok payload ∧
    (bytes payload, Crypt.signature (bytes d.wire)) = opened env.cc d.sessionp (bytes d.wire)

/-- The signature of the reply is the code of its bytes under the session's key. -/
def Attempt.Verified (a : Attempt) : Prop :=
  a.smb1 = false ∧
    if a.sessionp.dialect.smb3OrLater then
      Authentic env.checks.modes a.sessionp (some a.iod) a.rqp.verifyRq a.reply.mdp.rest a.nextCmdOffset a.signature
    else
      InChain a.reply.mdp.rest a.nextCmdOffset ∧
        a.signature = (env.checks.hmac.final (env.checks.hmac.digest.update
          (env.checks.hmac.init (a.sessionp.mackey.getD []))
          (signedBytes a.reply.mdp.rest a.nextCmdOffset))).take smb2SigLen

def Delivery.Enveloped (d : Delivery) : Prop :=
  (bytes d.wire).head? = some 0xfd ∧
    (origMsgSize (bytes d.wire) ≤ 64 * 1024 ∨
      ((bytes d.wire).drop smb3AesTfHdrLen).length = origMsgSize (bytes d.wire))

def Attempt.Verifiable (a : Attempt) : Prop :=
  a.smb1 = false ∧ encryptionOn a.sessionp a.rqp = false ∧
    (a.sessionp.securitySignature || a.rqp.signed) = true ∧ a.sessionp.mackey ≠ none ∧
    (a.sessionp.dialect.smb3OrLater = true → a.nextCmdOffset ≤ a.reply.mdp.rest.length ∧
      replyMac env.checks.modes a.sessionp (some a.iod) a.rqp.verifyRq a.reply.mdp.rest a.nextCmdOffset ≠ none)

/-- What is asked of a parse before it is done. -/
def Covered (s : Receiver) (e : Event) : Prop :=
  ∀ a, s.attempt e = some a → a.Protected → ¬a.Exempt → a.reply.delivery.Enveloped ∨ a.Verifiable env

instance (a : Attempt) : Decidable a.Protected := inferInstanceAs (Decidable (_ ∨ _))

instance (a : Attempt) : Decidable a.Exempt := inferInstanceAs (Decidable (_ ∨ _))

instance (d : Delivery) : Decidable d.Enveloped := inferInstanceAs (Decidable (_ ∧ _))

instance (a : Attempt) : Decidable (a.Verifiable env) := inferInstanceAs (Decidable (_ ∧ _))

instance (s : Receiver) (e : Event) : Decidable (Covered env s e) :=
  match about : s.attempt e with
  | none => isTrue (by simp [Covered, about])
  | some a => decidable_of_iff (a.Protected → ¬a.Exempt → a.reply.delivery.Enveloped ∨ a.Verifiable env)
      (by simp [Covered, about])

def Waiting.Sourced (w : Waiting) : Prop := ∀ reply, w.reply = some reply → reply.FromWire env

structure Sound (s : Receiver) : Prop where
  sourced : s.rqs.All (Waiting.Sourced env)
  authenticated : ∀ a ∈ s.accepted, a.Protected → ¬a.Exempt →
    a.reply.FromWire env ∧ (a.reply.delivery.Unwrapped env ∨ a.Verified env)

end

/-! ## What an accepted reply has gone through -/

section
variable {env : Env} {a : Attempt}

theorem smbNbstRecv_unwrapped {d : Delivery} (enveloped : d.Enveloped) {payload : Chain}
    (received : (smbNbstRecv env d.sessionp d.wire).1 = .ok payload) : d.Unwrapped env := by
  obtain ⟨transform, declared⟩ := enveloped
  refine ⟨transform, payload, received, ?_⟩
  unfold smbNbstRecv at received
  cases pulled : env.kpi.pullup d.wire 1 with
  | none => simp [pulled] at received
  | some m =>
    obtain ⟨same, -⟩ := env.kpi.pullup_bytes _ _ _ pulled
    have first : (m.headD []).head? = some 0xfd := by
      have head := congrArg List.head? (env.kpi.pullup_head pulled)
      simpa [List.head?_take, transform] using head
    simp only [pulled, first, if_true] at received
    rw [← same] at declared ⊢
    exact smb3MsgDecrypt_opened env.kpi env.kalloc env.cc d.sessionp declared received

theorem smb2RqVerify_eq_none {checks : Checks} {sessionp : SmbSession} {iod : SmbIod} {rqp : Rq}
    {mdp : MdChain} {signature : Bytes} (signed : (sessionp.securitySignature || rqp.signed) = true)
    (key : sessionp.mackey ≠ none) (notBreak : rqp.command ≠ .oplockBreak)
    (notNegotiate : rqp.command ≠ .negotiate) (notSetup : rqp.command ≠ .sessionSetup)
    (named : sessionp.anonymousAccess = false) (accepted : smb2RqVerify checks sessionp iod rqp mdp signature = none) :
    if sessionp.dialect.smb3OrLater then
      Smb3Accepts checks.modes checks.stack sessionp (some iod) rqp.verifyRq mdp rqp.rspnextcmd signature
    else smb2Verify checks.hmac sessionp mdp rqp.rspnextcmd signature = .ok true := by
  have enabled : (!sessionp.securitySignature && !rqp.signed) = false := by
    rw [← Bool.not_or, signed, Bool.not_true]
  have keyed : sessionp.mackey.isNone = false := by
    rw [Option.isNone_eq_false_iff, Option.isSome_iff_ne_none]
    exact key
  simp only [smb2RqVerify, enabled, keyed, named, beq_false_of_ne notBreak, beq_false_of_ne notNegotiate,
    beq_false_of_ne notSetup, Bool.false_or, Bool.false_eq_true, if_false] at accepted
  split at accepted
  · rename_i matched
    split at matched
    · rename_i smb3
      rw [if_pos smb3]
      cases verdict : smb3Verify checks.modes checks.stack sessionp (some iod) rqp.verifyRq mdp rqp.rspnextcmd
          signature with
      | error e => simp [verdict, Except.map] at matched
      | ok result =>
        obtain ⟨same, mb⟩ := result
        simp only [verdict, Except.map, Except.ok.injEq] at matched
        exact ⟨mb, matched ▸ verdict⟩
    · rename_i smb2
      rw [if_neg smb2]
      exact matched
  · cases accepted

theorem smb2RqParseHeader_verified (verifiable : a.Verifiable env) (counted : ¬a.Exempt) {credits : CreditIod}
    {outcome : Outcome} {last : Parse}
    (accepted : smb2RqParseHeader env.checks a.sessionp a.iod false ⟨a.reply.mdp, a.rqp, credits⟩ =
      (.ok outcome, last)) : a.Verified env := by
  obtain ⟨smb2, off, signed, key, computable⟩ := verifiable
  obtain ⟨rqp, terms, offset, checked⟩ := smb2RqParseHeader_eq_ok accepted
  simp only [Rq.terms, Prod.mk.injEq] at terms
  obtain ⟨kind, messageid, ordered, share⟩ := terms
  have command : rqp.command = a.rqp.command := congrArg RqKind.command kind
  have notBreak : rqp.command ≠ .oplockBreak := fun is => counted (.inr (.inr (.inl (command ▸ is))))
  have notNegotiate : rqp.command ≠ .negotiate := fun is => counted (.inl (command ▸ is))
  have notSetup : rqp.command ≠ .sessionSetup := fun is => counted (.inr (.inl (command ▸ is)))
  have named : a.sessionp.anonymousAccess = false :=
    Bool.eq_false_iff.mpr fun is => counted (.inr (.inr (.inr (.inl is))))
  have plain : encryptionOn a.sessionp rqp = false := by
    rw [← off, encryptionOn, encryptionOn, command, share]
  rw [← ordered] at signed
  have verdict := smb2RqVerify_eq_none signed key notBreak notNegotiate notSetup named (checked plain signed)
  have same : rqp.verifyRq = a.rqp.verifyRq := by rw [Rq.verifyRq, Rq.verifyRq, command, messageid]
  rw [same, offset] at verdict
  refine ⟨smb2, ?_⟩
  split at verdict
  · rename_i smb3
    obtain ⟨within, available⟩ := computable smb3
    rw [if_pos smb3]
    exact verdict.authentic within available
  · rename_i older
    rw [if_neg older]
    exact smb2Verify_eq_ok verdict

/-! ## Every step keeps the receiver sound -/

variable {s : Receiver}

theorem Reply.FromWire.advance {reply : Reply} {mdp : MdChain} (source : reply.FromWire env)
    (moved : mdp.rest <:+ reply.mdp.rest) : ({ reply with mdp } : Reply).FromWire env := by
  obtain ⟨m, brings, suffix⟩ := source
  exact ⟨m, brings, moved.trans suffix⟩

theorem sourced_unanswered (rqp : Rq) (smb1 : Option Smb1Ids) : Waiting.Sourced env { rqp, smb1 } := by
  intro reply found
  cases found

theorem sound_initial (sessionp : SmbSession) (iod : SmbIod) (credits : CreditIod) :
    Sound env (.initial sessionp iod credits) where
  sourced := fun _ member => absurd member List.not_mem_nil
  authenticated := fun _ member => absurd member List.not_mem_nil

section
variable (sound : Sound env s)
include sound

theorem sound_enqueue (chain : List Rq) : Sound env (s.enqueue chain) where
  sourced := by
    show (chain.foldl (fun rqs rqp => Slots.alloc rqs { rqp }) s.rqs).All _
    have all := sound.sourced
    generalize s.rqs = rqs at all
    induction chain generalizing rqs with
    | nil => exact all
    | cons rqp rest ih => exact ih _ (all.alloc (sourced_unanswered rqp none))
  authenticated := sound.authenticated

theorem sound_notify (id : Nat) : Sound env (s.notify id) where
  sourced := sound.sourced.modify fun _ sourced => sourced
  authenticated := sound.authenticated

theorem sound_wake (found : Match) : Sound env (s.wake found) := by
  unfold Receiver.wake
  dsimp only
  split
  · exact sound
  · exact sound_notify sound _

variable {m : Chain} {delivery : Delivery}

theorem sound_deliver (found : Match) {w : Waiting} (sourced : w.Sourced env)
    (brings : delivery.Brings env m) : Sound env (s.deliver env found w m delivery) := by
  unfold Receiver.deliver
  split
  · exact ⟨sound.sourced.store sourced, sound.authenticated⟩
  · apply sound_wake
    refine ⟨sound.sourced.store ?_, sound.authenticated⟩
    intro reply new
    cases new
    exact ⟨m, brings, rest_mdInitm m ▸ List.suffix_rfl⟩

theorem sound_smb2Packet (brings : delivery.Brings env m) : Sound env (s.smb2Packet env m delivery) := by
  unfold Receiver.smb2Packet
  dsimp only
  split
  · exact sound
  · rename_i found _
    split
    · exact sound
    · rename_i w lookup
      have sourced := sound.sourced.lookup lookup
      have noted : Sound env { s with
          sessionp := { s.sessionp with nonCompoundReplies := found.nonCompoundReplies }
          iod := noteLogin env s.sessionp s.iod w.rqp (.ofBytes (bytes m)) m } :=
        ⟨sound.sourced, sound.authenticated⟩
      split
      · exact ⟨noted.sourced.store sourced, noted.authenticated⟩
      · refine sound_deliver noted found ?_ brings
        exact sourced

theorem sound_smb1Packet (brings : delivery.Brings env m) : Sound env (s.smb1Packet env m delivery) := by
  unfold Receiver.smb1Packet
  split
  · exact sound
  · rename_i id w found
    exact sound_deliver sound _ (sound.sourced.lookup (Receiver.smb1Match_lookup found).1) brings

theorem sound_frame (wire : Chain) : Sound env (s.frame env wire) := by
  unfold Receiver.frame
  dsimp only
  split
  · exact ⟨sound.sourced, sound.authenticated⟩
  · rename_i payload received
    have next : Sound env { s with
        sessionp := (smbNbstRecv env s.sessionp wire).2
        smb1Allowed := (openPacket env (smbNbstRecv env s.sessionp wire).2 s.smb1Allowed payload).2 } :=
      ⟨sound.sourced, sound.authenticated⟩
    split
    · exact next
    · rename_i m opened
      exact sound_smb2Packet next ⟨payload, s.smb1Allowed, .smb2 m, received, opened, rfl⟩
    · rename_i m opened
      exact sound_smb1Packet next ⟨payload, s.smb1Allowed, .smb1 m, received, opened, rfl⟩

theorem attempt_sourced {e : Event} (about : s.attempt e = some a) : a.reply.FromWire env := by
  cases e with
  | rqReply id =>
    obtain ⟨w, lookup, about⟩ := Option.bind_eq_some_iff.mp about
    split at about
    · obtain ⟨reply, has, rfl⟩ := Option.map_eq_some_iff.mp about
      exact sound.sourced.lookup lookup reply has
    · cases about
  | parseNext id head =>
    obtain ⟨w, -, about⟩ := Option.bind_eq_some_iff.mp about
    obtain ⟨reply, has, rfl⟩ := Option.map_eq_some_iff.mp about
    obtain ⟨owner, lookup, has⟩ := Option.bind_eq_some_iff.mp has
    exact sound.sourced.lookup lookup reply has
  | _ => cases about

end

theorem mem_accepted_parse {b : Attempt} (member : b ∈ (s.parse env a).accepted) :
    b ∈ s.accepted ∨ b = a ∧ ∃ outcome last, a.parser env ⟨a.reply.mdp, a.rqp, s.credits⟩ = (.ok outcome, last) := by
  unfold Receiver.parse at member
  dsimp only at member
  cases ran : a.parser env ⟨a.reply.mdp, a.rqp, s.credits⟩ with
  | mk result last =>
    rw [ran] at member
    cases result with
    | error e => exact .inl member
    | ok outcome =>
      rcases List.mem_cons.mp member with new | old
      · exact .inr ⟨new, outcome, last, rfl⟩
      · exact .inl old

theorem sound_parse (sound : Sound env s) (source : a.reply.FromWire env)
    (covered : a.Protected → ¬a.Exempt → a.reply.delivery.Enveloped ∨ a.Verifiable env) :
    Sound env (s.parse env a) where
  sourced := by
    refine Slots.All.modify (Slots.All.modify sound.sourced fun w _ reply new => ?_) fun w sourced => sourced
    cases new
    exact source.advance (a.suffix_parser env _)
  authenticated := by
    intro b member isProtected counted
    obtain old | ⟨rfl, outcome, last, accepted⟩ := mem_accepted_parse member
    · exact sound.authenticated b old isProtected counted
    refine ⟨source, ?_⟩
    obtain enveloped | verifiable := covered isProtected counted
    · obtain ⟨m, ⟨payload, _, _, received, -, -⟩, -⟩ := source
      exact .inl (smbNbstRecv_unwrapped enveloped received)
    · rw [Attempt.parser, verifiable.1] at accepted
      exact .inr (smb2RqParseHeader_verified verifiable counted accepted)

theorem sound_getMem (sound : Sound env s) (id size : Nat) : Sound env (s.getMem id size) where
  sourced := by
    refine sound.sourced.modify fun w sourced reply moved => ?_
    obtain ⟨before, has, rfl⟩ := Option.map_eq_some_iff.mp moved
    exact (sourced before has).advance (suffix_mdGetMem before.mdp size)
  authenticated := sound.authenticated

theorem sound_step (s : Receiver) (e : Event) (next : Receiver) (sound : Sound env s) (covered : Covered env s e)
    (taken : s.step env e = some next) : Sound env next := by
  cases e with
  | update sessionp iod =>
    cases taken
    exact ⟨sound.sourced, sound.authenticated⟩
  | enqueue chain =>
    cases taken
    exact sound_enqueue sound chain
  | enqueueSmb1 ids =>
    cases taken
    exact ⟨sound.sourced.alloc (sourced_unanswered _ _), sound.authenticated⟩
  | recvall =>
    cases taken
    exact ⟨sound.sourced, sound.authenticated⟩
  | frame wire =>
    cases taken
    exact sound_frame sound wire
  | rqReply id =>
    obtain ⟨a, about, rfl⟩ := Option.map_eq_some_iff.mp taken
    exact sound_parse sound (attempt_sourced sound about) (covered a about)
  | parseNext id head =>
    obtain ⟨a, about, rfl⟩ := Option.map_eq_some_iff.mp taken
    exact sound_parse sound (attempt_sourced sound about) (covered a about)
  | getMem id size =>
    cases taken
    exact sound_getMem sound id size
  | remove id =>
    cases taken
    exact ⟨sound.sourced, sound.authenticated⟩
  | done id =>
    cases taken
    exact ⟨sound.sourced.free, sound.authenticated⟩

end

theorem accepted_reply_authenticated (env : Env) (sessionp : SmbSession) (iod : SmbIod) (credits : CreditIod)
    (events : List Event) (last : Receiver)
    (covered : AllSteps (Receiver.step env) (Covered env) (.initial sessionp iod credits) events)
    (reached : run (Receiver.step env) (.initial sessionp iod credits) events = some last) :
    ∀ a ∈ last.accepted, a.Protected → ¬a.Exempt →
      a.reply.FromWire env ∧ (a.reply.delivery.Unwrapped env ∨ a.Verified env) :=
  (run_invariant _ sound_step (sound_initial sessionp iod credits) covered reached).authenticated

def sampleEnv : Env where
  kpi := .copying
  kalloc := .zeroed
  cc := shiftedModes
  codec := .repeating
  compressionLog := false
  layout data := [data]
  layout_bytes data := by simp
  checks :=
    { modes := checksumModes
      hmac := ⟨.recorder, id, fun fed => checksum fed ++ checksum fed⟩
      stack := List.replicate 16 0
      ntstatusToErrno := fun status => if status = 0 then none else some .eio }
  sha512 data := checksum data ++ checksum data ++ checksum data ++ checksum data
  md5 := checksum
  errClassCodesToNtstatus errClass errCode := errClass + errCode

def signingSession : SmbSession :=
  { gcmSession with securitySignature := true, smb3SigningKey := List.replicate 16 9 }

def readRq (messageid : Nat) : Rq := { command := .read, iodContext := false, messageid }

def readRsp (messageId : Nat) (signature : Bytes) : Bytes :=
  smb2Signature ++ toLe 2 64 ++ toLe 2 1 ++ toLe 4 0 ++ toLe 2 8 ++ toLe 2 1 ++ toLe 4 1 ++ toLe 4 0 ++
    toLe 8 messageId ++ toLe 4 0xfeff ++ toLe 4 1 ++ toLe 8 7 ++ signature ++
    (toLe 2 17 ++ [80, 0] ++ toLe 4 1 ++ toLe 4 0 ++ toLe 4 0 ++ [42])

def unsignedRsp (messageId : Nat) : Bytes := readRsp messageId (List.replicate 16 0)

def signedRsp (messageId : Nat) : Bytes :=
  readRsp messageId ((replyMac checksumModes signingSession none (readRq messageId).verifyRq
    (unsignedRsp messageId) 0).getD [])

def sealedRsp (messageId : Nat) : Bytes :=
  let payload := (unsignedRsp messageId).map (· + 5)
  let message := unsignedMessage payload.length payload
  overwrite message smb3AesTfSigOff (opened shiftedModes gcmSession message).2

/-- The reply for an encrypted share comes sealed, and the other one comes signed. -/
theorem accepted_reply_authenticated_both :
    let start := Receiver.initial signingSession {} {}
    let events : List Event := [.enqueue [{ readRq 4 with share := some ⟨true⟩ }], .enqueue [readRq 5],
      .frame [sealedRsp 4], .frame [signedRsp 5], .rqReply 0, .getMem 0 17, .rqReply 1]
    ∃ last, run (Receiver.step sampleEnv) start events = some last ∧ last.accepted.length = 2 ∧
      ∀ a ∈ last.accepted, a.Protected → ¬a.Exempt →
        a.reply.FromWire sampleEnv ∧ (a.reply.delivery.Unwrapped sampleEnv ∨ a.Verified sampleEnv) := by
  intro start events
  have ends : (run (Receiver.step sampleEnv) start events).map (·.accepted.length) = some 2 := by
    decide +kernel
  obtain ⟨last, reached, two⟩ := Option.map_eq_some_iff.mp ends
  exact ⟨last, reached, two,
    accepted_reply_authenticated sampleEnv signingSession {} {} events last (by decide +kernel) reached⟩

def plaintextAttempt : Attempt where
  id := 0
  owner := 0
  smb1 := false
  sessionp := { signingSession with encryptData := true }
  iod := {}
  rqp := { readRq 4 with response := true, state := .notified, hdrPreparsed := true, rspcreditsgranted := 1 }
  reply := ⟨mdInitm [unsignedRsp 4], { signingSession with encryptData := true }, [unsignedRsp 4]⟩

theorem plaintext_unsigned_reply_accepted :
    let a := plaintextAttempt
    (run (Receiver.step sampleEnv) (.initial a.sessionp {} {})
        [.enqueue [readRq 4], .frame [unsignedRsp 4], .rqReply 0]).map (·.accepted) = some [a] ∧
      a.Protected ∧ ¬a.Exempt ∧ a.reply.delivery.wire = [unsignedRsp 4] ∧ a.signature = List.replicate 16 0 ∧
      ¬(a.reply.delivery.Unwrapped sampleEnv ∨ a.Verified sampleEnv) := by
  refine ⟨by decide +kernel, by decide +kernel, by decide +kernel, rfl, by decide +kernel, ?_⟩
  rintro (⟨transform, -⟩ | ⟨-, -, computed⟩)
  · revert transform
    decide +kernel
  · revert computed
    decide +kernel

-- in a session that only encrypts, even an SMB 1 header of zeros answers the request
example :
    let sessionp := { signingSession with encryptData := true, securitySignature := false }
    (run (Receiver.step sampleEnv) (.initial sessionp {} {})
      [.enqueue [readRq 4], .frame [smbSignature ++ List.replicate 28 0], .rqReply 0]).map
        (·.accepted.map (·.smb1)) = some [true] := by
  decide +kernel

end SmbClient.Receive
