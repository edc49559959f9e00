import SmbClient.Login.Channel
import SmbClient.Receive.Authenticated

/-! The hash that the keys of SMB 3.1.1 are derived with is the one of the login's own messages. -/

namespace SmbClient.Login
open SmbClient.Lib SmbClient.Mbuf SmbClient.Session SmbClient.Crypt SmbClient.Receive

section Iod
variable (env : Receive.Env) (s : Receiver)

@[simp] theorem iod_notify (id : Nat) : (s.notify id).iod = s.iod := rfl

@[simp] theorem iod_wake (found : Match) : (s.wake found).iod = s.iod := by
  unfold Receiver.wake
  dsimp only
  split <;> rfl

@[simp] theorem iod_deliver (found : Match) (w : Waiting) (m : Chain) (delivery : Delivery) :
    (s.deliver env found w m delivery).iod = s.iod := by
  unfold Receiver.deliver
  cases w.reply with
  | some _ => rfl
  | none => rw [iod_wake]

theorem iod_smb1Packet (m : Chain) (delivery : Delivery) : (s.smb1Packet env m delivery).iod = s.iod := by
  unfold Receiver.smb1Packet
  split
  · rfl
  · rw [iod_deliver]

theorem iod_smb2Packet (m : Chain) (delivery : Delivery) :
    (s.smb2Packet env m delivery).iod =
      ((s.rqlist.findSome? (matchChain s.rqs (.ofBytes (bytes m)) s.sessionp.nonCompoundReplies)).bind fun found =>
        s.rqs.lookup found.id).elim s.iod fun w => noteLogin env s.sessionp s.iod w.rqp (.ofBytes (bytes m)) m := by
  unfold Receiver.smb2Packet
  dsimp only
  split
  · rename_i unmatched
    rw [unmatched]
    rfl
  · rename_i found matched
    rw [matched, Option.bind_some]
    split
    · rename_i gone
      rw [gone]
      rfl
    · rename_i w lookup
      rw [lookup, Option.elim_some]
      split
      · rfl
      · rw [iod_deliver]

end Iod

section Steps
variable {env : LoginEnv} {c next : Channel} {e : Event}

theorem iod_frame (env : Receive.Env) (c : Channel) (wire : Chain) :
    (c.toReceiver.frame env wire).iod =
      (c.opened env wire).elim c.iod fun message =>
        (c.answers message.1 message.2).elim c.iod fun w =>
          noteLogin env message.1 c.iod w.rqp (.ofBytes (bytes message.2)) message.2 := by
  unfold Receiver.frame Channel.opened
  dsimp only
  cases (smbNbstRecv env c.sessionp wire).1 with
  | error _ => rfl
  | ok m =>
    dsimp only
    cases (openPacket env (smbNbstRecv env c.sessionp wire).2 c.smb1Allowed m).1 with
    | none => rfl
    | some packet =>
      cases packet with
      | smb2 m => exact iod_smb2Packet env _ m _
      | smb1 m => exact iod_smb1Packet env _ m _

theorem dialect_smbNbstRecv (env : Receive.Env) (sessionp : SmbSession) (wire : Chain) :
    (smbNbstRecv env sessionp wire).2.dialect = sessionp.dialect := by
  have kept : (defaultCiper sessionp).dialect = sessionp.dialect := by
    unfold defaultCiper
    split <;> rfl
  unfold smbNbstRecv
  split
  · rfl
  · split
    · unfold smb3MsgDecrypt
      dsimp only
      split <;> exact kept
    · rfl

theorem dialect_opened {env : Receive.Env} {c : Channel} {wire : Chain} {message : SmbSession × Chain}
    (opened : c.opened env wire = some message) : message.1.dialect = c.sessionp.dialect := by
  unfold Channel.opened at opened
  dsimp only at opened
  split at opened
  · cases opened
  · split at opened
    · cases opened
      exact dialect_smbNbstRecv env c.sessionp wire
    · cases opened

def hashes (sha512 : Bytes → Bytes) (c : Channel) : Frame → Bytes × Bytes
  | .negotiateRequest data =>
    (if c.negSmb3Enabled then sha512 (initZero ++ data) else c.iod.preAuthIntHash, c.iod.preAuthIntHashNeg)
  | .negotiateResponse _ data =>
    if c.iod.preAuthIntHash ≠ initZero then
      (sha512 (c.iod.preAuthIntHash ++ data), sha512 (c.iod.preAuthIntHash ++ data))
    else (c.iod.preAuthIntHash, c.iod.preAuthIntHashNeg)
  | .sessionSetupRequest sessionId data =>
    (sha512 ((if sessionId = 0 then c.iod.preAuthIntHashNeg else c.iod.preAuthIntHash) ++ data),
      c.iod.preAuthIntHashNeg)
  | .sessionSetupResponse status data =>
    (if status = statusMoreProcessingRequired then sha512 (c.iod.preAuthIntHash ++ data)
      else c.iod.preAuthIntHash, c.iod.preAuthIntHashNeg)

def Channel.stored (c : Channel) : Bytes × Bytes := (c.iod.preAuthIntHash, c.iod.preAuthIntHashNeg)

/-- The channel is one of SMB 3.1.1, and its Session Setups come after the Negotiate exchange. -/
def InOrder (c : Channel) : Frame → Prop
  | .negotiateRequest _ | .negotiateResponse _ _ => True
  | .sessionSetupRequest _ _ | .sessionSetupResponse _ _ =>
    c.sessionp.dialect = .smb311 ∧ c.transcript.response.isSome

theorem stored_send {id rqsessionid : Nat} {m : Chain} (taken : c.advance env (.send id rqsessionid m) = some next)
    (inOrder : ∀ frame, c.observed env.toEnv (.send id rqsessionid m) = some frame → InOrder c frame) :
    next.stored = (c.observed env.toEnv (.send id rqsessionid m)).elim c.stored (hashes env.sha512 c) := by
  obtain ⟨w, lookup, rfl⟩ := Option.map_eq_some_iff.mp taken
  simp only [Channel.observed, lookup, Option.bind_some] at inOrder ⊢
  by_cases plain : w.smb1 = none ∧ w.rqp.compound = false
  · rw [if_pos plain] at inOrder ⊢
    unfold Channel.stored Channel.sendrq
    rw [if_pos plain]
    unfold Channel.requestFrame at inOrder ⊢
    cases command : w.rqp.command with
    | negotiate =>
      simp only [Option.elim_some, hashes]
      split
      · rw [smb311PreAuthIntegrityHashInit_eq, if_pos rfl]
      · rfl
    | sessionSetup =>
      rw [command] at inOrder
      have dialect := (inOrder _ rfl).1
      simp only [if_pos dialect, Option.elim_some, hashes]
      split
      · rw [smb311PreAuthIntegrityHashInit_eq, if_neg (by decide)]
      · rw [smb311PreAuthIntegrityHashUpdate_eq, preAuthIntegrityHashUpdate]
    | _ => rfl
  · rw [if_neg plain, Option.elim_none]
    unfold Channel.stored Channel.sendrq
    rw [if_neg plain]

theorem stored_noteLogin {sessionp : SmbSession} {w : Waiting} {m : Chain} (same : sessionp.dialect = c.sessionp.dialect)
    (inOrder : ∀ frame, Channel.responseFrame w m = some frame → InOrder c frame) :
    let iod := noteLogin env.toEnv sessionp c.iod w.rqp (.ofBytes (bytes m)) m
    (iod.preAuthIntHash, iod.preAuthIntHashNeg) =
      (Channel.responseFrame w m).elim c.stored (hashes env.sha512 c) := by
  unfold noteLogin
  unfold Channel.responseFrame at inOrder ⊢
  cases command : w.rqp.command with
  | negotiate =>
    simp only [Option.elim_some, hashes]
    split
    · rename_i nonzero
      rw [if_pos (show c.iod.preAuthIntHash ≠ initZero from nonzero)]
      rfl
    · rename_i zero
      rw [if_neg (show ¬c.iod.preAuthIntHash ≠ initZero from zero)]
  | sessionSetup =>
    rw [command] at inOrder
    have dialect := same.trans (inOrder _ rfl).1
    simp only [Option.elim_some, hashes]
    split
    · rename_i more
      rw [if_pos more.2]
      rfl
    · rename_i final
      rw [if_neg fun more => final ⟨dialect, more⟩]
      split <;> rfl
  | _ => rfl

theorem stored_frame {wire : Chain} (taken : c.advance env (.receive (.frame wire)) = some next)
    (inOrder : ∀ frame, c.observed env.toEnv (.receive (.frame wire)) = some frame → InOrder c frame) :
    next.stored = (c.observed env.toEnv (.receive (.frame wire))).elim c.stored (hashes env.sha512 c) := by
  have observed : c.observed env.toEnv (.receive (.frame wire)) = (c.opened env.toEnv wire).bind fun message =>
      (c.answers message.1 message.2).bind fun w => Channel.responseFrame w message.2 := rfl
  cases taken
  rw [observed] at inOrder ⊢
  unfold Channel.stored
  rw [iod_frame]
  cases opened : c.opened env.toEnv wire with
  | none => rfl
  | some message =>
    rw [opened, Option.bind_some] at inOrder
    rw [Option.elim_some, Option.bind_some]
    cases answered : c.answers message.1 message.2 with
    | none => rfl
    | some w =>
      rw [answered, Option.bind_some] at inOrder
      rw [Option.elim_some, Option.bind_some]
      exact stored_noteLogin (dialect_opened opened) inOrder

theorem stored_advance (taken : c.advance env e = some next)
    (inOrder : ∀ frame, c.observed env.toEnv e = some frame → InOrder c frame) :
    next.stored = (c.observed env.toEnv e).elim c.stored (hashes env.sha512 c) := by
  cases e with
  | send id rqsessionid m => exact stored_send taken inOrder
  | receive e =>
    cases e with
    | frame wire => exact stored_frame taken inOrder
    | update sessionp iod =>
      cases taken
      rfl
    | rqReply id | parseNext id head =>
      obtain ⟨received, parsed, rfl⟩ := Option.map_eq_some_iff.mp taken
      obtain ⟨a, -, rfl⟩ := Option.map_eq_some_iff.mp parsed
      rfl
    | enqueue | enqueueSmb1 | recvall | getMem | remove | done =>
      cases taken
      rfl

/-- What goes wrong is left out: a client that does not offer SMB 3 and gets it does not hash its
Negotiate, the hash of which must not look like no hash at all, and every reply to the Negotiate is
hashed, also one that is then dropped. -/
def Counted (env : LoginEnv) (c : Channel) : Frame → Prop
  | .negotiateRequest data => c.negSmb3Enabled = true ∧ env.sha512 (initZero ++ data) ≠ initZero
  | .negotiateResponse stray _ => stray = false ∧ c.transcript.response = none
  | .sessionSetupRequest _ _ | .sessionSetupResponse _ _ => True

instance (c : Channel) : DecidablePred (InOrder c)
  | .negotiateRequest _ | .negotiateResponse _ _ => isTrue trivial
  | .sessionSetupRequest _ _ | .sessionSetupResponse _ _ => instDecidableAnd

instance (env : LoginEnv) (c : Channel) : DecidablePred (Counted env c)
  | .negotiateRequest _ | .negotiateResponse _ _ => instDecidableAnd
  | .sessionSetupRequest _ _ | .sessionSetupResponse _ _ => isTrue trivial

/-- A property of the message of the login that an event puts on the wire or takes from it. -/
def Observes (env : LoginEnv) (p : Channel → Frame → Prop) (c : Channel) (e : Event) : Prop :=
  ∀ frame ∈ c.observed env.toEnv e, p c frame

instance (p : Channel → Frame → Prop) [∀ c, DecidablePred (p c)] : Decidable (Observes env p c e) :=
  inferInstanceAs (Decidable (∀ frame ∈ c.observed env.toEnv e, p c frame))

theorem preAuthHash_append (sha512 : Bytes → Bytes) (frames : List Bytes) (frame : Bytes) :
    preAuthHash sha512 (frames ++ [frame]) = sha512 (preAuthHash sha512 frames ++ frame) := by
  rw [preAuthHash, List.foldl_append]
  rfl

structure Agrees (env : LoginEnv) (c : Channel) : Prop where
  hash : c.iod.preAuthIntHash = preAuthHash env.sha512 c.transcript.frames
  negotiated : c.transcript.response.isSome → c.iod.preAuthIntHashNeg =
    preAuthHash env.sha512 (c.transcript.request.toList ++ c.transcript.response.toList)
  started : c.transcript.response = none → c.transcript.exchange = [] ∧ c.iod.preAuthIntHash ≠ initZero

variable {data : Bytes}

theorem agrees_negotiateRequest (counted : Counted env c (.negotiateRequest data))
    (transcript : next.transcript = c.transcript.note (.negotiateRequest data))
    (stored : next.stored = hashes env.sha512 c (.negotiateRequest data)) : Agrees env next := by
  obtain ⟨hash, -⟩ := Prod.mk.inj stored
  rw [if_pos counted.1] at hash
  refine ⟨?_, ?_, ?_⟩
  · rw [hash, transcript]
    rfl
  · rw [transcript]
    exact fun response => nomatch response
  · rw [transcript, hash]
    exact fun _ => ⟨rfl, counted.2⟩

theorem agrees_negotiateResponse {stray : Bool} (agrees : Agrees env c)
    (counted : Counted env c (.negotiateResponse stray data))
    (transcript : next.transcript = c.transcript.note (.negotiateResponse stray data))
    (stored : next.stored = hashes env.sha512 c (.negotiateResponse stray data)) : Agrees env next := by
  obtain ⟨rfl, first⟩ := counted
  obtain ⟨exchange, nonzero⟩ := agrees.started first
  have noted : next.transcript = { c.transcript with response := some data } := by
    rw [transcript, Transcript.note, if_neg (by simp [first])]
  have before : c.transcript.frames = c.transcript.request.toList := by
    rw [Transcript.frames, first, exchange]
    simp
  have frames : next.transcript.frames = c.transcript.frames ++ [data] := by
    rw [before, noted, Transcript.frames, exchange]
    simp
  have hashed : next.stored = (env.sha512 (c.iod.preAuthIntHash ++ data), env.sha512 (c.iod.preAuthIntHash ++ data)) := by
    rw [stored, hashes, if_pos nonzero]
  obtain ⟨hash, neg⟩ := Prod.mk.inj hashed
  have whole := preAuthHash_append env.sha512 c.transcript.frames data
  rw [← agrees.hash] at whole
  refine ⟨?_, fun _ => ?_, ?_⟩
  · rw [hash, frames, whole]
  · rw [neg, ← whole, before, noted]
    rfl
  · rw [noted]
    intro response
    cases response

theorem agrees_sessionSetupRequest {sessionId : Nat} (agrees : Agrees env c)
    (inOrder : InOrder c (.sessionSetupRequest sessionId data))
    (transcript : next.transcript = c.transcript.note (.sessionSetupRequest sessionId data))
    (stored : next.stored = hashes env.sha512 c (.sessionSetupRequest sessionId data)) : Agrees env next := by
  obtain ⟨hash, neg⟩ := Prod.mk.inj stored
  refine ⟨?_, ?_, ?_⟩
  · rw [hash, transcript, Transcript.note, Transcript.frames]
    -- the exchange starts again, or goes on
    split
    · rw [preAuthHash_append, agrees.negotiated inOrder.2]
    · rw [← List.append_assoc, preAuthHash_append, agrees.hash]
      rfl
  · rw [neg, transcript]
    exact agrees.negotiated
  · rw [transcript]
    intro absent
    have present := inOrder.2
    rw [show c.transcript.response = none from absent] at present
    cases present

theorem agrees_sessionSetupResponse {status : Nat} (agrees : Agrees env c)
    (inOrder : InOrder c (.sessionSetupResponse status data))
    (transcript : next.transcript = c.transcript.note (.sessionSetupResponse status data))
    (stored : next.stored = hashes env.sha512 c (.sessionSetupResponse status data)) : Agrees env next := by
  obtain ⟨hash, neg⟩ := Prod.mk.inj stored
  have response : next.transcript.response = c.transcript.response ∧ next.transcript.request = c.transcript.request := by
    rw [transcript, Transcript.note]
    split <;> exact ⟨rfl, rfl⟩
  refine ⟨?_, ?_, ?_⟩
  · rw [hash, transcript, Transcript.note]
    split
    · rw [Transcript.frames, ← List.append_assoc, preAuthHash_append, agrees.hash]
      rfl
    · exact agrees.hash
  · rw [neg, response.1, response.2]
    exact agrees.negotiated
  · rw [response.1]
    intro absent
    have present := inOrder.2
    rw [absent] at present
    cases present

theorem agrees_step (agrees : Agrees env c) (meets : Observes env InOrder c e ∧ Observes env (Counted env) c e)
    (taken : c.step env e = some next) : Agrees env next := by
  obtain ⟨advanced, advance, rfl⟩ := Option.map_eq_some_iff.mp taken
  have stored := stored_advance advance meets.1
  cases seen : c.observed env.toEnv e with
  | none =>
    rw [seen] at stored
    obtain ⟨hash, neg⟩ := Prod.mk.inj stored
    refine ⟨hash.trans agrees.hash, fun present => neg.trans (agrees.negotiated present), fun absent => ?_⟩
    obtain ⟨exchange, nonzero⟩ := agrees.started absent
    exact ⟨exchange, fun zero => nonzero (hash.symm.trans zero)⟩
  | some frame =>
    rw [seen] at stored
    have inOrder := meets.1 frame seen
    have counted := meets.2 frame seen
    cases frame with
    | negotiateRequest data => exact agrees_negotiateRequest counted rfl stored
    | negotiateResponse stray data => exact agrees_negotiateResponse agrees counted rfl stored
    | sessionSetupRequest sessionId data => exact agrees_sessionSetupRequest agrees inOrder rfl stored
    | sessionSetupResponse status data => exact agrees_sessionSetupResponse agrees inOrder rfl stored

end Steps

theorem preAuthIntHash_transcript (env : LoginEnv) (c : Channel) (first : Event) (data : Bytes) (events : List Event)
    (last : Channel) (starts : c.observed env.toEnv first = some (.negotiateRequest data))
    (inOrder : AllSteps (Channel.step env) (Observes env InOrder) c (first :: events))
    (counted : AllSteps (Channel.step env) (Observes env (Counted env)) c (first :: events))
    (reached : run (Channel.step env) c (first :: events) = some last) :
    last.iod.preAuthIntHash = preAuthHash env.sha512 last.transcript.frames := by
  obtain ⟨next, taken, reached⟩ := Option.bind_eq_some_iff.mp reached
  obtain ⟨advanced, advance, rfl⟩ := Option.map_eq_some_iff.mp taken
  have stored := stored_advance advance inOrder.1
  rw [starts] at stored
  let opened : Channel :=
    { advanced with transcript := (c.observed env.toEnv first).elim c.transcript c.transcript.note }
  have noted : opened.transcript = c.transcript.note (.negotiateRequest data) := by
    simp only [opened, starts, Option.elim_some]
  have agrees : Agrees env opened := agrees_negotiateRequest (counted.1 _ starts) noted stored
  have steps := (inOrder.2 _ taken).and (counted.2 _ taken)
  exact (run_invariant _ (fun _ _ _ agrees meets => agrees_step agrees meets) agrees steps reached).hash

def sampleLoginEnv : LoginEnv where
  toEnv := sampleEnv
  sha := ⟨.recorder, [], fun fed => checksum fed ++ checksum fed ++ checksum fed ++ checksum fed⟩
  sha512_eq := rfl

def loginRq (command : Command) (messageid : Nat) : Rq := { command, messageid }

def loginRsp (messageId status : Nat) : Bytes :=
  smb2Signature ++ toLe 4 64 ++ toLe 4 status ++ List.replicate 12 0 ++ toLe 8 messageId ++ List.replicate 32 0

def loginChannel (negSmb3Enabled : Bool) : Channel where
  toReceiver := (Receiver.initial { gcmSession with dialect := .smb202 } {} {}).enqueue [loginRq .negotiate 0]
  negSmb3Enabled

/-- A login that fails after its first Session Setup, and a second one. -/
theorem preAuthIntHash_transcript_secondLogin :
    let events : List Event := [.receive (.frame [loginRsp 0 0]), .receive (.update gcmSession {}),
      .receive (.enqueue [loginRq .sessionSetup 1]), .send 1 0 [[1, 2]], .receive (.frame [loginRsp 1 statusMoreProcessingRequired]),
      .receive (.enqueue [loginRq .sessionSetup 2]), .send 2 0 [[3], [], [4]],
      .receive (.frame [loginRsp 2 statusMoreProcessingRequired]), .receive (.enqueue [loginRq .sessionSetup 3]),
      .send 3 7 [[5]]]
    ∃ last, run (Channel.step sampleLoginEnv) (loginChannel true) (.send 0 0 [[9], [9]] :: events) = some last ∧
      last.transcript.frames = [[9, 9], loginRsp 0 0, [3, 4], loginRsp 2 statusMoreProcessingRequired, [5]] ∧
      last.iod.preAuthIntHash = preAuthHash sampleLoginEnv.sha512 last.transcript.frames := by
  intro events
  have ends : (run (Channel.step sampleLoginEnv) (loginChannel true) (.send 0 0 [[9], [9]] :: events)).map
      (·.transcript.frames) = some [[9, 9], loginRsp 0 0, [3, 4], loginRsp 2 statusMoreProcessingRequired, [5]] := by
    decide +kernel
  obtain ⟨last, reached, frames⟩ := Option.map_eq_some_iff.mp ends
  exact ⟨last, reached, frames, preAuthIntHash_transcript sampleLoginEnv (loginChannel true) (.send 0 0 [[9], [9]])
    [9, 9] events last rfl (by decide +kernel) (by decide +kernel) reached⟩

/-- A server that answers with SMB 3.1.1 although the client has not offered SMB 3: the hash begins
with the Session Setup. -/
theorem unoffered_negotiate_unhashed :
    let events : List Event := [.send 0 0 [[9, 9]], .receive (.frame [loginRsp 0 0]),
      .receive (.update gcmSession {}), .receive (.enqueue [loginRq .sessionSetup 1]), .send 1 0 [[1, 2]]]
    AllSteps (Channel.step sampleLoginEnv) (Observes sampleLoginEnv InOrder) (loginChannel false) events ∧
    ∃ last, run (Channel.step sampleLoginEnv) (loginChannel false) events = some last ∧
      last.transcript.frames = [[9, 9], loginRsp 0 0, [1, 2]] ∧
      last.iod.preAuthIntHash = sampleLoginEnv.sha512 (initZero ++ [1, 2]) ∧
      last.iod.preAuthIntHash ≠ preAuthHash sampleLoginEnv.sha512 last.transcript.frames := by
  intro events
  have ends : (run (Channel.step sampleLoginEnv) (loginChannel false) events).map
      (fun c => (c.transcript.frames, c.iod.preAuthIntHash)) =
        some ([[9, 9], loginRsp 0 0, [1, 2]], sampleLoginEnv.sha512 (initZero ++ [1, 2])) := by
    decide +kernel
  obtain ⟨last, reached, ended⟩ := Option.map_eq_some_iff.mp ends
  obtain ⟨frames, hash⟩ := Prod.mk.inj ended
  refine ⟨by decide +kernel, last, reached, frames, hash, ?_⟩
  rw [hash, frames]
  decide +kernel

-- a second reply to the Negotiate is dropped, but only after it has been hashed
example :
    (run (Channel.step sampleLoginEnv) (loginChannel true)
      [.send 0 0 [[9, 9]], .receive (.frame [loginRsp 0 0]), .receive (.frame [loginRsp 0 0])]).map
        (fun c => (c.transcript.frames, decide (c.iod.preAuthIntHash = preAuthHash sampleLoginEnv.sha512
          [[9, 9], loginRsp 0 0, loginRsp 0 0]))) = some ([[9, 9], loginRsp 0 0], true) := by
  decide +kernel

end SmbClient.Login
