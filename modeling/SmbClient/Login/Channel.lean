import SmbClient.Receive.Dispatch

/-!
A channel during its login: what `smb_iod_sendrq` and `smb_iod_recvall` do to the pre auth integrity hash
of SMB 3.1.1.
-/

namespace SmbClient.Login
open SmbClient.Lib SmbClient.Mbuf SmbClient.Session SmbClient.Receive

structure Sha512 where
  digest : Digest UInt8
  init : digest.Ctx
  final : digest.Ctx → Bytes

def Sha512.hash (sha : Sha512) (data : Bytes) : Bytes := sha.final (sha.digest.update sha.init data)

structure LoginEnv extends Receive.Env where
  sha : Sha512
  sha512_eq : sha512 = sha.hash

def initZero : Bytes := List.replicate 64 0

def smb311PreAuthIntegrityHashInit (sha : Sha512) (iod : SmbIod) (command : Command) (m0 : Chain) : SmbIod :=
  let first := if command = .negotiate then initZero else iod.preAuthIntHashNeg
  { iod with
    preAuthIntHash := sha.final (sha.digest.feedAll (sha.digest.update sha.init first) m0) }

def smb311PreAuthIntegrityHashUpdate (sha : Sha512) (iod : SmbIod) (m0 : Chain) : SmbIod :=
  { iod with
    preAuthIntHash := sha.final (sha.digest.feedAll (sha.digest.update sha.init iod.preAuthIntHash) m0) }

section Hash
variable (env : LoginEnv) (iod : SmbIod) (m0 : Chain)

-- the bytes that are hashed do not depend on how the message is cut into mbufs
theorem final_feedAll (first : Bytes) :
    env.sha.final (env.sha.digest.feedAll (env.sha.digest.update env.sha.init first) m0) =
      env.sha512 (first ++ bytes m0) := by
  rw [Digest.feedAll_eq, ← Digest.update_append, env.sha512_eq]
  rfl

theorem smb311PreAuthIntegrityHashUpdate_eq :
    smb311PreAuthIntegrityHashUpdate env.sha iod m0 = preAuthIntegrityHashUpdate env.toEnv iod m0 := by
  rw [smb311PreAuthIntegrityHashUpdate, final_feedAll, preAuthIntegrityHashUpdate]

theorem smb311PreAuthIntegrityHashInit_eq (command : Command) :
    smb311PreAuthIntegrityHashInit env.sha iod command m0 =
      { iod with preAuthIntHash :=
          env.sha512 ((if command = .negotiate then initZero else iod.preAuthIntHashNeg) ++ bytes m0) } := by
  rw [smb311PreAuthIntegrityHashInit, final_feedAll]

end Hash

inductive Frame
  | negotiateRequest (data : Bytes)
  | negotiateResponse (stray : Bool) (data : Bytes)
  | sessionSetupRequest (sessionId : Nat) (data : Bytes)
  | sessionSetupResponse (status : Nat) (data : Bytes)
  deriving DecidableEq, Repr

structure Transcript where
  request : Option Bytes := none
  response : Option Bytes := none
  exchange : List Bytes := []
  deriving DecidableEq, Repr

def Transcript.note (t : Transcript) : Frame → Transcript
  | .negotiateRequest data => { request := some data }
  | .negotiateResponse stray data =>
    if stray ∨ t.response.isSome then t else { t with response := some data }
  | .sessionSetupRequest sessionId data =>
    { t with exchange := if sessionId = 0 then [data] else t.exchange ++ [data] }
  | .sessionSetupResponse status data =>
    if status = statusMoreProcessingRequired then { t with exchange := t.exchange ++ [data] } else t

def Transcript.frames (t : Transcript) : List Bytes := t.request.toList ++ t.response.toList ++ t.exchange

def preAuthHash (sha512 : Bytes → Bytes) (frames : List Bytes) : Bytes :=
  frames.foldl (fun hash frame => sha512 (hash ++ frame)) initZero

structure Channel extends Receiver where
  negSmb3Enabled : Bool
  transcript : Transcript := {}
  deriving DecidableEq, Repr

inductive Event
  | send (id rqsessionid : Nat) (m : Chain)
  | receive (e : Receive.Event)

namespace Channel

def opened (env : Receive.Env) (c : Channel) (wire : Chain) : Option (SmbSession × Chain) :=
  let received := smbNbstRecv env c.sessionp wire
  match received.1 with
  | .error _ => none
  | .ok m =>
    match (openPacket env received.2 c.smb1Allowed m).1 with
    | some (.smb2 m) => some (received.2, m)
    | _ => none

def answers (c : Channel) (sessionp : SmbSession) (m : Chain) : Option Waiting :=
  (c.rqlist.findSome? (matchChain c.rqs (.ofBytes (bytes m)) sessionp.nonCompoundReplies)).bind fun found =>
    c.rqs.lookup found.id

def requestFrame (rqp : Rq) (rqsessionid : Nat) (m : Chain) : Option Frame :=
  match rqp.command with
  | .negotiate => some (.negotiateRequest (bytes m))
  | .sessionSetup => some (.sessionSetupRequest rqsessionid (bytes m))
  | _ => none

def responseFrame (w : Waiting) (m : Chain) : Option Frame :=
  let hdr := Smb2Header.ofBytes (bytes m)
  match w.rqp.command with
  | .negotiate => some (.negotiateResponse (hdr.pending || w.smb1.isSome) (bytes m))
  | .sessionSetup => some (.sessionSetupResponse hdr.status (bytes m))
  | _ => none

def observed (env : Receive.Env) (c : Channel) : Event → Option Frame
  | .send id rqsessionid m =>
    (c.rqs.lookup id).bind fun w =>
      if w.smb1 = none ∧ w.rqp.compound = false then requestFrame w.rqp rqsessionid m else none
  | .receive (.frame wire) =>
    (c.opened env wire).bind fun message =>
      (c.answers message.1 message.2).bind fun w => responseFrame w message.2
  | .receive _ => none

def sendrq (sha : Sha512) (c : Channel) (w : Waiting) (rqsessionid : Nat) (m : Chain) : SmbIod :=
  if w.smb1 = none ∧ w.rqp.compound = false then
    match w.rqp.command with
    | .negotiate =>
      if c.negSmb3Enabled then smb311PreAuthIntegrityHashInit sha c.iod .negotiate m else c.iod
    | .sessionSetup =>
      if c.sessionp.dialect = .smb311 then
        if rqsessionid = 0 then smb311PreAuthIntegrityHashInit sha c.iod .sessionSetup m
        else smb311PreAuthIntegrityHashUpdate sha c.iod m
      else c.iod
    | _ => c.iod
  else c.iod

def advance (env : LoginEnv) (c : Channel) : Event → Option Channel
  | .send id rqsessionid m =>
    (c.rqs.lookup id).map fun w => { c with iod := c.sendrq env.sha w rqsessionid m }
  | .receive (.update sessionp iod) =>
    some { c with
      sessionp
      iod := { iod with
        preAuthIntHash := c.iod.preAuthIntHash
        preAuthIntHashNeg := c.iod.preAuthIntHashNeg } }
  | .receive e => (c.toReceiver.step env.toEnv e).map fun next => { c with toReceiver := next }

def step (env : LoginEnv) (c : Channel) (e : Event) : Option Channel :=
  (c.advance env e).map fun next =>
    { next with transcript := (c.observed env.toEnv e).elim c.transcript c.transcript.note }

end Channel
end SmbClient.Login
