import SmbClient.Mbuf.Reader
import SmbClient.Negotiate.Session

/-! `smb2fs_smb_validate_neg_info`: the server is asked, in a signed request, what it has negotiated. -/

namespace SmbClient.Negotiate
open SmbClient.Lib SmbClient.Lib.Fallible SmbClient.Mbuf SmbClient.Mbuf.Reader

structure SecureNegRequest where
  capabilities : Nat
  guid : Bytes
  securityMode : Nat
  dialects : List Nat
  deriving DecidableEq, Repr

structure SecureNegReply where
  capabilities : Nat := 0
  guid : Bytes := List.replicate 16 0
  securityMode : Nat := 0
  dialect : Nat := 0
  deriving DecidableEq, Repr

def sizeofSecureNegInfo : Nat := 40

def SecureNegReply.ofBytes (copied : Bytes) : SecureNegReply :=
  let data := copied ++ List.replicate (sizeofSecureNegInfo - copied.length) 0
  { capabilities := ofLe (slice data 0 4)
    guid := slice data 4 16
    securityMode := ofLe (slice data 20 2)
    dialect := ofLe (slice data 24 2) }

inductive CtlCode
  | getReparsePoint | setReparsePoint | pipe | requestResumeKey | copychunk | validateNegotiateInfo
  | queryNetworkInterfaceInfo | unsupported
  deriving DecidableEq, Repr

/-- `pipe` stands for the four codes whose data goes to a uio: referrals, snapshots and pipes. -/
def CtlCode.ofCode (code : Nat) : CtlCode :=
  if code = 0x900a8 then getReparsePoint
  else if code = 0x60194 ∨ code = 0x11c017 ∨ code = 0x110018 ∨ code = 0x144064 then pipe
  else if code = 0x900a4 then setReparsePoint
  else if code = 0x140078 then requestResumeKey
  else if code = 0x1440F2 then copychunk
  else if code = 0x00140204 then validateNegotiateInfo
  else if code = 0x001401FC then queryNetworkInterfaceInfo
  else unsupported

structure IoctlEnv where
  kalloc : Kalloc
  parseGetReparsePoint : MdChain → Option Errno

abbrev IoctlReader := Reader SecureNegReply

def skipToOutput (retOutputOffset : Nat) : IoctlReader Unit :=
  if retOutputOffset = 0 then pure () else skip ((retOutputOffset + 2 ^ 32 - 112) % 2 ^ 32)

def parseIoctlGetData (kalloc : Kalloc) (retOutputLen : Nat) : IoctlReader Unit :=
  if (kalloc.alloc retOutputLen).isNone then fail .enomem else skip retOutputLen

def parseNegInfo : IoctlReader Unit := do
  let capabilities ← getUint 4
  update fun reply => { reply with capabilities }
  let guid ← getMem 16
  update fun reply => { reply with guid }
  let securityMode ← getUint 2
  update fun reply => { reply with securityMode }
  let dialect ← getUint 2
  update fun reply => { reply with dialect }

def parseInterfaceInfo (retOutputLen : Nat) : IoctlReader Unit := do
  require (retOutputLen ≤ sizeofSecureNegInfo) .einval
  let copied ← getMem retOutputLen
  update fun _ => .ofBytes copied

def parseReparsePoint (env : IoctlEnv) : IoctlReader Unit := fun s =>
  match env.parseGetReparsePoint s.mdp with
  | none => (.ok (), s)
  | some e => (.error e, s)

def parseIoctlData (env : IoctlEnv) (retOutputOffset retOutputLen : Nat) : CtlCode → IoctlReader Unit
  | .getReparsePoint => parseReparsePoint env
  | .pipe => skipToOutput retOutputOffset
  | .setReparsePoint => pure ()
  | .requestResumeKey => do
      skipToOutput retOutputOffset
      parseIoctlGetData env.kalloc retOutputLen
  | .copychunk => parseIoctlGetData env.kalloc retOutputLen
  | .validateNegotiateInfo => parseNegInfo
  | .queryNetworkInterfaceInfo => parseInterfaceInfo retOutputLen
  | .unsupported => fail .ebadrpc

def smb2SmbParseIoctl (env : IoctlEnv) : IoctlReader Unit := do
  let length ← getUint 2
  require (length = 49) .ebadrpc
  let _reserved ← getUint 2
  let retCtlcode ← getUint 4
  let _fidPersistent ← getUint 8
  let _fidVolatile ← getUint 8
  let _retInputOffset ← getUint 4
  let _retInputLen ← getUint 4
  let retOutputOffset ← getUint 4
  let retOutputLen ← getUint 4
  let _retFlags ← getUint 4
  let _reserved2 ← getUint 4
  parseIoctlData env retOutputOffset retOutputLen (.ofCode retCtlcode)

inductive IoctlAnswer
  | failed (e : Errno)
  | answered (mdp : MdChain)

def smb2SmbIoctl (env : IoctlEnv) : IoctlAnswer → Except Errno SecureNegReply
  | .failed e => .error e
  | .answered mdp =>
    match smb2SmbParseIoctl env ⟨mdp, {}⟩ with
    | (.error e, _) => .error e
    | (.ok (), s) => .ok s.state

structure Try where
  sessionp : NegSession
  iod : Except Errno NegIod
  answer : SecureNegRequest → IoctlAnswer

def smb3MaxDialects : Nat := 5

def buildValidate (sessionp : NegSession) (iod : NegIod) : Except Errno SecureNegRequest :=
  if iod.alternateChannel then
    (smb2SmbGetClientDialects sessionp true []).1.map fun dialects =>
      { capabilities := smb2SmbGetClientCapabilities sessionp
        guid := sessionp.clientGuid
        securityMode := smb2SmbGetClientSecurityMode sessionp
        dialects }
  else if sessionp.negDialects.length > smb3MaxDialects then .error .enomem
  else
    .ok {
      capabilities := sessionp.negCapabilities
      guid := sessionp.clientGuid
      securityMode := sessionp.negSecurityMode
      dialects := sessionp.negDialects }

def SessionFlags.passesDialect (flags : SessionFlags) (dialect : Nat) : Bool :=
  if dialect = smb2Dialect0302 then flags.smb2 || flags.smb302
  else if dialect = smb2Dialect0300 then flags.smb2 || flags.smb30
  else if dialect = smb2Dialect0210 then flags.smb2 || flags.smb21
  else if dialect = smb2Dialect0202 then flags.smb2 || flags.smb2002
  else false

def checkNegInfo (sessionp : NegSession) (reply : SecureNegReply) : Option Errno :=
  if reply.capabilities ≠ sessionp.sopt.svSavedCapabilities then some .eauth
  else if reply.guid ≠ sessionp.sopt.svGuid then some .eauth
  else if reply.securityMode ≠ sessionp.sopt.svSecurityMode then some .eauth
  else if sessionp.flags.passesDialect reply.dialect then none
  else some .eauth

structure Validation where
  error : Option Errno
  checked : Option (NegSession × SecureNegReply) := none

def validateLoop (env : IoctlEnv) : Nat → (Nat → Try) → Validation
  | 0, tries =>
    match (tries 0).iod with
    | .error e => { error := some e }
    | .ok _ => { error := some .eauth }
  | left + 1, tries =>
    match (tries 0).iod.bind (buildValidate (tries 0).sessionp) with
    | .error e => { error := some e }
    | .ok request =>
      match smb2SmbIoctl env ((tries 0).answer request) with
      | .error .estale => validateLoop env left fun k => tries (k + 1)
      | .error .einval | .error .enotsup => { error := none }
      | .error e => { error := some e }
      | .ok reply =>
        { error := checkNegInfo (tries 0).sessionp reply, checked := some ((tries 0).sessionp, reply) }

def smb2fsSmbValidateNegInfo (env : IoctlEnv) (sessionp : NegSession) (tries : Nat → Try) : Validation :=
  if !sessionp.flags.smb2 || sessionp.flags.smb2002 || sessionp.flags.smb21 || sessionp.flags.anonymousAccess ||
      sessionp.flags.guestAccess then { error := none }
  else validateLoop env 10 tries

/-- The reply says what is recorded from the Negotiate exchange. -/
structure SecureNegReply.Matches (reply : SecureNegReply) (sopt : Sopt) : Prop where
  capabilities : reply.capabilities = sopt.svSavedCapabilities
  guid : reply.guid = sopt.svGuid
  securityMode : reply.securityMode = sopt.svSecurityMode
  dialect : reply.dialect = sopt.svDialect

/-- The reply is told apart by another field or by a dialect that no case of the `switch` lets pass, or
it names the dialect in use. -/
def SecureNegReply.Caught (reply : SecureNegReply) (sessionp : NegSession) : Prop :=
  reply.capabilities ≠ sessionp.sopt.svSavedCapabilities ∨ reply.guid ≠ sessionp.sopt.svGuid ∨
    reply.securityMode ≠ sessionp.sopt.svSecurityMode ∨ sessionp.flags.passesDialect reply.dialect = false ∨
    reply.dialect = sessionp.sopt.svDialect

theorem checkNegInfo_eq_none (sessionp : NegSession) (reply : SecureNegReply) :
    checkNegInfo sessionp reply = none ↔ reply.capabilities = sessionp.sopt.svSavedCapabilities ∧
      reply.guid = sessionp.sopt.svGuid ∧ reply.securityMode = sessionp.sopt.svSecurityMode ∧
      sessionp.flags.passesDialect reply.dialect = true := by
  unfold checkNegInfo
  split_ifs <;> simp_all

theorem matches_of_checked_iff (sessionp : NegSession) (reply : SecureNegReply) :
    (checkNegInfo sessionp reply = none → reply.Matches sessionp.sopt) ↔ reply.Caught sessionp := by
  rw [checkNegInfo_eq_none]
  constructor
  · intro sound
    by_contra missed
    unfold SecureNegReply.Caught at missed
    simp only [not_or, not_not, Bool.not_eq_false] at missed
    obtain ⟨capabilities, guid, securityMode, passes, differs⟩ := missed
    exact differs (sound ⟨capabilities, guid, securityMode, passes⟩).dialect
  · intro caught ⟨capabilities, guid, securityMode, passes⟩
    refine ⟨capabilities, guid, securityMode, ?_⟩
    rcases caught with other | other | other | other | same
    · exact absurd capabilities other
    · exact absurd guid other
    · exact absurd securityMode other
    · rw [passes] at other
      cases other
    · exact same

theorem validateLoop_error (env : IoctlEnv) (left : Nat) (tries : Nat → Try) {sessionp : NegSession}
    {reply : SecureNegReply} (checked : (validateLoop env left tries).checked = some (sessionp, reply)) :
    (validateLoop env left tries).error = checkNegInfo sessionp reply := by
  induction left generalizing tries with
  | zero =>
    unfold validateLoop at checked
    split at checked <;> cases checked
  | succ left ih =>
    unfold validateLoop at checked ⊢
    split at checked
    · cases checked
    · split at checked
      · exact ih _ checked
      · cases checked
      · cases checked
      · cases checked
      · cases checked
        rfl

/-- If the ioctl succeeds and the validation returns zero, the reply is the one of the server that was
negotiated with, just when every reply that names another dialect is told apart otherwise. -/
theorem validateNegInfo_matches_iff (env : IoctlEnv) (entry : NegSession) (tries : Nat → Try) :
    (∀ sessionp reply, (smb2fsSmbValidateNegInfo env entry tries).checked = some (sessionp, reply) →
      (smb2fsSmbValidateNegInfo env entry tries).error = none → reply.Matches sessionp.sopt) ↔
    (∀ sessionp reply, (smb2fsSmbValidateNegInfo env entry tries).checked = some (sessionp, reply) →
      reply.Caught sessionp) := by
  have decides {sessionp : NegSession} {reply : SecureNegReply}
      (checked : (smb2fsSmbValidateNegInfo env entry tries).checked = some (sessionp, reply)) :
      (smb2fsSmbValidateNegInfo env entry tries).error = checkNegInfo sessionp reply := by
    unfold smb2fsSmbValidateNegInfo at checked ⊢
    split at checked
    · cases checked
    · rename_i asked
      rw [if_neg asked]
      exact validateLoop_error env 10 tries checked
  constructor
  · intro sound sessionp reply checked
    apply (matches_of_checked_iff sessionp reply).mp
    rw [← decides checked]
    exact sound sessionp reply checked
  · intro caught sessionp reply checked
    rw [decides checked]
    exact (matches_of_checked_iff sessionp reply).mpr (caught sessionp reply checked)

/-! ## A session of 3.0.2 -/

def session302 : NegSession where
  flags := { smb2 := true, smb302 := true }
  sopt := { svSecurityMode := 1, svDialect := smb2Dialect0302 }

def negInfoReply (dialect : Nat) : MdChain :=
  mdInitm [toLe 2 49 ++ toLe 2 0 ++ toLe 4 0x00140204 ++ List.replicate 40 0 ++
    (toLe 4 0 ++ List.replicate 16 0 ++ toLe 2 1 ++ toLe 2 dialect)]

/-- A reply that names 2.002 is accepted. -/
theorem validateNegInfo_accepts_downgrade :
    let validation := smb2fsSmbValidateNegInfo ⟨.zeroed, fun _ => none⟩ session302
      fun _ => ⟨session302, .ok {}, fun _ => .answered (negInfoReply smb2Dialect0202)⟩
    validation.error = none ∧
      validation.checked = some (session302, { securityMode := 1, dialect := smb2Dialect0202 }) ∧
      smb2Dialect0202 ≠ session302.sopt.svDialect := by
  decide +kernel

end SmbClient.Negotiate
