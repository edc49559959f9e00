import SmbClient.Credits.Accounting
import SmbClient.Lib.Fallible
import SmbClient.Signing.Agreement
import SmbClient.Signing.Authentic

/-! `smb2_rq_verify` and `smb2_rq_parse_header`: the header of a reply is read, and the reply is
accepted or not. -/

namespace SmbClient.Receive
open SmbClient.Lib SmbClient.Lib.Fallible SmbClient.Mbuf SmbClient.Session SmbClient.Credits SmbClient.Signing

structure Share where
  encryptData : Bool := false
  deriving DecidableEq, Repr

structure Rq extends CreditRq where
  signed : Bool := false
  moreData : Bool := false
  channelContext : Bool := false
  share : Option Share := none
  ntstatus : Nat := 0
  rspflags : Nat := 0
  rspnextcmd : Nat := 0
  rsppid : Nat := 0
  rsptreeid : Nat := 0
  rspasyncid : Nat := 0
  rspsessionid : Nat := 0
  deriving DecidableEq, Repr

structure Checks where
  modes : SigningModes
  hmac : Hmac
  stack : Bytes
  ntstatusToErrno : Nat → Option Errno

structure Parse where
  mdp : MdChain
  rqp : Rq
  credits : CreditIod

abbrev Parser := Fallible Parse Errno

def fetch (size : Nat) : Parser Bytes := fun s =>
  let fetched := mdGetMem s.mdp size
  match fetched.error with
  | none => (.ok fetched.target, { s with mdp := fetched.mdp })
  | some e => (.error e, { s with mdp := fetched.mdp })

def fetchUint (width : Nat) : Parser Nat := do
  let data ← fetch width
  pure (ofLe data)

def update (f : Rq → Rq) : Parser Unit := modify fun s => { s with rqp := f s.rqp }

def structSize (length : Nat) : Parser Unit := if length = 64 then pure () else fail .ebadrpc

def countCredits : Parser Unit := modify fun s =>
  if s.rqp.rspcreditsgranted ≠ 0 ∧ !s.rqp.hdrPreparsed then
    { s with credits := smb2RqCreditIncrement s.credits s.rqp.toCreditRq }
  else s

def parseCredits : Parser Unit := do
  let _protocolId ← fetchUint 4
  let length ← fetchUint 2
  structSize length
  let _creditCharge ← fetchUint 2
  let ntstatus ← fetchUint 4
  update fun rqp => { rqp with ntstatus }
  let _command ← fetchUint 2
  let rspcreditsgranted ← fetchUint 2
  update fun rqp => { rqp with rspcreditsgranted }
  countCredits

def smb2FlagsAsyncCommand : Nat := 0x2

def syncIds : Parser Unit := do
  let rsppid ← fetchUint 4
  update fun rqp => { rqp with rsppid }
  let rsptreeid ← fetchUint 4
  update fun rqp => { rqp with rsptreeid }

def asyncIds : Parser Unit := do
  let asyncId ← fetchUint 8
  let s ← get
  if asyncId = s.rqp.rspasyncid then pure () else fail .ebadrpc

def processIds (rspflags : Nat) : Parser Unit :=
  if rspflags &&& smb2FlagsAsyncCommand = 0 then syncIds else asyncIds

def parseIds : Parser Unit := do
  let rspflags ← fetchUint 4
  update fun rqp => { rqp with rspflags }
  let rspnextcmd ← fetchUint 4
  update fun rqp => { rqp with rspnextcmd }
  let _messageId ← fetchUint 8
  processIds rspflags
  let rspsessionid ← fetchUint 8
  update fun rqp => { rqp with rspsessionid }

def encryptionOn (sessionp : SmbSession) (rqp : Rq) : Bool :=
  sessionp.dialect.smb3OrLater &&
    if sessionp.encryptData then rqp.command != .negotiate
    else
      match rqp.share with
      | none => false
      | some share =>
        rqp.command != .negotiate && rqp.command != .sessionSetup && rqp.command != .treeConnect &&
          share.encryptData

def Rq.verifyRq (rqp : Rq) : VerifyRq := ⟨UInt64.ofNat rqp.messageid, rqp.command.code⟩

def smb2RqVerify (checks : Checks) (sessionp : SmbSession) (iod : SmbIod) (rqp : Rq) (mdp : MdChain)
    (signature : Bytes) : Option Errno :=
  if !sessionp.securitySignature && !rqp.signed then none
  else if sessionp.mackey.isNone || rqp.command == .oplockBreak || rqp.command == .negotiate ||
      rqp.command == .sessionSetup then none
  else if sessionp.anonymousAccess then none
  else
    let verified :=
      if sessionp.dialect.smb3OrLater then
        (smb3Verify checks.modes checks.stack sessionp (some iod) rqp.verifyRq mdp rqp.rspnextcmd
          signature).map (·.1)
      else smb2Verify checks.hmac sessionp mdp rqp.rspnextcmd signature
    match verified with
    | .ok true => none
    | _ => some .eauth

def statusNetworkSessionExpired : Nat := 0xC000035C
def statusUserSessionDeleted : Nat := 0xC0000203
def statusBufferTooSmall : Nat := 0xC0000023

structure Outcome where
  rperror : Option Errno := none
  forceReconnect : Bool := false
  shareDead : Bool := false
  deriving DecidableEq, Repr

def parseStatus (checks : Checks) (iod : SmbIod) (rqp : Rq) : Outcome :=
  let expired := rqp.ntstatus == statusNetworkSessionExpired || rqp.ntstatus == statusUserSessionDeleted
  let ownReconnect := if iod.alternateChannel then rqp.channelContext else rqp.iodContext
  let rperror :=
    if expired && !iod.alternateChannel && rqp.iodContext then some .enetreset
    else checks.ntstatusToErrno rqp.ntstatus
  { rperror
    forceReconnect := expired && !ownReconnect
    shareDead := rperror == some .enetreset && rqp.share.isSome }

def checkReply (checks : Checks) (sessionp : SmbSession) (iod : SmbIod) (mdSign : MdChain) (signature : Bytes) :
    Parser Unit := fun s =>
  if !encryptionOn sessionp s.rqp && (sessionp.securitySignature || s.rqp.signed) then
    match smb2RqVerify checks sessionp iod s.rqp mdSign signature with
    | none => (.ok (), s)
    | some e => (.error e, s)
  else (.ok (), s)

def concludeReply (checks : Checks) (iod : SmbIod) : Parser Outcome := fun s =>
  let outcome := parseStatus checks iod s.rqp
  let moreData := outcome.rperror.isSome && s.rqp.ntstatus == statusBufferTooSmall
  (.ok outcome, { s with rqp := { s.rqp with moreData } })

def parseRest (checks : Checks) (sessionp : SmbSession) (iod : SmbIod) (mdSign : MdChain) : Parser Outcome := do
  parseIds
  let signature ← fetch smb2SigLen
  checkReply checks sessionp iod mdSign signature
  concludeReply checks iod

def smb2RqParseHeader (checks : Checks) (sessionp : SmbSession) (iod : SmbIod) (parseForCredits : Bool) :
    Parser Outcome := do
  let s ← get
  parseCredits
  if parseForCredits then pure {} else parseRest checks sessionp iod s.mdp

def Rq.terms (rqp : Rq) : RqKind × Nat × Bool × Option Share :=
  (rqp.toRqKind, rqp.messageid, rqp.signed, rqp.share)

structure Reads {τ α : Type} (keep : Rq → τ) (p : Parser α) (n : Nat) : Prop where
  advances : Within (fun s next => next.mdp.rest <:+ s.mdp.rest) p
  succeeds : ∀ {s a next}, p s = (.ok a, next) →
    n ≤ s.mdp.rest.length ∧ next.mdp.rest = s.mdp.rest.drop n ∧ keep next.rqp = keep s.rqp

section
variable {τ α β : Type} {keep : Rq → τ} {m n : Nat} {p : Parser α}

theorem Reads.bind {f : α → Parser β} (first : Reads keep p m) (second : ∀ a, Reads keep (f a) n) :
    Reads keep (p >>= f) (n + m) where
  advances := Within.bind (fun _ _ _ early late => late.trans early) first.advances fun a => (second a).advances
  succeeds := by
    intro s b last done
    obtain ⟨a, next, ran, done⟩ := of_bind_eq_ok done
    obtain ⟨enough, rest, kept⟩ := first.succeeds ran
    obtain ⟨more, rest', kept'⟩ := (second a).succeeds done
    rw [rest, List.length_drop] at more
    refine ⟨by omega, ?_, kept'.trans kept⟩
    rw [rest', rest, List.drop_drop, Nat.add_comm]

theorem reads_nothing (same : ∀ s, (p s).2.mdp = s.mdp) (kept : ∀ s, keep (p s).2.rqp = keep s.rqp) :
    Reads keep p 0 where
  advances := fun s => show (p s).2.mdp.rest <:+ s.mdp.rest from (same s).symm ▸ List.suffix_rfl
  succeeds := by
    intro s a next done
    have mdp := same s
    have rqp := kept s
    rw [done] at mdp rqp
    exact ⟨Nat.zero_le _, congrArg MdChain.rest mdp, rqp⟩

theorem suffix_mdGetMem (mdp : MdChain) (size : Nat) : (mdGetMem mdp size).mdp.rest <:+ mdp.rest := by
  rw [mdGetMem_rest]
  exact List.drop_suffix size mdp.rest

theorem fetch_eq_ok {size : Nat} {data : Bytes} {s next : Parse} (done : fetch size s = (.ok data, next)) :
    size ≤ s.mdp.rest.length ∧ next.mdp.rest = s.mdp.rest.drop size ∧
      data = s.mdp.rest.take size ∧ next.rqp = s.rqp := by
  unfold fetch at done
  dsimp only at done
  rw [mdGetMem_error] at done
  split at done
  · rename_i complete
    cases done
    have enough : ¬s.mdp.rest.length < size := fun short => by simp [short] at complete
    exact ⟨Nat.le_of_not_lt enough, mdGetMem_rest s.mdp size, mdGetMem_target s.mdp size, rfl⟩
  · cases done

theorem reads_fetch (size : Nat) : Reads keep (fetch size) size where
  advances := by
    intro s
    have moved := suffix_mdGetMem s.mdp size
    unfold fetch
    dsimp only
    split <;> exact moved
  succeeds := by
    intro s data next done
    obtain ⟨enough, rest, -, same⟩ := fetch_eq_ok done
    exact ⟨enough, rest, by rw [same]⟩

theorem fetchUint_eq_ok {width value : Nat} {s next : Parse} (done : fetchUint width s = (.ok value, next)) :
    width ≤ s.mdp.rest.length ∧ next.mdp.rest = s.mdp.rest.drop width ∧
      value = ofLe (s.mdp.rest.take width) ∧ next.rqp = s.rqp := by
  obtain ⟨data, read, fetched, done⟩ := of_bind_eq_ok done
  obtain ⟨enough, rest, rfl, same⟩ := fetch_eq_ok fetched
  obtain ⟨rfl, rfl⟩ := of_pure_eq_ok done
  exact ⟨enough, rest, rfl, same⟩

theorem Reads.fetchUint {width : Nat} {f : Nat → Parser β} (later : ∀ value, Reads keep (f value) n) :
    Reads keep (fetchUint width >>= f) (n + width) := by
  have fetched : Reads keep (Receive.fetchUint width) (0 + width) :=
    (reads_fetch width).bind fun _ => reads_nothing (fun _ => rfl) fun _ => rfl
  rw [Nat.zero_add] at fetched
  exact fetched.bind later

theorem Reads.update {g : Rq → Rq} {f : Unit → Parser β} (kept : ∀ rqp, keep (g rqp) = keep rqp)
    (later : Reads keep (f ()) n) : Reads keep (update g >>= f) n :=
  (reads_nothing (fun _ => rfl) fun s => kept s.rqp).bind fun _ => later

theorem Reads.weaken {σ : Type} {coarser : Rq → σ} (reads : Reads keep p n)
    (follows : ∀ a b, keep a = keep b → coarser a = coarser b) : Reads coarser p n where
  advances := reads.advances
  succeeds := by
    intro s a next done
    obtain ⟨enough, rest, kept⟩ := reads.succeeds done
    exact ⟨enough, rest, follows _ _ kept⟩

end

variable (checks : Checks) (sessionp : SmbSession) (iod : SmbIod) (rspflags : Nat)

theorem reads_structSize {τ : Type} {keep : Rq → τ} (length : Nat) : Reads keep (structSize length) 0 := by
  unfold structSize
  split <;> exact reads_nothing (fun _ => rfl) fun _ => rfl

theorem reads_countCredits {τ : Type} {keep : Rq → τ} : Reads keep countCredits 0 := by
  unfold countCredits
  refine reads_nothing (fun s => ?_) fun s => ?_
  · show (if _ then _ else _ : Parse).mdp = _
    split <;> rfl
  · show keep (if _ then _ else _ : Parse).rqp = _
    split <;> rfl

theorem reads_parseCredits : Reads Rq.terms parseCredits 16 := by
  unfold parseCredits
  refine .fetchUint fun _ => .fetchUint fun length => (reads_structSize length).bind fun _ => ?_
  refine .fetchUint fun _ => .fetchUint fun _ => .update (fun _ => rfl) ?_
  exact .fetchUint fun _ => .fetchUint fun _ => .update (fun _ => rfl) reads_countCredits

def Rq.framed (rqp : Rq) : (RqKind × Nat × Bool × Option Share) × Nat := (rqp.terms, rqp.rspnextcmd)

theorem reads_processIds : Reads Rq.framed (processIds rspflags) 8 := by
  unfold processIds
  split
  · unfold syncIds
    exact .fetchUint fun _ => .update (fun _ => rfl) (.fetchUint fun _ => reads_nothing (fun _ => rfl) fun _ => rfl)
  · unfold asyncIds
    refine .fetchUint fun asyncId => (reads_nothing (fun _ => rfl) fun _ => rfl).bind fun s => ?_
    split <;> exact reads_nothing (fun _ => rfl) fun _ => rfl

theorem reads_remainingIds :
    Reads Rq.framed (fetchUint 8 >>= fun _ => processIds rspflags >>= fun _ => fetchUint 8 >>= fun rspsessionid =>
      update fun rqp => { rqp with rspsessionid }) 24 :=
  .fetchUint fun _ => (reads_processIds rspflags).bind fun _ =>
    .fetchUint fun _ => reads_nothing (fun _ => rfl) fun _ => rfl

theorem reads_parseIds : Reads Rq.terms parseIds 32 := by
  unfold parseIds
  refine .fetchUint fun rspflags => .update (fun _ => rfl) (.fetchUint fun _ => .update (fun _ => rfl) ?_)
  exact (reads_remainingIds rspflags).weaken fun _ _ framed => congrArg Prod.fst framed

theorem parseIds_rspnextcmd {s next : Parse} (done : parseIds s = (.ok (), next)) :
    next.rqp.rspnextcmd = ofLe (slice s.mdp.rest 4 4) := by
  obtain ⟨rspflags, s1, fetched, done⟩ := of_bind_eq_ok done
  obtain ⟨-, rest, -, -⟩ := fetchUint_eq_ok fetched
  obtain ⟨_, s2, updated, done⟩ := of_bind_eq_ok done
  cases updated
  obtain ⟨rspnextcmd, s3, fetched, done⟩ := of_bind_eq_ok done
  obtain ⟨-, -, rfl, -⟩ := fetchUint_eq_ok fetched
  obtain ⟨_, s4, updated, done⟩ := of_bind_eq_ok done
  cases updated
  obtain ⟨-, -, framed⟩ := (reads_remainingIds rspflags).succeeds done
  rw [show next.rqp.rspnextcmd = _ from congrArg Prod.snd framed]
  show ofLe (s1.mdp.rest.take 4) = _
  rw [rest]
  rfl

theorem reads_parseRest (mdSign : MdChain) : Reads Rq.terms (parseRest checks sessionp iod mdSign) 48 := by
  have checked (signature : Bytes) : Reads Rq.terms (checkReply checks sessionp iod mdSign signature) 0 := by
    have same (s : Parse) : (checkReply checks sessionp iod mdSign signature s).2 = s := by
      unfold checkReply
      split
      · split <;> rfl
      · rfl
    exact reads_nothing (fun s => by rw [same]) fun s => by rw [same]
  unfold parseRest
  refine reads_parseIds.bind fun _ => (reads_fetch smb2SigLen).bind fun signature => (checked signature).bind fun _ => ?_
  exact reads_nothing (fun _ => rfl) fun _ => rfl

theorem reads_smb2RqParseHeader : Reads Rq.terms (smb2RqParseHeader checks sessionp iod false) 64 :=
  (reads_nothing (fun _ => rfl) fun _ => rfl).bind fun s =>
    reads_parseCredits.bind fun _ => reads_parseRest checks sessionp iod s.mdp

theorem smb2RqParseHeader_eq_ok {checks : Checks} {sessionp : SmbSession} {iod : SmbIod} {s next : Parse}
    {outcome : Outcome} (done : smb2RqParseHeader checks sessionp iod false s = (.ok outcome, next)) :
    ∃ rqp : Rq, rqp.terms = s.rqp.terms ∧ rqp.rspnextcmd = ofLe (slice s.mdp.rest 20 4) ∧
      (encryptionOn sessionp rqp = false → (sessionp.securitySignature || rqp.signed) = true →
        smb2RqVerify checks sessionp iod rqp s.mdp (slice s.mdp.rest smb2SigOff smb2SigLen) = none) := by
  obtain ⟨_, _, got, done⟩ := of_bind_eq_ok done
  cases got
  obtain ⟨_, s1, credits, done⟩ := of_bind_eq_ok done
  obtain ⟨-, rest1, terms1⟩ := reads_parseCredits.succeeds credits
  obtain ⟨_, s2, ids, done⟩ := of_bind_eq_ok done
  obtain ⟨-, rest2, terms2⟩ := reads_parseIds.succeeds ids
  obtain ⟨signature, s3, fetched, done⟩ := of_bind_eq_ok done
  obtain ⟨-, -, rfl, same⟩ := fetch_eq_ok fetched
  obtain ⟨_, s4, checked, -⟩ := of_bind_eq_ok done
  refine ⟨s2.rqp, terms2.trans terms1, ?_, fun off signed => ?_⟩
  · rw [parseIds_rspnextcmd ids, rest1, slice, List.drop_drop]
    rfl
  · rw [rest2, rest1, List.drop_drop] at checked
    have verdict : checkReply checks sessionp iod s.mdp (slice s.mdp.rest smb2SigOff smb2SigLen) s3 = (.ok (), s4) :=
      checked
    simp only [checkReply, same, off, signed, Bool.not_false, Bool.and_self, if_true] at verdict
    split at verdict
    · assumption
    · cases verdict

end SmbClient.Receive
