import SmbClient.Compression.Decompress
import SmbClient.Crypt.Decrypt
import SmbClient.Lib.Runs
import SmbClient.Lib.Slots
import SmbClient.Receive.Header

/-!
The receive path of one channel: `smb_nbst_recv` takes a message off the transport, `smb_iod_recvall`
opens it and hands it to the request that waits for it, and the thread of that request parses it.
-/

namespace SmbClient.Receive
open SmbClient.Lib SmbClient.Mbuf SmbClient.Session SmbClient.Credits SmbClient.Signing
  SmbClient.Crypt SmbClient.Compression

structure Env where
  kpi : MbufKpi
  kalloc : Kalloc
  cc : CcModes
  codec : Codec
  compressionLog : Bool
  layout : Bytes → Chain
  layout_bytes : ∀ data, bytes (layout data) = data
  checks : Checks
  sha512 : Bytes → Bytes
  md5 : Bytes → Bytes
  errClassCodesToNtstatus : Nat → Nat → Nat

def smb2Signature : Bytes := [0xfe, 0x53, 0x4d, 0x42]
def smb2SignatureCompression : Bytes := [0xfc, 0x53, 0x4d, 0x42]
def smbSignature : Bytes := [0xff, 0x53, 0x4d, 0x42]
def smbHdrLen : Nat := 32

variable (env : Env)

def smbNbstRecv (sessionp : SmbSession) (mpp : Chain) : Except Errno Chain × SmbSession :=
  match env.kpi.pullup mpp 1 with
  | none => (.error .enomem, sessionp)
  | some m =>
    if (m.headD []).head? = some 0xfd then smb3MsgDecrypt env.kpi env.kalloc env.cc sessionp m
    else (.ok m, sessionp)

inductive Packet
  | smb2 (m : Chain)
  | smb1 (m : Chain)
  deriving DecidableEq, Repr

def Packet.chain : Packet → Chain
  | smb2 m => m
  | smb1 m => m

def openPacket (sessionp : SmbSession) (smb1Allowed : Bool) (m : Chain) : Option Packet × Bool :=
  match env.kpi.pullup m smbHdrLen with
  | none => (none, smb1Allowed)
  | some m =>
    let hp := m.headD []
    if hp.head? = some 0xfe ∨ hp.head? = some 0xfc then
      match env.kpi.pullup m smb2HdrLen with
      | none => (none, smb1Allowed)
      | some m =>
        let hp := m.headD []
        if hp.take 4 ≠ smb2Signature ∧ hp.take 4 ≠ smb2SignatureCompression then (none, smb1Allowed)
        else if sessionp.dialect.smb3OrLater ∧ sessionp.serverCompressionAlgorithmsMap ≠ 0 ∧
            hp.take 4 = smb2SignatureCompression then
          match (smb2RqDecompressRead env.codec env.kalloc env.compressionLog sessionp m).result with
          | .error _ => (none, false)
          | .ok none => (some (.smb2 m), false)
          | .ok (some content) => (some (.smb2 (env.layout content)), false)
        else (some (.smb2 m), false)
    else if hp.take 4 ≠ smbSignature then (none, smb1Allowed)
    else if smb1Allowed then (some (.smb1 m), smb1Allowed)
    else (none, smb1Allowed)

structure Smb2Header where
  status : Nat
  creditReqrsp : Nat
  flags : Nat
  nextCommand : Nat
  messageId : Nat
  asyncId : Nat

def Smb2Header.ofBytes (data : Bytes) : Smb2Header where
  status := ofLe (slice data 8 4)
  creditReqrsp := ofLe (slice data 14 2)
  flags := ofLe (slice data 16 4)
  nextCommand := ofLe (slice data 20 4)
  messageId := ofLe (slice data 24 8)
  asyncId := ofLe (slice data 32 8)

def statusPending : Nat := 0x103
def statusMoreProcessingRequired : Nat := 0xC0000016
def smb2FlagsSigned : Nat := 0x8
def smbrAsync : Nat := 0x2

def Smb2Header.pending (hdr : Smb2Header) : Bool := hdr.flags &&& smbrAsync != 0 && hdr.status == statusPending

structure Delivery where
  sessionp : SmbSession
  wire : Chain
  deriving DecidableEq, Repr

structure Reply where
  mdp : MdChain
  delivery : Delivery
  deriving DecidableEq, Repr

structure Smb1Ids where
  mid : Nat := 0
  cmd : Nat := 0
  pidHigh : Nat := 0
  pidLow : Nat := 0
  deriving DecidableEq, Repr

structure Waiting where
  rqp : Rq
  reply : Option Reply := none
  smb1 : Option Smb1Ids := none
  deriving DecidableEq, Repr

def Waiting.smb1Ids (w : Waiting) : Smb1Ids := w.smb1.getD {}

structure Attempt where
  id : Nat
  owner : Nat
  smb1 : Bool
  sessionp : SmbSession
  iod : SmbIod
  rqp : Rq
  reply : Reply
  deriving DecidableEq, Repr

structure Receiver where
  sessionp : SmbSession
  iod : SmbIod
  credits : CreditIod
  rqs : Slots Waiting
  rqlist : List (List Nat)
  smb1Allowed : Bool
  accepted : List Attempt
  deriving DecidableEq, Repr

def Receiver.initial (sessionp : SmbSession) (iod : SmbIod) (credits : CreditIod) : Receiver :=
  ⟨sessionp, iod, credits, [], [], true, []⟩

structure Match where
  id : Nat
  chain : List Nat
  cmpd : Bool
  nonCompoundReplies : Bool

def matchChain (rqs : Slots Waiting) (hdr : Smb2Header) (nonCompoundReplies : Bool) : List Nat → Option Match
  | [] => none
  | head :: members =>
    (rqs.lookup head).bind fun w =>
      if w.rqp.messageid = hdr.messageId then
        if w.rqp.compound && hdr.nextCommand == 0 && !hdr.pending then
          some ⟨head, head :: members, true, true⟩
        else some ⟨head, head :: members, false, nonCompoundReplies⟩
      else if (!w.rqp.compound || !nonCompoundReplies) && !hdr.pending then none
      else
        (members.find? fun id => (rqs.lookup id).any fun member => member.rqp.messageid == hdr.messageId).map
          fun id => ⟨id, head :: members, true, nonCompoundReplies⟩

def Smb1Ids.ofBytes (data : Bytes) : Smb1Ids where
  mid := ofLe (slice data 30 2)
  cmd := ofLe (slice data 4 1)
  pidHigh := ofLe (slice data 12 2)
  pidLow := ofLe (slice data 26 2)

def preAuthIntegrityHashUpdate (iod : SmbIod) (m : Chain) : SmbIod :=
  { iod with preAuthIntHash := env.sha512 (iod.preAuthIntHash ++ bytes m) }

def noteLogin (sessionp : SmbSession) (iod : SmbIod) (rqp : Rq) (hdr : Smb2Header) (m : Chain) : SmbIod :=
  match rqp.command with
  | .negotiate =>
    -- the reply to an SMB 1 Negotiate is left out of the hash
    if iod.preAuthIntHash ≠ List.replicate 64 0 then
      let iod := preAuthIntegrityHashUpdate env iod m
      { iod with preAuthIntHashNeg := iod.preAuthIntHash }
    else iod
  | .sessionSetup =>
    if sessionp.dialect = .smb311 ∧ hdr.status = statusMoreProcessingRequired then
      preAuthIntegrityHashUpdate env iod m
    else if sessionp.dialect.smb3OrLater ∧ hdr.status = 0 ∧ hdr.flags &&& smb2FlagsSigned ≠ 0 then
      { iod with
        sessSetupReply := some ((bytes m).take (64 * 1024))
        useChannelKeys := iod.useChannelKeys || iod.alternateChannel
        sessSetupMessageId := rqp.messageid }
    else iod
  | _ => iod

def preprocessReply (sessionp : SmbSession) (iod : SmbIod) (credits : CreditIod) (rqp : Rq)
    (mdp : MdChain) : CreditIod × Rq :=
  if rqp.response && !rqp.compound then
    match smb2RqParseHeader env.checks sessionp iod true ⟨mdp, rqp, credits⟩ with
    | (.ok _, last) => (last.credits, { last.rqp with hdrPreparsed := true })
    | (.error _, last) => (last.credits, last.rqp)
  else (credits, rqp)

def smbVerify (mackey : Bytes) (mdp : MdChain) : Bool :=
  let data := bytes mdp.top
  slice data 14 8 = (env.md5 (mackey ++ data.take 14 ++ List.replicate 8 0 ++ data.drop 22)).take 8

def smbRqVerify (sessionp : SmbSession) (mdp : MdChain) : Option Errno :=
  match sessionp.mackey with
  | none => none
  | some mackey =>
    if !sessionp.securitySignature || sessionp.anonymousAccess || smbVerify env mackey mdp then none
    else some .eauth

def smb1Status (flags2 : Nat) : Parser Unit := update fun rqp =>
  if flags2 &&& 0x4000 ≠ 0 then rqp
  else { rqp with ntstatus := env.errClassCodesToNtstatus (rqp.ntstatus % 256) (rqp.ntstatus / 65536) }

def checkSmb1 (sessionp : SmbSession) : Parser Unit := fun s =>
  match smbRqVerify env sessionp s.mdp with
  | none => (.ok (), s)
  | some e => (.error e, s)

def concludeSmb1 : Parser Outcome := fun s =>
  let rperror := env.checks.ntstatusToErrno s.rqp.ntstatus
  let moreData := rperror.isSome && s.rqp.ntstatus == statusBufferTooSmall
  (.ok { rperror, shareDead := rperror == some .enetreset && s.rqp.share.isSome },
    { s with rqp := { s.rqp with moreData } })

def smb1RqReply (sessionp : SmbSession) : Parser Outcome := do
  let _protocol ← fetchUint 4
  let _command ← fetchUint 1
  let ntstatus ← fetchUint 4
  update fun rqp => { rqp with ntstatus }
  let _flags ← fetchUint 1
  let flags2 ← fetchUint 2
  smb1Status env flags2
  let _pidHigh ← fetchUint 2
  let _signatureLow ← fetchUint 4
  let _signatureHigh ← fetchUint 4
  let _reserved ← fetchUint 2
  let _tid ← fetchUint 2
  let _pidLow ← fetchUint 2
  let _uid ← fetchUint 2
  let _mid ← fetchUint 2
  checkSmb1 env sessionp
  concludeSmb1 env

def Attempt.parser (a : Attempt) : Parser Outcome :=
  if a.smb1 then smb1RqReply env a.sessionp else smb2RqParseHeader env.checks a.sessionp a.iod false

theorem reads_smb1RqReply (sessionp : SmbSession) : Reads Rq.terms (smb1RqReply env sessionp) 32 := by
  have checked : Reads Rq.terms (checkSmb1 env sessionp) 0 := by
    have same (s : Parse) : (checkSmb1 env sessionp s).2 = s := by
      unfold checkSmb1
      split <;> rfl
    exact reads_nothing (fun s => by rw [same]) fun s => by rw [same]
  have converted (flags2 : Nat) (rqp : Rq) : Rq.terms (if flags2 &&& 0x4000 ≠ 0 then rqp else
      { rqp with ntstatus := env.errClassCodesToNtstatus (rqp.ntstatus % 256) (rqp.ntstatus / 65536) }) =
        rqp.terms := by
    split <;> rfl
  unfold smb1RqReply
  refine .fetchUint fun _ => .fetchUint fun _ => .fetchUint fun _ => .update (fun _ => rfl) ?_
  refine .fetchUint fun _ => .fetchUint fun flags2 => .update (converted flags2) ?_
  refine .fetchUint fun _ => .fetchUint fun _ => .fetchUint fun _ => .fetchUint fun _ => ?_
  refine .fetchUint fun _ => .fetchUint fun _ => .fetchUint fun _ => .fetchUint fun _ => ?_
  exact checked.bind fun _ => reads_nothing (fun _ => rfl) fun _ => rfl

theorem Attempt.suffix_parser (a : Attempt) (s : Parse) : (a.parser env s).2.mdp.rest <:+ s.mdp.rest := by
  unfold Attempt.parser
  split
  · exact (reads_smb1RqReply env a.sessionp).advances s
  · exact (reads_smb2RqParseHeader env.checks a.sessionp a.iod).advances s

inductive Event
  | update (sessionp : SmbSession) (iod : SmbIod)
  | enqueue (chain : List Rq)
  | enqueueSmb1 (ids : Smb1Ids)
  | recvall
  | frame (wire : Chain)
  | rqReply (id : Nat)
  | parseNext (id head : Nat)
  | getMem (id size : Nat)
  | remove (id : Nat)
  | done (id : Nat)

namespace Receiver

variable (env : Env) (s : Receiver)

def enqueue (chain : List Rq) : Receiver :=
  { s with
    rqs := chain.foldl (fun rqs rqp => rqs.alloc { rqp }) s.rqs
    rqlist := s.rqlist ++ [List.range' s.rqs.length chain.length] }

def enqueueSmb1 (ids : Smb1Ids) : Receiver :=
  let rqp : Rq := { command := .negotiate, creditcharge := 0, creditsrequested := 0 }
  { s with
    rqs := s.rqs.alloc { rqp, smb1 := some ids }
    rqlist := s.rqlist ++ [[s.rqs.length]] }

def notify (id : Nat) : Receiver :=
  { s with rqs := s.rqs.modify id fun w => { w with rqp := { w.rqp with state := .notified } } }

def wake (found : Match) : Receiver :=
  let missing := found.chain.any fun id => (s.rqs.lookup id).any fun w => !w.rqp.response
  if s.sessionp.nonCompoundReplies && found.cmpd && missing then s
  else s.notify (if found.cmpd then found.chain.headD found.id else found.id)

def deliver (found : Match) (w : Waiting) (m : Chain) (delivery : Delivery) : Receiver :=
  match w.reply with
  | some _ => { s with rqs := s.rqs.store found.id w }
  | none =>
    let mdp := mdInitm m
    let granted := preprocessReply env s.sessionp s.iod s.credits w.rqp mdp
    wake { s with
      credits := granted.1
      rqs := s.rqs.store found.id { w with rqp := granted.2, reply := some ⟨mdp, delivery⟩ } } found

def interim (id : Nat) (w : Waiting) (hdr : Smb2Header) : Receiver :=
  let rqp := { w.rqp with rspasyncid := hdr.asyncId, rspcreditsgranted := hdr.creditReqrsp }
  { s with
    credits := smb2RqCreditIncrement s.credits rqp.toCreditRq
    rqs := s.rqs.store id { w with rqp } }

def smb2Packet (m : Chain) (delivery : Delivery) : Receiver :=
  let hdr := Smb2Header.ofBytes (bytes m)
  match s.rqlist.findSome? (matchChain s.rqs hdr s.sessionp.nonCompoundReplies) with
  | none => s
  | some found =>
    match s.rqs.lookup found.id with
    | none => s
    | some w =>
      let s := { s with
        sessionp := { s.sessionp with nonCompoundReplies := found.nonCompoundReplies }
        iod := noteLogin env s.sessionp s.iod w.rqp hdr m }
      if hdr.pending then s.interim found.id w hdr
      else s.deliver env found { w with rqp := { w.rqp with response := true } } m delivery

def smb1Match (ids : Smb1Ids) : Option (Nat × Waiting) :=
  s.rqlist.findSome? fun chain =>
    chain.head?.bind fun id =>
      (s.rqs.lookup id).bind fun w => if w.smb1Ids = ids then some (id, w) else none

def smb1Packet (m : Chain) (delivery : Delivery) : Receiver :=
  match s.smb1Match (.ofBytes (bytes m)) with
  | none => s
  | some (id, w) => s.deliver env ⟨id, [id], false, s.sessionp.nonCompoundReplies⟩ w m delivery

def frame (wire : Chain) : Receiver :=
  let received := smbNbstRecv env s.sessionp wire
  match received.1 with
  | .error _ => { s with sessionp := received.2, smb1Allowed := true }
  | .ok m =>
    let opened := openPacket env received.2 s.smb1Allowed m
    let next := { s with sessionp := received.2, smb1Allowed := opened.2 }
    match opened.1 with
    | none => next
    | some (.smb2 m) => next.smb2Packet env m ⟨s.sessionp, wire⟩
    | some (.smb1 m) => next.smb1Packet env m ⟨s.sessionp, wire⟩

def attempt : Event → Option Attempt
  | .rqReply id =>
    (s.rqs.lookup id).bind fun w =>
      if w.rqp.state = .notified ∧ w.smb1 = none then
        w.reply.map fun reply => ⟨id, id, !w.rqp.response, s.sessionp, s.iod, w.rqp, reply⟩
      else none
  | .parseNext id head =>
    (s.rqs.lookup id).bind fun w =>
      let owner := if w.rqp.response then id else head
      ((s.rqs.lookup owner).bind (·.reply)).map fun reply =>
        ⟨id, owner, false, s.sessionp, s.iod, w.rqp, reply⟩
  | _ => none

def parse (a : Attempt) : Receiver :=
  let ran := a.parser env ⟨a.reply.mdp, a.rqp, s.credits⟩
  let rqs := s.rqs.modify a.owner fun w => { w with reply := some { a.reply with mdp := ran.2.mdp } }
  { s with
    credits := ran.2.credits
    rqs := rqs.modify a.id fun w => { w with rqp := ran.2.rqp }
    accepted := match ran.1 with
      | .ok _ => a :: s.accepted
      | .error _ => s.accepted }

def getMem (id size : Nat) : Receiver :=
  { s with rqs := s.rqs.modify id fun w =>
    { w with reply := w.reply.map fun reply => { reply with mdp := (mdGetMem reply.mdp size).mdp } } }

def step : Event → Option Receiver
  | .update sessionp iod => some { s with sessionp, iod }
  | .enqueue chain => some (s.enqueue chain)
  | .enqueueSmb1 ids => some (s.enqueueSmb1 ids)
  | .recvall => some { s with smb1Allowed := true }
  | .frame wire => some (s.frame env wire)
  | .rqReply id => (s.attempt (.rqReply id)).map (s.parse env)
  | .parseNext id head => (s.attempt (.parseNext id head)).map (s.parse env)
  | .getMem id size => some (s.getMem id size)
  | .remove id => some { s with rqlist := s.rqlist.filter fun chain => chain.head? != some id }
  | .done id => some { s with rqs := s.rqs.free id }

theorem smb1Match_lookup {s : Receiver} {ids : Smb1Ids} {id : Nat} {w : Waiting}
    (found : s.smb1Match ids = some (id, w)) : s.rqs.lookup id = some w ∧ w.smb1Ids = ids := by
  obtain ⟨chain, _, found⟩ := List.exists_of_findSome?_eq_some found
  obtain ⟨head, _, found⟩ := Option.bind_eq_some_iff.mp found
  obtain ⟨waiting, lookup, found⟩ := Option.bind_eq_some_iff.mp found
  split at found
  · rename_i same
    cases found
    exact ⟨lookup, same⟩
  · cases found

end Receiver
end SmbClient.Receive
