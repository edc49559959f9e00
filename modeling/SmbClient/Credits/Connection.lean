import SmbClient.Lib.Runs
import SmbClient.Lib.Slots
import SmbClient.Credits.Accounting

/-! One connection from its first request on: the requests of the client, its queue, and the server's
own count of the credits it has given out. Each event runs under the credit lock or the queue lock of
the source, so any interleaving of its threads is a sequence of events. -/

namespace SmbClient.Credits
open SmbClient.Lib SmbClient.Session

structure Request where
  rqp : CreditRq
  mdTop : Bool := false
  unread : Option Nat := none
  deriving DecidableEq, Repr

structure Server where
  outstanding : Int := 1
  awaiting : List Nat := []
  deriving DecidableEq, Repr

structure Ledger where
  ignored : Int := 1
  takenBack : Int := 0
  uncharged : Int := 0
  deriving DecidableEq, Repr

def Ledger.leeway (l : Ledger) : Int := l.takenBack + l.uncharged - l.ignored

structure Connection where
  iod : CreditIod := {}
  rqs : Slots Request := []
  rqlist : List (List Nat) := []
  server : Server := {}
  ledger : Ledger := {}
  started : Bool := false
  deriving DecidableEq, Repr

def Connection.initial : Connection := {}

structure Build where
  command : Command
  iodContext : Bool := false
  noBlock : Bool := false
  async : Bool := false
  compound : Bool := false
  rqLen : Option Nat := none
  smb2 : Bool := true
  shareGoingAway : Bool := false
  headerFails : Bool := false
  deriving DecidableEq, Repr

structure Member where
  id : Nat
  head : Bool
  deriving DecidableEq, Repr

inductive Event
  | build (rq : Build)
  | sleepTimedOut
  | enqueue (chain : List Nat) (internal : Bool)
  | send (chain : List Nat) (now : Nat)
  | interim (id credits : Nat)
  | reply (id credits : Nat) (wake : Bool)
  | parse (id : Nat)
  | timeout (id : Nat)
  | echoSent (id : Nat)
  | sendall
  | remove (id : Nat)
  | done (id : Nat)
  | creditStart
  deriving DecidableEq, Repr

namespace Connection

variable (c : Connection)

def queued (id : Nat) : Option Request :=
  if c.rqlist.flatten.contains id then c.rqs.lookup id else none

def smb2RqInitInternal (rq : Build) : Connection :=
  let rqp : CreditRq :=
    { command := rq.command, iodContext := rq.iodContext, noBlock := rq.noBlock, async := rq.async,
      compound := rq.compound }
  match smb2RqCreditDecrement rq.smb2 rq.shareGoingAway c.iod rqp rq.rqLen with
  | .done iod rqp _ =>
    -- without a header the request is gone with its charge: its `sr_iod` is cleared first
    if rq.headerFails then { c with iod } else { c with iod, rqs := c.rqs.alloc { rqp } }
  | .failed _ => c
  | .sleeps iod => { c with iod }

def members : List Nat → List Member
  | [] => []
  | id :: rest =>
    let follows := (c.rqs.lookup id).any fun r => r.rqp.compound && r.rqp.command != .negotiate
    ⟨id, true⟩ :: if follows then rest.map (⟨·, false⟩) else []

def assignMessageId (m : Member) : Option Connection :=
  (c.rqs.lookup m.id).map fun r =>
    let (iod, rqp) := smb2RqMessageIdIncrement m.head c.iod r.rqp
    { c with iod, rqs := c.rqs.store m.id { r with rqp } }

def enqueue (chain : List Nat) (internal : Bool) : Option Connection :=
  (run assignMessageId c (c.members chain)).map fun c =>
    { c with rqlist := if internal then chain :: c.rqlist else c.rqlist ++ [chain] }

def transmit (id : Nat) : Option Connection :=
  (c.rqs.lookup id).bind fun r =>
    if r.rqp.reqSent || r.rqp.state != .notSent then none
    else
      let used : Int := max 1 r.rqp.creditcharge
      some { c with
        rqs := c.rqs.store id { r with rqp := { r.rqp with reqSent := true } }
        server := { outstanding := c.server.outstanding - used, awaiting := id :: c.server.awaiting }
        ledger := { c.ledger with uncharged := c.ledger.uncharged + if r.rqp.charged then 0 else used } }

def markSent (id now : Nat) : Option Connection :=
  (c.rqs.lookup id).map fun r =>
    { c with rqs := c.rqs.store id { r with rqp := { r.rqp with state := .sent, creditTimesent := now } } }

def send (chain : List Nat) (now : Nat) : Option Connection :=
  if c.rqlist.contains chain then
    (run transmit c chain).bind fun c => chain.head?.bind fun id => c.markSent id now
  else none

def dropGrant (credits : Int) : Connection :=
  { c with ledger := { c.ledger with ignored := c.ledger.ignored + credits } }

def interim (id credits : Nat) : Option Connection :=
  if c.server.awaiting.contains id then
    let c := { c with server := { c.server with outstanding := c.server.outstanding + credits } }
    match c.queued id with
    | none => some (c.dropGrant credits)
    | some r =>
      let rqp := { r.rqp with rspcreditsgranted := credits }
      some (dropGrant
        { c with iod := smb2RqCreditIncrement c.iod rqp, rqs := c.rqs.store id { r with rqp } }
        (credits - rqp.credited credits))
  else none

def preprocessReply (iod : CreditIod) (rqp : CreditRq) (credits : Nat) : CreditIod × CreditRq :=
  if rqp.response && !rqp.compound then
    let rqp := { rqp with rspcreditsgranted := credits }
    (smb2RqCreditIncrement iod rqp, { rqp with hdrPreparsed := true })
  else (iod, rqp)

def reply (id credits : Nat) (wake : Bool) : Option Connection :=
  if c.server.awaiting.contains id then
    let c := { c with server :=
      { outstanding := c.server.outstanding + credits, awaiting := c.server.awaiting.erase id } }
    match c.queued id with
    | none => some (c.dropGrant credits)
    | some r =>
      let rqp := { r.rqp with response := true }
      if r.mdTop then
        some (dropGrant { c with rqs := c.rqs.store id { r with rqp } } credits)
      else
        let (iod, rqp) := preprocessReply c.iod rqp credits
        let rqp := { rqp with state := if wake then .notified else rqp.state }
        some (dropGrant { c with iod, rqs := c.rqs.store id { rqp, mdTop := true, unread := some credits } }
          (credits - rqp.credited credits))
  else none

def parse (id : Nat) : Option Connection :=
  (c.rqs.lookup id).bind fun r =>
    r.unread.map fun credits =>
      let rqp := { r.rqp with rspcreditsgranted := credits }
      let iod := if rqp.hdrPreparsed then c.iod else smb2RqCreditIncrement c.iod rqp
      { c with iod, rqs := c.rqs.store id { r with rqp, unread := none } }

def pretendUnsent (id : Nat) (r : Request) (state : RqState) : Connection :=
  { c with
    rqs := c.rqs.store id { r with rqp := { r.rqp with reqSent := false, state } }
    ledger := { c.ledger with
      takenBack := c.ledger.takenBack + if r.rqp.charged then (r.rqp.creditcharge : Int) else 0 } }

def timeout (id : Nat) : Option Connection :=
  (c.queued id).bind fun r =>
    if r.rqp.reqSent && r.rqp.state == .sent && !r.rqp.async then some (c.pretendUnsent id r .notified)
    else none

def echoSent (id : Nat) : Option Connection :=
  (c.rqs.lookup id).bind fun r =>
    if r.rqp.reqSent && r.rqp.command == .echo then some (c.pretendUnsent id r r.rqp.state) else none

def oldestPending : Option CreditRq :=
  c.rqlist.foldl (fun oldest chain =>
    match chain.head?.bind c.rqs.lookup with
    | none => oldest
    | some r =>
      if r.rqp.state == .sent && !r.rqp.async then
        match oldest with
        | none => some r.rqp
        | some first => if first.creditTimesent > r.rqp.creditTimesent then some r.rqp else some first
      else oldest) none

def sendall : Connection :=
  let oldest := c.oldestPending
  let messageId := (oldest.map (·.messageid)).getD 0
  let iod := { c.iod with reqPending := oldest.isSome, oldestMessageId := messageId }
  { c with iod := if messageId ≠ c.iod.oldestMessageId then wakeWaiter iod else iod }

def done (id : Nat) : Option Connection :=
  (c.rqs.lookup id).map fun r => { c with iod := smbRqDone c.iod r.rqp, rqs := c.rqs.free id }

def creditStart : Option Connection :=
  if c.started then none else some { c with iod := smb2RqCreditStart c.iod 0, started := true }

def step : Event → Option Connection
  | .build rq => some (c.smb2RqInitInternal rq)
  | .sleepTimedOut => some { c with iod := creditSleepTimedOut c.iod }
  | .enqueue chain internal => c.enqueue chain internal
  | .send chain now => c.send chain now
  | .interim id credits => c.interim id credits
  | .reply id credits wake => c.reply id credits wake
  | .parse id => c.parse id
  | .timeout id => c.timeout id
  | .echoSent id => c.echoSent id
  | .sendall => some c.sendall
  | .remove id => some { c with rqlist := c.rqlist.filter fun chain => chain.head? != some id }
  | .done id => c.done id
  | .creditStart => c.creditStart

end Connection

theorem queued_eq_some {c : Connection} {id : Nat} {r : Request} (found : c.queued id = some r) :
    c.rqs.lookup id = some r := by
  unfold Connection.queued at found
  split at found
  · exact found
  · cases found

end SmbClient.Credits
