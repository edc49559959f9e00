import SmbClient.Lib.Runs
import SmbClient.Lib.Slots

/-! The iods of a session, one for each channel: the list of them, the session's main iod, failover to an
alternate channel, and the end of iods and of the session. Each step is what a thread does under the session's
iod list lock; a thread's progress between two such steps is kept in the state. -/

namespace SmbClient.Channels
open SmbClient.Lib

inductive IodState
  | notConn | connect | tranActive | negoActive | ssnSetup | sessionActive | dead | reconnectAgain | reconnect
  deriving DecidableEq, Repr

structure Iod where
  state : IodState := .notConn
  shutdown : Bool := false
  running : Bool := false
  reconnect : Bool := false
  startReconnect : Bool := false
  alternateChannel : Bool := false
  inactiveChannel : Bool := false
  refCnt : Nat := 0
  deriving DecidableEq, Repr

structure Failover where
  iod : Nat
  altIod : Option Nat := none
  attempts : Nat := 10
  deriving DecidableEq, Repr

structure Session where
  iods : Slots Iod := []
  iodTailq : List Nat := []
  sessionIod : Option Nat := none
  roundRobinIod : Option Nat := none
  shuttingDown : Bool := false
  /-- What `smb_session_free` has taken off the list. -/
  mainIod : Option Nat := none
  /-- Created by `smb_session_establish_alternate_connection`, which has not set the flag yet. -/
  unmarked : List Nat := []
  failovers : List Failover := []
  /-- The references that callers have and that are not given back yet. -/
  held : List Nat := []
  deriving DecidableEq, Repr

namespace Session

variable (s : Session)

def iod (id : Nat) : Iod := (s.iods.lookup id).getD {}

def modifyIod (id : Nat) (f : Iod → Iod) : Session := { s with iods := s.iods.modify id f }

/-! ## Creation -/

def smbIodCreate (started : Bool) : Session × Option Nat :=
  if s.shuttingDown then (s, none)
  else
    let id := s.iods.length
    let s :=
      { s with
        iods := s.iods.alloc {}
        sessionIod := if s.iodTailq.isEmpty then some id else s.sessionIod
        iodTailq := s.iodTailq ++ [id] }
    if started then (s, some id)
    -- the iod is freed, and stays on the list
    else ({ s with iods := s.iods.free id }, none)

def smbSessionEstablishAlternateConnection (started : Bool) : Session :=
  match s.smbIodCreate started with
  | (s, some id) => { s with unmarked := id :: s.unmarked }
  | (s, none) => s

/-! ## References -/

def smbIodGetMainIod : Option Nat :=
  s.iodTailq.head?.filter fun id => (s.iod id).running && !(s.iod id).shutdown

def usable (iod : Iod) : Bool :=
  iod.state == .sessionActive && iod.running && !iod.reconnect && !iod.startReconnect && !iod.shutdown

def smbIodGetAnyIod : Option Nat :=
  let rest :=
    match s.roundRobinIod with
    | none => s.iodTailq
    | some id => (s.iodTailq.dropWhile (· != id)).tail
  ((rest ++ s.iodTailq).find? fun id => usable (s.iod id) && !(s.iod id).inactiveChannel).or s.iodTailq.head?

def smbIodGetNonMainIod (forceInactive : Bool) : Option Nat :=
  let suitable := s.iodTailq.filter fun id => usable (s.iod id) && (s.iod id).alternateChannel
  let active := if forceInactive then none else suitable.find? fun id => !(s.iod id).inactiveChannel
  active.or (suitable.filter fun id => (s.iod id).inactiveChannel).getLast?

def smbIodRef (id : Nat) : Session :=
  s.modifyIod id fun iod => { iod with refCnt := iod.refCnt + 1 }

def smbIodRel (id : Nat) : Option Session :=
  if (s.iod id).refCnt = 0 then none else some (s.modifyIod id fun iod => { iod with refCnt := iod.refCnt - 1 })

def hold : Option Nat → Session
  | none => s
  | some id => { s.smbIodRef id with held := id :: s.held }

/-! ## Failover -/

def failsOver (iod : Iod) : Bool :=
  iod.running && !iod.alternateChannel && !iod.reconnect &&
    (iod.state == .sessionActive || iod.state == .reconnectAgain || iod.state == .reconnect)

def smbIodProclaimMain (iod iodMain : Nat) : Option Session :=
  if (s.iod iod).shutdown || (s.iod iodMain).shutdown then none
  else
    let s := s.modifyIod iodMain fun iod => { iod with alternateChannel := true }
    let s := s.modifyIod iod fun iod => { iod with alternateChannel := false }
    some { s with roundRobinIod := none, iodTailq := iod :: s.iodTailq.erase iod, sessionIod := some iod }

def findAlternate (failover : Failover) : Session :=
  let others := s.failovers.erase failover
  match s.smbIodGetNonMainIod false with
  | none => { s with failovers := others }
  | some alt =>
    let s := (s.smbIodRef alt).modifyIod alt fun iod => { iod with inactiveChannel := false }
    { s with failovers := { failover with altIod := some alt } :: others }

def proclaimed (failover : Failover) (alt : Nat) : Option Session :=
  let others := s.failovers.erase failover
  match s.smbIodProclaimMain alt failover.iod with
  | some s => ({ s with failovers := others }).smbIodRel alt
  | none => do
      let s ← s.smbIodRel alt
      if 1 < failover.attempts then
        some { s with failovers := { failover with altIod := none, attempts := failover.attempts - 1 } :: others }
      -- the reference is given back a second time
      else ({ s with failovers := others }).smbIodRel alt

/-! ## The end -/

def threadEnds (id : Nat) : Option Session :=
  if (s.iod id).alternateChannel then
    if (s.iod id).refCnt = 0 then
      some { s with roundRobinIod := none, iodTailq := s.iodTailq.erase id, iods := s.iods.free id }
    else none
  else some (s.modifyIod id fun iod => { iod with running := false })

def freeIod (id : Nat) : Session :=
  if (s.iod id).alternateChannel then s.modifyIod id fun iod => { iod with shutdown := true }
  else { s with mainIod := some id, roundRobinIod := none, iodTailq := s.iodTailq.erase id }

def smbSessionFree : Session := s.iodTailq.foldl freeIod { s with shuttingDown := true }

/-! ## Steps -/

inductive Event
  /-- `smb_session_create`. -/
  | create (started : Bool)
  | establish (started : Bool)
  | mark (id : Nat)
  | threadStarts (id : Nat)
  /-- The iod's own progress. -/
  | progress (id : Nat) (state : IodState) (shutdown reconnect startReconnect inactiveChannel : Bool)
  | getMain
  | getAny
  | getNonMain (forceInactive : Bool)
  | rel (id : Nat)
  | startFailover (id : Nat)
  | findAlternate (failover : Failover)
  | proclaimed (failover : Failover)
  | threadEnds (id : Nat)
  | free
  | destroyMain
  deriving DecidableEq, Repr

def step : Event → Option Session
  | .create started => if s.iods = [] then some (s.smbIodCreate started).1 else none
  | .establish started => if s.iods = [] then none else some (s.smbSessionEstablishAlternateConnection started)
  | .mark id =>
    if id ∈ s.unmarked then
      some { s.modifyIod id fun iod => { iod with alternateChannel := true } with unmarked := s.unmarked.erase id }
    else none
  | .threadStarts id => some (s.modifyIod id fun iod => { iod with running := true })
  | .progress id state shutdown reconnect startReconnect inactiveChannel =>
    -- no connection is made for an iod before it is marked
    if id ∈ s.unmarked then none
    else some (s.modifyIod id fun iod =>
      { iod with state, reconnect, startReconnect, inactiveChannel, shutdown := iod.shutdown || shutdown })
  | .getMain => some (s.hold s.smbIodGetMainIod)
  | .getAny => some { s.hold s.smbIodGetAnyIod with roundRobinIod := s.smbIodGetAnyIod.or s.roundRobinIod }
  | .getNonMain forceInactive => some (s.hold (s.smbIodGetNonMainIod forceInactive))
  | .rel id => if id ∈ s.held then ({ s with held := s.held.erase id }).smbIodRel id else none
  | .startFailover id =>
    if failsOver (s.iod id) ∧ ∀ failover ∈ s.failovers, failover.iod ≠ id then
      some { s with failovers := { iod := id } :: s.failovers }
    else none
  | .findAlternate failover =>
    if failover ∈ s.failovers ∧ failover.altIod = none then some (s.findAlternate failover) else none
  | .proclaimed failover =>
    if failover ∈ s.failovers then failover.altIod.bind (s.proclaimed failover) else none
  | .threadEnds id =>
    -- the thread is not one that waits in a failover
    if (s.iod id).running ∧ (s.iod id).shutdown ∧ ∀ failover ∈ s.failovers, failover.iod ≠ id then s.threadEnds id
    else none
  | .free => if s.shuttingDown then none else some s.smbSessionFree
  | .destroyMain =>
    if s.shuttingDown ∧ s.iodTailq = [] then
      s.mainIod.bind fun id =>
        -- `smb_iod_destroy` waits for the thread
        if (s.iod id).running then none else some { s with iods := s.iods.free id, mainIod := none }
    else none

end Session

end SmbClient.Channels
