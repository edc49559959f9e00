import SmbClient.Credits.Accounting
import SmbClient.Lib.Runs
import SmbClient.Lib.Slots
import SmbClient.ReadWrite.Reply

/-!
One call of `smb2_smb_read` or `smb2_smb_write`, with `smb2_smb_read_write_async` and
`smb2_smb_read_write_fill` below it and `smb2_smb_read_one` and `smb2_smb_write_one` below these. The
session's limits, the credits, the transport and the server come in as events.
-/

namespace SmbClient.ReadWrite
open SmbClient.Lib SmbClient.Mbuf SmbClient.Credits

def kMaxSingleIO : Nat := 1024 * 1024

structure Call where
  doRead : Bool
  auio : Uio
  /-- `SMB2_SYNC_IO`. -/
  syncIo : Bool := false
  /-- The share is `IPC$`. -/
  namedPipe : Bool := false
  /-- What a write finds in the caller's buffer. -/
  source : Nat → UInt8 := fun _ => 0

structure Limits where
  xmax : Nat
  quantumSize : Nat
  quantumNbr : Nat
  singleThread : Bool
  deriving DecidableEq, Repr

structure Allotment where
  xmax : Nat
  iod : CreditIod
  deriving DecidableEq, Repr

structure RwRq where
  auio : Uio
  ioLen : Nat
  offset : Nat
  data : Bytes
  deriving DecidableEq, Repr

structure Ack where
  offset : Nat
  data : Bytes
  count : Nat
  deriving DecidableEq, Repr

def RwRq.acked (rq : RwRq) (count : Nat) : Ack := ⟨rq.offset, rq.data, count⟩

structure Window where
  limits : Limits
  len : Nat
  savedRresid : Nat
  rresid : Nat
  master : Uio
  slots : Slots RwRq
  deriving DecidableEq, Repr

inductive Phase
  /-- Before another pass of the loop of `smb2_smb_read` or `smb2_smb_write`. -/
  | head
  /-- In `smb2_smb_read_one` or `smb2_smb_write_one`, for the caller's own uio. -/
  | one (len len32 : Nat) (short sent : Bool)
  | fill (w : Window)
  | send (w : Window)
  | wait (w : Window) (j : Nat) (done : Bool)
  /-- From the label `bad` on. -/
  | clean (w : Window) (error : Option Errno) (reconnect : Bool)
  | returned (error : Option Errno)
  deriving DecidableEq, Repr

structure State where
  uio : Uio
  stored : Stored := fun _ => none
  acks : List Ack := []
  totalSize : Int
  resid : Nat := 0
  phase : Phase := .head

abbrev Reply := Except (Errno × Bool) MdChain

inductive Event
  | next
  | start (limits : Limits)
  | alloc (allotment : Except Errno Allotment)
  | send (failed : Option (Nat × Errno))
  | reply (reply : Reply)
  /-- The reply to the request of slot `j`, and what becomes of the request that takes its place. -/
  | answer (reply : Reply) (refill : Except Errno Allotment) (enqueued : Option Errno)
  /-- The results of the requests that are still in use. -/
  | clean (outcomes : List (Option Errno))

def bytesAt (content : Nat → UInt8) (start len : Nat) : Bytes := (List.range len).map fun i => content (start + i)

def creditedLen (doRead : Bool) (iod : CreditIod) (len : Nat) : Nat :=
  (smb2RqCreditCheck iod { command := if doRead then .read else .write } len).1

variable (call : Call)

def Call.build (auio : Uio) (len : Nat) : RwRq :=
  if call.doRead then { auio, ioLen := len, offset := auio.offset, data := [] }
  else { auio := smbfsUioUpdate auio len, ioLen := len, offset := auio.offset,
         data := bytesAt call.source auio.pos len }

def smb2SmbReadWriteFill (master : Uio) (quantumSize : Nat) (allotment : Allotment) : RwRq × Uio :=
  let len := min quantumSize master.resid
  let len32 := creditedLen call.doRead allotment.iod (min allotment.xmax len)
  (call.build master len32, smbfsUioUpdate master len32)

def parseOne (s : State) (rq : RwRq) (mdp : MdChain) : Except Errno Nat × Uio × State :=
  if call.doRead then
    let r := smb2SmbParseReadOne ⟨mdp, ⟨rq.auio, s.stored⟩⟩
    (r.1, r.2.state.auio, { s with stored := r.2.state.stored })
  else
    match (smb2SmbParseWriteOne ⟨mdp, ()⟩).1 with
    | .ok n => (.ok n, rq.auio, { s with acks := s.acks ++ [rq.acked n] })
    | .error e => (.error e, rq.auio, s)

def State.failWrite (s : State) (e : Errno) : State :=
  { s with
    uio := { s.uio with resid := call.auio.resid, offset := call.auio.offset }
    phase := .returned (some e) }

def State.finishRead (s : State) (error : Option Errno) (len : Nat) : State :=
  match error with
  | some e => { s with phase := .returned (if e = .enodata then none else some e) }
  | none =>
    let phase := if s.resid = 0 ∨ s.resid < len then .returned none else .head
    { s with totalSize := s.totalSize - s.resid, phase }

def State.finishWrite (s : State) (error : Option Errno) (len : Nat) : State :=
  match error with
  | some e => s.failWrite call e
  | none =>
    if s.resid < len then s.failWrite call .eio
    else { s with totalSize := s.totalSize - s.resid, phase := .head }

def State.finish (s : State) (error : Option Errno) (len : Nat) : State :=
  if call.doRead then s.finishRead error len else s.finishWrite call error len

def begin (s : State) (limits : Limits) : Phase :=
  let len := s.totalSize.toNat
  if len ≤ min limits.xmax kMaxSingleIO ∨ call.syncIo then .one len (min limits.xmax len) false false
  else .fill { limits, len, savedRresid := s.resid, rresid := s.resid, master := s.uio, slots := [] }

def allocOne (s : State) (len len32 : Nat) (short : Bool) : Except Errno Allotment → State
  | .error e => s.finish call (some e) len
  | .ok allotment =>
    let granted := creditedLen call.doRead allotment.iod len32
    if short then
      if granted ≠ len32 then s.finish call (some .eio) len
      else { s with phase := .one len granted true true }
    else { s with phase := .one granted granted false true }

def shortRead (n len : Nat) : Bool := call.doRead && decide (n < len) && !call.namedPipe

def replyOne (s : State) (len len32 : Nat) (short : Bool) : Reply → State
  | .error (_, true) => { s with phase := .one len len32 short false }
  | .error (e, false) => s.finish call (some e) len
  | .ok mdp =>
    match parseOne call s (call.build s.uio len32) mdp with
    | (.error e, auio, s) => { s with uio := auio }.finish call (some e) len
    | (.ok n, auio, s) =>
      let s := { s with uio := auio, resid := if call.doRead then s.resid + n else n }
      if shortRead call n len32 then { s with phase := .one len (len32 - n) true false }
      else s.finish call none len

def filled (w : Window) : Phase := if w.limits.singleThread then .send w else .wait w 0 true

def fillSlot (w : Window) : Except Errno Allotment → Phase
  | .error e => .clean { w with slots := if w.limits.singleThread then [] else w.slots } (some e) false
  | .ok allotment =>
    let (rq, master) := smb2SmbReadWriteFill call w.master w.limits.quantumSize allotment
    let noCredits := rq.ioLen ≠ min w.limits.quantumSize w.master.resid
    let w := { w with master, slots := w.slots.alloc rq }
    if master.resid = 0 ∨ noCredits then filled w else .fill w

def refillSlot (w : Window) (j : Nat) (done : Bool) (rq : RwRq) (n : Nat) (auio : Uio)
    (refill : Except Errno Allotment) (enqueued : Option Errno) : Option Phase :=
  let idle := { w with slots := w.slots.free j }
  let short := shortRead call n rq.ioLen
  if short ∨ w.master.resid ≠ 0 then
    match refill with
    | .error e => if e = .enobufs then none else some (.clean idle (some e) false)
    | .ok allotment =>
      let master := if short then { auio with resid := rq.ioLen - n } else w.master
      let (next, moved) := smb2SmbReadWriteFill call master w.limits.quantumSize allotment
      let master := if short then w.master else moved
      match if w.limits.singleThread then enqueued else none with
      | some e => some (.clean { idle with master } (some e) false)
      | none => some (.wait { w with master, slots := w.slots.store j next } (j + 1) false)
  else some (.wait idle (j + 1) done)

def answerSlot (s : State) (w : Window) (j : Nat) (done : Bool) (rq : RwRq) (reply : Reply)
    (refill : Except Errno Allotment) (enqueued : Option Errno) : Option State :=
  let idle := { w with slots := w.slots.free j }
  match reply with
  | .error (e, reconnected) => some { s with phase := .clean idle (some e) reconnected }
  | .ok mdp =>
    match parseOne call s rq mdp with
    | (.error e, _, s) => some { s with phase := .clean idle (some e) false }
    | (.ok n, auio, s) =>
      (refillSlot call { w with rresid := w.rresid + n } j done rq n auio refill enqueued).map fun phase =>
        { s with phase }

def finishWindow (s : State) (w : Window) (error : Option Errno) (reconnect : Bool)
    (outcomes : List (Option Errno)) : State :=
  let error := outcomes.getLast?.getD error
  if reconnect then
    { s with phase := .fill { w with rresid := w.savedRresid, master := s.uio, slots := [] } }
  else
    let s := { s with resid := w.rresid }
    if error = none ∨ error = some .enodata ∧ call.doRead ∧ w.rresid ≠ 0 then
      { s with uio := smbfsUioUpdate s.uio w.rresid }.finish call error w.len
    else s.finish call error w.len

def step (s : State) (event : Event) : Option State :=
  match s.phase, event with
  | .head, .next => if s.totalSize ≤ 0 then some { s with phase := .returned none } else none
  | .head, .start limits => if 0 < s.totalSize then some { s with phase := begin call s limits } else none
  | .one len len32 short false, .alloc allotment => some (allocOne call s len len32 short allotment)
  | .one len len32 short true, .reply reply => some (replyOne call s len len32 short reply)
  | .fill w, .next => if w.slots.length = w.limits.quantumNbr then some { s with phase := filled w } else none
  | .fill w, .alloc allotment =>
    if w.slots.length < w.limits.quantumNbr then some { s with phase := fillSlot call w allotment } else none
  | .send w, .send none => some { s with phase := .wait w 0 true }
  | .send w, .send (some (j, e)) =>
    if j < w.slots.length then some { s with phase := .clean { w with slots := w.slots.take j } (some e) false }
    else none
  | .wait w j done, .next =>
    if j < w.slots.length then
      if (w.slots.lookup j).isNone then some { s with phase := .wait w (j + 1) done } else none
    else if done then some { s with phase := .clean w none false }
    else some { s with phase := .wait w 0 true }
  | .wait w j done, .answer reply refill enqueued =>
    (w.slots.lookup j).bind fun rq => answerSlot call s w j done rq reply refill enqueued
  | .clean w error reconnect, .clean outcomes =>
    if outcomes.length = w.slots.inUse.length then some (finishWindow call s w error reconnect outcomes)
    else none
  | _, _ => none

def Call.initial : State := { uio := call.auio, totalSize := call.auio.resid }

end SmbClient.ReadWrite
