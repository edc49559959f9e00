import SmbClient.ReadWrite.Progress

/-! What `smb2_smb_read` leaves in the caller's buffer. -/

namespace SmbClient.ReadWrite
open SmbClient.Lib SmbClient.Mbuf

/-- The buffer holds the byte that the file has at `q`. -/
def Holds (call : Call) (file : Nat → UInt8) (stored : Stored) (q : Nat) : Prop :=
  call.auio.offset ≤ q ∧ stored (call.place q) = some (file q)

def Answers (file : Nat → UInt8) (rq : RwRq) (mdp : MdChain) : Prop :=
  ∃ rsp : ReadRsp, rsp.bytes.length ≤ 0x00ffffff ∧ mdp.rest = rsp.body ∧ 1 ≤ rsp.data.length ∧
    rsp.data.length ≤ rq.ioLen ∧ rsp.data = bytesAt file rq.offset rsp.data.length

/-- The server answers every read from the file, or with an error. -/
def Serves (call : Call) (file : Nat → UInt8) (s : State) (event : Event) : Prop :=
  match s.phase, event with
  | .one _ len32 _ true, .reply (.ok mdp) => Answers file (call.build s.uio len32) mdp
  | .wait w j _, .answer (.ok mdp) _ _ => ∀ rq, w.slots.lookup j = some rq → Answers file rq mdp
  | _, _ => True

/-- Nothing that is asked for lies in front of `place`. -/
def Ahead (place : Nat) (slots : Slots RwRq) : Prop := slots.All fun rq => place ≤ rq.offset

/-- A window starts from nothing, all that is missing from a short reply is asked for again, and when a
request fails no other one is for bytes in front of those that have been counted. -/
def Gapless (call : Call) (s : State) (event : Event) : Prop :=
  match s.phase, event with
  | .head, .start limits => UncountedStart call s limits
  | .wait w _ _, .answer (.error (_, false)) _ _ => Ahead (s.uio.offset + w.rresid) w.slots
  | .wait w j _, .answer (.ok mdp) refill enqueued =>
    ∀ rq n, w.slots.lookup j = some rq → (smb2SmbParseReadOne ⟨mdp, ⟨rq.auio, s.stored⟩⟩).1 = .ok n →
      (n < rq.ioLen → call.namedPipe = false ∧ ∀ allotment, refill = .ok allotment →
        creditedLen call.doRead allotment.iod
          (min allotment.xmax (min w.limits.quantumSize (rq.ioLen - n))) = rq.ioLen - n) ∧
      (n < rq.ioLen ∨ w.master.resid ≠ 0 → Unbuilt w refill enqueued →
        Ahead (s.uio.offset + w.rresid) w.slots ∧ Ahead (s.uio.offset + (w.rresid + n)) (w.slots.free j))
  | _, _ => True

section
variable {call : Call} {file : Nat → UInt8} {s : State}

section
variable {uio : Uio} {stored : Stored} {n q : Nat} (aligned : call.Aligned uio)
include aligned

theorem holds_put_inside (low : uio.offset ≤ q) (high : q < uio.offset + n) :
    Holds call file (stored.put uio.pos (bytesAt file uio.offset n)) q := by
  have bound := aligned.low
  have pos := aligned.pos
  unfold Call.place at pos
  refine ⟨bound.trans low, ?_⟩
  have index : call.place q - uio.pos = q - uio.offset := by
    unfold Call.place
    omega
  rw [Stored.put, length_bytesAt, if_pos (by unfold Call.place; omega), index,
    getElem?_bytesAt _ (by omega), Nat.add_sub_cancel' low]

theorem holds_put (holds : Holds call file stored q) :
    Holds call file (stored.put uio.pos (bytesAt file uio.offset n)) q := by
  by_cases inside : uio.offset ≤ q ∧ q < uio.offset + n
  · exact holds_put_inside aligned inside.1 inside.2
  · have bound := aligned.low
    have pos := aligned.pos
    have low := holds.1
    unfold Call.place at pos
    refine ⟨low, ?_⟩
    rw [Stored.put, length_bytesAt, if_neg (by unfold Call.place; omega)]
    exact holds.2

theorem parseOne_readRsp (read : call.doRead) {len : Nat} {mdp : MdChain} {rsp : ReadRsp}
    (frame : rsp.bytes.length ≤ 0x00ffffff) (rest : mdp.rest = rsp.body) (present : 1 ≤ rsp.data.length)
    (content : rsp.data = bytesAt file uio.offset rsp.data.length) (s : State) :
    ∃ stored, parseOne call s (call.build uio len) mdp =
        (.ok rsp.data.length, smbfsUioUpdate uio rsp.data.length, { s with stored := stored }) ∧
      (∀ q, Holds call file s.stored q → Holds call file stored q) ∧
      ∀ q, uio.offset ≤ q → q < uio.offset + min rsp.data.length uio.resid → Holds call file stored q := by
  have small : rsp.data.length < 2 ^ 31 := by
    have whole := rsp.length_bytes
    omega
  let before : Reading Target := ⟨mdp, ⟨uio, s.stored⟩⟩
  obtain ⟨t, parsed, moved⟩ :=
    smb2SmbParseReadOne_readRsp (s := before) rest (List.ne_nil_of_length_pos present) small
  refine ⟨t.state.stored, ?_, ?_, ?_⟩
  · rw [parseOne, if_pos read, build_read read]
    dsimp only
    rw [parsed, moved]
    rfl
  all_goals
    intro q
    rw [moved, uiomove, content, take_bytesAt, length_bytesAt]
  · exact holds_put aligned
  · rw [Nat.min_comm]
    exact holds_put_inside aligned

theorem parseOne_answers (read : call.doRead) {len : Nat} {mdp : MdChain}
    (answers : Answers file (call.build uio len) mdp) (s : State) :
    ∃ n stored, n ≤ len ∧
      parseOne call s (call.build uio len) mdp = (.ok n, smbfsUioUpdate uio n, { s with stored := stored }) ∧
      (∀ q, Holds call file s.stored q → Holds call file stored q) ∧
      ∀ q, uio.offset ≤ q → q < uio.offset + min n uio.resid → Holds call file stored q := by
  obtain ⟨rsp, frame, rest, present, part, content⟩ := answers
  rw [build_ioLen] at part
  rw [build_offset] at content
  obtain ⟨stored, parsed⟩ := parseOne_readRsp aligned read frame rest present content s
  exact ⟨rsp.data.length, stored, part, parsed⟩

end
/-! ## One step -/

def Phase.Held (call : Call) (file : Nat → UInt8) (stored : Stored) (uio : Uio) : Phase → Prop
  | .fill w | .send w =>
    w.savedRresid = 0 ∧ w.rresid = 0 ∧ Filling call (Holds call file stored) uio w.slots w.master 0
  | .wait w _ _ => w.savedRresid = 0 ∧ Filling call (Holds call file stored) uio w.slots w.master w.rresid
  | .clean w _ reconnect => w.savedRresid = 0 ∧
      (reconnect = false → ∀ q, uio.offset ≤ q → q < uio.offset + w.rresid → Holds call file stored q)
  | .head | .one .. | .returned _ => True

structure ReadInv (call : Call) (file : Nat → UInt8) (s : State) : Prop where
  progress : Progress call (Holds call file s.stored) s.uio
  held : s.phase.Held call file s.stored s.uio

theorem readInv_finish (read : call.doRead) (progress : Progress call (Holds call file s.stored) s.uio)
    (error : Option Errno) (len : Nat) : ReadInv call file (s.finish call error len) := by
  rw [State.finish, if_pos read]
  cases error with
  | some e => exact ⟨progress, trivial⟩
  | none =>
    refine ⟨progress, ?_⟩
    show Phase.Held call file _ _ (if s.resid = 0 ∨ s.resid < len then Phase.returned none else .head)
    split <;> trivial

theorem readInv_begin (progress : Progress call (Holds call file s.stored) s.uio) {limits : Limits}
    (uncounted : UncountedStart call s limits) : ReadInv call file { s with phase := begin call s limits } := by
  refine ⟨progress, ?_⟩
  show (begin call s limits).Held call file s.stored s.uio
  rcases begin_cases uncounted with single | window
  · rw [single]
    trivial
  · rw [window]
    exact ⟨rfl, rfl, .start progress.aligned⟩

theorem readInv_allocOne (read : call.doRead) (progress : Progress call (Holds call file s.stored) s.uio)
    (len len32 : Nat) (short : Bool) (allotment : Except Errno Allotment) :
    ReadInv call file (allocOne call s len len32 short allotment) := by
  cases allotment with
  | error e => exact readInv_finish read progress _ _
  | ok allotment =>
    unfold allocOne
    dsimp only
    split_ifs
    · exact readInv_finish read progress _ _
    · exact ⟨progress, trivial⟩
    · exact ⟨progress, trivial⟩

theorem readInv_replyOne (read : call.doRead) (progress : Progress call (Holds call file s.stored) s.uio)
    (len len32 : Nat) (short : Bool) {reply : Reply}
    (serves : ∀ mdp, reply = .ok mdp → Answers file (call.build s.uio len32) mdp) :
    ReadInv call file (replyOne call s len len32 short reply) := by
  match reply with
  | .error (e, true) => exact ⟨progress, trivial⟩
  | .error (e, false) => exact readInv_finish read progress _ _
  | .ok mdp =>
    obtain ⟨n, stored, -, parsed, keeps, next⟩ := parseOne_answers progress.aligned read (serves mdp rfl) s
    have moved : Progress call (Holds call file stored) (smbfsUioUpdate s.uio n) :=
      (progress.mono keeps).update next
    unfold replyOne
    dsimp only
    rw [parsed]
    dsimp only
    split
    · exact ⟨moved, trivial⟩
    · exact readInv_finish read moved _ _

variable {w : Window} {stored : Stored} {uio : Uio}

theorem held_filled (saved : w.savedRresid = 0) (zero : w.rresid = 0)
    (filling : Filling call (Holds call file stored) uio w.slots w.master 0) :
    (filled w).Held call file stored uio := by
  unfold filled
  split
  · exact ⟨saved, zero, filling⟩
  · exact ⟨saved, zero.symm ▸ filling⟩

theorem held_clean_nothing (saved : w.savedRresid = 0) (zero : w.rresid = 0) (error : Option Errno) (reconnect : Bool) :
    (Phase.clean w error reconnect).Held call file stored uio := by
  refine ⟨saved, fun _ q low high => absurd high ?_⟩
  rw [zero]
  exact Nat.not_lt_of_le low

theorem held_fillSlot (saved : w.savedRresid = 0) (zero : w.rresid = 0)
    (filling : Filling call (Holds call file stored) uio w.slots w.master 0) (allotment : Except Errno Allotment) :
    (fillSlot call w allotment).Held call file stored uio := by
  cases allotment with
  | error e => exact held_clean_nothing saved zero (some e) false
  | ok allotment =>
    obtain ⟨len, fits, cut⟩ := smb2SmbReadWriteFill_eq call w.master w.limits.quantumSize allotment
    have alloc := filling.alloc (fits.trans (Nat.min_le_right _ _))
    unfold fillSlot
    dsimp only
    rw [cut]
    split
    · exact held_filled saved zero alloc
    · exact ⟨saved, zero, alloc⟩

section
variable {w : Window} {j n : Nat} {rq : RwRq} {stored : Stored} {uio : Uio}
  (filling : Filling call (Holds call file stored) uio w.slots w.master w.rresid)
  (found : w.slots.lookup j = some rq)
include filling found

theorem held_full_ahead (finished : ∀ q ∈ rq.extent.toSet, Holds call file stored q)
    (ahead : Ahead (uio.offset + (w.rresid + rq.ioLen)) (w.slots.free j)) (q : Nat) (low : uio.offset ≤ q)
    (high : q < uio.offset + (w.rresid + rq.ioLen)) : Holds call file stored q :=
  (filling.free found (fun _ => id) finished).out.of_ahead ahead q low high

theorem held_short_ahead {behind : Uio} (started : ∀ q, rq.offset ≤ q → q < rq.offset + n → Holds call file stored q)
    (part : n ≤ rq.ioLen) (aligned : call.Aligned behind) (after : behind.offset = rq.offset + n)
    (room : rq.ioLen - n ≤ behind.resid) (before : Ahead (uio.offset + w.rresid) w.slots)
    (ahead : Ahead (uio.offset + (w.rresid + n)) (w.slots.free j)) (q : Nat) (low : uio.offset ≤ q)
    (high : q < uio.offset + (w.rresid + n)) : Holds call file stored q := by
  have rest := filling.rest found (fun _ => id) started part aligned after room
  have own := before.lookup found
  refine rest.out.of_ahead ?_ q low high
  rw [← Slots.store_free]
  refine Slots.All.store ahead ?_
  show uio.offset + (w.rresid + n) ≤ (call.build behind (rq.ioLen - n)).offset
  rw [build_offset, after]
  omega

end
theorem shortRead_iff (read : call.doRead) (n len : Nat) :
    shortRead call n len ↔ n < len ∧ call.namedPipe = false := by
  simp [shortRead, read]

section
variable (read : call.doRead) {w : Window} {j n len : Nat} {done : Bool} {u uio : Uio} {stored : Stored}
  {refill : Except Errno Allotment} {enqueued : Option Errno} {phase : Phase} (saved : w.savedRresid = 0)
  (filling : Filling call (Holds call file stored) uio w.slots w.master w.rresid)
  (found : w.slots.lookup j = some (call.build u len))
include read saved filling found

theorem held_refill_short (aligned : call.Aligned u) (fits : len ≤ u.resid) (short : n < len)
    (named : call.namedPipe = false) (started : ∀ q, u.offset ≤ q → q < u.offset + n → Holds call file stored q)
    (whole : ∀ allotment, refill = .ok allotment →
      creditedLen call.doRead allotment.iod (min allotment.xmax (min w.limits.quantumSize (len - n))) = len - n)
    (ahead : Unbuilt w refill enqueued →
      Ahead (uio.offset + w.rresid) w.slots ∧ Ahead (uio.offset + (w.rresid + n)) (w.slots.free j))
    (refilled : Refill call { w with rresid := w.rresid + n } j done (call.build u len) n (smbfsUioUpdate u n)
      refill enqueued phase) :
    phase.Held call file stored uio := by
  let behind : Uio := { smbfsUioUpdate u n with resid := len - n }
  have alignedBehind : call.Aligned behind := ⟨(aligned.update n).low, (aligned.update n).pos⟩
  have after : behind.offset = (call.build u len).offset + n := by
    rw [build_offset]
    simp only [behind, smbfsUioUpdate, Nat.min_eq_left (short.le.trans fits)]
  have room : (call.build u len).ioLen - n ≤ behind.resid := by rw [build_ioLen]
  have part : n ≤ (call.build u len).ioLen := by
    rw [build_ioLen]
    exact short.le
  have isShort : shortRead call n (call.build u len).ioLen := by
    rw [build_ioLen]
    exact (shortRead_iff read n len).mpr ⟨short, named⟩
  have offset : (call.build u len).offset = u.offset := build_offset u len
  rw [← offset] at started
  cases refilled with
  | unbuilt master e wanted fails =>
    obtain ⟨before, others⟩ := ahead fails
    exact ⟨saved, fun _ => held_short_ahead filling found started part alignedBehind after room before others⟩
  | again allotment next moved _ built cut =>
    -- the request for the missing bytes has not been shortened
    have granted : next = call.build behind (len - n) := by
      rw [build_ioLen] at cut
      cases cut
      exact congrArg (call.build behind) (whole allotment built)
    subst granted
    have rest := filling.rest found (fun _ => id) started part alignedBehind after room
    rw [build_ioLen] at rest
    exact ⟨saved, rest⟩
  | next allotment next moved wrong => exact absurd isShort wrong
  | idle wrong => exact absurd isShort wrong

theorem held_refill_full (finished : ∀ q, u.offset ≤ q → q < u.offset + len → Holds call file stored q)
    (ahead : w.master.resid ≠ 0 → Unbuilt w refill enqueued →
      Ahead (uio.offset + (w.rresid + len)) (w.slots.free j))
    (refilled : Refill call { w with rresid := w.rresid + len } j done (call.build u len) len (smbfsUioUpdate u len)
      refill enqueued phase) :
    phase.Held call file stored uio := by
  have whole : ∀ q ∈ (call.build u len).extent.toSet, Holds call file stored q := by
    intro q inside
    rw [build_extent] at inside
    exact finished q inside.1 inside.2
  have isFull : ¬shortRead call len (call.build u len).ioLen := by
    rw [build_ioLen, shortRead_iff read]
    exact fun short => absurd short.1 (Nat.lt_irrefl len)
  cases refilled with
  | unbuilt master e wanted fails =>
    have counted := held_full_ahead filling found whole
    rw [build_ioLen] at counted
    exact ⟨saved, fun _ => counted (ahead (wanted.resolve_left isFull) fails)⟩
  | again allotment next moved wrong => exact absurd wrong isFull
  | next allotment next moved _ built cut =>
    obtain ⟨len', fits, cut'⟩ := smb2SmbReadWriteFill_eq call w.master w.limits.quantumSize allotment
    cases cut'.symm.trans cut
    have refill := filling.refill found (fun _ => id) whole (fits.trans (Nat.min_le_right _ _))
    rw [build_ioLen] at refill
    exact ⟨saved, refill⟩
  | idle =>
    have idle := filling.free found (fun _ => id) whole
    rw [build_ioLen] at idle
    exact ⟨saved, idle⟩

end

theorem readInv_answerSlot (read : call.doRead) (progress : Progress call (Holds call file s.stored) s.uio) {j : Nat}
    {done : Bool} {rq : RwRq} {reply : Reply} {refill : Except Errno Allotment}
    {enqueued : Option Errno} {next : State} (phase : s.phase = .wait w j done)
    (held : (Phase.wait w j done).Held call file s.stored s.uio) (found : w.slots.lookup j = some rq)
    (serves : Serves call file s (.answer reply refill enqueued))
    (gapless : Gapless call s (.answer reply refill enqueued))
    (answered : answerSlot call s w j done rq reply refill enqueued = some next) : ReadInv call file next := by
  obtain ⟨saved, filling⟩ := held
  unfold Serves at serves
  unfold Gapless at gapless
  rw [phase] at serves gapless
  match reply with
  | .error (e, true) =>
    cases answered
    exact ⟨progress, saved, fun absurd => by cases absurd⟩
  | .error (e, false) =>
    cases answered
    exact ⟨progress, saved, fun _ => filling.out.of_ahead gapless⟩
  | .ok mdp =>
    obtain ⟨u, len, aligned, fits, rfl⟩ := filling.sound.lookup found
    obtain ⟨n, stored, part, parsed, keeps, started⟩ := parseOne_answers aligned read (serves _ found) s
    rw [Nat.min_eq_left (part.trans fits)] at started
    have parsed' : (smb2SmbParseReadOne ⟨mdp, ⟨(call.build u len).auio, s.stored⟩⟩).1 = .ok n := by
      rw [parseOne, if_pos read] at parsed
      exact congrArg Prod.fst parsed
    obtain ⟨again, ahead⟩ := gapless _ n found parsed'
    rw [build_ioLen] at again ahead
    unfold answerSlot at answered
    dsimp only at answered
    rw [parsed] at answered
    obtain ⟨phase, refilled, rfl⟩ := Option.map_eq_some_iff.mp answered
    refine ⟨progress.mono keeps, ?_⟩
    rcases Nat.lt_or_eq_of_le part with short | rfl
    · obtain ⟨named, whole⟩ := again short
      exact held_refill_short read saved (filling.mono keeps) found aligned fits short named started whole
        (ahead (.inl short)) (refillSlot_refill refilled)
    · exact held_refill_full read saved (filling.mono keeps) found started
        (fun more unbuilt => (ahead (.inr more) unbuilt).2) (refillSlot_refill refilled)

theorem readInv_finishWindow (read : call.doRead) (progress : Progress call (Holds call file s.stored) s.uio)
    {error : Option Errno} {reconnect : Bool}
    (held : (Phase.clean w error reconnect).Held call file s.stored s.uio) (outcomes : List (Option Errno)) :
    ReadInv call file (finishWindow call s w error reconnect outcomes) := by
  obtain ⟨saved, counted⟩ := held
  unfold finishWindow
  dsimp only
  split
  · exact ⟨progress, saved, saved, .start progress.aligned⟩
  · rename_i given
    have next := counted (Bool.eq_false_iff.mpr given)
    split
    · refine readInv_finish read (progress.update fun q low high => next q low (high.trans_le ?_)) _ _
      exact Nat.add_le_add_left (Nat.min_le_left _ _) _
    · exact readInv_finish (s := { s with resid := w.rresid }) read progress _ _

theorem readInv_step (read : call.doRead) {event : Event} {next : State} (inv : ReadInv call file s)
    (swept : s.phase.Swept) (meets : Serves call file s event ∧ Gapless call s event)
    (taken : step call s event = some next) :
    ReadInv call file next := by
  obtain ⟨progress, held⟩ := inv
  obtain ⟨serves, gapless⟩ := meets
  unfold step at taken
  split at taken
  · split at taken
    · cases taken
      exact ⟨progress, trivial⟩
    · cases taken
  · rename_i phase
    split at taken
    · cases taken
      unfold Gapless at gapless
      rw [phase] at gapless
      exact readInv_begin progress gapless
    · cases taken
  · cases taken
    exact readInv_allocOne read progress _ _ _ _
  · rename_i len len32 short reply phase
    cases taken
    refine readInv_replyOne read progress _ _ _ fun mdp ok => ?_
    subst ok
    unfold Serves at serves
    rw [phase] at serves
    exact serves
  · rename_i w phase
    rw [phase] at held
    split at taken
    · cases taken
      exact ⟨progress, held_filled held.1 held.2.1 held.2.2⟩
    · cases taken
  · rename_i w allotment phase
    rw [phase] at held
    split at taken
    · cases taken
      exact ⟨progress, held_fillSlot held.1 held.2.1 held.2.2 _⟩
    · cases taken
  · rename_i w phase
    rw [phase] at held
    cases taken
    exact ⟨progress, held.1, held.2.1.symm ▸ held.2.2⟩
  · rename_i w j e phase
    rw [phase] at held
    split at taken
    · cases taken
      exact ⟨progress, held_clean_nothing held.1 held.2.1 (some e) false⟩
    · cases taken
  · rename_i w j done phase
    rw [phase] at held swept
    split_ifs at taken with inside idle finished <;> cases taken
    · exact ⟨progress, held⟩
    · subst finished
      obtain ⟨saved, filling⟩ := held
      refine ⟨progress, saved, fun _ q low high => ?_⟩
      exact filling.out.of_idle (swept.idle inside) q low (high.trans_le filling.out.count_le)
    · exact ⟨progress, held⟩
  · rename_i w j done reply refill enqueued phase
    rw [phase] at held
    obtain ⟨rq, found, answered⟩ := Option.bind_eq_some_iff.mp taken
    exact readInv_answerSlot read progress phase held found serves gapless answered
  · rename_i w error reconnect outcomes phase
    rw [phase] at held
    split at taken
    · cases taken
      exact readInv_finishWindow read progress held outcomes
    · cases taken
  · cases taken

end

/-! ## The whole call -/

/-- However far the call has come, and so too when it returns: as many bytes as the caller's uio has been moved
by are in the buffer, and they are those of the file. -/
theorem smb2SmbRead_exact (call : Call) (file : Nat → UInt8) (read : call.doRead) (events : List Event) (last : State)
    (serves : AllSteps (step call) (Serves call file) call.initial events)
    (gapless : AllSteps (step call) (Gapless call) call.initial events)
    (reached : run (step call) call.initial events = some last) :
    ∃ n, n ≤ call.auio.resid ∧ last.uio = smbfsUioUpdate call.auio n ∧
      ∀ k < n, last.stored (call.auio.pos + k) = some (file (call.auio.offset + k)) := by
  have start : ReadInv call file call.initial ∧ call.initial.phase.Swept :=
    ⟨⟨.start call _, trivial⟩, trivial⟩
  have keeps : ∀ s event next, ReadInv call file s ∧ s.phase.Swept →
      Serves call file s event ∧ Gapless call s event → step call s event = some next →
      ReadInv call file next ∧ next.phase.Swept := by
    rintro s event next ⟨inv, swept⟩ meets taken
    exact ⟨readInv_step read inv swept meets taken, swept_step swept taken⟩
  obtain ⟨inv, -⟩ := run_invariant (step call) keeps start (serves.and gapless) reached
  obtain ⟨n, inside, moved, done⟩ := inv.progress.advanced
  refine ⟨n, inside, moved, fun k low => ?_⟩
  have held := (done k low).2
  rwa [Call.place, Nat.add_sub_cancel_left] at held

/-! ## A transfer of nine bytes in three requests -/

def plainRsp (data : Bytes) : ReadRsp where
  hdr := List.replicate 64 0
  reserved1 := 0
  dataRemaining := 0
  reserved2 := 0
  padding := []
  data := data
  hdr_length := List.length_replicate
  padding_length := by decide

def plainReply (file : Nat → UInt8) (offset n : Nat) : Reply :=
  .ok (mdInitm [(plainRsp (bytesAt file offset n)).body])

theorem answers_plain {file : Nat → UInt8} {rq : RwRq} {n : Nat} (present : 1 ≤ n) (part : n ≤ rq.ioLen)
    (small : n ≤ 0xffff) : Answers file rq (mdInitm [(plainRsp (bytesAt file rq.offset n)).body]) := by
  have length : (plainRsp (bytesAt file rq.offset n)).data.length = n := length_bytesAt _ _ _
  refine ⟨plainRsp (bytesAt file rq.offset n), ?_, ?_, ?_, ?_, ?_⟩
  · rw [ReadRsp.length_bytes, length]
    simp only [plainRsp, List.length_nil]
    omega
  · simp
  · rwa [length]
  · rwa [length]
  · rw [length]
    rfl

def nineBytes : Call where
  doRead := true
  auio := ⟨0, 0, 9⟩

def countingFile (q : Nat) : UInt8 := UInt8.ofNat (q + 1)

def threeAtATime : Limits := ⟨3, 3, 16, true⟩

def plenty : Except Errno Allotment := .ok ⟨3, { creditsGranted := 512 }⟩

def firstShort : List Event :=
  [.start threeAtATime, .alloc plenty, .alloc plenty, .alloc plenty, .send none,
   .answer (plainReply countingFile 0 1) plenty none, .answer (plainReply countingFile 3 3) plenty none]

def allAnswered : List Event :=
  firstShort ++ [.answer (plainReply countingFile 6 3) plenty none, .next,
    .answer (plainReply countingFile 1 2) plenty none, .next, .next, .next, .clean [], .next]

theorem gapless_plain {call : Call} {file : Nat → UInt8} {s : State} {w : Window} {j offset n : Nat} {done : Bool}
    {rq : RwRq} (phase : s.phase = .wait w j done) (found : w.slots.lookup j = some rq) (present : 1 ≤ n)
    (small : n ≤ 0xffff) (again : n < rq.ioLen → call.namedPipe = false ∧ ∀ allotment, plenty = .ok allotment →
      creditedLen call.doRead allotment.iod
        (min allotment.xmax (min w.limits.quantumSize (rq.ioLen - n))) = rq.ioLen - n) :
    Gapless call s (.answer (plainReply file offset n) plenty none) := by
  unfold Gapless
  rw [phase]
  intro rq' m found' parsed
  cases found.symm.trans found'
  have length : (plainRsp (bytesAt file offset n)).data.length = n := length_bytesAt _ _ _
  let before : Reading Target := ⟨mdInitm [(plainRsp (bytesAt file offset n)).body], ⟨rq.auio, s.stored⟩⟩
  have rest : before.mdp.rest = (plainRsp (bytesAt file offset n)).body := by simp [before]
  obtain ⟨t, parsed', -⟩ := smb2SmbParseReadOne_readRsp rest (List.ne_nil_of_length_pos (by rwa [length]))
    (by rw [length]; omega)
  rw [parsed', length] at parsed
  cases parsed
  refine ⟨again, fun _ unbuilt => ?_⟩
  rcases unbuilt with ⟨e, fails⟩ | ⟨-, fails⟩
  · cases fails
  · exact absurd rfl fails

theorem smb2SmbRead_exact_reissued :
    ∃ last, run (step nineBytes) nineBytes.initial allAnswered = some last ∧ last.phase = .returned none ∧
      ∃ n, n ≤ 9 ∧ last.uio = smbfsUioUpdate nineBytes.auio n ∧
        ∀ k < n, last.stored (0 + k) = some (countingFile (0 + k)) := by
  have final : (run (step nineBytes) nineBytes.initial allAnswered).map State.phase = some (.returned none) := by
    decide +kernel
  obtain ⟨last, reached, returned⟩ := Option.map_eq_some_iff.mp final
  refine ⟨last, reached, returned, smb2SmbRead_exact nineBytes countingFile rfl allAnswered last ?_ ?_ reached⟩
  · iterate 5 refine .cons trivial rfl ?_
    refine .cons (fun rq found => ?_) rfl <| .cons (fun rq found => ?_) rfl <| .cons (fun rq found => ?_) rfl <|
      .cons trivial rfl <| .cons (fun rq found => ?_) rfl <| .cons trivial rfl <| .cons trivial rfl <|
      .cons trivial rfl <| .cons trivial rfl <| .cons trivial rfl trivial
    all_goals
      cases found
      exact answers_plain (by decide) (by decide) (by decide)
  · refine .cons (.inr (.inr rfl)) rfl ?_
    iterate 4 refine .cons trivial rfl ?_
    refine .cons (gapless_plain rfl rfl (by decide) (by decide) ?short) rfl <|
      .cons (gapless_plain rfl rfl (by decide) (by decide) fun short => absurd short (by decide)) rfl <|
      .cons (gapless_plain rfl rfl (by decide) (by decide) fun short => absurd short (by decide)) rfl <|
      .cons trivial rfl <|
      .cons (gapless_plain rfl rfl (by decide) (by decide) fun short => absurd short (by decide)) rfl <|
      .cons trivial rfl <| .cons trivial rfl <| .cons trivial rfl <| .cons trivial rfl <| .cons trivial rfl trivial
    intro _
    refine ⟨rfl, fun allotment built => ?_⟩
    cases built
    decide

def thirdFails : List Event := firstShort ++ [.answer (.error (.eio, false)) plenty none, .clean [none]]

theorem failed_read_hidden :
    AllSteps (step nineBytes) (Serves nineBytes countingFile) nineBytes.initial thirdFails ∧
      ∃ last, run (step nineBytes) nineBytes.initial thirdFails = some last ∧ last.phase = .returned none ∧
        last.uio = smbfsUioUpdate nineBytes.auio 4 ∧ last.stored 1 = none := by
  refine ⟨?_, ?_⟩
  · iterate 5 refine .cons trivial rfl ?_
    refine .cons (fun rq found => ?_) rfl <| .cons (fun rq found => ?_) rfl <| .cons trivial rfl <|
      .cons trivial rfl trivial
    · cases found
      exact answers_plain (by decide) (by decide) (by decide)
    · cases found
      exact answers_plain (by decide) (by decide) (by decide)
  · have final : (run (step nineBytes) nineBytes.initial thirdFails).map
        (fun last => (last.phase, last.uio, last.stored 1)) =
        some (.returned none, smbfsUioUpdate nineBytes.auio 4, none) := by decide +kernel
    obtain ⟨last, reached, same⟩ := Option.map_eq_some_iff.mp final
    simp only [Prod.mk.injEq] at same
    exact ⟨last, reached, same⟩

end SmbClient.ReadWrite
