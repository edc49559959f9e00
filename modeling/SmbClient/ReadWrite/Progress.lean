import SmbClient.Lib.Outstanding
import SmbClient.ReadWrite.Transfer

/-! How far a transfer has come: the caller's uio stands behind what is done, and what lies between it and
the master uio of the window is done or asked for. Reads and writes differ in what it means to be done. -/

namespace SmbClient.ReadWrite
open SmbClient.Lib SmbClient.Mbuf SmbClient.Credits
variable {call : Call}

@[simp] theorem length_bytesAt (content : Nat → UInt8) (start len : Nat) :
    (bytesAt content start len).length = len := by
  simp [bytesAt]

theorem getElem?_bytesAt (content : Nat → UInt8) {start len i : Nat} (inside : i < len) :
    (bytesAt content start len)[i]? = some (content (start + i)) := by
  simp [bytesAt, inside]

theorem take_bytesAt (content : Nat → UInt8) (start len n : Nat) :
    (bytesAt content start len).take n = bytesAt content start (min n len) := by
  rw [bytesAt, ← List.map_take, List.take_range, bytesAt]

def Call.place (call : Call) (offset : Nat) : Nat := call.auio.pos + (offset - call.auio.offset)

structure Call.Aligned (call : Call) (uio : Uio) : Prop where
  low : call.auio.offset ≤ uio.offset
  pos : uio.pos = call.place uio.offset

def RwRq.extent (rq : RwRq) : Extent := ⟨rq.offset, rq.ioLen⟩

def Call.Sound (call : Call) (rq : RwRq) : Prop :=
  ∃ uio len, call.Aligned uio ∧ len ≤ uio.resid ∧ rq = call.build uio len

@[simp] theorem build_offset (uio : Uio) (len : Nat) : (call.build uio len).offset = uio.offset := by
  unfold Call.build
  split <;> rfl

@[simp] theorem build_ioLen (uio : Uio) (len : Nat) : (call.build uio len).ioLen = len := by
  unfold Call.build
  split <;> rfl

theorem build_extent (uio : Uio) (len : Nat) : (call.build uio len).extent = ⟨uio.offset, len⟩ := by
  rw [RwRq.extent, build_offset, build_ioLen]

theorem build_read (read : call.doRead) (uio : Uio) (len : Nat) : (call.build uio len).auio = uio := by
  rw [Call.build, if_pos read]

theorem Call.Aligned.update {uio : Uio} (aligned : call.Aligned uio) (n : Nat) :
    call.Aligned (smbfsUioUpdate uio n) := by
  have low := aligned.low
  have pos := aligned.pos
  unfold Call.place at pos
  refine ⟨?_, ?_⟩ <;> simp only [smbfsUioUpdate, Call.place] <;> omega

theorem smbfsUioUpdate_end (uio : Uio) (n : Nat) :
    (smbfsUioUpdate uio n).offset + (smbfsUioUpdate uio n).resid = uio.offset + uio.resid := by
  simp only [smbfsUioUpdate]
  omega

theorem creditedLen_le (doRead : Bool) (iod : CreditIod) (len : Nat) : creditedLen doRead iod len ≤ len :=
  smb2RqCreditCheck_le _ _ _

theorem smb2SmbReadWriteFill_eq (call : Call) (master : Uio) (quantumSize : Nat) (allotment : Allotment) :
    ∃ len, len ≤ min quantumSize master.resid ∧
      smb2SmbReadWriteFill call master quantumSize allotment = (call.build master len, smbfsUioUpdate master len) :=
  ⟨_, (creditedLen_le _ _ _).trans (Nat.min_le_right _ _), rfl⟩

def UncountedStart (call : Call) (s : State) (limits : Limits) : Prop :=
  s.totalSize.toNat ≤ min limits.xmax kMaxSingleIO ∨ call.syncIo ∨ s.resid = 0

theorem begin_cases {s : State} {limits : Limits} (uncounted : UncountedStart call s limits) :
    begin call s limits = .one s.totalSize.toNat (min limits.xmax s.totalSize.toNat) false false ∨
      begin call s limits =
        .fill { limits, len := s.totalSize.toNat, savedRresid := 0, rresid := 0, master := s.uio, slots := [] } := by
  unfold begin
  dsimp only
  split
  · exact .inl rfl
  · rename_i windowed
    rcases uncounted with small | sync | zero
    · exact absurd (.inl small) windowed
    · exact absurd (.inr sync) windowed
    · exact .inr (by rw [zero])

structure Progress (call : Call) (done : Nat → Prop) (uio : Uio) : Prop where
  aligned : call.Aligned uio
  whole : uio.offset + uio.resid = call.auio.offset + call.auio.resid
  front : ∀ q, call.auio.offset ≤ q → q < uio.offset → done q

namespace Progress
variable {done done' : Nat → Prop} {uio : Uio}

theorem start (call : Call) (done : Nat → Prop) : Progress call done call.auio :=
  ⟨⟨le_rfl, by simp [Call.place]⟩, rfl, fun _ low high => absurd high (Nat.not_lt_of_le low)⟩

theorem mono (progress : Progress call done uio) (grows : ∀ q, done q → done' q) : Progress call done' uio :=
  ⟨progress.aligned, progress.whole, fun q low high => grows q (progress.front q low high)⟩

theorem update (progress : Progress call done uio) {n : Nat}
    (next : ∀ q, uio.offset ≤ q → q < uio.offset + min n uio.resid → done q) :
    Progress call done (smbfsUioUpdate uio n) := by
  refine ⟨progress.aligned.update n, (smbfsUioUpdate_end uio n).trans progress.whole, fun q low high => ?_⟩
  rcases Nat.lt_or_ge q uio.offset with front | back
  · exact progress.front q low front
  · exact next q back high

theorem advanced (progress : Progress call done uio) :
    ∃ n, n ≤ call.auio.resid ∧ uio = smbfsUioUpdate call.auio n ∧
      ∀ k < n, done (call.auio.offset + k) := by
  have low := progress.aligned.low
  have pos := progress.aligned.pos
  have whole := progress.whole
  refine ⟨uio.offset - call.auio.offset, by omega, ?_, fun k inside => progress.front _ (by omega) (by omega)⟩
  obtain ⟨upos, offset, resid⟩ := uio
  simp only [Call.place] at low pos whole
  simp only [smbfsUioUpdate, Uio.mk.injEq]
  omega

end Progress

structure Filling (call : Call) (done : Nat → Prop) (uio : Uio) (slots : Slots RwRq) (master : Uio) (count : Nat) :
    Prop where
  out : Outstanding RwRq.extent done slots count uio.offset master.offset
  whole : master.offset + master.resid = uio.offset + uio.resid
  aligned : call.Aligned master
  sound : slots.All call.Sound

namespace Filling
variable {done done' : Nat → Prop} {uio master : Uio} {slots : Slots RwRq} {count : Nat}

theorem start (aligned : call.Aligned uio) : Filling call done uio [] uio 0 :=
  ⟨.start _ _ _, rfl, aligned, fun _ absent => by cases absent⟩

theorem mono (filling : Filling call done uio slots master count) (grows : ∀ q, done q → done' q) :
    Filling call done' uio slots master count :=
  ⟨filling.out.mono grows, filling.whole, filling.aligned, filling.sound⟩

theorem count_le (filling : Filling call done uio slots master count) : count ≤ uio.resid := by
  have inside := filling.out.count_le
  have whole := filling.whole
  omega

theorem alloc (filling : Filling call done uio slots master count) {len : Nat} (fits : len ≤ master.resid) :
    Filling call done uio (slots.alloc (call.build master len)) (smbfsUioUpdate master len) count where
  out := by
    have stop : (call.build master len).extent.stop = (smbfsUioUpdate master len).offset := by
      simp only [build_extent, Extent.stop, smbfsUioUpdate, Nat.min_eq_left fits]
    exact stop ▸ filling.out.alloc (by rw [build_extent])
  whole := (smbfsUioUpdate_end master len).trans filling.whole
  aligned := filling.aligned.update len
  sound := filling.sound.alloc ⟨master, len, filling.aligned, fits, rfl⟩

section
variable {j : Nat} {rq : RwRq} (filling : Filling call done uio slots master count)
  (found : slots.lookup j = some rq) (keeps : ∀ q, done q → done' q)
include filling found keeps

theorem free (finished : ∀ q ∈ rq.extent.toSet, done' q) :
    Filling call done' uio (slots.free j) master (count + rq.ioLen) :=
  ⟨filling.out.free found keeps finished, filling.whole, filling.aligned, filling.sound.free⟩

theorem refill (finished : ∀ q ∈ rq.extent.toSet, done' q) {len : Nat} (fits : len ≤ master.resid) :
    Filling call done' uio (slots.store j (call.build master len)) (smbfsUioUpdate master len)
      (count + rq.ioLen) where
  out := by
    have taken : (smbfsUioUpdate master len).offset = master.offset + len := by
      simp only [smbfsUioUpdate, Nat.min_eq_left fits]
    rw [taken]
    refine filling.out.store found keeps (fun q inside => .inl (finished q inside)) (fun q low high => ?_) ?_
    · rw [build_extent]
      exact ⟨low, high⟩
    · simp only [RwRq.extent, build_ioLen]
      omega
  whole := (smbfsUioUpdate_end master len).trans filling.whole
  aligned := filling.aligned.update len
  sound := filling.sound.store ⟨master, len, filling.aligned, fits, rfl⟩

theorem rest {n : Nat} {behind : Uio} (started : ∀ q, rq.offset ≤ q → q < rq.offset + n → done' q)
    (part : n ≤ rq.ioLen) (aligned : call.Aligned behind) (after : behind.offset = rq.offset + n)
    (room : rq.ioLen - n ≤ behind.resid) :
    Filling call done' uio (slots.store j (call.build behind (rq.ioLen - n))) master (count + n) where
  out := by
    refine filling.out.store found keeps (fun q inside => ?_) (fun q low high => absurd high (Nat.not_lt_of_le low)) ?_
    · obtain ⟨low, high⟩ := inside
      rw [build_extent, after]
      rcases Nat.lt_or_ge q (rq.offset + n) with first | later
      · exact .inl (started q low first)
      · refine .inr ⟨later, high.trans_eq ?_⟩
        simp only [RwRq.extent, Extent.stop]
        omega
    · simp only [RwRq.extent, build_ioLen]
      omega
  whole := filling.whole
  aligned := filling.aligned
  sound := filling.sound.store ⟨behind, _, aligned, room, rfl⟩

end
end Filling

def Unbuilt (w : Window) (refill : Except Errno Allotment) (enqueued : Option Errno) : Prop :=
  (∃ e, refill = .error e) ∨ w.limits.singleThread ∧ enqueued ≠ none

inductive Refill (call : Call) (w : Window) (j : Nat) (done : Bool) (rq : RwRq) (n : Nat) (auio : Uio)
    (refill : Except Errno Allotment) (enqueued : Option Errno) : Phase → Prop
  | unbuilt (master : Uio) (e : Errno) (wanted : shortRead call n rq.ioLen ∨ w.master.resid ≠ 0)
      (fails : Unbuilt w refill enqueued) (cause : refill = .error e ∨ enqueued = some e) :
      Refill call w j done rq n auio refill enqueued
        (.clean { w with master, slots := w.slots.free j } (some e) false)
  | again (allotment : Allotment) (next : RwRq) (moved : Uio) (short : shortRead call n rq.ioLen)
      (built : refill = .ok allotment)
      (cut : smb2SmbReadWriteFill call { auio with resid := rq.ioLen - n } w.limits.quantumSize allotment =
        (next, moved)) :
      Refill call w j done rq n auio refill enqueued
        (.wait { w with slots := w.slots.store j next } (j + 1) false)
  | next (allotment : Allotment) (next : RwRq) (moved : Uio) (full : ¬shortRead call n rq.ioLen)
      (built : refill = .ok allotment)
      (cut : smb2SmbReadWriteFill call w.master w.limits.quantumSize allotment = (next, moved)) :
      Refill call w j done rq n auio refill enqueued
        (.wait { w with master := moved, slots := w.slots.store j next } (j + 1) false)
  | idle (full : ¬shortRead call n rq.ioLen) (asked : w.master.resid = 0) :
      Refill call w j done rq n auio refill enqueued (.wait { w with slots := w.slots.free j } (j + 1) done)

theorem refillSlot_refill {w : Window} {j n : Nat} {done : Bool} {rq : RwRq} {auio : Uio}
    {refill : Except Errno Allotment} {enqueued : Option Errno} {phase : Phase}
    (refilled : refillSlot call w j done rq n auio refill enqueued = some phase) :
    Refill call w j done rq n auio refill enqueued phase := by
  unfold refillSlot at refilled
  dsimp only at refilled
  split at refilled
  · rename_i wanted
    cases refill with
    | error e =>
      dsimp only at refilled
      split at refilled
      · cases refilled
      · cases refilled
        exact .unbuilt w.master e wanted (.inl ⟨e, rfl⟩) (.inl rfl)
    | ok allotment =>
      dsimp only at refilled
      split at refilled
      · rename_i e failed
        cases refilled
        split at failed
        · rename_i single
          exact .unbuilt _ e wanted (.inr ⟨single, by rw [failed]; exact Option.some_ne_none e⟩) (.inr failed)
        · cases failed
      · cases refilled
        by_cases short : shortRead call n rq.ioLen
        · simp only [short, if_true]
          exact .again allotment _ _ short rfl rfl
        · simp only [short]
          exact .next allotment _ _ short rfl rfl
  · rename_i unwanted
    cases refilled
    rw [not_or, not_not] at unwanted
    exact .idle unwanted.1 unwanted.2

/-! ## The pass finished the slots -/

def Phase.Swept : Phase → Prop
  | .wait w j done => done = true → ∀ i < j, w.slots.lookup i = none
  | _ => True

variable (s : State) (w : Window) (error : Option Errno)

theorem swept_finish (len : Nat) : (s.finish call error len).phase.Swept := by
  unfold State.finish
  cases error with
  | some e => split <;> trivial
  | none =>
    split
    · show Phase.Swept (if s.resid = 0 ∨ s.resid < len then .returned none else .head)
      split <;> trivial
    · show Phase.Swept (if s.resid < len then s.failWrite call .eio else _).phase
      split <;> trivial

theorem swept_refill {w : Window} {j n : Nat} {done : Bool} {rq : RwRq} {auio : Uio}
    {refill : Except Errno Allotment} {enqueued : Option Errno} {phase : Phase}
    (swept : (Phase.wait w j done).Swept) (refilled : Refill call w j done rq n auio refill enqueued phase) :
    phase.Swept := by
  cases refilled with
  | unbuilt => trivial
  | again => exact fun refilled => by cases refilled
  | next => exact fun refilled => by cases refilled
  | idle =>
    intro nothing i inside
    rw [Slots.lookup_free]
    split
    · rfl
    · rename_i other
      exact swept nothing i (Nat.lt_of_le_of_ne (Nat.le_of_lt_succ inside) (Ne.symm other))

theorem swept_start (done : Bool) : (Phase.wait w 0 done).Swept :=
  fun _ _ inside => absurd inside (Nat.not_lt_zero _)

theorem swept_filled : (filled w).Swept := by
  unfold filled
  split
  · trivial
  · exact swept_start w true

theorem swept_fillSlot (allotment : Except Errno Allotment) : (fillSlot call w allotment).Swept := by
  cases allotment with
  | error e => trivial
  | ok allotment =>
    unfold fillSlot
    dsimp only
    split
    · exact swept_filled _
    · trivial

theorem swept_allocOne (len len32 : Nat) (short : Bool) (allotment : Except Errno Allotment) :
    (allocOne call s len len32 short allotment).phase.Swept := by
  cases allotment with
  | error e => exact swept_finish s _ _
  | ok allotment =>
    unfold allocOne
    dsimp only
    split_ifs
    · exact swept_finish s _ _
    · trivial
    · trivial

theorem swept_replyOne (len len32 : Nat) (short : Bool) (reply : Reply) :
    (replyOne call s len len32 short reply).phase.Swept := by
  match reply with
  | .error (e, true) => trivial
  | .error (e, false) => exact swept_finish s _ _
  | .ok mdp =>
    unfold replyOne
    dsimp only
    split
    · exact swept_finish _ _ _
    · split
      · trivial
      · exact swept_finish _ _ _

theorem swept_answerSlot {s next : State} {w : Window} {j : Nat} {done : Bool} {rq : RwRq} {reply : Reply}
    {refill : Except Errno Allotment} {enqueued : Option Errno} (swept : (Phase.wait w j done).Swept)
    (answered : answerSlot call s w j done rq reply refill enqueued = some next) : next.phase.Swept := by
  match reply with
  | .error (e, reconnected) =>
    cases answered
    trivial
  | .ok mdp =>
    unfold answerSlot at answered
    dsimp only at answered
    split at answered
    · cases answered
      trivial
    · rename_i n auio after parsed
      obtain ⟨phase, refilled, rfl⟩ := Option.map_eq_some_iff.mp answered
      refine swept_refill (w := { w with rresid := w.rresid + n }) swept (refillSlot_refill refilled)

theorem swept_finishWindow (reconnect : Bool)
    (outcomes : List (Option Errno)) : (finishWindow call s w error reconnect outcomes).phase.Swept := by
  unfold finishWindow
  dsimp only
  split_ifs
  · trivial
  · exact swept_finish _ _ _
  · exact swept_finish _ _ _

theorem swept_step {s next : State} {event : Event} (swept : s.phase.Swept)
    (taken : step call s event = some next) : next.phase.Swept := by
  unfold step at taken
  split at taken
  · split at taken <;> cases taken
    trivial
  · split at taken <;> cases taken
    unfold begin
    dsimp only
    split <;> trivial
  · cases taken
    exact swept_allocOne s _ _ _ _
  · cases taken
    exact swept_replyOne s _ _ _ _
  · split at taken <;> cases taken
    exact swept_filled _
  · split at taken <;> cases taken
    exact swept_fillSlot _ _
  · cases taken
    exact swept_start _ _
  · split at taken <;> cases taken
    trivial
  · rename_i w j done phase
    rw [phase] at swept
    split_ifs at taken with inside idle finished <;> cases taken
    · intro nothing i before
      rcases Nat.lt_or_eq_of_le (Nat.le_of_lt_succ before) with earlier | rfl
      · exact swept nothing i earlier
      · exact Option.isNone_iff_eq_none.mp idle
    · trivial
    · exact swept_start w true
  · rename_i w j done reply refill enqueued phase
    rw [phase] at swept
    obtain ⟨rq, found, answered⟩ := Option.bind_eq_some_iff.mp taken
    exact swept_answerSlot swept answered
  · split at taken <;> cases taken
    exact swept_finishWindow s _ _ _ _
  · cases taken

theorem Phase.Swept.idle {w : Window} {j : Nat} (swept : (Phase.wait w j true).Swept) (finished : ¬j < w.slots.length)
    (i : Nat) : w.slots.lookup i = none := by
  rcases Nat.lt_or_ge i j with inside | outside
  · exact swept rfl i inside
  · unfold Slots.lookup
    rw [List.getElem?_eq_none (Nat.le_trans (Nat.le_of_not_lt finished) outside)]
    rfl

end SmbClient.ReadWrite
