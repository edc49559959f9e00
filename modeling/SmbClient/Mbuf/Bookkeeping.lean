import SmbClient.Mbuf.MbChain

namespace SmbClient.Mbuf
open SmbClient.Lib

/-! ## The copying loop, turn by turn -/

def Source.FaultsWithin (src : Source) (n : Nat) : Prop := ∃ place e, src.fault = some (place, e) ∧ place < n

variable {src : Source} {allocs : List (Option Bytes)} {size mleft : Nat} {m : OpenMbuf}

theorem Source.move_ok {next : Source} {n : Nat} {moved : Bytes} (ok : src.move n = .ok (moved, next)) :
    moved = src.data.take n ∧ next.data = src.data.drop n ∧ ¬src.FaultsWithin (min n src.data.length) ∧
      ∀ k, next.FaultsWithin (min k next.data.length) ↔ src.FaultsWithin (min (n + k) src.data.length) := by
  unfold Source.move at ok
  split at ok
  · rename_i none
    cases ok
    simp [Source.FaultsWithin, none]
  · rename_i place e fault
    split at ok
    · cases ok
    · rename_i beyond
      cases ok
      simp only [Source.FaultsWithin, fault, Option.some.injEq, Prod.mk.injEq, List.length_drop]
      refine ⟨trivial, trivial, ?_, fun k => ?_⟩
      · rintro ⟨_, _, ⟨rfl, rfl⟩, within⟩
        exact beyond within
      · constructor
        · rintro ⟨_, _, ⟨rfl, rfl⟩, within⟩
          exact ⟨place, e, ⟨rfl, rfl⟩, by omega⟩
        · rintro ⟨_, _, ⟨rfl, rfl⟩, within⟩
          exact ⟨place - n, e, ⟨rfl, rfl⟩, by omega⟩

theorem Source.move_error {n : Nat} {e : Errno} (failed : src.move n = .error e) :
    src.FaultsWithin (min n src.data.length) := by
  unfold Source.move at failed
  split at failed
  · cases failed
  · rename_i place e' fault
    split at failed
    · rename_i within
      exact ⟨place, e', fault, within⟩
    · cases failed

section
variable {size mleft : Nat} {src : Source} {m : OpenMbuf} {after : List OpenMbuf} {allocs : List (Option Bytes)}

theorem fillLoop_done (done : size = 0 ∨ src.data.length = 0) :
    fillLoop size src m mleft after allocs = ⟨[], m, after, mleft, 0, none⟩ := by
  rw [fillLoop.eq_def, if_pos done]

section
variable (more : ¬(size = 0 ∨ src.data.length = 0))
include more

theorem fillLoop_next (next : OpenMbuf) : fillLoop size src m 0 (next :: after) allocs =
      (fillLoop size src next (mbufTrailingspace next) after allocs).pass m := by
  rw [fillLoop.eq_def, if_neg more, if_pos rfl]

theorem fillLoop_getm {next : OpenMbuf} (got : (smbMbufGetm size allocs).1 = some (next :: after)) :
    fillLoop size src m 0 [] allocs =
      (fillLoop size src next (mbufTrailingspace next) after (smbMbufGetm size allocs).2).pass m := by
  rw [fillLoop.eq_def, if_neg more, if_pos rfl]
  dsimp only
  split
  · rename_i next' after' got'
    rw [got, Option.some.injEq, List.cons.injEq] at got'
    obtain ⟨rfl, rfl⟩ := got'
    rfl
  · rename_i none
    exact absurd got (none next after)

theorem fillLoop_enobufs (none : ∀ next after, (smbMbufGetm size allocs).1 ≠ some (next :: after)) :
    fillLoop size src m 0 [] allocs = ⟨[], m, [], 0, 0, some .enobufs⟩ := by
  rw [fillLoop.eq_def, if_neg more, if_pos rfl]
  dsimp only
  split
  · rename_i next after got
    exact absurd got (none next after)
  · rfl

theorem fillLoop_error (space : ¬mleft = 0) {e : Errno} (failed : src.move (min mleft size) = .error e) :
    fillLoop size src m mleft after allocs = ⟨[], m, after, mleft, 0, some e⟩ := by
  rw [fillLoop.eq_def, if_neg more, if_neg space]
  dsimp only
  rw [failed]

theorem fillLoop_move (space : ¬mleft = 0) {cplen : Nat} {moved : Bytes}
    {next : Source} (ok : src.move cplen = .ok (moved, next)) (least : cplen = min mleft size) :
    fillLoop size src m mleft after allocs =
      (fillLoop (size - cplen) next (m.fill cplen moved) (mleft - cplen) after allocs).plus cplen := by
  rw [fillLoop.eq_def, if_neg more, if_neg space]
  dsimp only
  rw [← least, ok]

end

end

/-! ## Space -/

def spaces (mbufs : List OpenMbuf) : Nat := (mbufs.map mbufTrailingspace).sum

@[simp] theorem spaces_nil : spaces [] = 0 := rfl

@[simp] theorem spaces_cons (m : OpenMbuf) (rest : List OpenMbuf) :
    spaces (m :: rest) = mbufTrailingspace m + spaces rest := rfl

theorem smbMbufGetm_some {len : Nat} {mbufs : List OpenMbuf} (positive : 0 < len)
    (got : (smbMbufGetm len allocs).1 = some mbufs) :
    mbufs ≠ [] ∧ (∀ m ∈ mbufs, m.data = []) ∧ len ≤ spaces mbufs ∧ spaces mbufs.dropLast < len := by
  induction len, allocs using smbMbufGetm.induct generalizing mbufs with
  | case1 => cases got
  | case2 => cases got
  | case3 len room allocs fits =>
    simp only [smbMbufGetm, if_pos fits, Option.some.injEq] at got
    subst got
    refine ⟨List.cons_ne_nil _ _, ?_, ?_, positive⟩
    · intro m member
      rw [List.mem_singleton.mp member]
    · exact fits
  | case4 len room allocs short ih =>
    simp only [smbMbufGetm, if_neg short] at got
    obtain ⟨rest, gotRest, rfl⟩ := Option.map_eq_some_iff.mp got
    obtain ⟨nonempty, empty, enough, needed⟩ := ih (by omega) gotRest
    refine ⟨List.cons_ne_nil _ _, ?_, ?_, ?_⟩
    · intro m member
      rcases List.mem_cons.mp member with rfl | member
      · rfl
      · exact empty m member
    · simp only [spaces_cons, mbufTrailingspace]
      omega
    · rw [List.dropLast_cons_of_ne_nil nonempty]
      simp only [spaces_cons, mbufTrailingspace]
      omega

structure Tight (size mleft : Nat) (after : List OpenMbuf) : Prop where
  enough : size ≤ mleft + spaces after
  needed : after ≠ [] → mleft + spaces after.dropLast < size

theorem fillLoop_tight {after : List OpenMbuf} (tight : Tight size mleft after) :
    (fillLoop size src m mleft after allocs).error = none ∧ (fillLoop size src m mleft after allocs).after = [] ↔
      ¬src.FaultsWithin (min size src.data.length) ∧
        (after = [] ∨ mleft + spaces after.dropLast < src.data.length) := by
  induction size, src, m, mleft, after, allocs using fillLoop.induct with
  | case1 size src m mleft after allocs done =>
    rw [fillLoop_done done]
    have none : ¬src.FaultsWithin (min size src.data.length) := by
      rintro ⟨place, _, -, within⟩
      omega
    simp only [true_and, none, not_false_eq_true]
    refine ⟨.inl, ?_⟩
    rintro (empty | left)
    · exact empty
    · by_contra nonempty
      have needed := tight.needed nonempty
      omega
  | case2 size src m allocs more next after ih =>
    rw [fillLoop_next more]
    have inner : Tight size (mbufTrailingspace next) after := by
      refine ⟨by simpa using tight.enough, fun nonempty => ?_⟩
      have needed := tight.needed (List.cons_ne_nil _ _)
      rwa [List.dropLast_cons_of_ne_nil nonempty, spaces_cons, Nat.zero_add] at needed
    refine (ih inner).trans (and_congr_right fun _ => ?_)
    cases after with
    | nil =>
      simp only [true_or, true_iff]
      right
      change 0 < _
      omega
    | cons other rest => simp
  | case3 size src m allocs more next after got ih =>
    have enough := tight.enough
    simp only [spaces_nil] at enough
    omega
  | case4 size src m allocs more none =>
    have enough := tight.enough
    simp only [spaces_nil] at enough
    omega
  | case5 size src m mleft after allocs more space cplen e failed =>
    rw [fillLoop_error more space failed]
    obtain ⟨place, _, fault, within⟩ := Source.move_error failed
    simp only [reduceCtorEq, false_and, false_iff, not_and_or, not_not]
    left
    exact ⟨place, _, fault, by omega⟩
  | case6 size src m mleft after allocs more space cplen moved next ok ih =>
    rw [fillLoop_move more space ok rfl]
    obtain ⟨-, rest, -, faults⟩ := Source.move_ok ok
    have shorter : next.data.length = src.data.length - cplen := by rw [rest, List.length_drop]
    have inner : Tight (size - cplen) (mleft - cplen) after := by
      refine ⟨?_, fun nonempty => ?_⟩
      · have enough := tight.enough
        omega
      · have needed := tight.needed nonempty
        omega
    refine (ih inner).trans (and_congr ?_ ?_)
    · rw [faults]
      have whole : cplen + (size - cplen) = size := by omega
      rw [whole]
    · by_cases nonempty : after = []
      · simp [nonempty]
      · have needed := tight.needed nonempty
        simp only [nonempty, false_or, shorter]
        omega

/-! ## Lengths -/

def contents (mbufs : List OpenMbuf) : Bytes := bytes (mbufs.map OpenMbuf.data)

@[simp] theorem contents_nil : contents [] = [] := rfl

@[simp] theorem contents_cons (m : OpenMbuf) (rest : List OpenMbuf) : contents (m :: rest) = m.data ++ contents rest := rfl

@[simp] theorem contents_append (a b : List OpenMbuf) : contents (a ++ b) = contents a ++ contents b := by
  simp [contents]

theorem contents_eq_nil {mbufs : List OpenMbuf} (empty : ∀ m ∈ mbufs, m.data = []) : contents mbufs = [] := by
  induction mbufs with
  | nil => rfl
  | cons m rest ih =>
    rw [contents_cons, empty m List.mem_cons_self, ih fun other member => empty other (List.mem_cons_of_mem m member)]
    rfl

theorem length_fill {cplen : Nat} {moved : Bytes} (fits : cplen ≤ mbufTrailingspace m)
    (some : moved.length ≤ cplen) : (m.fill cplen moved).data.length = m.data.length + cplen := by
  unfold mbufTrailingspace at fits
  simp only [OpenMbuf.fill, List.length_append, List.length_drop, List.length_take]
  omega

theorem space_fill (m : OpenMbuf) (cplen : Nat) (moved : Bytes) :
    mbufTrailingspace (m.fill cplen moved) = mbufTrailingspace m - cplen := by
  simp [mbufTrailingspace, OpenMbuf.fill]

theorem fillLoop_counts {after : List OpenMbuf} (whole : mleft = mbufTrailingspace m) :
    (fillLoop size src m mleft after allocs).mleft = mbufTrailingspace (fillLoop size src m mleft after allocs).m ∧
      (contents ((fillLoop size src m mleft after allocs).passed ++
        (fillLoop size src m mleft after allocs).m :: (fillLoop size src m mleft after allocs).after)).length =
      (contents (m :: after)).length + (fillLoop size src m mleft after allocs).copied := by
  induction size, src, m, mleft, after, allocs using fillLoop.induct with
  | case1 size src m mleft after allocs done =>
    rw [fillLoop_done done]
    exact ⟨whole, rfl⟩
  | case2 size src m allocs more next after ih =>
    rw [fillLoop_next more]
    obtain ⟨space, counted⟩ := ih rfl
    refine ⟨space, ?_⟩
    simp only [Filled.pass, List.cons_append, contents_cons, List.length_append] at counted ⊢
    omega
  | case3 size src m allocs more next after got ih =>
    rw [fillLoop_getm more got]
    obtain ⟨space, counted⟩ := ih rfl
    refine ⟨space, ?_⟩
    have empty := contents_eq_nil (smbMbufGetm_some (by omega) got).2.1
    rw [empty] at counted
    simp only [Filled.pass, List.cons_append, contents_cons, contents_nil, List.length_append, List.length_nil]
      at counted ⊢
    omega
  | case4 size src m allocs more none =>
    rw [fillLoop_enobufs more none]
    exact ⟨whole, rfl⟩
  | case5 size src m mleft after allocs more space cplen e failed =>
    rw [fillLoop_error more space failed]
    exact ⟨whole, rfl⟩
  | case6 size src m mleft after allocs more space cplen moved next ok ih =>
    rw [fillLoop_move more space ok rfl]
    obtain ⟨rfl, -⟩ := Source.move_ok ok
    have filled : mleft - cplen = mbufTrailingspace (m.fill cplen (src.data.take cplen)) := by
      rw [space_fill, whole]
    obtain ⟨space, counted⟩ := ih filled
    refine ⟨space, ?_⟩
    have longer : (m.fill cplen (src.data.take cplen)).data.length = m.data.length + cplen :=
      length_fill (by omega) (by simp)
    simp only [Filled.plus, contents_cons, List.length_append] at counted ⊢
    omega

/-! ## Where the loop may stop -/

/-- `mb_cur` and `mb_mleft` are right after a loop from the last mbuf, with `mleft` bytes left in it. -/
def Filled.Kept (mleft : Nat) (r : Filled) : Prop :=
  match r.error with
  | none => r.after = []
  | some _ => r.passed = [] ∧ r.after = [] ∧ mleft = mbufTrailingspace r.m

def FillCompletes (mleft size : Nat) (src : Source) (allocs : List (Option Bytes)) : Prop :=
  size ≤ mleft ∨ src.data.length ≤ mleft ∨ src.FaultsWithin mleft ∨
    match (smbMbufGetm (size - mleft) allocs).1 with
    | none => mleft = 0
    | some mbufs => ¬src.FaultsWithin (min size src.data.length) ∧ mleft + spaces mbufs.dropLast < src.data.length

theorem Filled.kept_pass {r : Filled} :
    (r.pass m).Kept mleft ↔ r.error = none ∧ r.after = [] := by
  unfold Filled.Kept Filled.pass
  dsimp only
  split
  · rename_i none
    simp [none]
  · rename_i failed
    simp [failed]

theorem kept_fillLoop_full (positive : 0 < size) (more : 0 < src.data.length) (full : mbufTrailingspace m = 0) :
    (fillLoop size src m 0 [] allocs).Kept mleft ↔
      match (smbMbufGetm size allocs).1 with
      | none => mleft = 0
      | some mbufs => ¬src.FaultsWithin (min size src.data.length) ∧ spaces mbufs.dropLast < src.data.length := by
  have goes : ¬(size = 0 ∨ src.data.length = 0) := by omega
  cases got : (smbMbufGetm size allocs).1 with
  | none =>
    have none (next : OpenMbuf) (after : List OpenMbuf) : (smbMbufGetm size allocs).1 ≠ some (next :: after) := by
      rw [got]
      simp
    rw [fillLoop_enobufs goes none]
    simp [Filled.Kept, full]
  | some mbufs =>
    obtain ⟨nonempty, -, enough, needed⟩ := smbMbufGetm_some positive got
    obtain ⟨next, after, rfl⟩ := List.exists_cons_of_ne_nil nonempty
    rw [fillLoop_getm goes got, Filled.kept_pass]
    have tight : Tight size (mbufTrailingspace next) after := by
      refine ⟨enough, fun nonempty => ?_⟩
      rwa [List.dropLast_cons_of_ne_nil nonempty] at needed
    refine (fillLoop_tight tight).trans (and_congr_right fun _ => ?_)
    cases after with
    | nil => simpa using more
    | cons other rest => simp

theorem kept_fillLoop (whole : mleft = mbufTrailingspace m) :
    (fillLoop size src m mleft [] allocs).Kept mleft ↔ FillCompletes mleft size src allocs := by
  unfold FillCompletes
  by_cases done : size = 0 ∨ src.data.length = 0
  · rw [fillLoop_done done]
    have fits : size ≤ mleft ∨ src.data.length ≤ mleft := by omega
    simp [Filled.Kept, ← or_assoc, fits]
  by_cases full : mleft = 0
  · subst full
    rw [kept_fillLoop_full (by omega) (by omega) whole.symm]
    have beyond : ¬src.FaultsWithin 0 := by
      rintro ⟨_, _, _, within⟩
      omega
    have longer : ¬size ≤ 0 ∧ ¬src.data.length ≤ 0 := by omega
    simp only [longer.1, longer.2, beyond, false_or, Nat.sub_zero, Nat.zero_add]
  cases moves : src.move (min mleft size) with
  | error e =>
    rw [fillLoop_error done full moves]
    obtain ⟨place, e', fault, within⟩ := Source.move_error moves
    have first : src.FaultsWithin mleft := ⟨place, e', fault, by omega⟩
    simp [Filled.Kept, whole, whole ▸ first]
  | ok moved =>
    obtain ⟨moved, next⟩ := moved
    rw [fillLoop_move done full moves rfl]
    obtain ⟨-, rest, readable, faults⟩ := Source.move_ok moves
    have kept (r : Filled) : (r.plus (min mleft size)).Kept mleft ↔ r.Kept mleft := Iff.rfl
    rw [kept]
    have shorter : next.data.length = src.data.length - min mleft size := by rw [rest, List.length_drop]
    by_cases fits : size ≤ mleft ∨ src.data.length ≤ mleft
    · have ends : size - min mleft size = 0 ∨ next.data.length = 0 := by omega
      rw [fillLoop_done ends]
      simp [Filled.Kept, ← or_assoc, fits]
    · have all : min mleft size = mleft := by omega
      rw [all] at rest readable faults shorter ⊢
      have within : min mleft src.data.length = mleft := by omega
      rw [within] at readable
      rw [Nat.sub_self, kept_fillLoop_full (by omega) (by omega) (by rw [space_fill]; omega)]
      simp only [not_or.mp fits, readable, false_or]
      split
      · rfl
      · refine and_congr ?_ ?_
        · rw [faults]
          have whole : mleft + (size - mleft) = size := by omega
          rw [whole]
        · omega

/-! ## Operations -/

namespace MbChain

/-- `mb_cur` is the last mbuf, `mb_mleft` its trailing space, and `mb_len` the number of bytes. -/
structure Consistent (mbp : MbChain) : Prop where
  cur : mbp.cur + 1 = mbp.mbufs.length
  mleft : mbp.mleft = mbufTrailingspace (mbp.mbufs.getD mbp.cur ⟨[], []⟩)
  len : mbp.len = (bytes mbp.chain).length

variable {mbp : MbChain}

theorem consistent_iff {front : List OpenMbuf} {last : OpenMbuf} (mbufs : mbp.mbufs = front ++ [last])
    (cur : mbp.cur = front.length) :
    mbp.Consistent ↔ mbp.mleft = mbufTrailingspace last ∧ mbp.len = (contents front).length + last.data.length := by
  have at' : mbp.mbufs.getD mbp.cur ⟨[], []⟩ = last := by simp [mbufs, cur]
  have total : (bytes mbp.chain).length = (contents front).length + last.data.length := by
    simp [MbChain.chain, mbufs, contents]
  constructor
  · intro consistent
    exact ⟨at' ▸ consistent.mleft, total ▸ consistent.len⟩
  · rintro ⟨mleft, len⟩
    exact ⟨by simp [mbufs, cur], at'.symm ▸ mleft, len.trans total.symm⟩

theorem Consistent.mbufs_eq (consistent : mbp.Consistent) :
    ∃ front last, mbp.mbufs = front ++ [last] ∧ mbp.cur = front.length := by
  have length := consistent.cur
  rcases List.eq_nil_or_concat' mbp.mbufs with empty | ⟨front, last, mbufs⟩
  · rw [empty] at length
    cases length
  · refine ⟨front, last, mbufs, ?_⟩
    rw [mbufs, List.length_append] at length
    exact Nat.succ.inj length

theorem Consistent.take_mbufs (consistent : mbp.Consistent) :
    mbp.mbufs.take (mbp.cur + 1) = mbp.mbufs :=
  List.take_of_length_le consistent.cur.ge

theorem not_consistent_of_length (more : mbp.cur + 1 < mbp.mbufs.length) : ¬mbp.Consistent :=
  fun consistent => more.ne consistent.cur

theorem consistent_mbPut_iff (consistent : mbp.Consistent) (size : Nat) (src : Source) (allocs : List (Option Bytes)) :
    (mbp.mbPut size src allocs).1.Consistent ↔ FillCompletes mbp.mleft size src allocs := by
  obtain ⟨front, last, mbufs, cur⟩ := consistent.mbufs_eq
  obtain ⟨mleft, len⟩ := (consistent_iff mbufs cur).mp consistent
  have at' : mbp.mbufs.getD mbp.cur ⟨[], []⟩ = last := by simp [mbufs, cur]
  have after : mbp.mbufs.drop (mbp.cur + 1) = [] := by simp [mbufs, cur]
  have before : mbp.mbufs.take mbp.cur = front := by simp [mbufs, cur]
  obtain ⟨space, counted⟩ := @fillLoop_counts src allocs size mbp.mleft last [] mleft
  rw [← kept_fillLoop mleft]
  unfold mbPut Filled.Kept
  dsimp only
  rw [at', after, before]
  generalize fillLoop size src last mbp.mleft [] allocs = r at space counted ⊢
  rw [contents_append, List.length_append, contents_cons, contents_cons, contents_nil, List.length_append,
    List.append_nil] at counted
  by_cases ended : r.after = []
  · rw [ended, contents_nil, List.length_nil] at counted
    cases r.error with
    | some e =>
      by_cases first : r.passed = []
      · rw [first, contents_nil, List.length_nil] at counted
        refine (@consistent_iff _ front r.m ?_ ?_).trans ?_
        · simp [first, ended]
        · exact cur
        · simp only [first, ended, true_and]
          omega
      · have more : 0 < r.passed.length := List.length_pos_iff.mpr first
        simp only [first, false_and, iff_false]
        apply not_consistent_of_length
        simp only [List.length_append, List.length_cons]
        omega
    | none =>
      refine (@consistent_iff _ (front ++ r.passed) r.m ?_ ?_).trans ?_
      · simp [ended]
      · simp [cur]
      · simp only [ended, iff_true, contents_append, List.length_append]
        refine ⟨space, ?_⟩
        omega
  · have more : 0 < r.after.length := List.length_pos_iff.mpr ended
    cases r.error with
    | some e =>
      simp only [ended, false_and, and_false, iff_false]
      apply not_consistent_of_length
      simp only [List.length_append, List.length_cons]
      omega
    | none =>
      simp only [ended, iff_false]
      apply not_consistent_of_length
      simp only [List.length_append, List.length_cons]
      omega

theorem consistent_advance (consistent : mbp.Consistent) {size : Nat} (fits : size ≤ mbp.mleft) :
    (mbp.advance size).Consistent := by
  obtain ⟨front, last, mbufs, cur⟩ := consistent.mbufs_eq
  obtain ⟨mleft, len⟩ := (consistent_iff mbufs cur).mp consistent
  have longer : (last.fill size []).data.length = last.data.length + size :=
    length_fill (mleft ▸ fits) (Nat.zero_le size)
  refine (@consistent_iff _ front (last.fill size []) ?_ ?_).mpr ?_
  · simp [advance, mbufs, cur]
  · exact cur
  · rw [space_fill, longer]
    simp only [advance, mleft, len, Nat.add_assoc, and_self]

theorem consistent_mbReserve {next : MbChain} (consistent : mbp.Consistent) {size : Nat} {alloc : Option Bytes}
    (reserved : mbp.mbReserve size alloc = some next) : next.Consistent := by
  unfold mbReserve at reserved
  split at reserved
  · split at reserved
    · cases reserved
    · rename_i room
      split at reserved
      · cases reserved
      · rename_i fits
        cases reserved
        obtain ⟨front, last, mbufs, cur⟩ := consistent.mbufs_eq
        obtain ⟨-, len⟩ := (consistent_iff mbufs cur).mp consistent
        apply consistent_advance
        · refine (@consistent_iff _ (front ++ [last]) ⟨[], room⟩ ?_ ?_).mpr ?_
          · rw [consistent.take_mbufs, mbufs]
          · simp [cur]
          · simp [mbufTrailingspace, len]
        · exact Nat.le_of_not_lt fits
  · rename_i fits
    cases reserved
    exact consistent_advance consistent (Nat.le_of_not_lt fits)

theorem consistent_mbPutMbuf (consistent : mbp.Consistent) (m : OpenMbuf) (rest : List OpenMbuf) :
    (mbp.mbPutMbuf m rest).Consistent := by
  obtain ⟨front, last, mbufs, cur⟩ := consistent.mbufs_eq
  obtain ⟨-, len⟩ := (consistent_iff mbufs cur).mp consistent
  have nonempty := List.cons_ne_nil m rest
  have split := List.dropLast_append_getLast nonempty
  have total : ((m :: rest).map fun m => m.data.length).sum =
      (contents (m :: rest).dropLast).length + ((m :: rest).getLast nonempty).data.length := by
    rw [← List.length_append, ← List.append_nil ((m :: rest).getLast nonempty).data, ← contents_nil, ← contents_cons,
      ← contents_append, split, contents, bytes, List.length_flatten, List.map_map]
    rfl
  refine (@consistent_iff _ (front ++ [last] ++ (m :: rest).dropLast) ((m :: rest).getLast nonempty) ?_ ?_).mpr ⟨rfl, ?_⟩
  · rw [List.append_assoc, split]
    exact congrArg (· ++ m :: rest) (consistent.take_mbufs.trans mbufs)
  · simp only [mbPutMbuf, cur, List.length_append, List.length_dropLast, List.length_cons, List.length_nil]
    omega
  · unfold mbPutMbuf
    dsimp only
    rw [total, len]
    simp only [contents_append, contents_cons, contents_nil, List.append_nil, List.length_append]
    omega

/-! ## Histories of a message -/

inductive Event
  | putMem (data : Bytes) (allocs : List (Option Bytes))
  | putPadbyte (odd : Bool) (allocs : List (Option Bytes))
  | putUio (size : Nat) (src : Source) (allocs : List (Option Bytes))
  | reserve (size : Nat) (alloc : Option Bytes)
  | putMbuf (m : OpenMbuf) (rest : List OpenMbuf)
  | fixhdr
  deriving DecidableEq, Repr

def step (mbp : MbChain) : Event → Option MbChain
  | .putMem data allocs => some (mbp.mbPutMem data allocs).1
  | .putPadbyte odd allocs => some (mbp.mbPutPadbyte odd allocs).1
  | .putUio size src allocs => some (mbp.mbPutUio size src allocs).1
  | .reserve size alloc => some ((mbp.mbReserve size alloc).getD mbp)
  | .putMbuf m rest => some (mbp.mbPutMbuf m rest)
  | .fixhdr => some mbp.mbFixhdr

/-- The operation does not stop with some of its bytes in the chain. -/
def Completes (mbp : MbChain) : Event → Prop
  | .putMem data allocs =>
    data.length ≤ mbp.mleft ∨ mbp.mleft = 0 ∨ (smbMbufGetm (data.length - mbp.mleft) allocs).1 ≠ none
  | .putUio size src allocs => FillCompletes mbp.mleft size src allocs
  | _ => True

theorem fillCompletes_mem (mleft : Nat) (data : Bytes) (allocs : List (Option Bytes)) :
    FillCompletes mleft data.length { data } allocs ↔
      data.length ≤ mleft ∨ mleft = 0 ∨ (smbMbufGetm (data.length - mleft) allocs).1 ≠ none := by
  have readable (n : Nat) : ¬(Source.mk data none).FaultsWithin n := by
    rintro ⟨_, _, fault, _⟩
    cases fault
  unfold FillCompletes
  by_cases fits : data.length ≤ mleft
  · simp [fits]
  simp only [fits, readable, false_or]
  split
  · rename_i none
    simp [none]
  · rename_i mbufs got
    have needed := (smbMbufGetm_some (by omega) got).2.2.2
    simp only [got, ne_eq, reduceCtorEq, not_false_eq_true, or_true, iff_true, true_and]
    omega

theorem consistent_step_iff {next : MbChain} (consistent : mbp.Consistent) {event : Event}
    (taken : mbp.step event = some next) : next.Consistent ↔ mbp.Completes event := by
  cases event with
  | putMem data allocs =>
    cases taken
    exact (consistent_mbPut_iff consistent _ _ _).trans (fillCompletes_mem _ _ _)
  | putPadbyte odd allocs =>
    cases taken
    refine iff_of_true ?_ trivial
    unfold mbPutPadbyte
    split
    · refine (consistent_mbPut_iff consistent _ _ _).mpr ((fillCompletes_mem _ _ _).mpr ?_)
      change 1 ≤ _ ∨ _
      omega
    · exact consistent
  | putUio size src allocs =>
    cases taken
    exact consistent_mbPut_iff consistent size src allocs
  | reserve size alloc =>
    cases taken
    refine iff_of_true ?_ trivial
    cases reserved : mbp.mbReserve size alloc with
    | none => exact consistent
    | some next => exact consistent_mbReserve consistent reserved
  | putMbuf m rest =>
    cases taken
    exact iff_of_true (consistent_mbPutMbuf consistent m rest) trivial
  | fixhdr =>
    cases taken
    exact iff_of_true ⟨consistent.cur, consistent.mleft, consistent.len⟩ trivial

theorem pkthdrLen_mbFixhdr (mbp : MbChain) : mbp.mbFixhdr.pkthdrLen = (bytes mbp.chain).length := by
  rw [chain, bytes, List.length_flatten, List.map_map]
  rfl

theorem consistent_mbInit (room : Bytes) : (mbInit room).Consistent := ⟨rfl, rfl, rfl⟩

/-- The record of a message is right throughout, and so is what `mb_fixhdr` writes, just if no operation stops in
between. -/
theorem consistent_throughout_iff (room : Bytes) (events : List Event) :
    Throughout step (fun mbp => mbp.Consistent ∧ mbp.mbFixhdr.pkthdrLen = mbp.len) (mbInit room) events ↔
      AllSteps step Completes (mbInit room) events := by
  have header (mbp : MbChain) (consistent : mbp.Consistent) : mbp.Consistent ∧ mbp.mbFixhdr.pkthdrLen = mbp.len :=
    ⟨consistent, (pkthdrLen_mbFixhdr mbp).trans consistent.len.symm⟩
  refine throughout_iff step header ?_ ?_ ?_ (consistent_mbInit room) events
  · intro mbp event next consistent completes taken
    exact (consistent_step_iff consistent taken).mpr completes
  · intro mbp event next consistent taken right
    exact (consistent_step_iff consistent taken).mp right.1
  · intro mbp event refused
    cases event <;> cases refused

/-- Two bytes fit; of the other two the second cannot be read. The two that fit are counted, and there is a new mbuf,
but `mb_cur` and `mb_mleft` are as before. -/
theorem putUio_stops : ∃ next, (mbInit [0, 0]).step
    (.putUio 4 { data := [1, 2, 3, 4], fault := some (3, .efault) } [some [0, 0]]) = some next ∧
      next.cur + 1 ≠ next.mbufs.length ∧ next.mleft = 2 ∧ mbufTrailingspace (next.mbufs.getD next.cur ⟨[], []⟩) = 0 := by
  refine ⟨_, rfl, ?_⟩
  decide +kernel

end MbChain

end SmbClient.Mbuf
