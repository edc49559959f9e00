import SmbClient.Mbuf.Bookkeeping
import SmbClient.Mbuf.MdChain

/-! Reading a chain is reading its bytes, however they are cut, and what has been put into a message is read back
from it. -/

namespace SmbClient.Mbuf
open SmbClient.Lib

/-! ## What is put into a message -/

variable {m : OpenMbuf} {size mleft : Nat} {src : Source} {after : List OpenMbuf} {allocs : List (Option Bytes)}

theorem OpenMbuf.fill_all {cplen : Nat} {moved : Bytes} (all : moved.length = cplen) :
    (m.fill cplen moved).data = m.data ++ moved := by
  have none : (m.room.take cplen).drop moved.length = [] :=
    List.drop_eq_nil_of_le (by rw [all, List.length_take]; exact Nat.min_le_left _ _)
  simp only [OpenMbuf.fill, none, List.append_nil]

def rooms (after : List OpenMbuf) (allocs : List (Option Bytes)) : List Nat :=
  after.map mbufTrailingspace ++ allocs.map fun alloc => (alloc.getD []).length

/-- The caller's bytes end where the room in an mbuf does. -/
def EndsMbuf (mleft : Nat) (rooms : List Nat) (resid : Nat) : Prop :=
  resid = 0 ∨ ∃ k, resid = mleft + (rooms.take k).sum

theorem endsMbuf_next {mleft resid : Nat} {rooms : List Nat} (more : resid ≠ 0) :
    EndsMbuf 0 (mleft :: rooms) resid ↔ EndsMbuf mleft rooms resid := by
  refine or_congr_right ⟨?_, fun ⟨k, ends⟩ => ⟨k + 1, by simpa using ends⟩⟩
  rintro ⟨k, ends⟩
  cases k with
  | zero => exact absurd ends more
  | succ k => exact ⟨k, by simpa using ends⟩

def Filled.contents (r : Filled) : Bytes := Mbuf.contents (r.passed ++ r.m :: r.after)

theorem fillLoop_ok (whole : mleft = mbufTrailingspace m) (empty : ∀ m ∈ after, m.data = [])
    (needed : after = [] ∨ mleft + spaces after.dropLast < size)
    (ok : (fillLoop size src m mleft after allocs).error = none) :
    ((fillLoop size src m mleft after allocs).contents = m.data ++ src.data.take size ↔
        size ≤ src.data.length ∨ EndsMbuf mleft (rooms after allocs) src.data.length) ∧
      (size ≤ src.data.length → (fillLoop size src m mleft after allocs).after = []) := by
  induction size, src, m, mleft, after, allocs using fillLoop.induct with
  | case1 size src m mleft after allocs done =>
    rw [fillLoop_done done]
    refine ⟨iff_of_true ?_ (done.imp (fun none => by omega) .inl), fun _ => needed.resolve_right (by omega)⟩
    have nothing : src.data.take size = [] := by
      rcases done with none | none
      · rw [none, List.take_zero]
      · rw [List.length_eq_zero_iff.mp none, List.take_nil]
    rw [nothing, Filled.contents, List.nil_append, contents_cons, contents_eq_nil empty]
  | case2 size src m allocs more next after ih =>
    rw [fillLoop_next more] at ok ⊢
    have last : after = [] ∨ mbufTrailingspace next + spaces after.dropLast < size := by
      refine or_iff_not_imp_left.mpr fun nonempty => ?_
      have room := needed.resolve_left (List.cons_ne_nil next after)
      rwa [List.dropLast_cons_of_ne_nil nonempty, spaces_cons, Nat.zero_add] at room
    obtain ⟨put, none⟩ := ih rfl (fun m member => empty m (List.mem_cons_of_mem next member)) last ok
    rw [empty next List.mem_cons_self, List.nil_append, ← endsMbuf_next fun none => more (.inr none)] at put
    exact ⟨(List.append_right_inj m.data).trans put, none⟩
  | case3 size src m allocs more next after got ih =>
    rw [fillLoop_getm more got] at ok ⊢
    obtain ⟨-, fresh, -, room⟩ := smbMbufGetm_some (by omega) got
    have last : after = [] ∨ mbufTrailingspace next + spaces after.dropLast < size := by
      refine or_iff_not_imp_left.mpr fun nonempty => ?_
      rwa [List.dropLast_cons_of_ne_nil nonempty, spaces_cons] at room
    have same : mbufTrailingspace next :: rooms after (smbMbufGetm size allocs).2 = rooms [] allocs := by
      conv_rhs => rw [← allocs_smbMbufGetm size allocs got]
      simp [rooms, mbufTrailingspace]
    obtain ⟨put, none⟩ := ih rfl (fun m member => fresh m (List.mem_cons_of_mem next member)) last ok
    rw [fresh next List.mem_cons_self, List.nil_append, ← endsMbuf_next fun none => more (.inr none), same] at put
    exact ⟨(List.append_right_inj m.data).trans put, none⟩
  | case4 size src m allocs more none =>
    rw [fillLoop_enobufs more none] at ok
    cases ok
  | case5 size src m mleft after allocs more space cplen e failed =>
    rw [fillLoop_error more space failed] at ok
    cases ok
  | case6 size src m mleft after allocs more space cplen moved next moves ih =>
    rw [fillLoop_move more space moves rfl] at ok ⊢
    obtain ⟨rfl, rest, -⟩ := Source.move_ok moves
    have least : cplen = min mleft size := rfl
    obtain ⟨put, none⟩ := ih (by rw [space_fill, whole]) empty (needed.imp_right fun room => by omega) ok
    rw [rest, List.length_drop] at none
    refine ⟨?_, fun enough => none (by omega)⟩
    by_cases enough : cplen ≤ src.data.length
    · have filled : (m.fill cplen (src.data.take cplen)).data = m.data ++ src.data.take cplen :=
        OpenMbuf.fill_all (by rw [List.length_take]; omega)
      have split : cplen + (size - cplen) = size := by omega
      rw [filled, rest, List.append_assoc, ← List.take_add, split, List.length_drop] at put
      refine put.trans ?_
      constructor
      · rintro (fits | none | ⟨k, ends⟩)
        · exact .inl (by omega)
        · by_cases fits : size ≤ src.data.length
          · exact .inl fits
          · exact .inr (.inr ⟨0, by rw [List.take_zero, List.sum_nil]; omega⟩)
        · exact .inr (.inr ⟨k, by omega⟩)
      · rintro (fits | none | ⟨k, ends⟩)
        · exact .inl (by omega)
        · exact absurd (.inr none) more
        · exact .inr (.inr ⟨k, by omega⟩)
    · -- the mbuf is made longer by more bytes than there are
      have done : next.data.length = 0 := by rw [rest, List.length_drop]; omega
      have longer : (m.fill cplen (src.data.take cplen)).data.length = m.data.length + cplen :=
        length_fill (by omega) (by simp)
      refine iff_of_false (fun exact => ?_) ?_
      · rw [fillLoop_done (.inr done)] at exact
        have length := congrArg List.length exact
        simp only [Filled.contents, Filled.plus, List.nil_append, contents_cons, List.length_append, longer,
          List.length_take] at length
        omega
      · rintro (fits | none | ⟨k, ends⟩)
        · omega
        · exact more (.inr none)
        · omega

theorem readable_mem (data : Bytes) (n : Nat) : ¬(Source.mk data none).FaultsWithin n := by
  rintro ⟨_, _, fault, _⟩
  cases fault

theorem error_fillLoop_full {data : Bytes} (positive : 0 < data.length) :
    (fillLoop data.length { data } m 0 [] allocs).error = none ↔ (smbMbufGetm data.length allocs).1 ≠ none := by
  have goes : ¬(data.length = 0 ∨ (Source.mk data none).data.length = 0) := by
    simp only [or_self]
    omega
  cases got : (smbMbufGetm data.length allocs).1 with
  | none =>
    rw [fillLoop_enobufs goes (by simp [got])]
    simp
  | some mbufs =>
    obtain ⟨nonempty, -, enough, needed⟩ := smbMbufGetm_some positive got
    obtain ⟨next, after, rfl⟩ := List.exists_cons_of_ne_nil nonempty
    have tight : Tight data.length (mbufTrailingspace next) after := by
      refine ⟨enough, fun nonempty => ?_⟩
      rwa [List.dropLast_cons_of_ne_nil nonempty] at needed
    have ends := (@fillLoop_tight { data } (smbMbufGetm data.length allocs).2 _ _ next _ tight).mpr
      ⟨readable_mem data _, by
        by_cases none : after = []
        · exact .inl none
        · exact .inr (tight.needed none)⟩
    rw [fillLoop_getm goes got]
    simpa [Filled.pass] using ends.1

theorem error_fillLoop_mem (mem : src.fault = none) :
    (fillLoop size src m mleft after allocs).error = none ∨
      (fillLoop size src m mleft after allocs).error = some .enobufs := by
  induction size, src, m, mleft, after, allocs using fillLoop.induct with
  | case1 size src m mleft after allocs done =>
    rw [fillLoop_done done]
    exact .inl rfl
  | case2 size src m allocs more next after ih =>
    rw [fillLoop_next more]
    exact ih mem
  | case3 size src m allocs more next after got ih =>
    rw [fillLoop_getm more got]
    exact ih mem
  | case4 size src m allocs more none =>
    rw [fillLoop_enobufs more none]
    exact .inr rfl
  | case5 size src m mleft after allocs more space cplen e failed =>
    unfold Source.move at failed
    rw [mem] at failed
    cases failed
  | case6 size src m mleft after allocs more space cplen moved next moves ih =>
    rw [fillLoop_move more space moves rfl]
    apply ih
    unfold Source.move at moves
    rw [mem] at moves
    cases moves
    rfl

theorem error_fillLoop {data : Bytes} :
    (fillLoop data.length { data } m mleft [] allocs).error = none ↔
      data.length ≤ mleft ∨ (smbMbufGetm (data.length - mleft) allocs).1 ≠ none := by
  by_cases done : data.length = 0
  · rw [fillLoop_done (.inl done)]
    simp [done]
  by_cases full : mleft = 0
  · subst full
    rw [error_fillLoop_full (by omega)]
    simp [done]
  have goes : ¬(data.length = 0 ∨ (Source.mk data none).data.length = 0) := by simpa using done
  have moves : (Source.mk data none).move (min mleft data.length) =
      .ok (data.take (min mleft data.length), ⟨data.drop (min mleft data.length), none⟩) := rfl
  rw [fillLoop_move goes full moves rfl]
  by_cases fits : data.length ≤ mleft
  · have ends : data.length - min mleft data.length = 0 := by omega
    rw [fillLoop_done (.inl ends)]
    simp [Filled.plus, fits]
  · have all : min mleft data.length = mleft := by omega
    have left : data.length - mleft = (data.drop mleft).length := List.length_drop.symm
    rw [all, Nat.sub_self, left]
    simp only [Filled.plus, fits, false_or]
    exact error_fillLoop_full (by rw [List.length_drop]; omega)

namespace MbChain

theorem error_mbPut (mbp : MbChain) (size : Nat) (src : Source) (allocs : List (Option Bytes)) :
    (mbp.mbPut size src allocs).2 = (fillLoop size src (mbp.mbufs.getD mbp.cur ⟨[], []⟩) mbp.mleft
      (mbp.mbufs.drop (mbp.cur + 1)) allocs).error := by
  unfold mbPut
  dsimp only
  split
  · rename_i e failed
    exact failed.symm
  · rename_i none
    exact none.symm

variable {mbp : MbChain} {allocs : List (Option Bytes)}

theorem mbPutMem_ok_iff (consistent : mbp.Consistent) (data : Bytes) (allocs : List (Option Bytes)) :
    (mbp.mbPutMem data allocs).2 = none ↔
      data.length ≤ mbp.mleft ∨ (smbMbufGetm (data.length - mbp.mleft) allocs).1 ≠ none := by
  have after : mbp.mbufs.drop (mbp.cur + 1) = [] := List.drop_eq_nil_of_le consistent.cur.ge
  unfold mbPutMem
  rw [error_mbPut, after, error_fillLoop]

theorem bytes_mbPut (consistent : mbp.Consistent) {size : Nat} {src : Source}
    (ok : (mbp.mbPut size src allocs).2 = none) :
    ∃ front last, bytes mbp.chain = front ++ last.data ∧ mbp.mleft = mbufTrailingspace last ∧
      (fillLoop size src last mbp.mleft [] allocs).error = none ∧
      bytes (mbp.mbPut size src allocs).1.chain = front ++ (fillLoop size src last mbp.mleft [] allocs).contents := by
  obtain ⟨front, last, mbufs, cur⟩ := consistent.mbufs_eq
  have at' : mbp.mbufs.getD mbp.cur ⟨[], []⟩ = last := by simp [mbufs, cur]
  have after : mbp.mbufs.drop (mbp.cur + 1) = [] := by simp [mbufs, cur]
  have before : mbp.mbufs.take mbp.cur = front := by simp [mbufs, cur]
  rw [error_mbPut, at', after] at ok
  refine ⟨contents front, last, ?_, at' ▸ consistent.mleft, ok, ?_⟩
  · change contents mbp.mbufs = _
    rw [mbufs]
    simp
  · unfold mbPut
    dsimp only
    rw [at', after, before, ok, Filled.contents, ← contents_append, ← List.append_assoc]
    rfl

theorem mbPut_ok (consistent : mbp.Consistent) {size : Nat} {src : Source} (enough : size ≤ src.data.length)
    (ok : (mbp.mbPut size src allocs).2 = none) : (mbp.mbPut size src allocs).1.Consistent ∧
      bytes (mbp.mbPut size src allocs).1.chain = bytes mbp.chain ++ src.data.take size := by
  obtain ⟨front, last, chain, mleft, ok, bytes⟩ := bytes_mbPut consistent ok
  obtain ⟨put, none⟩ := fillLoop_ok mleft (List.forall_mem_nil _) (.inl rfl) ok
  constructor
  · rw [consistent_mbPut_iff consistent, ← kept_fillLoop mleft]
    unfold Filled.Kept
    rw [ok]
    exact none enough
  · rw [bytes, put.mpr (.inl enough), chain, List.append_assoc]

theorem mbPutMem_ok (consistent : mbp.Consistent) {data : Bytes} (ok : (mbp.mbPutMem data allocs).2 = none) :
    (mbp.mbPutMem data allocs).1.Consistent ∧
      bytes (mbp.mbPutMem data allocs).1.chain = bytes mbp.chain ++ data := by
  have put := mbPut_ok consistent (Nat.le_refl data.length) ok
  rwa [List.take_length] at put

end MbChain

/-! ## `md_get_mem_put_mem` -/

def mdGetMemPutMemLoop : Chain → Nat → Nat → MbChain → List (List (Option Bytes)) → (Chain × Nat) × MbChain × Option Errno
  | cur, pos, 0, mbp, _ => ((cur, pos), mbp, none)
  | [], _, _ + 1, mbp, _ => (([], 0), mbp, some .ebadrpc)
  | m :: rest, pos, size + 1, mbp, allocs =>
    let count := m.length - pos
    if count = 0 then mdGetMemPutMemLoop rest 0 (size + 1) mbp allocs
    else
      let piece := (m.drop pos).take (size + 1)
      match mbp.mbPutMem piece (allocs.headD []) with
      | (mbp, some e) => ((m :: rest, pos + piece.length), mbp, some e)
      | (mbp, none) =>
        if count < size + 1 then mdGetMemPutMemLoop rest 0 (size + 1 - count) mbp allocs.tail
        else ((m :: rest, pos + (size + 1)), mbp, none)

theorem mdGetMemPutMemLoop_pos_le (cur : Chain) (pos size : Nat) (mbp : MbChain) (allocs : List (List (Option Bytes)))
    (inside : pos ≤ (cur.headD []).length) :
    (mdGetMemPutMemLoop cur pos size mbp allocs).1.2 ≤
      ((mdGetMemPutMemLoop cur pos size mbp allocs).1.1.headD []).length := by
  induction cur, pos, size, mbp, allocs using mdGetMemPutMemLoop.induct with
  | case1 cur pos mbp allocs => simpa [mdGetMemPutMemLoop] using inside
  | case2 pos size mbp allocs => simp [mdGetMemPutMemLoop]
  | case3 m rest pos size mbp allocs count none ih => simpa [mdGetMemPutMemLoop, count, none] using ih (Nat.zero_le _)
  | case4 m rest pos size mbp allocs count some piece mbp' e put =>
    simp only [mdGetMemPutMemLoop, count, if_neg some, piece, put, List.headD_cons] at inside ⊢
    simp only [List.length_take, List.length_drop]
    omega
  | case5 m rest pos size mbp allocs count some piece mbp' put short ih =>
    simp only [mdGetMemPutMemLoop, count, if_neg some, piece, put, if_pos short]
    exact ih (Nat.zero_le _)
  | case6 m rest pos size mbp allocs count some piece mbp' put long =>
    simp only [mdGetMemPutMemLoop, count, if_neg some, piece, put, if_neg long, List.headD_cons] at inside ⊢
    omega

def mdGetMemPutMem (mdp : MdChain) (mbp : MbChain) (size : Nat) (allocs : List (List (Option Bytes))) :
    MdChain × MbChain × Option Errno :=
  let r := mdGetMemPutMemLoop mdp.cur mdp.pos size mbp allocs
  (⟨mdp.top, r.1.1, r.1.2, if r.2.2 = none then mdp.len + size else mdp.len,
    mdGetMemPutMemLoop_pos_le mdp.cur mdp.pos size mbp allocs mdp.pos_le⟩, r.2)

theorem MbChain.error_mbPutMem (mbp : MbChain) (data : Bytes) (allocs : List (Option Bytes)) :
    (mbp.mbPutMem data allocs).2 = none ∨ (mbp.mbPutMem data allocs).2 = some .enobufs := by
  unfold mbPutMem
  rw [error_mbPut]
  exact error_fillLoop_mem rfl

structure Forward (all : Bytes) (size : Nat) (left : Bytes) (error : Option Errno) : Prop where
  suffix : left <:+ all
  ok : error = none → size ≤ all.length ∧ left = all.drop size
  short : error = some .ebadrpc → all.length < size ∧ left = []
  errors : error = none ∨ error = some .ebadrpc ∨ error = some .enobufs

theorem Forward.skip {front tail left : Bytes} {error : Option Errno}
    (forward : Forward tail (size - front.length) left error) (fits : front.length ≤ size) :
    Forward (front ++ tail) size left error where
  suffix := forward.suffix.trans (List.suffix_append front tail)
  ok none := by
    obtain ⟨enough, rest⟩ := forward.ok none
    rw [List.length_append, List.drop_append, List.drop_eq_nil_of_le fits, List.nil_append]
    exact ⟨by omega, rest⟩
  short failed := by
    obtain ⟨short, rest⟩ := forward.short failed
    rw [List.length_append]
    exact ⟨by omega, rest⟩
  errors := forward.errors

def Supplied (pieces size : Nat) (allocs : List (List (Option Bytes))) : Prop :=
  ∀ i < pieces, ∀ n, 0 < n → n ≤ size → (smbMbufGetm n (allocs.getD i [])).1 ≠ none

structure Transferred (cur : Chain) (pos size : Nat) (mbp : MbChain) (allocs : List (List (Option Bytes)))
    (r : (Chain × Nat) × MbChain × Option Errno) : Prop where
  forward : Forward (bytes (unreadFrom cur pos)) size (bytes (unreadFrom r.1.1 r.1.2)) r.2.2
  ok : r.2.2 = none →
    r.2.1.Consistent ∧ bytes r.2.1.chain = bytes mbp.chain ++ (bytes (unreadFrom cur pos)).take size
  supplied : Supplied cur.length size allocs → r.2.2 ≠ some .enobufs

theorem transferred (cur : Chain) (pos size : Nat) (mbp : MbChain) (allocs : List (List (Option Bytes)))
    (consistent : mbp.Consistent) :
    Transferred cur pos size mbp allocs (mdGetMemPutMemLoop cur pos size mbp allocs) := by
  induction cur, pos, size, mbp, allocs using mdGetMemPutMemLoop.induct with
  | case1 cur pos mbp allocs =>
    rw [mdGetMemPutMemLoop]
    refine ⟨⟨List.suffix_rfl, fun _ => ⟨Nat.zero_le _, rfl⟩, nofun, .inl rfl⟩, fun _ => ⟨consistent, ?_⟩, fun _ => nofun⟩
    simp
  | case2 pos size mbp allocs =>
    rw [mdGetMemPutMemLoop]
    exact ⟨⟨List.suffix_rfl, nofun, fun _ => ⟨Nat.succ_pos size, rfl⟩, .inr (.inl rfl)⟩, nofun, fun _ => nofun⟩
  | case3 m rest pos size mbp allocs count none ih =>
    have used : m.drop pos = [] := List.drop_eq_nil_of_le (Nat.le_of_sub_eq_zero none)
    have same : bytes (unreadFrom (m :: rest) pos) = bytes (unreadFrom rest 0) := by
      rw [unreadFrom_cons, unreadFrom_zero, bytes_cons, used, List.nil_append]
    obtain ⟨forward, ok, supplied⟩ := ih consistent
    simp only [mdGetMemPutMemLoop, count, if_pos none]
    rw [← same] at forward ok
    exact ⟨forward, ok, fun enough => supplied fun i inside => enough i (Nat.lt_succ_of_lt inside)⟩
  | case4 m rest pos size mbp allocs count some piece mbp' e put =>
    have failed : (mbp.mbPutMem piece (allocs.headD [])).2 ≠ none := by
      rw [put]
      exact nofun
    have enobufs : e = .enobufs := by
      have error := (mbp.error_mbPutMem piece (allocs.headD [])).resolve_left failed
      rw [put] at error
      exact Option.some.inj error
    subst enobufs
    simp only [mdGetMemPutMemLoop, count, if_neg some, piece, put]
    refine ⟨⟨?_, nofun, nofun, .inr (.inr rfl)⟩, nofun, fun supplied => ?_⟩
    · rw [unreadFrom_cons, unreadFrom_cons, bytes_cons, bytes_cons, ← List.drop_drop]
      obtain ⟨front, split⟩ := List.drop_suffix (List.take (size + 1) (m.drop pos)).length (m.drop pos)
      exact ⟨front, by rw [← List.append_assoc, split]⟩
    · rw [Ne, MbChain.mbPutMem_ok_iff consistent, not_or, not_not] at failed
      have least : piece.length ≤ size + 1 := List.length_take_le _ _
      have first := supplied 0 (Nat.succ_pos _) (piece.length - mbp.mleft) (by omega) (by omega)
      rw [List.getD_eq_getElem?_getD, ← List.head?_eq_getElem?, ← List.headD_eq_head?_getD] at first
      exact absurd failed.2 first
  | case5 m rest pos size mbp allocs count some piece mbp' put short ih =>
    replace short : m.length - pos < size + 1 := short
    have added := MbChain.mbPutMem_ok consistent (show (mbp.mbPutMem piece (allocs.headD [])).2 = none by rw [put])
    rw [put] at added
    obtain ⟨forward, ok, supplied⟩ := ih added.1
    rw [unreadFrom_zero] at forward ok
    simp only [mdGetMemPutMemLoop, count, if_neg some, piece, put, if_pos short]
    refine ⟨?_, fun none => ⟨(ok none).1, (ok none).2.trans ?_⟩, fun enough => supplied fun i inside n positive least => ?_⟩
    · rw [unreadFrom_cons, bytes_cons]
      apply Forward.skip
      · rw [List.length_drop]
        exact forward
      · rw [List.length_drop]
        omega
    · have whole : (m.drop pos).take (size + 1) = m.drop pos :=
        List.take_of_length_le (by rw [List.length_drop]; omega)
      have all : piece = m.drop pos := whole
      rw [unreadFrom_cons, bytes_cons, added.2, List.append_assoc, List.take_append, List.length_drop, whole, all]
    · have found := enough (i + 1) (Nat.succ_lt_succ inside) n positive (least.trans (Nat.sub_le _ _))
      rwa [List.getD_eq_getElem?_getD, ← List.getElem?_tail, ← List.getD_eq_getElem?_getD] at found
  | case6 m rest pos size mbp allocs count some piece mbp' put long =>
    replace long : ¬m.length - pos < size + 1 := long
    have added := MbChain.mbPutMem_ok consistent (show (mbp.mbPutMem piece (allocs.headD [])).2 = none by rw [put])
    rw [put] at added
    simp only [mdGetMemPutMemLoop, count, if_neg some, piece, put, if_neg long]
    have inside : size + 1 - (m.drop pos).length = 0 := by
      rw [List.length_drop]
      omega
    have left : m.drop (pos + (size + 1)) ++ bytes rest = (m.drop pos ++ bytes rest).drop (size + 1) := by
      rw [List.drop_append, inside, List.drop_drop, List.drop_zero]
    refine ⟨?_, fun _ => ⟨added.1, added.2.trans ?_⟩, fun _ => nofun⟩
    · rw [unreadFrom_cons, unreadFrom_cons, bytes_cons, bytes_cons, left]
      refine ⟨List.drop_suffix _ _, fun _ => ⟨?_, rfl⟩, nofun, .inl rfl⟩
      rw [List.length_append, List.length_drop]
      omega
    · rw [unreadFrom_cons, bytes_cons, List.take_append, inside, List.take_zero, List.append_nil]

/-! ## Sequences of gets -/

abbrev Message := {mbp : MbChain // mbp.Consistent}

def mdGetUint (mdp : MdChain) (width : Width) (order : Order) : Except Errno Nat × MdChain :=
  let fetch := mdGetMem mdp width.size
  match fetch.error with
  | none => (.ok (order.decode fetch.target), fetch.mdp)
  | some e => (.error e, fetch.mdp)

inductive Get
  | uint (width : Width) (order : Order)
  | mem (size : Nat)
  | memPutMem (mbp : Message) (size : Nat) (allocs : List (List (Option Bytes)))
  | size

inductive Got
  | value (x : Nat)
  | data (target : Bytes)
  | put (mbp : MbChain)
  | size (size : Nat)
  | failed (e : Errno)
  deriving DecidableEq

namespace Get

def run (mdp : MdChain) : Get → Got × MdChain
  | .uint width order =>
    match mdGetUint mdp width order with
    | (.ok x, mdp) => (.value x, mdp)
    | (.error e, mdp) => (.failed e, mdp)
  | .mem n =>
    let fetch := mdGetMem mdp n
    match fetch.error with
    | none => (.data fetch.target, fetch.mdp)
    | some e => (.failed e, fetch.mdp)
  | .memPutMem mbp n allocs =>
    let r := mdGetMemPutMem mdp mbp.val n allocs
    match r.2.2 with
    | none => (.put r.2.1, r.1)
    | some e => (.failed e, r.1)
  | .size => (.size (mdGetSize mdp), mdp)

def step (mdp : MdChain) (get : Get) : Option MdChain := some (get.run mdp).2

def wants : Get → Nat
  | .uint width _ => width.size
  | .mem n => n
  | .memPutMem _ n _ => n
  | .size => 0

def Supplied (mdp : MdChain) : Get → Prop
  | .memPutMem _ n allocs => Mbuf.Supplied mdp.cur.length n allocs
  | _ => True

def Returns (mdp : MdChain) (next : Bytes) : Get → Got → Prop
  | .uint _ order, got => got = .value (order.decode next)
  | .mem _, got => got = .data next
  | .memPutMem mbp _ _, got => ∃ mbp' : Message, got = .put mbp'.val ∧ bytes mbp'.val.chain = bytes mbp.val.chain ++ next
  | .size, got => got = .size mdp.rest.length

structure Exact (mdp : MdChain) (get : Get) : Prop where
  ok : (∀ e, (get.run mdp).1 ≠ .failed e) → get.wants ≤ mdp.rest.length ∧
    get.Returns mdp (mdp.rest.take get.wants) (get.run mdp).1 ∧ (get.run mdp).2.rest = mdp.rest.drop get.wants
  fails : get.Supplied mdp → ((∃ e, (get.run mdp).1 = .failed e) ↔ mdp.rest.length < get.wants)

theorem exact_of_mem {mdp : MdChain} {get : Get} (got : Got) (returned : get.Returns mdp (mdp.rest.take get.wants) got)
    (succeeds : ∀ e, got ≠ .failed e) (run : get.run mdp =
      match (mdGetMem mdp get.wants).error with
      | none => (got, (mdGetMem mdp get.wants).mdp)
      | some e => (.failed e, (mdGetMem mdp get.wants).mdp)) : Exact mdp get := by
  rw [mdGetMem_error] at run
  by_cases short : mdp.rest.length < get.wants
  · rw [if_pos short] at run
    refine ⟨fun ok => ?_, fun _ => iff_of_true ⟨.ebadrpc, by rw [run]⟩ short⟩
    exact absurd (by rw [run]) (ok .ebadrpc)
  · rw [if_neg short] at run
    refine ⟨fun _ => ⟨Nat.le_of_not_lt short, ?_, ?_⟩, fun _ => iff_of_false ?_ short⟩
    · rw [run]
      exact returned
    · rw [run]
      exact mdGetMem_rest mdp get.wants
    · rintro ⟨e, failed⟩
      rw [run] at failed
      exact succeeds e failed

theorem exact_memPutMem (mdp : MdChain) (mbp : Message) (size : Nat) (allocs : List (List (Option Bytes))) :
    Exact mdp (memPutMem mbp size allocs) := by
  obtain ⟨forward, put, supplied⟩ := transferred mdp.cur mdp.pos size mbp.val allocs mbp.property
  change Forward mdp.rest size _ _ at forward
  cases error : (mdGetMemPutMem mdp mbp.val size allocs).2.2 with
  | none =>
    have run : (memPutMem mbp size allocs).run mdp =
        (.put (mdGetMemPutMem mdp mbp.val size allocs).2.1, (mdGetMemPutMem mdp mbp.val size allocs).1) := by
      simp only [Get.run, error]
    obtain ⟨enough, left⟩ := forward.ok error
    obtain ⟨consistent, added⟩ := put error
    refine ⟨fun _ => ⟨enough, ?_, ?_⟩, fun _ => iff_of_false ?_ (Nat.not_lt_of_le enough)⟩
    · rw [run]
      exact ⟨⟨_, consistent⟩, rfl, added⟩
    · rw [run]
      exact left
    · rintro ⟨e, failed⟩
      rw [run] at failed
      cases failed
  | some e =>
    have run : (memPutMem mbp size allocs).run mdp = (.failed e, (mdGetMemPutMem mdp mbp.val size allocs).1) := by
      simp only [Get.run, error]
    refine ⟨fun ok => absurd (by rw [run]) (ok e), fun enough => iff_of_true ⟨e, by rw [run]⟩ ?_⟩
    rcases forward.errors with none | ebadrpc | enobufs
    · cases error.symm.trans none
    · exact (forward.short ebadrpc).1
    · exact absurd enobufs (supplied enough)

theorem exact (mdp : MdChain) (get : Get) : Exact mdp get := by
  cases get with
  | uint width order =>
    apply exact_of_mem (.value (order.decode (mdp.rest.take width.size)))
    · rfl
    · nofun
    · simp only [Get.run, mdGetUint, wants, mdGetMem_target]
      cases (mdGetMem mdp width.size).error <;> rfl
  | mem size =>
    apply exact_of_mem (.data (mdp.rest.take size))
    · rfl
    · nofun
    · simp only [Get.run, wants, mdGetMem_target]
  | memPutMem mbp size allocs => exact exact_memPutMem mdp mbp size allocs
  | size =>
    refine ⟨fun _ => ⟨Nat.zero_le _, ?_, rfl⟩, fun _ => iff_of_false nofun (Nat.not_lt_zero _)⟩
    exact congrArg Got.size (mdGetSize_eq mdp)

theorem rest_suffix (mdp : MdChain) (get : Get) : (get.run mdp).2.rest <:+ mdp.rest := by
  have mem (size : Nat) : (mdGetMem mdp size).mdp.rest <:+ mdp.rest := by
    rw [mdGetMem_rest]
    exact List.drop_suffix _ _
  cases get with
  | uint width order =>
    simp only [Get.run, mdGetUint]
    cases (mdGetMem mdp width.size).error <;> exact mem width.size
  | mem size =>
    simp only [Get.run]
    cases (mdGetMem mdp size).error <;> exact mem size
  | memPutMem mbp size allocs =>
    have forward := (transferred mdp.cur mdp.pos size mbp.val allocs mbp.property).forward
    simp only [Get.run, mdGetMemPutMem]
    cases (mdGetMemPutMemLoop mdp.cur mdp.pos size mbp.val allocs).2.2 <;> exact forward.suffix
  | size => exact List.suffix_rfl

end Get

/-! ## Values put and read back -/

inductive Put
  | uint (width : Width) (order : Order) (x : Nat)
  | mem (data : Bytes)
  | padbyte (odd : Bool)
  | uio (src : Source) (size : Nat) (enough : size ≤ src.data.length)
  | mbuf (m : OpenMbuf) (rest : List OpenMbuf)

namespace Put

def run (mbp : MbChain) (allocs : List (Option Bytes)) : Put → MbChain × Option Errno
  | .uint width order x => mbp.mbPutUint width order x allocs
  | .mem data => mbp.mbPutMem data allocs
  | .padbyte odd => mbp.mbPutPadbyte odd allocs
  | .uio src size _ => mbp.mbPutUio size src allocs
  | .mbuf m rest => (mbp.mbPutMbuf m rest, none)

def step (mbp : MbChain) (put : Put × List (Option Bytes)) : Option MbChain :=
  match put.1.run mbp put.2 with
  | (next, none) => some next
  | (_, some _) => none

def content : Put → Bytes
  | .uint width order x => order.encode width x
  | .mem data => data
  | .padbyte odd => if odd then [0] else []
  | .uio src size _ => src.data.take size
  | .mbuf m rest => contents (m :: rest)

def get : Put → Get
  | .uint width order _ => .uint width order
  | put => .mem put.content.length

def got : Put → Got
  | .uint width _ x => .value (x % 256 ^ width.size)
  | put => .data put.content

variable {mbp : MbChain}

theorem run_ok (consistent : mbp.Consistent) {put : Put} {allocs : List (Option Bytes)}
    (ok : (put.run mbp allocs).2 = none) :
    (put.run mbp allocs).1.Consistent ∧ bytes (put.run mbp allocs).1.chain = bytes mbp.chain ++ put.content := by
  cases put with
  | uint width order x => exact MbChain.mbPutMem_ok consistent ok
  | mem data => exact MbChain.mbPutMem_ok consistent ok
  | padbyte odd =>
    cases odd with
    | true => exact MbChain.mbPutMem_ok consistent ok
    | false => exact ⟨consistent, (List.append_nil _).symm⟩
  | uio src size enough => exact MbChain.mbPut_ok consistent enough ok
  | mbuf m rest =>
    refine ⟨MbChain.consistent_mbPutMbuf consistent m rest, ?_⟩
    change contents (mbp.mbufs.take (mbp.cur + 1) ++ m :: rest) = _
    rw [consistent.take_mbufs, contents_append]
    rfl

theorem step_some {next : MbChain} (consistent : mbp.Consistent) {put : Put × List (Option Bytes)}
    (taken : step mbp put = some next) : next.Consistent ∧ bytes next.chain = bytes mbp.chain ++ put.1.content := by
  have ran := @run_ok mbp consistent put.1 put.2
  unfold step at taken
  generalize put.1.run mbp put.2 = r at ran taken
  obtain ⟨after, error⟩ := r
  cases error with
  | none =>
    cases taken
    exact ran rfl
  | some e => cases taken

theorem bytes_run {last : MbChain} (consistent : mbp.Consistent) {puts : List (Put × List (Option Bytes))}
    (reached : Lib.run step mbp puts = some last) :
    bytes last.chain = bytes mbp.chain ++ (puts.map fun put => put.1.content).flatten := by
  induction puts generalizing mbp with
  | nil =>
    cases reached
    simp
  | cons put puts ih =>
    obtain ⟨next, taken, reached⟩ := Option.bind_eq_some_iff.mp reached
    obtain ⟨kept, added⟩ := step_some consistent taken
    rw [ih kept reached, added, List.append_assoc, List.map_cons, List.flatten_cons]

theorem get_next {mdp : MdChain} {put : Put} {tail : Bytes} (rest : mdp.rest = put.content ++ tail) :
    (put.get.run mdp).1 = put.got ∧ (put.get.run mdp).2.rest = tail := by
  have supplied : put.get.Supplied mdp := by cases put <;> trivial
  have wants : put.get.wants = put.content.length := by
    cases put with
    | uint width order x => exact (order.length_encode width x).symm
    | _ => rfl
  have exact' := Get.exact mdp put.get
  have enough : ¬mdp.rest.length < put.get.wants := by
    rw [rest, wants, List.length_append]
    exact Nat.not_lt_of_le (Nat.le_add_right _ _)
  have succeeds (e : Errno) : (put.get.run mdp).1 ≠ .failed e := fun failed =>
    enough ((exact'.fails supplied).mp ⟨e, failed⟩)
  obtain ⟨-, returned, left⟩ := exact'.ok succeeds
  rw [wants, rest, List.take_left] at returned
  rw [wants, rest, List.drop_left] at left
  refine ⟨?_, left⟩
  cases put with
  | uint width order x => exact Eq.trans returned (congrArg Got.value (order.decode_encode width x))
  | _ => exact returned

theorem gets_run {mdp : MdChain} {puts : List (Put × List (Option Bytes))} {tail : Bytes}
    (rest : mdp.rest = (puts.map fun put => put.1.content).flatten ++ tail) :
    emitted Get.step (fun mdp get => [(get.run mdp).1]) mdp (puts.map fun put => put.1.get) =
      puts.map fun put => put.1.got := by
  induction puts generalizing mdp with
  | nil => rfl
  | cons put puts ih =>
    rw [List.map_cons, List.flatten_cons, List.append_assoc] at rest
    obtain ⟨got, left⟩ := get_next rest
    simp only [List.map_cons, emitted, Get.step, Option.elim_some, got, ih left, List.singleton_append]

end Put

/-- Gets go through the bytes of a chain in order and say where they end, whatever the cuts, and read back what was
put there. -/
theorem gets_exact (m : Chain) (gets : List Get) :
    Throughout Get.step (fun mdp => mdp.rest <:+ bytes m ∧ mdGetSize mdp = mdp.rest.length) (mdInitm m) gets ∧
      AllSteps Get.step Get.Exact (mdInitm m) gets ∧
      ∀ (room : Bytes) (puts : List (Put × List (Option Bytes))) (mbp : MbChain),
        run Put.step (mbInit room) puts = some mbp → bytes m = bytes mbp.chain →
          emitted Get.step (fun mdp get => [(get.run mdp).1]) (mdInitm m) (puts.map fun put => put.1.get) =
            puts.map fun put => put.1.got := by
  refine ⟨?_, AllSteps.always Get.step Get.exact _ gets, ?_⟩
  · apply Throughout.of_preserves
    · intro mdp get next ahead taken
      cases taken
      exact ⟨(get.rest_suffix mdp).trans ahead.1, mdGetSize_eq _⟩
    · exact ⟨rest_mdInitm m ▸ List.suffix_rfl, mdGetSize_eq _⟩
  · intro room puts mbp reached same
    have rest : (mdInitm m).rest = (puts.map fun put => put.1.content).flatten ++ [] := by
      rw [rest_mdInitm, same, Put.bytes_run (MbChain.consistent_mbInit room) reached, List.append_nil]
      rfl
    exact Put.gets_run rest

/-- A number that is cut in two, with an empty mbuf in between. -/
theorem gets_exact_cut : emitted Get.step (fun mdp get => [(get.run mdp).1]) (mdInitm [[1], [], [2, 7]])
    [.uint .w16 .be, .mem 1] = [.value 258, .data [7]] := by
  obtain ⟨mbp, reached, same⟩ := Option.map_eq_some_iff.mp (by decide +kernel :
    (run Put.step (mbInit [0, 0, 0]) [(.uint .w16 .be 258, []), (.mem [7], [])]).map
      (fun mbp => bytes mbp.chain) = some [1, 2, 7])
  exact (gets_exact [[1], [], [2, 7]] []).2.2 [0, 0, 0] _ mbp reached same.symm

/-- Two bytes are left, but there is no mbuf for them. -/
theorem memPutMem_enobufs : ∃ mbp : Message,
    (Get.wants (.memPutMem mbp 2 [[none]]) ≤ (mdInitm [[1], [2]]).rest.length) ∧
      ∃ next, (Get.memPutMem mbp 2 [[none]]).run (mdInitm [[1], [2]]) = (.failed .enobufs, next) := by
  refine ⟨⟨mbInit [], MbChain.consistent_mbInit []⟩, by decide, ?_⟩
  refine ⟨((Get.memPutMem ⟨mbInit [], MbChain.consistent_mbInit []⟩ 2 [[none]]).run (mdInitm [[1], [2]])).2, ?_⟩
  apply Prod.ext
  · decide +kernel
  · rfl

end SmbClient.Mbuf
