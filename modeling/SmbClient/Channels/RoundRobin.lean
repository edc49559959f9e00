import SmbClient.Channels.MainIod
import SmbClient.Lib.Cyclic

/-! The iod for a new request: the loop of `smb_iod_get_any_iod`, and the order in which repeated calls go round
the list. -/

namespace SmbClient.Channels
open SmbClient.Lib Session

namespace Session

def eligible (s : Session) (id : Nat) : Bool := usable (s.iod id) && !(s.iod id).inactiveChannel

def tailqNext (s : Session) (id : Nat) : Option Nat := (Cyclic.after s.iodTailq id).head?

def getAnyLoop (s : Session) : Nat → Option Nat → Bool → Option (Option Nat)
  | 0, _, _ => none
  | fuel + 1, none, wrappedAroundAlready =>
    match s.iodTailq.head? with
    | none => some none
    | some iod => if s.eligible iod then some (some iod) else s.getAnyLoop fuel (some iod) wrappedAroundAlready
  | fuel + 1, some last, wrappedAroundAlready =>
    match s.tailqNext last with
    | some iod => if s.eligible iod then some (some iod) else s.getAnyLoop fuel (some iod) wrappedAroundAlready
    | none => if wrappedAroundAlready then some s.iodTailq.head? else s.getAnyLoop fuel none true

end Session

section
variable {s : Session}

theorem smbIodGetAnyIod_eq_draw (s : Session) :
    s.smbIodGetAnyIod = Cyclic.draw s.eligible s.iodTailq s.roundRobinIod := by
  unfold smbIodGetAnyIod Cyclic.draw Cyclic.onward
  cases s.roundRobinIod <;> rfl

/-! ## The loop -/

def Session.scanned (s : Session) (ahead : List Nat) (fuel : Nat) (wrappedAroundAlready : Bool) : Option (Option Nat) :=
  match ahead.find? s.eligible with
  | some iod => some (some iod)
  | none => if wrappedAroundAlready then some s.iodTailq.head? else s.getAnyLoop fuel none true

theorem scanned_cons (iod : Nat) (ahead : List Nat) (fuel : Nat) (wrapped : Bool) :
    s.scanned (iod :: ahead) fuel wrapped =
      if s.eligible iod then some (some iod) else s.scanned ahead fuel wrapped := by
  unfold scanned
  cases suits : s.eligible iod <;> simp [suits]

theorem tailqNext_split (nodup : s.iodTailq.Nodup) {front ahead : List Nat} {last : Nat}
    (split : s.iodTailq = front ++ last :: ahead) : s.tailqNext last = ahead.head? := by
  rw [tailqNext, Cyclic.after_split nodup split]

theorem getAnyLoop_some (nodup : s.iodTailq.Nodup) {front ahead : List Nat} {last : Nat}
    (split : s.iodTailq = front ++ last :: ahead) (fuel : Nat) (wrapped : Bool) :
    s.getAnyLoop (fuel + 1 + ahead.length) (some last) wrapped = s.scanned ahead fuel wrapped := by
  -- the invariant is that the list splits at the iod looked at last
  induction ahead generalizing front last with
  | nil =>
    rw [List.length_nil, Nat.add_zero, getAnyLoop, tailqNext_split nodup split]
    rfl
  | cons iod ahead ih =>
    have further : s.iodTailq = (front ++ [last]) ++ iod :: ahead := by
      rw [split, List.append_assoc, List.singleton_append]
    rw [List.length_cons, ← Nat.add_assoc, getAnyLoop, tailqNext_split nodup split, List.head?_cons,
      scanned_cons]
    dsimp only
    rw [ih further]

theorem getAnyLoop_none (nodup : s.iodTailq.Nodup) (nonempty : s.iodTailq ≠ []) (fuel : Nat) (wrapped : Bool) :
    s.getAnyLoop (fuel + 1 + s.iodTailq.length) none wrapped = s.scanned s.iodTailq fuel wrapped := by
  cases list : s.iodTailq with
  | nil => exact absurd list nonempty
  | cons first ahead =>
    have split : s.iodTailq = [] ++ first :: ahead := list
    rw [List.length_cons, ← Nat.add_assoc, getAnyLoop, list, List.head?_cons, scanned_cons]
    dsimp only
    rw [getAnyLoop_some nodup split]

theorem getAnyLoop_eq (nodup : s.iodTailq.Nodup) (nonempty : s.iodTailq ≠ [])
    (listed : ∀ id, s.roundRobinIod = some id → id ∈ s.iodTailq) {fuel : Nat} (enough : 2 * s.iodTailq.length + 2 ≤ fuel) :
    s.getAnyLoop fuel s.roundRobinIod false = some s.smbIodGetAnyIod := by
  -- the second time round the list
  have again {rest : Nat} (enough : s.iodTailq.length + 1 ≤ rest) :
      s.getAnyLoop rest none true = some ((s.iodTailq.find? s.eligible).or s.iodTailq.head?) := by
    obtain ⟨more, rfl⟩ := Nat.exists_eq_add_of_le enough
    rw [show s.iodTailq.length + 1 + more = more + 1 + s.iodTailq.length by omega,
      getAnyLoop_none nodup nonempty more true, scanned]
    cases s.iodTailq.find? s.eligible <;> rfl
  have scan {ahead : List Nat} {rest : Nat} (enough : s.iodTailq.length + 1 ≤ rest) :
      s.scanned ahead rest false = some (((ahead ++ s.iodTailq).find? s.eligible).or s.iodTailq.head?) := by
    rw [scanned, List.find?_append]
    cases ahead.find? s.eligible with
    | none => exact again enough
    | some iod => rfl
  rw [smbIodGetAnyIod_eq_draw, Cyclic.draw]
  cases last : s.roundRobinIod with
  | none =>
    obtain ⟨more, rfl⟩ := Nat.exists_eq_add_of_le enough
    rw [show 2 * s.iodTailq.length + 2 + more = (s.iodTailq.length + 1 + more) + 1 + s.iodTailq.length by omega,
      getAnyLoop_none nodup nonempty _ false, scan (by omega)]
    rfl
  | some id =>
    obtain ⟨front, ahead, split⟩ := List.append_of_mem (listed id last)
    have shorter : ahead.length ≤ s.iodTailq.length := by
      rw [split, List.length_append, List.length_cons]
      omega
    obtain ⟨more, rfl⟩ := Nat.exists_eq_add_of_le enough
    rw [show 2 * s.iodTailq.length + 2 + more =
        (2 * s.iodTailq.length + 1 + more - ahead.length) + 1 + ahead.length by omega,
      getAnyLoop_some nodup split _ false, scan (by omega)]
    have onward : Cyclic.onward s.iodTailq (some id) = ahead := Cyclic.after_split nodup split
    rw [onward]

/-! ## Repeated calls -/

/-- Calls of `smb_iod_get_any_iod`, with whatever else happens between them as long as the list of iods, and
which of them can be given a request, stay as they are. -/
structure Session.Repeated (s : Session) (calls : Nat → Session) : Prop where
  first : calls 0 = s
  list : ∀ k, (calls k).iodTailq = s.iodTailq
  eligible : ∀ k, ∀ id ∈ s.iodTailq, (calls k).eligible id = s.eligible id
  saved : ∀ k, (calls (k + 1)).roundRobinIod = (calls k).smbIodGetAnyIod

theorem find?_congr_of_mem {α : Type} {p q : α → Bool} {l : List α} (same : ∀ x ∈ l, p x = q x) :
    l.find? p = l.find? q := by
  rw [← List.head?_filter, ← List.head?_filter, List.filter_congr same]

theorem Session.Repeated.smbIodGetAnyIod_eq {calls : Nat → Session} (repeated : s.Repeated calls) (k : Nat) :
    (calls k).smbIodGetAnyIod = Cyclic.draw s.eligible s.iodTailq (calls k).roundRobinIod := by
  rw [smbIodGetAnyIod_eq_draw, repeated.list, Cyclic.draw, Cyclic.draw]
  congr 1
  apply find?_congr_of_mem
  intro id member
  apply repeated.eligible k
  cases List.mem_append.mp member with
  | inl here => exact Cyclic.mem_onward here
  | inr here => exact here

theorem Session.Repeated.draws {calls : Nat → Session} (repeated : s.Repeated calls) (k : Nat) :
    (calls k).smbIodGetAnyIod = Cyclic.draws s.eligible s.iodTailq s.roundRobinIod k := by
  induction k with
  | zero => rw [repeated.smbIodGetAnyIod_eq, repeated.first, Cyclic.draws]
  | succ k ih => rw [repeated.smbIodGetAnyIod_eq, repeated.saved, ih, Cyclic.draws]

theorem eligible_hold (drawn : Option Nat) (id : Nat) : (s.hold drawn).eligible id = s.eligible id := by
  cases drawn with
  | none => rfl
  | some other =>
    change (s.smbIodRef other).eligible id = s.eligible id
    unfold eligible smbIodRef
    cases found : s.iods.lookup id with
    | none =>
      have absent : (s.modifyIod other fun iod => { iod with refCnt := iod.refCnt + 1 }).iods.lookup id = none := by
        unfold modifyIod
        rw [Slots.lookup_modify, found]
        split <;> rfl
      unfold iod
      rw [absent, found]
    | some iod =>
      rw [iod_of_lookup (lookup_modifyIod_of found), iod_of_lookup found]
      split <;> rfl

def Session.getAnyTimes (s : Session) : Nat → Session
  | 0 => s
  | k + 1 => ((s.getAnyTimes k).step .getAny).getD s

theorem repeated_getAnyTimes (nonempty : s.iodTailq ≠ []) : s.Repeated s.getAnyTimes := by
  have drawn {t : Session} (nonempty : t.iodTailq ≠ []) (old : Option Nat) :
      t.smbIodGetAnyIod.or old = t.smbIodGetAnyIod := by
    apply Option.or_of_isSome
    unfold smbIodGetAnyIod
    simp [nonempty]
  have list (k : Nat) : (s.getAnyTimes k).iodTailq = s.iodTailq := by
    induction k with
    | zero => rfl
    | succ k ih =>
      rw [← ih]
      change ((s.getAnyTimes k).hold _).iodTailq = _
      cases (s.getAnyTimes k).smbIodGetAnyIod <;> rfl
  refine ⟨rfl, list, fun k => ?_, fun k => ?_⟩
  · intro id member
    induction k with
    | zero => rfl
    | succ k ih =>
      rw [← ih]
      exact eligible_hold (s.getAnyTimes k).smbIodGetAnyIod id
  · apply drawn
    rw [list]
    exact nonempty

/-- The loop ends with an iod that can be given a request if there is one on the list, and else with the first
one. Calls over an unchanged list go round those that can be given a request, and get to each of them in every
round. -/
theorem smbIodGetAnyIod_roundRobin (s : Session) (nonempty : s.iodTailq ≠ []) (nodup : s.iodTailq.Nodup)
    (listed : ∀ id, s.roundRobinIod = some id → id ∈ s.iodTailq) :
    (∃ id ∈ s.iodTailq, s.smbIodGetAnyIod = some id ∧
      (∀ fuel, 2 * s.iodTailq.length + 2 ≤ fuel → s.getAnyLoop fuel s.roundRobinIod false = some (some id)) ∧
      ((∃ other ∈ s.iodTailq, s.eligible other = true) → s.eligible id = true) ∧
      ((∀ other ∈ s.iodTailq, s.eligible other = false) → s.iodTailq.head? = some id)) ∧
    ∀ calls, s.Repeated calls → s.iodTailq.filter s.eligible ≠ [] →
      (∃ j, ∀ k, (calls k).smbIodGetAnyIod =
        (s.iodTailq.filter s.eligible)[(j + k) % (s.iodTailq.filter s.eligible).length]?) ∧
      ∀ id ∈ s.iodTailq, s.eligible id = true → ∀ k, ∃ m < (s.iodTailq.filter s.eligible).length,
        (calls (k + m)).smbIodGetAnyIod = some id := by
  constructor
  · have isSome : s.smbIodGetAnyIod.isSome := by
      unfold smbIodGetAnyIod
      simp [nonempty]
    obtain ⟨id, drawn⟩ := Option.isSome_iff_exists.mp isSome
    refine ⟨id, mem_getAnyIod drawn, drawn, ?_, ?_, ?_⟩
    · intro fuel enough
      rw [getAnyLoop_eq nodup nonempty listed enough, drawn]
    · rintro ⟨other, member, suits⟩
      have found : s.iodTailq.filter s.eligible ≠ [] := List.ne_nil_of_mem (List.mem_filter.mpr ⟨member, suits⟩)
      obtain ⟨i, inside, at_i⟩ := Cyclic.draw_some found s.roundRobinIod
      rw [← smbIodGetAnyIod_eq_draw, drawn, Option.some.injEq] at at_i
      rw [at_i]
      exact (List.mem_filter.mp (List.getElem_mem inside)).2
    · intro none
      rw [← drawn, smbIodGetAnyIod_eq_draw, Cyclic.draw_none none fun _ => Cyclic.mem_onward]
  · intro calls repeated found
    obtain ⟨j, order⟩ := Cyclic.draws_cyclic nodup found s.roundRobinIod
    refine ⟨⟨j, fun k => (repeated.draws k).trans (order k)⟩, ?_⟩
    intro id member suits k
    obtain ⟨i, inside, at_i⟩ := List.getElem_of_mem (List.mem_filter.mpr ⟨member, suits⟩)
    obtain ⟨m, within, place⟩ := Cyclic.exists_mod_eq inside (j + k)
    refine ⟨m, within, ?_⟩
    rw [repeated.draws, order, ← Nat.add_assoc, place, List.getElem?_eq_getElem inside, at_i]

def threeIods : Session where
  iods := [some { state := .sessionActive, running := true },
    some { state := .reconnect, running := true, reconnect := true, alternateChannel := true },
    some { state := .sessionActive, running := true, alternateChannel := true }]
  iodTailq := [0, 1, 2]
  sessionIod := some 0
  roundRobinIod := some 1

theorem smbIodGetAnyIod_roundRobin_three : threeIods.smbIodGetAnyIod = some 2 ∧
    ∃ j, ∀ k, (threeIods.getAnyTimes k).smbIodGetAnyIod = [0, 2][(j + k) % 2]? := by
  have nonempty : threeIods.iodTailq ≠ [] := by decide
  have rounds := (smbIodGetAnyIod_roundRobin threeIods nonempty (by decide) (by decide)).2
  exact ⟨by decide, (rounds _ (repeated_getAnyTimes nonempty) (by decide)).1⟩

end

end SmbClient.Channels
