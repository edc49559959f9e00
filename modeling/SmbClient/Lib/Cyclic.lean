import Mathlib.Data.List.Nodup

/-!
Drawing from a list in turn: the next element with a property after the one drawn last, round the list.
-/

namespace SmbClient.Lib.Cyclic
variable {α : Type} [DecidableEq α]

def after (l : List α) (x : α) : List α := (l.dropWhile (· != x)).tail

theorem after_split {l front back : List α} {x : α} (nodup : l.Nodup) (split : l = front ++ x :: back) :
    after l x = back := by
  subst split
  have first : ∀ y ∈ front, y ≠ x :=
    fun y earlier => (List.nodup_append.mp nodup).2.2 y earlier x List.mem_cons_self
  unfold after
  rw [List.dropWhile_append_of_pos]
  · simp
  · simpa using first

/-- What is looked at before the search starts anew at the head of the list. -/
def onward (l : List α) (last : Option α) : List α := last.elim l (after l)

/-- The head of the list is drawn if no element has the property. -/
def draw (p : α → Bool) (l : List α) (last : Option α) : Option α :=
  ((onward l last ++ l).find? p).or l.head?

def draws (p : α → Bool) (l : List α) (last : Option α) : Nat → Option α
  | 0 => draw p l last
  | k + 1 => draw p l (draws p l last k)

section
variable {p : α → Bool} {l : List α} {last : Option α}

theorem draw_none (none : ∀ x ∈ l, p x = false) (within : ∀ x ∈ onward l last, x ∈ l) :
    draw p l last = l.head? := by
  have absent : (onward l last ++ l).find? p = Option.none := by
    rw [List.find?_eq_none]
    intro x member
    rw [Bool.not_eq_true]
    cases List.mem_append.mp member with
    | inl here => exact none x (within x here)
    | inr here => exact none x here
  rw [draw, absent, Option.none_or]

theorem draw_eq_head? (found : l.filter p ≠ []) :
    draw p l last = ((onward l last).filter p ++ l.filter p).head? := by
  rw [draw, ← List.head?_filter, List.filter_append, Option.or_of_isSome]
  rw [List.isSome_head?, ne_eq, List.append_eq_nil_iff]
  exact fun empty => found empty.2

theorem mem_onward {x : α} (member : x ∈ onward l last) : x ∈ l := by
  cases last with
  | none => exact member
  | some y => exact (List.dropWhile_suffix _).subset (List.mem_of_mem_tail member)

theorem draw_some (found : l.filter p ≠ []) (last : Option α) : ∃ i, ∃ _ : i < (l.filter p).length,
    draw p l last = some (l.filter p)[i] := by
  rw [draw_eq_head? found]
  have drawn : ∃ x ∈ l.filter p, ((onward l last).filter p ++ l.filter p).head? = some x := by
    cases rest : (onward l last).filter p with
    | nil =>
      rw [List.nil_append]
      exact ⟨_, List.head_mem found, List.head?_eq_some_head found⟩
    | cons x xs =>
      have member : x ∈ (onward l last).filter p := rest ▸ List.mem_cons_self
      rw [List.mem_filter] at member
      exact ⟨x, List.mem_filter.mpr ⟨mem_onward member.1, member.2⟩, rfl⟩
  obtain ⟨x, member, first⟩ := drawn
  obtain ⟨i, inside, same⟩ := List.getElem_of_mem member
  exact ⟨i, inside, by rw [first, same]⟩

theorem draw_next (nodup : l.Nodup) {i : Nat} (inside : i < (l.filter p).length) :
    draw p l (some (l.filter p)[i]) = (l.filter p)[(i + 1) % (l.filter p).length]? := by
  have found : l.filter p ≠ [] := List.ne_nil_of_length_pos (Nat.zero_lt_of_lt inside)
  generalize drawn : (l.filter p)[i] = x
  have member : x ∈ l.filter p := drawn ▸ List.getElem_mem inside
  obtain ⟨here, holds⟩ := List.mem_filter.mp member
  obtain ⟨front, back, split⟩ := List.append_of_mem here
  have rest : onward l (some x) = back := after_split nodup split
  have parts : l.filter p = front.filter p ++ x :: back.filter p := by
    rw [split, List.filter_append, List.filter_cons_of_pos holds]
  have place : i = (front.filter p).length := by
    apply (List.Nodup.getElem_inj_iff (nodup.filter p)).mp
    · rw [drawn]
      simp [parts]
    · simp [parts]
  have length : (l.filter p).length = i + 1 + (back.filter p).length := by
    rw [parts, List.length_append, List.length_cons, place]
    omega
  rw [draw_eq_head? found, rest]
  cases tail : back.filter p with
  | nil =>
    -- the last of them, and the search goes on at the head
    rw [tail, List.length_nil, Nat.add_zero] at length
    rw [length, Nat.mod_self, List.nil_append, List.head?_eq_getElem?]
  | cons y ys =>
    rw [tail, List.length_cons] at length
    rw [Nat.mod_eq_of_lt (by omega), parts, place, tail]
    simp

/-- The elements with the property are drawn in the order of the list, round and round. -/
theorem draws_cyclic (nodup : l.Nodup) (found : l.filter p ≠ []) (last : Option α) :
    ∃ j, ∀ k, draws p l last k = (l.filter p)[(j + k) % (l.filter p).length]? := by
  obtain ⟨j, inside, first⟩ := draw_some found last
  refine ⟨j, fun k => ?_⟩
  induction k with
  | zero => rw [draws, first, Nat.add_zero, Nat.mod_eq_of_lt inside, List.getElem?_eq_getElem]
  | succ k ih =>
    have within : (j + k) % (l.filter p).length < (l.filter p).length := Nat.mod_lt _ (Nat.zero_lt_of_lt inside)
    rw [draws, ih, List.getElem?_eq_getElem within, draw_next nodup within, Nat.mod_add_mod, Nat.add_assoc]

end

theorem exists_mod_eq {n i : Nat} (inside : i < n) (start : Nat) : ∃ m < n, (start + m) % n = i := by
  have below : start % n < n := Nat.mod_lt _ (Nat.zero_lt_of_lt inside)
  by_cases ahead : start % n ≤ i
  · refine ⟨i - start % n, by omega, ?_⟩
    rw [← Nat.mod_add_mod, Nat.add_sub_cancel' ahead, Nat.mod_eq_of_lt inside]
  · refine ⟨i + n - start % n, by omega, ?_⟩
    rw [← Nat.mod_add_mod, Nat.add_sub_cancel' (by omega), Nat.add_mod_right, Nat.mod_eq_of_lt inside]

end SmbClient.Lib.Cyclic
