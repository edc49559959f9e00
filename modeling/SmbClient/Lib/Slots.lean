import Mathlib.Algebra.Order.BigOperators.Group.List
import Mathlib.Algebra.Ring.Int.Defs

namespace SmbClient.Lib

/-- Objects under the number they were allocated with. -/
abbrev Slots (α : Type) := List (Option α)

namespace Slots
variable {α : Type}

def lookup (slots : Slots α) (i : Nat) : Option α := slots[i]?.join

def alloc (slots : Slots α) (x : α) : Slots α := slots ++ [some x]

def store (slots : Slots α) (i : Nat) (x : α) : Slots α := slots.set i (some x)

def free (slots : Slots α) (i : Nat) : Slots α := slots.set i none

def modify (slots : Slots α) (i : Nat) (f : α → α) : Slots α :=
  match slots.lookup i with
  | none => slots
  | some x => slots.store i (f x)

def mapAll (f : α → α) (slots : Slots α) : Slots α := slots.map (Option.map f)

/-- The numbers in use, in the order of their allocation. -/
def inUse (slots : Slots α) : List Nat := (List.range slots.length).filter fun i => (slots.lookup i).isSome

def total (f : α → Int) (slots : Slots α) : Int := (slots.map fun slot => slot.elim 0 f).sum

def All (p : α → Prop) (slots : Slots α) : Prop := ∀ x, some x ∈ slots → p x

/-- The same numbers are in use, and `r` holds between the objects under each of them. -/
def Related (r : α → α → Prop) (a b : Slots α) : Prop := ∀ i, Option.Rel r (a.lookup i) (b.lookup i)

variable {slots : Slots α} {i : Nat} {x : α} {p : α → Prop}

theorem lookup_eq_some (found : slots.lookup i = some x) :
    slots[i]? = some (some x) := by
  unfold lookup at found
  cases slot : slots[i]? with
  | none => simp [slot] at found
  | some o => simpa [slot] using found

theorem lookup_lt (found : slots.lookup i = some x) : i < slots.length :=
  (List.getElem?_eq_some_iff.mp (lookup_eq_some found)).1

theorem lookup_length (slots : Slots α) : slots.lookup slots.length = none := by
  cases found : slots.lookup slots.length with
  | none => rfl
  | some x => exact absurd (lookup_lt found) (Nat.lt_irrefl _)

theorem lookup_alloc (slots : Slots α) (x : α) (j : Nat) :
    (slots.alloc x).lookup j = if slots.length = j then some x else slots.lookup j := by
  unfold alloc lookup
  rcases Nat.lt_trichotomy j slots.length with inside | last | beyond
  · rw [if_neg (Nat.ne_of_gt inside), List.getElem?_append_left inside]
  · rw [if_pos last.symm, last, List.getElem?_concat_length]
    rfl
  · rw [if_neg (Nat.ne_of_lt beyond), List.getElem?_eq_none (Nat.le_of_lt beyond),
      List.getElem?_eq_none (by rw [List.length_append]; exact beyond)]

theorem lookup_mapAll (f : α → α) (slots : Slots α) (j : Nat) :
    (slots.mapAll f).lookup j = (slots.lookup j).map f := by
  unfold mapAll lookup
  rw [List.getElem?_map]
  rcases slots[j]? with _ | _ | x <;> rfl

theorem lookup_free (slots : Slots α) (i j : Nat) :
    (slots.free i).lookup j = if i = j then none else slots.lookup j := by
  unfold free lookup
  by_cases same : i = j
  · subst same
    rw [if_pos rfl, List.getElem?_set_self']
    cases slots[i]? <;> rfl
  · rw [if_neg same, List.getElem?_set_ne same]

theorem lookup_free_eq_some {j : Nat} : (slots.free i).lookup j = some x ↔ ¬i = j ∧ slots.lookup j = some x := by
  rw [lookup_free, Option.ite_none_left_eq_some]

theorem lookup_store (y : α) (found : slots.lookup i = some x) (j : Nat) :
    (slots.store i y).lookup j = if i = j then some y else slots.lookup j := by
  have inside := lookup_lt found
  unfold store lookup
  by_cases same : i = j
  · subst same
    rw [if_pos rfl, List.getElem?_set_self inside]
    rfl
  · rw [if_neg same, List.getElem?_set_ne same]

theorem lookup_modify (slots : Slots α) (i : Nat) (f : α → α) (j : Nat) :
    (slots.modify i f).lookup j = if i = j then (slots.lookup j).map f else slots.lookup j := by
  unfold modify
  split
  · rename_i absent
    split
    · rename_i same
      rw [← same, absent]
      rfl
    · rfl
  · rename_i x found
    rw [lookup_store _ found]
    split
    · rename_i same
      rw [← same, found]
      rfl
    · rfl

@[simp] theorem length_alloc (slots : Slots α) (x : α) : (slots.alloc x).length = slots.length + 1 :=
  List.length_append

@[simp] theorem length_free (slots : Slots α) (i : Nat) : (slots.free i).length = slots.length :=
  List.length_set

@[simp] theorem length_mapAll (f : α → α) (slots : Slots α) : (slots.mapAll f).length = slots.length :=
  List.length_map _

@[simp] theorem length_modify (slots : Slots α) (i : Nat) (f : α → α) :
    (slots.modify i f).length = slots.length := by
  unfold modify
  split
  · rfl
  · exact List.length_set

theorem store_free (slots : Slots α) (i : Nat) (x : α) : (slots.free i).store i x = slots.store i x :=
  List.set_set none

theorem mem_inUse : i ∈ slots.inUse ↔ ∃ x, slots.lookup i = some x := by
  unfold inUse
  rw [List.mem_filter, List.mem_range, Option.isSome_iff_exists]
  exact and_iff_right_of_imp fun ⟨_, found⟩ => lookup_lt found

theorem All.lookup (all : All p slots) (found : slots.lookup i = some x) : p x :=
  all x (List.mem_of_getElem? (lookup_eq_some found))

theorem All.alloc (all : All p slots) (holds : p x) :
    All p (slots.alloc x) := by
  intro y member
  rcases List.mem_append.mp member with old | new
  · exact all y old
  · cases List.mem_singleton.mp new
    exact holds

theorem All.store (all : All p slots) (holds : p x) :
    All p (slots.store i x) := by
  intro y member
  rcases List.mem_or_eq_of_mem_set member with old | new
  · exact all y old
  · cases new
    exact holds

theorem All.modifyAt {f : α → α} (all : All p slots)
    (keeps : ∀ x, slots.lookup i = some x → p (f x)) : All p (slots.modify i f) := by
  unfold Slots.modify
  split
  · exact all
  · rename_i x found
    exact all.store (keeps x found)

theorem All.modify {f : α → α} (all : All p slots) (keeps : ∀ x, p x → p (f x)) : All p (slots.modify i f) :=
  all.modifyAt fun x found => keeps x (all.lookup found)

theorem All.free (all : All p slots) :
    All p (slots.free i) := by
  intro y member
  rcases List.mem_or_eq_of_mem_set member with old | new
  · exact all y old
  · cases new

section
variable {r : α → α → Prop} {a b c : Slots α} {i : Nat} {x : α} {f : α → α}

theorem Related.after (related : Related r a b) (found : a.lookup i = some x) : ∃ y, b.lookup i = some y ∧ r x y := by
  have here := related i
  rw [found] at here
  generalize b.lookup i = slot at here
  cases here with
  | some holds => exact ⟨_, rfl, holds⟩

theorem Related.before (related : Related r a b) (found : b.lookup i = some x) : ∃ y, a.lookup i = some y ∧ r y x := by
  have here := related i
  rw [found] at here
  generalize a.lookup i = slot at here
  cases here with
  | some holds => exact ⟨_, rfl, holds⟩

theorem Related.imp {q : α → α → Prop} (weaker : ∀ {x y}, r x y → q x y) (related : Related r a b) : Related q a b := by
  intro i
  have here := related i
  generalize a.lookup i = x, b.lookup i = y at here
  cases here with
  | none => exact .none
  | some holds => exact .some (weaker holds)

theorem Related.of_lookup (same : ∀ i, b.lookup i = (a.lookup i).map f) (holds : ∀ i x, a.lookup i = some x → r x (f x)) :
    Related r a b := by
  intro i
  rw [same]
  cases found : a.lookup i with
  | none => exact .none
  | some x => exact .some (holds i x found)

theorem Related.refl (refl : ∀ x, r x x) (a : Slots α) : Related r a a := by
  intro i
  cases a.lookup i with
  | none => exact .none
  | some x => exact .some (refl x)

theorem Related.trans (trans : ∀ {x y z}, r x y → r y z → r x z) (first : Related r a b) (second : Related r b c) :
    Related r a c := by
  intro i
  have left := first i
  have right := second i
  generalize a.lookup i = x, b.lookup i = y, c.lookup i = z at left right ⊢
  cases left with
  | none => exact right
  | some left =>
    cases right with
    | some right => exact .some (trans left right)

theorem Related.modify (refl : ∀ x, r x x) (changes : ∀ x, a.lookup i = some x → r x (f x)) : Related r a (a.modify i f) := by
  intro j
  rw [lookup_modify]
  split
  · rename_i here
    subst here
    cases found : a.lookup i with
    | none => exact .none
    | some x => exact .some (changes x found)
  · exact Related.refl refl a j

end

@[simp] theorem total_alloc (f : α → Int) (slots : Slots α) (x : α) :
    total f (slots.alloc x) = total f slots + f x := by
  simp [total, alloc]

private theorem total_set (f : α → Int) {old : Option α} (new : Option α) (found : slots[i]? = some old) :
    total f (slots.set i new) = total f slots - old.elim 0 f + new.elim 0 f := by
  induction slots generalizing i with
  | nil => simp at found
  | cons slot rest ih =>
    cases i with
    | zero =>
      cases Option.some.inj found
      simp only [total, List.set_cons_zero, List.map_cons, List.sum_cons]
      omega
    | succ i =>
      have moved := ih (i := i) (by simpa using found)
      simp only [total, List.set_cons_succ, List.map_cons, List.sum_cons] at moved ⊢
      omega

theorem total_store (f : α → Int) (y : α)
    (found : slots.lookup i = some x) : total f (slots.store i y) = total f slots - f x + f y :=
  total_set f (some y) (lookup_eq_some found)

theorem total_free (f : α → Int) (found : slots.lookup i = some x) : total f (slots.free i) = total f slots - f x := by
  rw [free, total_set f none (lookup_eq_some found)]
  simp

theorem total_nonneg {f : α → Int} (nonneg : All (fun x => 0 ≤ f x) slots) :
    0 ≤ total f slots := by
  refine List.sum_nonneg fun share member => ?_
  obtain ⟨slot, inUse, rfl⟩ := List.mem_map.mp member
  cases slot with
  | none => exact le_rfl
  | some x => exact nonneg x inUse

end Slots
variable {α : Type}

/-- `list` holds the objects of `slots` with the property `p`, each once. -/
structure Listing (p : α → Prop) (slots : Slots α) (list : List Nat) : Prop where
  nodup : list.Nodup
  mem_iff : ∀ i, i ∈ list ↔ ∃ x, slots.lookup i = some x ∧ p x

namespace Listing
variable {p : α → Prop} {slots slots' : Slots α} {list : List Nat} {i : Nat} {x y : α}

theorem nil : Listing p [] [] where
  nodup := List.nodup_nil
  mem_iff i := by simp [Slots.lookup]

variable (listing : Listing p slots list)
include listing

theorem holds (member : i ∈ list) (found : slots.lookup i = some x) : p x := by
  obtain ⟨y, found', holds⟩ := (listing.mem_iff i).mp member
  rw [found, Option.some.injEq] at found'
  exact found' ▸ holds

theorem not_mem (found : slots.lookup i = some x) (fails : ¬p x) : i ∉ list :=
  fun member => fails (listing.holds member found)

theorem congr (same : ∀ i, (∃ x, slots'.lookup i = some x ∧ p x) ↔ ∃ x, slots.lookup i = some x ∧ p x) :
    Listing p slots' list where
  nodup := listing.nodup
  mem_iff i := (listing.mem_iff i).trans (same i).symm

variable {f : α → α}

theorem mapAll (same : ∀ i x, slots.lookup i = some x → (p (f x) ↔ p x)) :
    Listing p (slots.mapAll f) list := by
  refine listing.congr fun i => ?_
  rw [Slots.lookup_mapAll]
  cases found : slots.lookup i with
  | none => simp
  | some x => simpa using same i x found

theorem modify (same : ∀ x, slots.lookup i = some x → (p (f x) ↔ p x)) :
    Listing p (slots.modify i f) list := by
  refine listing.congr fun j => ?_
  rw [Slots.lookup_modify]
  split
  · rename_i at_i
    subst at_i
    cases found : slots.lookup i with
    | none => simp
    | some x => simpa using same x found
  · exact Iff.rfl

theorem erase (fails : ∀ x, slots.lookup i = some x → ¬p (f x)) : Listing p (slots.modify i f) (list.erase i) where
  nodup := listing.nodup.erase i
  mem_iff j := by
    rw [listing.nodup.mem_erase_iff, listing.mem_iff, Slots.lookup_modify]
    split
    · rename_i at_i
      subst at_i
      cases found : slots.lookup i with
      | none => simp
      | some x => simpa using fails x found
    · rename_i other
      exact and_iff_right (Ne.symm other)

theorem insert (found : slots.lookup i = some x) (fails : ¬p x)
    (gains : p (f x)) : Listing p (slots.modify i f) (list ++ [i]) where
  nodup := by
    refine List.nodup_append.mpr ⟨listing.nodup, by simp, fun j member k last => ?_⟩
    rw [List.mem_singleton.mp last]
    rintro rfl
    exact listing.not_mem found fails member
  mem_iff j := by
    rw [List.mem_append, List.mem_singleton, listing.mem_iff, Slots.lookup_modify]
    split
    · rename_i at_i
      subst at_i
      simp [found, gains]
    · rename_i other
      simp [Ne.symm other]

end Listing
end SmbClient.Lib
