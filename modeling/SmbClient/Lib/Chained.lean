import Mathlib.Data.List.Basic

namespace SmbClient.Lib

/-- A hash table with chaining: the entries of each slot, the newest one first. -/
abbrev Chained (κ ν : Type) := Nat → List (κ × ν)

namespace Chained
variable {κ ν : Type} [DecidableEq κ] (slot : κ → Nat)

def find (table : Chained κ ν) (key : κ) : Option ν := (table (slot key)).lookup key

def insert (table : Chained κ ν) (key : κ) (value : ν) : Chained κ ν :=
  Function.update table (slot key) ((key, value) :: table (slot key))

def replaceFirst (key : κ) (value : ν) : List (κ × ν) → List (κ × ν)
  | [] => []
  | entry :: rest => if entry.1 = key then (key, value) :: rest else entry :: replaceFirst key value rest

def replace (table : Chained κ ν) (key : κ) (value : ν) : Chained κ ν :=
  Function.update table (slot key) (replaceFirst key value (table (slot key)))

def eraseFirst (key : κ) : List (κ × ν) → List (κ × ν)
  | [] => []
  | entry :: rest => if entry.1 = key then rest else entry :: eraseFirst key rest

def erase (table : Chained κ ν) (key : κ) : Chained κ ν :=
  Function.update table (slot key) (eraseFirst key (table (slot key)))

theorem lookup_cons_of_ne {key other : κ} (different : key ≠ other) (value : ν) (entries : List (κ × ν)) :
    ((key, value) :: entries).lookup other = entries.lookup other := by
  rw [List.lookup_cons, beq_false_of_ne different.symm]

theorem lookup_replaceFirst (key : κ) (value : ν) (other : κ) (entries : List (κ × ν)) :
    (replaceFirst key value entries).lookup other =
      if key = other then (entries.lookup other).map fun _ => value else entries.lookup other := by
  induction entries with
  | nil => simp [replaceFirst]
  | cons entry rest ih =>
    obtain ⟨k, v⟩ := entry
    unfold replaceFirst
    by_cases found : k = key
    · subst found
      by_cases same : k = other
      · simp [same]
      · rw [if_pos rfl, if_neg same, lookup_cons_of_ne same, lookup_cons_of_ne same]
    · rw [if_neg found]
      by_cases here : k = other
      · subst here
        simp [Ne.symm found]
      · rw [lookup_cons_of_ne here, lookup_cons_of_ne here, ih]

theorem lookup_eraseFirst_of_ne {key other : κ} (different : key ≠ other) (entries : List (κ × ν)) :
    (eraseFirst key entries).lookup other = entries.lookup other := by
  induction entries with
  | nil => rfl
  | cons entry rest ih =>
    obtain ⟨k, v⟩ := entry
    unfold eraseFirst
    by_cases found : k = key
    · subst found
      rw [if_pos rfl, lookup_cons_of_ne different]
    · rw [if_neg found, List.lookup_cons, List.lookup_cons, ih]

section
variable {slot} (table : Chained κ ν) (key other : κ) (value : ν)

theorem find_update (entries : List (κ × ν)) (elsewhere : key ≠ other → entries.lookup other = (table (slot key)).lookup other) :
    find slot (Function.update table (slot key) entries) other =
      if key = other then entries.lookup other else find slot table other := by
  unfold find
  by_cases same : key = other
  · subst same
    rw [if_pos rfl, Function.update_self]
  · rw [if_neg same]
    by_cases clash : slot other = slot key
    · rw [clash, Function.update_self, elsewhere same]
    · rw [Function.update_of_ne clash]

theorem find_insert : find slot (insert slot table key value) other =
    if key = other then some value else find slot table other := by
  unfold insert
  rw [find_update]
  · by_cases same : key = other
    · simp [same]
    · simp [same]
  · exact fun different => lookup_cons_of_ne different value _

theorem find_replace : find slot (replace slot table key value) other =
    if key = other then (find slot table other).map fun _ => value else find slot table other := by
  unfold replace
  rw [find_update]
  · by_cases same : key = other
    · subst same
      rw [if_pos rfl, if_pos rfl, lookup_replaceFirst, if_pos rfl]
      rfl
    · rw [if_neg same, if_neg same]
  · intro different
    rw [lookup_replaceFirst, if_neg different]

theorem find_erase_of_ne (different : key ≠ other) :
    find slot (erase slot table key) other = find slot table other := by
  unfold erase
  rw [find_update, if_neg different]
  exact fun _ => lookup_eraseFirst_of_ne different _

end
end Chained
end SmbClient.Lib
