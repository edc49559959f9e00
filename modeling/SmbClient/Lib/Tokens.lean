import Mathlib.Data.List.TakeWhile

namespace SmbClient.Lib

section
variable {α : Type} (p : α → Bool)

def leading (l : List α) : Nat := (l.takeWhile p).length

def trailing (l : List α) : Nat := leading p l.reverse

variable (l : List α)

theorem leading_le : leading p l ≤ l.length := (List.takeWhile_sublist _).length_le

theorem trailing_le : trailing p l ≤ l.length := by
  rw [← List.length_reverse]
  exact leading_le p l.reverse

variable {p} {a : α} (only : ∀ b, p b = true → b = a)
include only

theorem take_leading : l.take (leading p l) = List.replicate (leading p l) a := by
  have front : l.take (leading p l) = l.takeWhile p := (List.prefix_iff_eq_take.mp (List.takeWhile_prefix _)).symm
  rw [front, List.eq_replicate_iff]
  exact ⟨rfl, fun b member => only b (List.mem_takeWhile_imp member)⟩

theorem drop_trailing : l.drop (l.length - trailing p l) = List.replicate (trailing p l) a := by
  have mirrored := congrArg List.reverse (take_leading l.reverse only)
  rw [List.take_reverse, List.reverse_reverse, List.reverse_replicate] at mirrored
  exact mirrored

end

variable {υ : Type} [DecidableEq υ] (nul delimiter : υ)

/-- What is before the first delimiter and what is behind it, in a text that ends with `nul` or with the list. -/
def splitAtDelimiter : List υ → Option (List υ × List υ)
  | [] => none
  | x :: rest =>
    if x = nul then none
    else if x = delimiter then some ([], rest)
    else (splitAtDelimiter rest).map fun found => (x :: found.1, found.2)

/-- The parts of a text between its delimiters. -/
def components : List υ → List (List υ)
  | [] => [[]]
  | x :: rest =>
    if x = nul then [[]]
    else if x = delimiter then [] :: components rest
    else (components rest).modifyHead (x :: ·)

variable {nul delimiter}

theorem splitAtDelimiter_eq_some {text before behind : List υ}
    (found : splitAtDelimiter nul delimiter text = some (before, behind)) :
    text = before ++ delimiter :: behind ∧ delimiter ≠ nul ∧
      components nul delimiter text = before :: components nul delimiter behind := by
  induction text generalizing before with
  | nil => cases found
  | cons x rest ih =>
    rw [splitAtDelimiter] at found
    rw [components]
    split at found
    · cases found
    next other =>
      split at found
      next same =>
        cases found
        rw [if_neg other, if_pos same, same]
        exact ⟨rfl, same ▸ other, rfl⟩
      next plain =>
        obtain ⟨⟨front, back⟩, later, pair⟩ := Option.map_eq_some_iff.mp found
        cases pair
        obtain ⟨split, nonzero, parts⟩ := ih later
        rw [if_neg other, if_neg plain, parts]
        exact ⟨congrArg (x :: ·) split, nonzero, rfl⟩

theorem components_of_none {text : List υ} (unfound : splitAtDelimiter nul delimiter text = none) :
    components nul delimiter text = [text.takeWhile (· ≠ nul)] := by
  induction text with
  | nil => rfl
  | cons x rest ih =>
    rw [splitAtDelimiter] at unfound
    rw [components, List.takeWhile_cons]
    split at unfound
    next same => simp [same]
    next other =>
      split at unfound
      · cases unfound
      next plain =>
        rw [if_neg other, if_neg plain, ih (Option.map_eq_none_iff.mp unfound)]
        simp [other]

theorem components_ne_nil (text : List υ) : components nul delimiter text ≠ [] := by
  cases found : splitAtDelimiter nul delimiter text with
  | none => simp [components_of_none found]
  | some parts => simp [(@splitAtDelimiter_eq_some _ _ _ _ _ parts.1 parts.2 found).2.2]

end SmbClient.Lib
