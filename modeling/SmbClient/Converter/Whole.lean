import SmbClient.Converter.Path
import Mathlib.Data.List.Induction

namespace SmbClient.Converter
open SmbClient.Lib
open SmbClient.Mbuf (Errno)

section Joining
variable {υ : Type}

def joined (f : List υ → Bytes) (separator : Bytes) : List (List υ) → Bytes
  | [] => []
  | [component] => f component
  | component :: next :: rest => f component ++ separator ++ joined f separator (next :: rest)

def separated (f : List υ → Bytes) (separator : Bytes) (front : List (List υ)) : Bytes :=
  front.flatMap fun component => f component ++ separator

variable (f : List υ → Bytes) (separator : Bytes)

@[simp] theorem separated_cons (component : List υ) (front : List (List υ)) :
    separated f separator (component :: front) = f component ++ separator ++ separated f separator front := rfl

@[simp] theorem separated_nil : separated f separator [] = [] := rfl

theorem joined_cons (component : List υ) {rest : List (List υ)}
    (more : rest ≠ []) : joined f separator (component :: rest) = f component ++ separator ++ joined f separator rest := by
  obtain ⟨next, others, rfl⟩ := List.exists_cons_of_ne_nil more
  rfl

theorem joined_append (front : List (List υ)) {rest : List (List υ)}
    (more : rest ≠ []) : joined f separator (front ++ rest) = separated f separator front ++ joined f separator rest := by
  induction front with
  | nil => rfl
  | cons component front ih =>
    rw [List.cons_append, joined_cons f separator component (List.append_ne_nil_of_right_ne_nil front more), ih,
      separated_cons]
    simp only [List.append_assoc]

variable {p f : List υ → Bytes}

theorem separated_congr {front : List (List υ)} (same : ∀ c ∈ front, p c = f c) (separator : Bytes) :
    separated p separator front = separated f separator front := by
  induction front with
  | nil => rfl
  | cons component front ih =>
    obtain ⟨first, later⟩ := List.forall_mem_cons.mp same
    rw [separated_cons, separated_cons, first, ih later]

theorem joined_congr {parts : List (List υ)} (same : ∀ c ∈ parts, p c = f c) (separator : Bytes) :
    joined p separator parts = joined f separator parts := by
  cases parts using List.reverseRecOn with
  | nil => rfl
  | append_singleton front last =>
    rw [joined_append p separator front (List.cons_ne_nil _ _), joined_append f separator front (List.cons_ne_nil _ _),
      separated_congr fun c member => same c (List.mem_append_left _ member)]
    exact congrArg _ (same last (by simp))

theorem length_separated_le (shrinks : ∀ c, (p c).length ≤ (f c).length) (separator : Bytes) (front : List (List υ)) :
    (separated p separator front).length ≤ (separated f separator front).length ∧
      ((separated p separator front).length = (separated f separator front).length →
        ∀ c ∈ front, (p c).length = (f c).length) := by
  induction front with
  | nil => simp
  | cons component front ih =>
    have first := shrinks component
    simp only [separated_cons, List.length_append, List.mem_cons, forall_eq_or_imp]
    refine ⟨by omega, fun same => ⟨by omega, ih.2 (by omega)⟩⟩

end Joining

def assemble {υ : Type} [DecidableEq υ] (dir : Direction υ) :
    List (List υ) → (out : Bytes) → (resid : Nat) → Except Errno (Bytes × Bool)
  | [], out, _ => .ok (out, false)
  | component :: rest, out, resid =>
    if resid = 0 then .ok (out, !(component = [] && rest.isEmpty))
    else
      match dir.convert component resid with
      | .error e => .error e
      | .ok text =>
        if rest.isEmpty then .ok (out ++ text, false)
        else if resid - text.length < dir.separator.length then .error .e2big
        else assemble dir rest (out ++ text ++ dir.separator) (resid - text.length - dir.separator.length)

section Assemble
variable {υ : Type} [DecidableEq υ] {dir : Direction υ}

theorem assemble_full (parts : List (List υ)) (out : Bytes) (present : parts ≠ []) :
    assemble dir parts out 0 = .ok (out, decide (parts ≠ [[]])) := by
  obtain ⟨component, rest, rfl⟩ := List.exists_cons_of_ne_nil present
  rw [assemble, if_pos rfl]
  cases rest <;> simp

theorem components_eq_iff {nul delimiter : υ} (input : List υ) :
    components nul delimiter input = [[]] ↔ input.headD nul = nul := by
  cases input with
  | nil => simp [components]
  | cons x rest =>
    obtain ⟨part, more, parts⟩ := List.exists_cons_of_ne_nil (@components_ne_nil υ _ nul delimiter rest)
    rw [components, parts, List.headD_cons]
    split
    next same => simp [same]
    next other => split <;> simp [other]

def leftOver (nul : υ) : Option (List υ) → Bool
  | none => false
  | some rest => rest.headD nul ≠ nul

theorem walk_result {dir : Direction υ} (empty : ∀ resid, dir.convert [] resid = .ok []) (odd : Bool) {turns : Nat}
    {input : List υ} (enough : input.length < turns) (out : Bytes) (resid : Nat) :
    ((walk dir odd turns input out resid).result.map fun r => (r.1, leftOver dir.nul r.2.2)) =
      assemble dir (components dir.nul dir.delimiter input) out resid := by
  induction turns generalizing input out resid with
  | zero => exact absurd enough (Nat.not_lt_zero _)
  | succ turns ih =>
    rw [walk]
    by_cases full : resid = 0
    · subst full
      have left := @components_eq_iff υ _ dir.nul dir.delimiter input
      rw [if_pos (.inl rfl), assemble_full _ _ (components_ne_nil input)]
      simp only [Except.map, leftOver, ne_eq, left]
    · by_cases ended : input = [] ∧ odd = false
      · rw [if_pos (.inr ended), ended.1]
        simp [Except.map, leftOver, components, assemble, full, empty]
      · rw [if_neg (not_or.mpr ⟨full, ended⟩)]
        cases found : splitAtDelimiter dir.nul dir.delimiter input with
        | none =>
          rw [components_of_none found]
          simp only [assemble, if_neg full]
          cases dir.convert (input.takeWhile (· ≠ dir.nul)) resid <;> rfl
        | some split =>
          obtain ⟨component, rest⟩ := split
          obtain ⟨whole, _, parts⟩ := splitAtDelimiter_eq_some found
          have more : (components dir.nul dir.delimiter rest).isEmpty = false := by
            simpa using components_ne_nil rest
          have fewer : rest.length < turns := by
            have size := congrArg List.length whole
            rw [List.length_append, List.length_cons] at size
            omega
          rw [parts, assemble, if_neg full, more]
          dsimp only
          cases dir.convert component resid with
          | error e => rfl
          | ok text =>
            dsimp only
            rw [if_neg Bool.false_ne_true]
            split
            · rfl
            · exact ih fewer _ _

/-! ## Conversions that are whole, whatever the room -/

variable {p : List υ → Bytes}

theorem assemble_ok (converts : ∀ c resid text, dir.convert c resid = .ok text → text = p c ∧ text.length ≤ resid)
    {parts : List (List υ)} (present : parts ≠ []) {out out' : Bytes} {resid : Nat} {left : Bool}
    (ok : assemble dir parts out resid = .ok (out', left)) :
    (left = false ∧ out' = out ++ joined p dir.separator parts ∧ (joined p dir.separator parts).length ≤ resid) ∨
      ∃ front rest, parts = front ++ rest ∧ rest ≠ [] ∧ (separated p dir.separator front).length = resid ∧
        out' = out ++ separated p dir.separator front ∧ left = decide (rest ≠ [[]]) := by
  induction parts generalizing out resid with
  | nil => exact absurd rfl present
  | cons component rest ih =>
    by_cases full : resid = 0
    · subst full
      rw [assemble_full _ _ present] at ok
      cases ok
      exact .inr ⟨[], component :: rest, rfl, present, rfl, (List.append_nil _).symm, rfl⟩
    · rw [assemble, if_neg full] at ok
      split at ok
      · cases ok
      next text converted =>
        obtain ⟨rfl, fits⟩ := converts _ _ _ converted
        cases rest with
        | nil =>
          cases ok
          exact .inl ⟨rfl, rfl, fits⟩
        | cons next others =>
          rw [List.isEmpty_cons, if_neg Bool.false_ne_true] at ok
          split at ok
          · cases ok
          next room =>
            rcases ih (List.cons_ne_nil _ _) ok with ⟨last, text, size⟩ | ⟨front, behind, split, more, used, text, last⟩
            · refine .inl ⟨last, ?_, ?_⟩
              · rw [text, joined_cons _ _ _ (List.cons_ne_nil _ _)]
                simp only [List.append_assoc]
              · rw [joined_cons _ _ _ (List.cons_ne_nil _ _)]
                simp only [List.length_append]
                omega
            · refine .inr ⟨component :: front, behind, by rw [split, List.cons_append], more, ?_, ?_, last⟩
              · rw [separated_cons]
                simp only [List.length_append]
                omega
              · rw [text, separated_cons]
                simp only [List.append_assoc]

section Settled
variable (settled : ∀ c resid, (p c).length ≤ resid → dir.convert c resid = .ok (p c))
include settled

theorem assemble_joined (positive : 0 < dir.separator.length) {parts : List (List υ)} (present : parts ≠ []) {out : Bytes}
    {resid : Nat} (room : (joined p dir.separator parts).length ≤ resid) :
    ∃ left, assemble dir parts out resid = .ok (out ++ joined p dir.separator parts, left) := by
  induction parts generalizing out resid with
  | nil => exact absurd rfl present
  | cons component rest ih =>
    cases rest with
    | nil =>
      by_cases full : resid = 0
      · subst full
        have none : p component = [] := List.length_eq_zero_iff.mp (Nat.le_zero.mp room)
        exact ⟨_, by rw [assemble_full _ _ present, joined, none, List.append_nil]⟩
      · exact ⟨false, by rw [assemble, if_neg full, settled component resid room]; rfl⟩
    | cons next others =>
      rw [joined_cons _ _ _ (List.cons_ne_nil _ _)] at room ⊢
      simp only [List.length_append] at room
      have full : resid ≠ 0 := by omega
      obtain ⟨left, ok⟩ := @ih (List.cons_ne_nil _ _) (out ++ p component ++ dir.separator)
        (resid - (p component).length - dir.separator.length) (by omega)
      refine ⟨left, ?_⟩
      rw [assemble, if_neg full, settled component resid (by omega)]
      dsimp only
      rw [List.isEmpty_cons, if_neg Bool.false_ne_true, if_neg (by omega), ok]
      simp only [List.append_assoc]

theorem assemble_separated (positive : 0 < dir.separator.length) (front : List (List υ)) {rest : List (List υ)}
    (more : rest ≠ []) (out : Bytes) :
    assemble dir (front ++ rest) out (separated p dir.separator front).length =
      .ok (out ++ separated p dir.separator front, decide (rest ≠ [[]])) := by
  induction front generalizing out with
  | nil =>
    rw [List.nil_append, separated_nil, List.length_nil, assemble_full _ _ more, List.append_nil]
  | cons component front ih =>
    have tail : (front ++ rest).isEmpty = false := by simp [more]
    rw [separated_cons, List.cons_append, assemble]
    simp only [List.length_append]
    rw [if_neg (by omega), settled component _ (by omega), tail]
    dsimp only
    rw [if_neg Bool.false_ne_true, if_neg (by omega)]
    have room : (p component).length + dir.separator.length + (separated p dir.separator front).length -
        (p component).length - dir.separator.length = (separated p dir.separator front).length := by omega
    rw [room, ih]
    simp only [List.append_assoc]

end Settled

/-! ## Conversions that are cut off where the room ends -/

open Codec (even)

theorem even_le (room : Nat) : even room ≤ room := Nat.sub_le _ _

theorem sub_even (room : Nat) : room - even room = room % 2 := by
  have := Nat.mod_le room 2
  unfold even
  omega

theorem le_even {room n : Nat} (more : n + 1 ≤ room) : n ≤ even room := by
  unfold even
  omega

section Cut
variable {f : List υ → Bytes} {front : List (List υ)} (one : dir.separator.length = 1)
include one

variable {resid : Nat}

theorem assemble_cut (cuts : ∀ c resid text, dir.convert c resid = .ok text → text = (f c).take (even resid))
    (nothing : f [] = []) {parts : List (List υ)} (present : parts ≠ []) {out out' : Bytes}
    (ok : assemble dir parts out resid = .ok (out', false)) :
    out' = out ++ joined f dir.separator parts ∨
      ∃ front c, (parts = front ++ [c] ∨
          parts = front ++ [c, []] ∧ (resid - (separated f dir.separator front).length) % 2 = 1) ∧
        (separated f dir.separator front).length < resid ∧
        even (resid - (separated f dir.separator front).length) < (f c).length := by
  induction parts generalizing out resid with
  | nil => exact absurd rfl present
  | cons component rest ih =>
    by_cases full : resid = 0
    · subst full
      rw [assemble_full _ _ present, Except.ok.injEq, Prod.mk.injEq, decide_eq_false_iff_not, not_not] at ok
      obtain ⟨same, last⟩ := ok
      exact .inl (by rw [last, joined, nothing, List.append_nil, same])
    · rw [assemble, if_neg full] at ok
      split at ok
      · cases ok
      next text converted =>
        cases cuts _ _ _ converted
        by_cases whole : (f component).length ≤ even resid
        · rw [List.take_of_length_le whole] at ok
          cases rest with
          | nil =>
            cases ok
            exact .inl rfl
          | cons next others =>
            rw [List.isEmpty_cons, if_neg Bool.false_ne_true] at ok
            split at ok
            · cases ok
            next room =>
              rcases ih (List.cons_ne_nil _ _) ok with text | ⟨front, c, split, used, short⟩
              · refine .inl ?_
                rw [text, joined_cons _ _ _ (List.cons_ne_nil _ _)]
                simp only [List.append_assoc]
              · have size : (separated f dir.separator (component :: front)).length =
                    (f component).length + 1 + (separated f dir.separator front).length := by
                  rw [separated_cons, List.length_append, List.length_append, one]
                have rooms : resid - (separated f dir.separator (component :: front)).length =
                    resid - (f component).length - dir.separator.length -
                      (separated f dir.separator front).length := by omega
                refine .inr ⟨component :: front, c, ?_, by omega, rooms ▸ short⟩
                rw [rooms]
                rcases split with last | ⟨last, odd⟩
                · exact .inl (by rw [last, List.cons_append])
                · exact .inr ⟨by rw [last, List.cons_append], odd⟩
        · -- cut off: there is at most one byte left, for a separator with nothing behind it
          have cut : ((f component).take (even resid)).length = even resid :=
            List.length_take_of_le (Nat.le_of_not_le whole)
          have less : even resid < (f component).length := Nat.lt_of_not_le whole
          refine .inr ⟨[], component, ?_, Nat.pos_of_ne_zero full, less⟩
          cases rest with
          | nil => exact .inl rfl
          | cons next others =>
            rw [List.isEmpty_cons, if_neg Bool.false_ne_true, cut, sub_even, one] at ok
            split at ok
            · cases ok
            next room =>
              have odd : resid % 2 = 1 := by omega
              rw [odd, assemble_full _ _ (List.cons_ne_nil _ _), Except.ok.injEq, Prod.mk.injEq,
                decide_eq_false_iff_not, not_not] at ok
              exact .inr ⟨by rw [ok.2]; rfl, odd⟩

theorem assemble_front (settled : ∀ c ∈ front, ∀ resid, dir.convert c resid = .ok ((f c).take (even resid)))
    {rest : List (List υ)} (more : rest ≠ []) (out : Bytes) (room : (separated f dir.separator front).length < resid) :
    assemble dir (front ++ rest) out resid =
      assemble dir rest (out ++ separated f dir.separator front)
        (resid - (separated f dir.separator front).length) := by
  induction front generalizing out resid with
  | nil => simp
  | cons component front ih =>
    obtain ⟨first, later⟩ := List.forall_mem_cons.mp settled
    have tail : (front ++ rest).isEmpty = false := by simp [more]
    rw [separated_cons, List.length_append, List.length_append, one] at room
    rw [List.cons_append, assemble, if_neg (by omega), first, tail,
      List.take_of_length_le (le_even (by omega))]
    dsimp only
    rw [if_neg Bool.false_ne_true, if_neg (by omega), ih later _ (by omega), separated_cons, List.length_append,
      List.length_append]
    simp only [List.append_assoc, Nat.sub_sub, Nat.add_assoc]

theorem assemble_short {parts : List (List υ)} {c : List υ}
    (settled : ∀ part ∈ front ++ [c], ∀ resid, dir.convert part resid = .ok ((f part).take (even resid)))
    (out : Bytes) (room : (separated f dir.separator front).length < resid)
    (short : even (resid - (separated f dir.separator front).length) < (f c).length) (split : parts = front ++ [c] ∨
      parts = front ++ [c, []] ∧ (resid - (separated f dir.separator front).length) % 2 = 1) (nothing : f [] = []) :
    ∃ out', assemble dir parts out resid = .ok (out', false) ∧
      out'.length < (out ++ joined f dir.separator parts).length := by
  have fronts : ∀ part ∈ front, ∀ resid, dir.convert part resid = .ok ((f part).take (even resid)) :=
    fun part member => settled part (List.mem_append_left _ member)
  have last := settled c (by simp)
  have present : resid - (separated f dir.separator front).length ≠ 0 := by omega
  generalize left : resid - (separated f dir.separator front).length = resid' at short split present
  have cut : ((f c).take (even resid')).length = even resid' := List.length_take_of_le (Nat.le_of_lt short)
  rcases split with rfl | ⟨rfl, odd⟩
  · rw [assemble_front one fronts (List.cons_ne_nil _ _) out room, left, assemble, if_neg present, last resid',
      joined_append f _ front (List.cons_ne_nil _ _)]
    refine ⟨_, rfl, ?_⟩
    simp only [List.length_append, joined, cut]
    omega
  · have one' : ¬resid' - even resid' < 1 := by
      rw [sub_even]
      omega
    have full : resid' - even resid' - 1 = 0 := by
      rw [sub_even]
      omega
    rw [assemble_front one fronts (List.cons_ne_nil _ _) out room, left, assemble, if_neg present, last resid',
      joined_append f _ front (List.cons_ne_nil _ _)]
    dsimp only
    rw [List.isEmpty_cons, if_neg Bool.false_ne_true, cut, one, if_neg one', full,
      assemble_full _ _ (List.cons_ne_nil _ _)]
    refine ⟨_, rfl, ?_⟩
    simp only [List.length_append, joined, cut, nothing]
    omega

end Cut

theorem assemble_converted {parts : List (List υ)} {out out' : Bytes} {resid : Nat}
    (ok : assemble dir parts out resid = .ok (out', false)) :
    ∀ c ∈ parts, c = [] ∨ ∃ room text, dir.convert c room = .ok text := by
  induction parts generalizing out resid with
  | nil => simp
  | cons component rest ih =>
    by_cases full : resid = 0
    · subst full
      rw [assemble_full _ _ (List.cons_ne_nil _ _), Except.ok.injEq, Prod.mk.injEq, decide_eq_false_iff_not,
        not_not] at ok
      rw [ok.2]
      simp
    · rw [assemble, if_neg full] at ok
      split at ok
      · cases ok
      next text converted =>
        refine List.forall_mem_cons.mpr ⟨.inr ⟨resid, text, converted⟩, ?_⟩
        cases rest with
        | nil => simp
        | cons next others =>
          rw [List.isEmpty_cons, if_neg Bool.false_ne_true] at ok
          split at ok
          · cases ok
          · exact ih ok

end Assemble

end SmbClient.Converter
