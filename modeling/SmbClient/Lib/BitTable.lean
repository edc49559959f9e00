import Mathlib.Data.Nat.Bitwise

/-! Words of flags, translated to another numbering by a table of pairs of masks. -/

namespace SmbClient.Lib

def translate (table : List (Nat × Nat)) (word : Nat) : Nat :=
  table.foldl (fun out pair => if word &&& pair.1 ≠ 0 then out ||| pair.2 else out) 0

def knownBits (table : List (Nat × Nat)) : Nat := table.foldl (fun out pair => out ||| pair.1) 0

/-- Every mask of the table is one bit, and each bit is one of a single pair. -/
structure OneToOne (table : List (Nat × Nat)) : Prop where
  single : ∀ pair ∈ table, pair.1 = 2 ^ pair.1.log2 ∧ pair.2 = 2 ^ pair.2.log2
  unique : ∀ p ∈ table, ∀ q ∈ table, p.2 = q.2 → p.1 = q.1

instance (table : List (Nat × Nat)) : Decidable (OneToOne table) :=
  decidable_of_iff ((∀ pair ∈ table, pair.1 = 2 ^ pair.1.log2 ∧ pair.2 = 2 ^ pair.2.log2) ∧
    ∀ p ∈ table, ∀ q ∈ table, p.2 = q.2 → p.1 = q.1) ⟨fun h => ⟨h.1, h.2⟩, fun h => ⟨h.single, h.unique⟩⟩

variable {table back : List (Nat × Nat)}

theorem testBit_foldl (start word i : Nat) (table : List (Nat × Nat)) :
    (table.foldl (fun out pair => if word &&& pair.1 ≠ 0 then out ||| pair.2 else out) start).testBit i = true ↔
      start.testBit i = true ∨ ∃ pair ∈ table, word &&& pair.1 ≠ 0 ∧ pair.2.testBit i = true := by
  induction table generalizing start with
  | nil => simp
  | cons pair rest ih =>
    rw [List.foldl_cons, ih]
    by_cases set : word &&& pair.1 ≠ 0
    · simp [set, Nat.testBit_or, or_assoc]
    · simp [set]

theorem testBit_translate (word i : Nat) : (translate table word).testBit i = true ↔
    ∃ pair ∈ table, word &&& pair.1 ≠ 0 ∧ pair.2.testBit i = true := by
  rw [translate, testBit_foldl, Nat.zero_testBit]
  simp only [Bool.false_eq_true, false_or]

theorem testBit_knownBits (table : List (Nat × Nat)) (i : Nat) :
    (knownBits table).testBit i = true ↔ ∃ pair ∈ table, pair.1.testBit i = true := by
  have general (start : Nat) : (table.foldl (fun out pair => out ||| pair.1) start).testBit i = true ↔
      start.testBit i = true ∨ ∃ pair ∈ table, pair.1.testBit i = true := by
    induction table generalizing start with
    | nil => simp
    | cons pair rest ih => simp [ih, Nat.testBit_or, or_assoc]
  simp [knownBits, general]

theorem and_two_pow_ne_zero_iff (word k : Nat) : word &&& 2 ^ k ≠ 0 ↔ word.testBit k = true := by
  rw [Nat.and_two_pow]
  cases word.testBit k <;> simp

theorem testBit_two_pow_iff (k i : Nat) : (2 ^ k).testBit i = true ↔ k = i := by
  simp [Nat.testBit_two_pow]

theorem translate_translate (one : OneToOne table) (swapped : ∀ p ∈ back, p.swap ∈ table)
    (all : ∀ p ∈ table, p.swap ∈ back) (word : Nat) : translate back (translate table word) = word &&& knownBits table := by
  apply Nat.eq_of_testBit_eq
  intro i
  rw [Bool.eq_iff_iff, testBit_translate, Nat.testBit_and, Bool.and_eq_true, testBit_knownBits]
  constructor
  · rintro ⟨p, listed, set, isBit⟩
    have member := swapped p listed
    obtain ⟨second, first⟩ := one.single p.swap member
    rw [Prod.fst_swap] at second
    rw [Prod.snd_swap] at first
    rw [first, and_two_pow_ne_zero_iff, testBit_translate] at set
    obtain ⟨q, found, asked, target⟩ := set
    obtain ⟨source, image⟩ := one.single q found
    rw [image, testBit_two_pow_iff] at target
    have same : q.1 = p.2 := one.unique q found p.swap member (by rw [Prod.snd_swap, image, first, target])
    rw [second, testBit_two_pow_iff] at isBit
    rw [same, second, and_two_pow_ne_zero_iff, isBit] at asked
    exact ⟨asked, q, found, by rw [same, second, testBit_two_pow_iff, isBit]⟩
  · rintro ⟨asked, q, found, isBit⟩
    obtain ⟨source, image⟩ := one.single q found
    refine ⟨q.swap, all q found, ?_, isBit⟩
    rw [Prod.fst_swap, image, and_two_pow_ne_zero_iff, testBit_translate]
    rw [source, testBit_two_pow_iff] at isBit
    refine ⟨q, found, ?_, by rw [image, testBit_two_pow_iff, Nat.log2_two_pow]⟩
    rw [source, and_two_pow_ne_zero_iff, isBit]
    exact asked

theorem and_or_ne_zero_iff (x y m : Nat) : (x ||| y) &&& m ≠ 0 ↔ x &&& m ≠ 0 ∨ y &&& m ≠ 0 := by
  rw [Nat.and_or_distrib_right, ne_eq, Nat.or_eq_zero_iff, not_and_or]

theorem translate_or (x y : Nat) : translate table (x ||| y) = translate table x ||| translate table y := by
  apply Nat.eq_of_testBit_eq
  intro i
  rw [Bool.eq_iff_iff, Nat.testBit_or, Bool.or_eq_true]
  simp only [testBit_translate, and_or_ne_zero_iff, or_and_right, and_or_left, exists_or]

theorem translate_lt {width : Nat} (narrow : ∀ pair ∈ table, pair.2 < 2 ^ width) (word : Nat) :
    translate table word < 2 ^ width := by
  apply Nat.lt_pow_two_of_testBit
  intro i past
  rw [Bool.eq_false_iff, ne_eq, testBit_translate]
  rintro ⟨pair, listed, _, isBit⟩
  have small : pair.2 < 2 ^ i := Nat.lt_of_lt_of_le (narrow pair listed) (Nat.pow_le_pow_right (by decide) past)
  rw [Nat.testBit_lt_two_pow small] at isBit
  cases isBit

end SmbClient.Lib
