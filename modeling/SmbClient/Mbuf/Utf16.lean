import SmbClient.Mbuf.MdChain

/-!
`md_get_utf16_strlen`, which looks for the end of a name mbuf by mbuf.
-/

namespace SmbClient.Mbuf
open SmbClient.Lib

def scanMbuf : Bytes → Nat × Bool
  | a :: b :: rest =>
    if a = 0 ∧ b = 0 then (0, true)
    else ((scanMbuf rest).1 + 2, (scanMbuf rest).2)
  | _ => (0, false)

def utf16StrlenLoop (size : Nat) (s : Bytes) : Chain → Option Nat
  | [] => some (size + (scanMbuf s).1)
  | m :: rest =>
    if (scanMbuf s).2 then some (size + (scanMbuf s).1)
    else if s.length % 2 = 1 then
      match m with
      | [] => none
      | first :: m =>
        if s.getLastD 0 = 0 ∧ first = 0 then some (size + (scanMbuf s).1)
        else utf16StrlenLoop (size + (scanMbuf s).1) m rest
    else utf16StrlenLoop (size + (scanMbuf s).1) m rest

def mdGetUtf16Strlen (mdp : MdChain) : Option Nat :=
  match mdp.cur with
  | [] => some 0
  | m :: rest => utf16StrlenLoop 0 (m.drop mdp.pos) rest

def utf16Strlen : Bytes → Nat
  | a :: b :: rest => if a = 0 ∧ b = 0 then 0 else utf16Strlen rest + 2
  | tail => tail.length

/-- No mbuf of the name ends in the middle of a character other than the zero character, and where that one is
cut in two the next mbuf is not empty. -/
def CutBetweenCharacters (m : Chain) : Prop :=
  ∀ front back, m = front ++ back → (bytes front).length % 2 = 1 →
    utf16Strlen (bytes m) < (bytes front).length ∧
      ((bytes front).length = utf16Strlen (bytes m) + 1 → back.head? ≠ some [])

variable {s : Bytes}

theorem scanMbuf_found (found : (scanMbuf s).2 = true) (tail : Bytes) :
    utf16Strlen (s ++ tail) = (scanMbuf s).1 ∧ (scanMbuf s).1 + 2 ≤ s.length := by
  induction s using scanMbuf.induct with
  | case1 a b rest zero => simp [scanMbuf, utf16Strlen, zero]
  | case2 a b rest other ih =>
    rw [scanMbuf, if_neg other] at found
    obtain ⟨same, short⟩ := ih found
    simp [scanMbuf, utf16Strlen, other, same, short]
  | case3 s short =>
    rw [scanMbuf] at found
    · cases found
    · exact short

theorem scanMbuf_none (none : (scanMbuf s).2 = false) (tail : Bytes) :
    (scanMbuf s).1 + s.length % 2 = s.length ∧
      utf16Strlen (s ++ tail) =
        (scanMbuf s).1 + utf16Strlen ((if s.length % 2 = 1 then [s.getLastD 0] else []) ++ tail) := by
  induction s using scanMbuf.induct with
  | case1 a b rest zero => simp [scanMbuf, zero] at none
  | case2 a b rest other ih =>
    rw [scanMbuf, if_neg other] at none
    obtain ⟨whole, same⟩ := ih none
    rw [scanMbuf, if_neg other, List.cons_append, List.cons_append, utf16Strlen, if_neg other, same]
    have parity : (a :: b :: rest).length % 2 = rest.length % 2 := Nat.add_mod_right _ 2
    have last : rest.length % 2 = 1 → (a :: b :: rest).getLastD 0 = rest.getLastD 0 := by
      cases rest <;> simp
    constructor
    · simp only [List.length_cons]
      omega
    · rw [parity]
      split
      · rename_i odd
        rw [last odd]
        omega
      · omega
  | case3 s short =>
    cases s with
    | nil => simp [scanMbuf]
    | cons a s =>
      cases s with
      | nil => simp [scanMbuf]
      | cons b rest => exact absurd rfl (short a b rest)

theorem utf16StrlenLoop_le {size n : Nat} {m : Chain} (ended : utf16StrlenLoop size s m = some n) :
    n ≤ size + utf16Strlen (s ++ bytes m) := by
  induction m generalizing size s with
  | nil =>
    rw [utf16StrlenLoop, Option.some.injEq] at ended
    cases found : (scanMbuf s).2 with
    | true =>
      rw [(scanMbuf_found found _).1]
      omega
    | false =>
      rw [(scanMbuf_none found _).2]
      omega
  | cons m rest ih =>
    rw [utf16StrlenLoop.eq_def] at ended
    dsimp only at ended
    cases found : (scanMbuf s).2 with
    | true =>
      rw [found, if_pos rfl, Option.some.injEq] at ended
      rw [(scanMbuf_found found _).1]
      omega
    | false =>
      rw [found, if_neg Bool.false_ne_true] at ended
      rw [(scanMbuf_none found _).2]
      split at ended
      · rename_i odd
        cases m with
        | nil => cases ended
        | cons first m =>
          dsimp only at ended
          rw [if_pos odd, bytes_cons, List.cons_append, List.cons_append, List.nil_append, utf16Strlen]
          split at ended
          · rw [Option.some.injEq] at ended
            omega
          · rename_i other
            have later := ih ended
            rw [if_neg other]
            omega
      · rename_i even
        have later := ih ended
        rw [if_neg even, bytes_cons, List.nil_append]
        omega

theorem cutBetweenCharacters_cons (s : Bytes) (rest : Chain) :
    CutBetweenCharacters (s :: rest) ↔
      ∀ front back, rest = front ++ back → (s.length + (bytes front).length) % 2 = 1 →
        utf16Strlen (s ++ bytes rest) < s.length + (bytes front).length ∧
          (s.length + (bytes front).length = utf16Strlen (s ++ bytes rest) + 1 → back.head? ≠ some []) := by
  unfold CutBetweenCharacters
  constructor
  · intro cut front back split odd
    simpa using cut (s :: front) back (by simp [split]) (by simpa using odd)
  · intro cut front back split odd
    cases front with
    | nil => simp at odd
    | cons first front =>
      simp only [List.cons_append, List.cons.injEq] at split
      obtain ⟨rfl, split⟩ := split
      simpa using cut front back split (by simpa using odd)

theorem cutBetweenCharacters_even {m : Bytes} {rest : Chain} (none : (scanMbuf s).2 = false)
    (even : ¬s.length % 2 = 1) :
    CutBetweenCharacters (s :: m :: rest) ↔ CutBetweenCharacters (m :: rest) := by
  obtain ⟨whole, length⟩ := scanMbuf_none none (bytes (m :: rest))
  rw [if_neg even, List.nil_append] at length
  rw [cutBetweenCharacters_cons, length, CutBetweenCharacters]
  refine forall₃_congr fun front back split => ?_
  have parity : (s.length + (bytes front).length) % 2 = (bytes front).length % 2 := by omega
  have below : (scanMbuf s).1 + utf16Strlen (bytes (m :: rest)) < s.length + (bytes front).length ↔
      utf16Strlen (bytes (m :: rest)) < (bytes front).length := by omega
  have next : s.length + (bytes front).length = (scanMbuf s).1 + utf16Strlen (bytes (m :: rest)) + 1 ↔
      (bytes front).length = utf16Strlen (bytes (m :: rest)) + 1 := by omega
  rw [parity, below, next]

theorem straddle_iff (size : Nat) {m : Bytes} {rest : Chain} (none : (scanMbuf s).2 = false) (odd : s.length % 2 = 1) :
    (match m with
      | [] => Option.none
      | first :: m =>
        if s.getLastD 0 = 0 ∧ first = 0 then some (size + (scanMbuf s).1)
        else utf16StrlenLoop (size + (scanMbuf s).1) m rest) = some (size + utf16Strlen (s ++ bytes (m :: rest))) ↔
      CutBetweenCharacters (s :: m :: rest) := by
  obtain ⟨whole, length⟩ := scanMbuf_none none (bytes (m :: rest))
  rw [if_pos odd, List.cons_append, List.nil_append] at length
  rw [cutBetweenCharacters_cons, length]
  cases m with
  | nil =>
    refine iff_of_false (by simp) fun cut => ?_
    obtain ⟨past, next⟩ := cut [] ([] :: rest) rfl (by simpa using odd)
    rw [bytes_nil, List.length_nil] at past next
    exact next (by omega) rfl
  | cons first m =>
    dsimp only
    rw [bytes_cons, List.cons_append, utf16Strlen]
    split
    · refine iff_of_true rfl fun front back split _ => ⟨by omega, fun next => ?_⟩
      have nothing : (bytes front).length = 0 := by omega
      cases front with
      | nil =>
        rw [List.nil_append] at split
        simp [← split]
      | cons head front =>
        rw [List.cons_append, List.cons.injEq] at split
        simp [← split.1] at nothing
    · refine iff_of_false (fun ended => ?_) fun cut => ?_
      · have few := utf16StrlenLoop_le ended
        omega
      · have past := (cut [] ((first :: m) :: rest) rfl (by simpa using odd)).1
        rw [bytes_nil, List.length_nil] at past
        omega

theorem utf16StrlenLoop_iff (size : Nat) (s : Bytes) (m : Chain) :
    utf16StrlenLoop size s m = some (size + utf16Strlen (s ++ bytes m)) ↔ CutBetweenCharacters (s :: m) := by
  induction m generalizing size s with
  | nil =>
    rw [utf16StrlenLoop, Option.some.injEq, Nat.add_left_cancel_iff, cutBetweenCharacters_cons]
    simp only [List.nil_eq, List.append_eq_nil_iff, bytes_nil, List.append_nil]
    cases found : (scanMbuf s).2 with
    | true =>
      obtain ⟨same, short⟩ := scanMbuf_found found []
      rw [List.append_nil] at same
      refine iff_of_true same.symm ?_
      rintro front back ⟨rfl, rfl⟩ -
      rw [same, bytes_nil, List.length_nil]
      exact ⟨by omega, by simp⟩
    | false =>
      obtain ⟨whole, same⟩ := scanMbuf_none found []
      by_cases odd : s.length % 2 = 1
      · rw [if_pos odd, List.append_nil, List.append_nil] at same
        have one : utf16Strlen [s.getLastD 0] = 1 := rfl
        refine iff_of_false (by omega) fun cut => ?_
        have past := (cut [] [] ⟨rfl, rfl⟩ (by simpa using odd)).1
        rw [bytes_nil, List.length_nil] at past
        omega
      · rw [if_neg odd, List.append_nil, List.append_nil] at same
        have none : utf16Strlen [] = 0 := rfl
        refine iff_of_true (by omega) ?_
        rintro front back ⟨rfl, rfl⟩ odd'
        exact absurd odd' odd
  | cons m rest ih =>
    rw [utf16StrlenLoop.eq_def]
    dsimp only
    cases found : (scanMbuf s).2 with
    | true =>
      obtain ⟨same, short⟩ := scanMbuf_found found (bytes (m :: rest))
      rw [if_pos rfl, same, cutBetweenCharacters_cons, same]
      refine iff_of_true rfl fun front back _ _ => ⟨by omega, fun next => ?_⟩
      omega
    | false =>
      rw [if_neg Bool.false_ne_true]
      by_cases odd : s.length % 2 = 1
      · rw [if_pos odd]
        exact straddle_iff size found odd
      · rw [if_neg odd, cutBetweenCharacters_even found odd, ← ih (size + (scanMbuf s).1) m,
          (scanMbuf_none found _).2, if_neg odd, List.nil_append, bytes_cons, Nat.add_assoc]

theorem mdGetUtf16Strlen_iff (mdp : MdChain) :
    mdGetUtf16Strlen mdp = some (utf16Strlen mdp.rest) ↔ CutBetweenCharacters mdp.unread := by
  unfold mdGetUtf16Strlen MdChain.rest MdChain.unread
  cases mdp.cur with
  | nil =>
    refine iff_of_true rfl fun front back split odd => ?_
    obtain ⟨rfl, rfl⟩ := List.append_eq_nil_iff.mp split.symm
    simp at odd
  | cons m rest => simpa using utf16StrlenLoop_iff 0 (m.drop mdp.pos) rest

/-- The name `abc` with its second character cut in two, and the name `a` with an empty mbuf in the middle of it. -/
theorem mdGetUtf16Strlen_cut :
    mdGetUtf16Strlen (mdInitm [[0x61, 0, 0x62], [0, 0x63, 0, 0, 0]]) = some 4 ∧
      utf16Strlen [0x61, 0, 0x62, 0, 0x63, 0, 0, 0] = 6 ∧
      mdGetUtf16Strlen (mdInitm [[0x61], [], [0, 0, 0]]) = none := by
  decide

end SmbClient.Mbuf
