import Mathlib.Data.Finset.Max

namespace SmbClient.Lib
variable {κ : Type} [LinearOrder κ] (free : κ → Bool) (limit : Nat)

/-- While there are more than `limit`, up to so many times: the least goes, if it is free. -/
def drain : Nat → Finset κ → Finset κ
  | 0, s => s
  | n + 1, s =>
    if h : limit < s.card then
      let least := s.min' (Finset.card_pos.mp (Nat.zero_lt_of_lt h))
      if free least then drain n (s.erase least) else drain n s
    else s

/-- As many as are too many can go: there are turns for them, and they are free. -/
def Drainable (n : Nat) (s : Finset κ) : Prop :=
  s.card - limit ≤ n ∧ ∀ k ∈ s, free k = false → s.card - limit ≤ (s.filter (· < k)).card

variable {free limit}

variable {n : Nat} {s : Finset κ}

theorem drainable_of_card_le (few : s.card ≤ limit) : Drainable free limit n s := by
  have none : s.card - limit = 0 := Nat.sub_eq_zero_of_le few
  refine ⟨none ▸ Nat.zero_le _, fun k _ _ => none ▸ Nat.zero_le _⟩

theorem not_drainable_of_least (many : limit < s.card) {least : κ} (member : least ∈ s)
    (below : ∀ k ∈ s, least ≤ k) (taken : free least = false) : ¬Drainable free limit n s := by
  intro drainable
  have none : s.filter (· < least) = ∅ := Finset.filter_eq_empty_iff.mpr fun k known => not_lt.mpr (below k known)
  have older := drainable.2 least member taken
  rw [none, Finset.card_empty] at older
  omega

theorem drainable_erase_least (many : limit < s.card) {least : κ} (member : least ∈ s)
    (below : ∀ k ∈ s, least ≤ k) (open' : free least = true) :
    Drainable free limit n (s.erase least) ↔ Drainable free limit (n + 1) s := by
  have size := Finset.card_erase_of_mem member
  have before : ∀ k ∈ s, k ≠ least →
      ((s.erase least).filter (· < k)).card + 1 = (s.filter (· < k)).card := by
    intro k known other
    have first : least ∈ s.filter (· < k) :=
      Finset.mem_filter.mpr ⟨member, lt_of_le_of_ne (below k known) (Ne.symm other)⟩
    rw [Finset.filter_erase, Finset.card_erase_of_mem first]
    exact Nat.sub_add_cancel (Finset.card_pos.mpr ⟨least, first⟩)
  constructor
  · intro ⟨turns, older⟩
    refine ⟨by omega, fun k known taken => ?_⟩
    have other : k ≠ least := by
      rintro rfl
      rw [open'] at taken
      cases taken
    have left := older k (Finset.mem_erase.mpr ⟨other, known⟩) taken
    have one := before k known other
    omega
  · intro ⟨turns, older⟩
    refine ⟨by omega, fun k known taken => ?_⟩
    obtain ⟨other, known⟩ := Finset.mem_erase.mp known
    have all := older k known taken
    have one := before k known other
    omega

theorem card_drain_le_iff (n : Nat) (s : Finset κ) : (drain free limit n s).card ≤ limit ↔ Drainable free limit n s := by
  induction n generalizing s with
  | zero =>
    rw [drain]
    constructor
    · exact drainable_of_card_le
    · intro ⟨turns, _⟩
      omega
  | succ n ih =>
    unfold drain
    by_cases many : limit < s.card
    · have present : s.Nonempty := Finset.card_pos.mp (Nat.zero_lt_of_lt many)
      have member := s.min'_mem present
      have below := s.min'_le
      simp only [dif_pos many]
      cases open' : free (s.min' present) with
      | true =>
        rw [if_pos rfl, ih]
        exact drainable_erase_least many member (fun k known => below k known) open'
      | false =>
        rw [if_neg Bool.false_ne_true, ih]
        have blocks : ∀ m, ¬Drainable free limit m s := fun m =>
          not_drainable_of_least many member (fun k known => below k known) open'
        exact iff_of_false (blocks n) (blocks (n + 1))
    · rw [dif_neg many]
      exact iff_of_true (Nat.le_of_not_lt many) (drainable_of_card_le (Nat.le_of_not_lt many))

end SmbClient.Lib
