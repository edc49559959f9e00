import SmbClient.Credits.Accounting

/-!
The length and the charge that `smb2_rq_credit_check` and `smb2_rq_credit_decrement` give a request.
-/

namespace SmbClient.Credits

/-- The request is shortened to what it is charged for, and the charge comes out of the credits there are. -/
structure WellPriced (iod : CreditIod) (len : Nat) (iod' : CreditIod) (rqp' : CreditRq) (len' : Nat) : Prop where
  some : 1 ≤ len'
  shorter : len' ≤ len
  charge : rqp'.creditcharge = (len' + 65535) / 65536
  paid : int32 iod'.creditsGranted = int32 iod.creditsGranted - rqp'.creditcharge
  left : 0 ≤ int32 iod'.creditsGranted

theorem int32_osAddAtomic (amount : Int) (word : Nat) :
    int32 (osAddAtomic amount word) = Int.bmod (word + amount) (2 ^ 32) := by
  unfold int32 osAddAtomic
  rw [Int.toNat_of_nonneg (Int.emod_nonneg _ (by decide))]
  exact Int.emod_bmod (word + amount) (2 ^ 32)

theorem int32_pay {charge word : Nat} (covered : (charge : Int) ≤ int32 word) :
    int32 (osAddAtomic (-charge) word) = int32 word - charge := by
  rw [int32_osAddAtomic]
  unfold int32 at covered ⊢
  unfold Int.bmod at covered ⊢
  dsimp only at covered ⊢
  split at covered <;> split <;> omega

variable {iod : CreditIod} {rqp : CreditRq} {len : Nat}

theorem smb2RqCreditCheck_priced
    (least : 1 ≤ int32 iod.creditsGranted) (single : rqp.creditcharge = 1) (positive : 0 < len)
    (fits : int32 iod.creditsGranted ≤ kCreditLowWater ∨ len ≤ maxChargedLength) :
    let (len', rqp') := smb2RqCreditCheck iod rqp len
    1 ≤ len' ∧ len' ≤ len ∧ rqp'.creditcharge = (len' + 65535) / 65536 ∧ rqp'.creditcharge < 2 ^ 15 ∧
      (rqp'.creditcharge : Int) ≤ int32 iod.creditsGranted := by
  have most : int32 iod.creditsGranted < 2 ^ 31 := by
    unfold int32 Int.bmod
    dsimp only
    split <;> omega
  unfold smb2RqCreditCheck
  dsimp only
  split
  · dsimp only
    omega
  · rename_i long
    split
    · rename_i low
      dsimp only
      omega
    · rename_i enough
      replace fits := fits.resolve_left enough
      unfold kCreditLowWater at enough ⊢
      unfold maxChargedLength at fits
      have needed : ((len - 1) / (64 * 1024) + 1) % 2 ^ 16 = (len - 1) / (64 * 1024) + 1 := by omega
      have small : (len - 1) / (64 * 1024) + 1 < 2 ^ 15 := by omega
      rw [needed, int16_eq small]
      split
      · dsimp only
        omega
      · dsimp only
        omega

theorem smb2RqCreditCheck_long (rqp : CreditRq) (word : len < 2 ^ 32)
    (enough : ¬int32 iod.creditsGranted ≤ kCreditLowWater) (long : maxChargedLength < len) :
    ∃ charge, smb2RqCreditCheck iod rqp len = (len, { rqp with creditcharge := charge }) ∧
      (charge = 0 ∨ int16 charge = (charge : Int) - 65536) := by
  unfold maxChargedLength at long
  refine ⟨((len - 1) / (64 * 1024) + 1) % 2 ^ 16, ?_, ?_⟩
  · have low : int16 (((len - 1) / (64 * 1024) + 1) % 2 ^ 16) ≤ 0 := by
      unfold int16 Int.bmod
      dsimp only
      split <;> omega
    unfold smb2RqCreditCheck
    dsimp only
    rw [if_neg (by omega), if_neg enough, if_neg (by omega)]
  · unfold int16 Int.bmod
    dsimp only
    split <;> omega

theorem creditDecrementRegular_of_charged {smb2 goingAway : Bool} {iod' : CreditIod} {rqp' : CreditRq}
    {rqLen rqLen' : Option Nat} (charged : rqp.charged = true)
    (taken : smb2RqCreditDecrement smb2 goingAway iod rqp rqLen = .done iod' rqp' rqLen') :
    creditDecrementRegular goingAway iod rqp rqLen = .done iod' rqp' rqLen' := by
  unfold smb2RqCreditDecrement at taken
  unfold RqKind.charged at charged
  split at taken
  case h_5 => exact taken
  case h_6 =>
    split_ifs at taken with smb1 own
    · split at charged <;> simp_all
    · exact taken
  all_goals simp_all

theorem smb2RqCreditDecrement_checked {smb2 goingAway : Bool} {iod' : CreditIod} {rqp' : CreditRq} {len' : Nat}
    (charged : rqp.charged = true)
    (taken : smb2RqCreditDecrement smb2 goingAway iod rqp (some len) = .done iod' rqp' (some len')) :
    1 ≤ int32 iod.creditsGranted ∧ len' = (smb2RqCreditCheck iod rqp len).1 ∧
      rqp'.creditcharge = (smb2RqCreditCheck iod rqp len).2.creditcharge ∧
      iod'.creditsGranted = osAddAtomic (-int16 rqp'.creditcharge) iod.creditsGranted := by
  replace taken := creditDecrementRegular_of_charged charged taken
  unfold creditDecrementRegular at taken
  split at taken
  · rename_i window
    dsimp only [Option.map_some, Option.getD_some] at taken
    simp only [Decrement.done.injEq, Option.some.injEq] at taken
    obtain ⟨rfl, rfl, rfl⟩ := taken
    exact ⟨sendWindowOpen_credits window, by dsimp only, by dsimp only, by dsimp only⟩
  · split_ifs at taken

theorem smb2RqCreditDecrement_priced_iff {smb2 goingAway : Bool} {iod iod' : CreditIod} {rqp rqp' : CreditRq}
    {len len' : Nat} (fresh : rqp.creditcharge = 1) (charged : rqp.charged = true) (positive : 0 < len)
    (word : len < 2 ^ 32)
    (taken : smb2RqCreditDecrement smb2 goingAway iod rqp (some len) = .done iod' rqp' (some len')) :
    WellPriced iod len iod' rqp' len' ↔ int32 iod.creditsGranted ≤ kCreditLowWater ∨ len ≤ maxChargedLength := by
  obtain ⟨least, rfl, charge, granted⟩ := smb2RqCreditDecrement_checked charged taken
  constructor
  · intro priced
    by_contra none
    obtain ⟨enough, long⟩ := not_or.mp none
    obtain ⟨needed, checked, misread⟩ := smb2RqCreditCheck_long rqp word enough (Nat.lt_of_not_le long)
    rw [checked] at charge
    dsimp only at charge
    obtain ⟨some, -, exact, paid, left⟩ := priced
    rw [checked] at exact some
    dsimp only at exact some
    rw [granted, int32_osAddAtomic] at paid
    cases misread with
    | inl zero => omega
    | inr negative =>
      rw [charge, negative] at paid
      unfold int32 Int.bmod at paid
      dsimp only at paid
      split at paid <;> split at paid <;> omega
  · intro fits
    have checked := smb2RqCreditCheck_priced least fresh positive fits
    dsimp only at checked
    rw [← charge] at checked
    obtain ⟨some, shorter, exact, small, covered⟩ := checked
    rw [int16_eq small] at granted
    have paid := int32_pay covered
    rw [← granted] at paid
    exact ⟨some, shorter, exact, paid, by omega⟩

/-- With 12 credits a megabyte is cut down to the two credits above the low water mark. -/
theorem smb2RqCreditDecrement_priced_megabyte :
    ∃ iod rqp, smb2RqCreditDecrement true false { creditsGranted := 12 } { command := .read } (some 1000000) =
        .done iod rqp (some 131072) ∧
      WellPriced { creditsGranted := 12 } 1000000 iod rqp 131072 := by
  have taken : smb2RqCreditDecrement true false { creditsGranted := 12 } { command := .read } (some 1000000) =
      .done { creditsGranted := 10 } { command := .read, creditcharge := 2, creditsrequested := 256 }
        (some 131072) := by
    decide +kernel
  refine ⟨_, _, taken, ?_⟩
  apply (smb2RqCreditDecrement_priced_iff rfl rfl (by decide) (by decide) taken).mpr
  exact .inr (by decide)

/-- A request for two gigabytes earns credits. -/
theorem smb2RqCreditDecrement_earns :
    smb2RqCreditDecrement true false { creditsGranted := 11 } { command := .read } (some (2 ^ 31)) =
        .done { creditsGranted := 32779 } { command := .read, creditcharge := 32768, creditsrequested := 256 }
          (some (2 ^ 31)) ∧
      ¬WellPriced { creditsGranted := 11 } (2 ^ 31) { creditsGranted := 32779 }
        { command := .read, creditcharge := 32768, creditsrequested := 256 } (2 ^ 31) := by
  refine ⟨by decide +kernel, fun priced => ?_⟩
  have paid := priced.paid
  revert paid
  decide +kernel

end SmbClient.Credits
