import Mathlib.Data.Nat.ModEq
import Mathlib.Tactic.Ring

namespace SmbClient.Lib

abbrev Bytes := List UInt8

/-- The `width` least significant bytes of `value`, lowest first. -/
def toLe : Nat → Nat → Bytes
  | 0, _ => []
  | width + 1, value => UInt8.ofNat value :: toLe width (value / 256)

def ofLe : Bytes → Nat
  | [] => 0
  | byte :: rest => byte.toNat + 256 * ofLe rest

@[simp] theorem length_toLe (width value : Nat) : (toLe width value).length = width := by
  induction width generalizing value with
  | zero => rfl
  | succ width ih => simp [toLe, ih]

theorem ofLe_toLe (width value : Nat) : ofLe (toLe width value) = value % 256 ^ width := by
  induction width generalizing value with
  | zero => simp [toLe, ofLe, Nat.mod_one]
  | succ width ih =>
    have low : (UInt8.ofNat value).toNat = value % 256 := by simp
    rw [toLe, ofLe, ih, low, pow_succ, mul_comm (256 ^ width) 256, Nat.mod_mul]

theorem ofLe_toLe_of_lt {width value : Nat} (small : value < 256 ^ width) :
    ofLe (toLe width value) = value := by
  rw [ofLe_toLe, Nat.mod_eq_of_lt small]

theorem ofLe_lt (data : Bytes) : ofLe data < 256 ^ data.length := by
  induction data with
  | nil => exact Nat.one_pos
  | cons byte rest ih =>
    have low := byte.toNat_lt
    rw [ofLe, List.length_cons, pow_succ]
    omega

theorem toLe_eq_iff (width a b : Nat) :
    toLe width a = toLe width b ↔ a % 256 ^ width = b % 256 ^ width := by
  constructor
  · intro equal
    rw [← ofLe_toLe, equal, ofLe_toLe]
  · induction width generalizing a b with
    | zero => simp [toLe]
    | succ width ih =>
      intro equal
      rw [pow_succ, mul_comm (256 ^ width) 256, Nat.mod_mul, Nat.mod_mul] at equal
      have low : a % 256 = b % 256 := by omega
      simp only [toLe, List.cons.injEq]
      refine ⟨?_, ih _ _ (by omega)⟩
      apply UInt8.toNat_inj.mp
      simpa using low

theorem take_toLe {prefixWidth width : Nat} (fits : prefixWidth ≤ width) (value : Nat) :
    (toLe width value).take prefixWidth = toLe prefixWidth value := by
  induction prefixWidth generalizing width value with
  | zero => simp [toLe]
  | succ prefixWidth ih =>
    obtain ⟨width, rfl⟩ : ∃ w, width = w + 1 := ⟨width - 1, by omega⟩
    simp [toLe, ih (Nat.le_of_succ_le_succ fits)]

end SmbClient.Lib
