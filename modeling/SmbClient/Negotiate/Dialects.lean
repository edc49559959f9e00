import SmbClient.Lib.Traced
import SmbClient.Negotiate.Validate

/-! Where `smb2_smb_get_client_dialects` stores in the array of dialects it is given. -/

namespace SmbClient.Negotiate
open SmbClient.Lib SmbClient.Lib.Traced SmbClient.Mbuf

/-- Bytes of the array, from its start on, that are written at once. -/
structure ArrayStore where
  offset : Nat
  length : Nat
  deriving DecidableEq, Repr

def ArrayStore.Inside (size : Nat) (store : ArrayStore) : Prop := store.offset + store.length ≤ size

abbrev Storing := Traced ArrayStore Errno

def storeElements (count : Nat) : Storing Unit := ⟨(List.range count).map fun i => ⟨2 * i, 2⟩, .ok ()⟩

/-- `dialectCnt` is what the caller's counter holds. -/
def storeClientDialects (sessionp : NegSession) (inReconnect : Bool) (dialectCnt maxDialectsSize : Nat) : Storing Nat :=
  if maxDialectsSize < 2 * smb3MaxDialects then fail .enomem
  else if !inReconnect then
    if sessionp.misc.negSmb3Enabled && sessionp.misc.negSmb2Enabled then do
      storeElements 5
      pure (if sessionp.flags.disable311 then 4 else 5)
    else if sessionp.misc.negSmb3Enabled then do
      storeElements 3
      pure 3
    else if sessionp.misc.negSmb2Enabled then do
      storeElements 2
      pure 2
    else pure dialectCnt
  else if sessionp.maxDialect ≠ 0 then do
    storeElements 5
    let cnt := dialectsUpTo sessionp.maxDialect
    emit ⟨2 * cnt, 2 * (maxDialectsSize - cnt)⟩
    pure cnt
  else do
    let _ ← lift sessionp.flags.dialect
    storeElements 1
    pure 1

section
variable {sessionp : NegSession} {inReconnect : Bool} {dialectCnt maxDialectsSize : Nat}

theorem dialectsUpTo_le (maxDialect : Nat) : dialectsUpTo maxDialect ≤ smb3MaxDialects := by
  unfold dialectsUpTo smb3MaxDialects
  split_ifs <;> decide

/-- The counter tells how many dialects there are. -/
theorem result_storeClientDialects (room : 2 * smb3MaxDialects ≤ maxDialectsSize) {stale : List Nat}
    (counted : stale.length = dialectCnt) :
    (storeClientDialects sessionp inReconnect dialectCnt maxDialectsSize).result =
      (smb2SmbGetClientDialects sessionp inReconnect stale).1.map List.length := by
  unfold storeClientDialects smb2SmbGetClientDialects
  rw [if_neg (Nat.not_lt.mpr room)]
  split_ifs
  · rfl
  · rfl
  · rfl
  · rfl
  · exact congrArg Except.ok counted.symm
  · exact congrArg Except.ok (List.length_take_of_le (dialectsUpTo_le _)).symm
  · cases sessionp.flags.dialect <;> rfl

/-- All stores are to the array, and so many elements it has. -/
def Fits (size : Nat) (x : Storing Nat) : Prop :=
  AllLogged (ArrayStore.Inside size) x ∧ ∀ count, x.result = .ok count → 2 * count ≤ size

theorem fits_storeElements {count last : Nat} (few : 2 * count ≤ maxDialectsSize) (fewer : last ≤ count) :
    Fits maxDialectsSize (do storeElements count; pure last) := by
  refine ⟨fun store listed => ?_, fun count' same => ?_⟩
  · rw [show (do storeElements count; pure last : Storing Nat).log = (storeElements count).log ++ [] from rfl,
      List.append_nil] at listed
    obtain ⟨i, member, rfl⟩ := List.mem_map.mp listed
    have below := List.mem_range.mp member
    change 2 * i + 2 ≤ maxDialectsSize
    omega
  · cases same
    omega

end

theorem storeClientDialects_fits_iff (sessionp : NegSession) (inReconnect : Bool) (dialectCnt maxDialectsSize : Nat) :
    Fits maxDialectsSize (storeClientDialects sessionp inReconnect dialectCnt maxDialectsSize) ↔
      (2 * smb3MaxDialects ≤ maxDialectsSize → if inReconnect then sessionp.maxDialect = 0 else
        sessionp.misc.negSmb3Enabled ∨ sessionp.misc.negSmb2Enabled ∨ 2 * dialectCnt ≤ maxDialectsSize) := by
  unfold storeClientDialects
  by_cases short : maxDialectsSize < 2 * smb3MaxDialects
  · rw [if_pos short]
    exact iff_of_true ⟨(allLogged_fail _ _).mpr trivial, nofun⟩ fun room => absurd short (Nat.not_lt.mpr room)
  have room (count : Nat) (few : count ≤ smb3MaxDialects) : 2 * count ≤ maxDialectsSize := by omega
  rw [if_neg short, imp_iff_right (Nat.not_lt.mp short)]
  cases inReconnect with
  | false =>
    simp only [Bool.not_false, if_true, Bool.false_eq_true, if_false]
    split_ifs with both disabled newest older
    · exact iff_of_true (fits_storeElements (room 5 le_rfl) (by decide)) (.inl (Bool.and_eq_true_iff.mp both).1)
    · exact iff_of_true (fits_storeElements (room 5 le_rfl) le_rfl) (.inl (Bool.and_eq_true_iff.mp both).1)
    · exact iff_of_true (fits_storeElements (room 3 (by decide)) le_rfl) (.inl newest)
    · exact iff_of_true (fits_storeElements (room 2 (by decide)) le_rfl) (.inr (.inl older))
    · simp [Fits, newest, older]
  | true =>
    simp only [Bool.not_true, Bool.false_eq_true, if_false, if_true]
    split_ifs with bounded
    · -- the bytes of the array are taken for its elements, so as much again is cleared behind it
      refine iff_of_false (fun fits => ?_) bounded
      have cleared := fits.1 _ (List.mem_append_right _ List.mem_cons_self)
      have upTo := dialectsUpTo_le sessionp.maxDialect
      change 2 * dialectsUpTo sessionp.maxDialect + 2 * (maxDialectsSize - dialectsUpTo sessionp.maxDialect) ≤
        maxDialectsSize at cleared
      unfold smb3MaxDialects at short upTo
      omega
    · refine iff_of_true ?_ (not_not.mp bounded)
      cases sessionp.flags.dialect with
      | error e => exact ⟨nofun, nofun⟩
      | ok dialect => exact fits_storeElements (room 1 (by decide)) le_rfl

/-- In a reconnect with a maximum dialect the array of the session, 16 bytes, is cleared up to byte 32. -/
theorem storeClientDialects_overruns :
    ⟨2, 30⟩ ∈ (storeClientDialects { maxDialect := smb2Dialect0202 } true 0 16).log ∧
      ¬Fits 16 (storeClientDialects { maxDialect := smb2Dialect0202 } true 0 16) := by
  refine ⟨by decide, fun fits => ?_⟩
  have cleared : 2 + 30 ≤ 16 := fits.1 ⟨2, 30⟩ (by decide)
  exact absurd cleared (by decide)

end SmbClient.Negotiate
