import SmbClient.Crypt.Encrypt
import Mathlib.Data.List.Nodup

namespace SmbClient.Crypt
open SmbClient.Lib SmbClient.Session SmbClient.Mbuf

def smb3InitNonce (md5 : Bytes → Bytes) (nsec : UInt64) (sessionp : SmbSession) : SmbSession :=
  let digest := md5 (sessionp.mackey.getD [] ++ toLe 8 nsec.toNat ++ toLe 8 sessionp.sessionId.toNat)
  { sessionp with
    smb3NonceHigh := UInt64.ofNat (ofLe (digest.take 8))
    smb3NonceLow := UInt64.ofNat (ofLe (slice digest 8 8)) }

@[simp] theorem iterate_ciper (sessionp : SmbSession) (i : Nat) :
    (nonceIncrement^[i] sessionp).smb3EncryptCiper = sessionp.smb3EncryptCiper := by
  induction i with
  | zero => rfl
  | succ i ih => rw [Function.iterate_succ_apply', nonceIncrement_ciper, ih]

def toWrap (sessionp : SmbSession) : Nat := 2 ^ 64 - 1 - sessionp.smb3NonceLow.toNat

variable {sessionp : SmbSession} {i j : Nat}

theorem nonceIncrement_low (room : sessionp.smb3NonceLow.toNat + 1 < 2 ^ 64) :
    (nonceIncrement sessionp).smb3NonceLow.toNat = sessionp.smb3NonceLow.toNat + 1 ∧
      (nonceIncrement sessionp).smb3NonceHigh = sessionp.smb3NonceHigh := by
  have next : (sessionp.smb3NonceLow + 1).toNat = sessionp.smb3NonceLow.toNat + 1 := by
    rw [UInt64.toNat_add, UInt64.toNat_one, Nat.mod_eq_of_lt room]
  have nonzero : ¬sessionp.smb3NonceLow + 1 = 0 := by
    intro zero
    rw [zero] at next
    cases next
  simp only [nonceIncrement, if_neg nonzero]
  exact ⟨next, trivial⟩

theorem nonceIncrement_wrap (full : sessionp.smb3NonceLow.toNat + 1 = 2 ^ 64) :
    (nonceIncrement sessionp).smb3NonceLow.toNat = 1 ∧
      (nonceIncrement sessionp).smb3NonceHigh = sessionp.smb3NonceHigh + 1 := by
  have zero : sessionp.smb3NonceLow + 1 = 0 := by
    apply UInt64.toNat_inj.mp
    rw [UInt64.toNat_add, UInt64.toNat_one, full]
    rfl
  simp only [nonceIncrement, zero]
  exact ⟨rfl, rfl⟩

theorem iterate_before_wrap (sessionp : SmbSession) (i : Nat) (before : i ≤ toWrap sessionp) :
    (nonceIncrement^[i] sessionp).smb3NonceLow.toNat = sessionp.smb3NonceLow.toNat + i ∧
      (nonceIncrement^[i] sessionp).smb3NonceHigh = sessionp.smb3NonceHigh := by
  induction i with
  | zero => exact ⟨rfl, rfl⟩
  | succ i ih =>
    obtain ⟨low, high⟩ := ih (Nat.le_of_succ_le before)
    have bound := sessionp.smb3NonceLow.toNat_lt
    unfold toWrap at before
    have room : (nonceIncrement^[i] sessionp).smb3NonceLow.toNat + 1 < 2 ^ 64 := by omega
    obtain ⟨low', high'⟩ := nonceIncrement_low room
    rw [Function.iterate_succ_apply', low', high', low, high]
    exact ⟨by omega, rfl⟩

theorem iterate_after_wrap (sessionp : SmbSession) (i : Nat) (once : i + 1 < 2 ^ 64) :
    (nonceIncrement^[toWrap sessionp + (i + 1)] sessionp).smb3NonceLow.toNat = i + 1 ∧
      (nonceIncrement^[toWrap sessionp + (i + 1)] sessionp).smb3NonceHigh =
        sessionp.smb3NonceHigh + 1 := by
  induction i with
  | zero =>
    obtain ⟨low, high⟩ := iterate_before_wrap sessionp (toWrap sessionp) (le_refl _)
    have bound := sessionp.smb3NonceLow.toNat_lt
    have full : (nonceIncrement^[toWrap sessionp] sessionp).smb3NonceLow.toNat + 1 = 2 ^ 64 := by
      rw [low, toWrap]
      omega
    rw [← Nat.add_assoc, Function.iterate_succ_apply', ← high]
    exact nonceIncrement_wrap full
  | succ i ih =>
    obtain ⟨low, high⟩ := ih (by omega)
    have room : (nonceIncrement^[toWrap sessionp + (i + 1)] sessionp).smb3NonceLow.toNat + 1 < 2 ^ 64 := by
      rw [low]
      exact once
    obtain ⟨low', high'⟩ := nonceIncrement_low room
    rw [← Nat.add_assoc, Function.iterate_succ_apply', low', high', low, high]
    exact ⟨rfl, rfl⟩

def nonceAt (sessionp : SmbSession) (i : Nat) : Bytes := cipherNonce (nonceIncrement^[i + 1] sessionp)

def nonceSpan (sessionp : SmbSession) : Nat := (cipherMode sessionp.smb3EncryptCiper).nonceSpan

theorem nonceAt_eq_iff (sessionp : SmbSession) (i j : Nat) : nonceAt sessionp i = nonceAt sessionp j ↔
    (nonceIncrement^[i + 1] sessionp).smb3NonceHigh = (nonceIncrement^[j + 1] sessionp).smb3NonceHigh ∧
      (nonceIncrement^[i + 1] sessionp).smb3NonceLow.toNat % nonceSpan sessionp =
        (nonceIncrement^[j + 1] sessionp).smb3NonceLow.toNat % nonceSpan sessionp := by
  rw [nonceAt, nonceAt, cipherNonce_eq_iff (by rw [iterate_ciper, iterate_ciper]), iterate_ciper, nonceSpan]

theorem nonceAt_eq_before (first : i < toWrap sessionp)
    (second : j < toWrap sessionp) : nonceAt sessionp i = nonceAt sessionp j ↔
      i % nonceSpan sessionp = j % nonceSpan sessionp := by
  obtain ⟨low, high⟩ := iterate_before_wrap sessionp (i + 1) first
  obtain ⟨low', high'⟩ := iterate_before_wrap sessionp (j + 1) second
  rw [nonceAt_eq_iff, low, high, low', high']
  constructor
  · rintro ⟨-, same⟩
    exact Nat.ModEq.add_right_cancel' 1 (Nat.ModEq.add_left_cancel' sessionp.smb3NonceLow.toNat same)
  · intro same
    exact ⟨rfl, (Nat.ModEq.add_right 1 same).add_left sessionp.smb3NonceLow.toNat⟩

theorem nonceAt_eq_after (first : i + 1 < 2 ^ 64) (second : j + 1 < 2 ^ 64) :
    nonceAt sessionp (toWrap sessionp + i) = nonceAt sessionp (toWrap sessionp + j) ↔
      i % nonceSpan sessionp = j % nonceSpan sessionp := by
  obtain ⟨low, high⟩ := iterate_after_wrap sessionp i first
  obtain ⟨low', high'⟩ := iterate_after_wrap sessionp j second
  rw [nonceAt_eq_iff, Nat.add_assoc, Nat.add_assoc, low, high, low', high']
  constructor
  · rintro ⟨-, same⟩
    exact Nat.ModEq.add_right_cancel' 1 same
  · intro same
    exact ⟨rfl, Nat.ModEq.add_right 1 same⟩

theorem nonceAt_ne_across (first : i < toWrap sessionp)
    (second : j + 1 < 2 ^ 64) : nonceAt sessionp i ≠ nonceAt sessionp (toWrap sessionp + j) := by
  obtain ⟨-, high⟩ := iterate_before_wrap sessionp (i + 1) first
  obtain ⟨-, high'⟩ := iterate_after_wrap sessionp j second
  intro equal
  rw [nonceAt_eq_iff, Nat.add_assoc, high, high'] at equal
  have wrapped := congrArg UInt64.toNat equal.1
  have bound := sessionp.smb3NonceHigh.toNat_lt
  rw [UInt64.toNat_add, UInt64.toNat_one] at wrapped
  omega

theorem eq_of_mod_eq {span : Nat} (same : i % span = j % span) (first : i < span) (second : j < span) :
    i = j := by
  rwa [Nat.mod_eq_of_lt first, Nat.mod_eq_of_lt second] at same

theorem nonceSpan_pos (sessionp : SmbSession) : 0 < nonceSpan sessionp := Nat.pow_pos (by decide)

theorem nonceAt_injective_iff (sessionp : SmbSession) (n : Nat) (short : n < 2 ^ 64 - 1) :
    (∀ i < n, ∀ j < n, nonceAt sessionp i = nonceAt sessionp j → i = j) ↔
      min n (toWrap sessionp) ≤ nonceSpan sessionp ∧ n - toWrap sessionp ≤ nonceSpan sessionp := by
  have positive := nonceSpan_pos sessionp
  constructor
  · intro distinct
    -- the first repeat in each epoch is `nonceSpan` increments after its first nonce
    constructor
    · by_contra long
      have repeated : nonceAt sessionp 0 = nonceAt sessionp (nonceSpan sessionp) :=
        (nonceAt_eq_before (by omega) (by omega)).mpr (by simp)
      have := distinct 0 (by omega) (nonceSpan sessionp) (by omega) repeated
      omega
    · by_contra long
      have repeated : nonceAt sessionp (toWrap sessionp + 0) =
          nonceAt sessionp (toWrap sessionp + nonceSpan sessionp) :=
        (nonceAt_eq_after (by omega) (by omega)).mpr (by simp)
      have := distinct _ (by omega) _ (by omega) repeated
      omega
  · rintro ⟨before, after⟩ i iSmall j jSmall equal
    by_cases first : i < toWrap sessionp <;> by_cases second : j < toWrap sessionp
    · exact eq_of_mod_eq ((nonceAt_eq_before first second).mp equal) (by omega) (by omega)
    · obtain ⟨k, rfl⟩ := Nat.exists_eq_add_of_le (Nat.le_of_not_lt second)
      exact absurd equal (nonceAt_ne_across first (by omega))
    · obtain ⟨k, rfl⟩ := Nat.exists_eq_add_of_le (Nat.le_of_not_lt first)
      exact absurd equal.symm (nonceAt_ne_across second (by omega))
    · obtain ⟨k, rfl⟩ := Nat.exists_eq_add_of_le (Nat.le_of_not_lt first)
      obtain ⟨l, rfl⟩ := Nat.exists_eq_add_of_le (Nat.le_of_not_lt second)
      have same := (nonceAt_eq_after (by omega) (by omega)).mp equal
      rw [eq_of_mod_eq same (by omega) (by omega)]

structure EncryptCall where
  gethdr : Bool
  rqp : EncryptRq

def encryptRun (cc : CcModes) : SmbSession → List EncryptCall → List Chain
  | _, [] => []
  | sessionp, call :: rest =>
    match smb3RqEncrypt cc call.gethdr sessionp call.rqp with
    | (.ok mb, sessionp) => mb :: encryptRun cc sessionp rest
    | (.error _, sessionp) => encryptRun cc sessionp rest

def cipherNonces (cc : CcModes) (sessionp : SmbSession) (calls : List EncryptCall) : List Bytes :=
  (encryptRun cc sessionp calls).map (messageNonce (cipherMode sessionp.smb3EncryptCiper))

variable (cc : CcModes) (sessionp : SmbSession)

theorem nonceIncrement_defaultCiper :
    nonceIncrement (defaultCiper sessionp) = defaultCiper (nonceIncrement sessionp) := by
  simp only [nonceIncrement, defaultCiper]
  split <;> split <;> simp_all

theorem iterate_defaultCiper (i : Nat) :
    nonceIncrement^[i] (defaultCiper sessionp) = defaultCiper (nonceIncrement^[i] sessionp) := by
  induction i with
  | zero => rfl
  | succ i ih => rw [Function.iterate_succ_apply', ih, nonceIncrement_defaultCiper, Function.iterate_succ_apply']

theorem cipherNonce_defaultCiper : cipherNonce (defaultCiper sessionp) = cipherNonce sessionp := by
  rw [cipherNonce_eq, cipherNonce_eq, cipherMode_defaultCiper, defaultCiper_high, defaultCiper_low]

theorem nonceAt_defaultCiper : nonceAt (defaultCiper sessionp) = nonceAt sessionp := by
  funext i
  rw [nonceAt, iterate_defaultCiper, cipherNonce_defaultCiper, nonceAt]

theorem nonceAt_nonceIncrement :
    nonceAt (nonceIncrement (defaultCiper sessionp)) = fun i => nonceAt sessionp (i + 1) := by
  funext i
  rw [← nonceAt_defaultCiper sessionp, nonceAt, nonceAt, ← Function.iterate_succ_apply]

theorem smb3RqEncryptLocked_keyed {sessionp} (keyed : sessionp.smb3EncryptKey ≠ []) :
    smb3RqEncryptLocked true sessionp = (none, nonceIncrement (defaultCiper sessionp)) := by
  simp [smb3RqEncryptLocked, keyed]

theorem cipherNonces_sublist (calls : List EncryptCall) :
    (cipherNonces cc sessionp calls).Sublist ((List.range calls.length).map (nonceAt sessionp)) := by
  induction calls generalizing sessionp with
  | nil => simp [cipherNonces, encryptRun]
  | cons call rest ih =>
    have shifted : (List.range (rest.length + 1)).map (nonceAt sessionp) =
        nonceAt sessionp 0 :: (List.range rest.length).map fun i => nonceAt sessionp (i + 1) := by
      rw [List.range_succ_eq_map, List.map_cons, List.map_map]
      rfl
    obtain ⟨error, locked⟩ | ⟨-, locked⟩ := smb3RqEncryptLocked_cases call.gethdr sessionp
    · have tail := ih (defaultCiper sessionp)
      simp only [cipherNonces, encryptRun, smb3RqEncrypt, locked, cipherMode_defaultCiper,
        nonceAt_defaultCiper] at tail ⊢
      rw [List.length_cons, List.range_succ, List.map_append]
      exact tail.trans (List.sublist_append_left _ _)
    · have tail := ih (nonceIncrement (defaultCiper sessionp))
      simp only [cipherNonces, encryptRun, smb3RqEncrypt, locked, nonceIncrement_ciper,
        cipherMode_defaultCiper, nonceAt_nonceIncrement] at tail ⊢
      rw [List.length_cons, shifted]
      cases sent : smb3RqEncryptUnlocked cc (nonceIncrement (defaultCiper sessionp)) call.rqp with
      | error error => exact tail.cons _
      | ok mb =>
        have nonce := messageNonce_eq sent
        rw [nonceIncrement_ciper, cipherMode_defaultCiper] at nonce
        have first : cipherNonce (nonceIncrement (defaultCiper sessionp)) = nonceAt sessionp 0 := by
          rw [← nonceAt_defaultCiper]
          rfl
        simp only [List.map_cons, nonce, first]
        exact tail.cons_cons _

theorem length_encryptRun {sessionp} (keyed : sessionp.smb3EncryptKey ≠ [])
    {rqp : EncryptRq} (small : (bytes (detachRequest rqp)).length ≤ 0xffffffff) (n : Nat) :
    (encryptRun cc sessionp (List.replicate n ⟨true, rqp⟩)).length = n := by
  induction n generalizing sessionp with
  | zero => rfl
  | succ n ih =>
    obtain ⟨mb, sent, -⟩ := smb3RqEncryptUnlocked_ok cc (nonceIncrement (defaultCiper sessionp)) rqp small
    have rest := ih (by simpa using keyed : (nonceIncrement (defaultCiper sessionp)).smb3EncryptKey ≠ [])
    simp [List.replicate_succ, encryptRun, smb3RqEncrypt, smb3RqEncryptLocked_keyed keyed, sent, rest]

theorem cipherNonces_nodup_iff (keyed : sessionp.smb3EncryptKey ≠ []) (n : Nat) (short : n < 2 ^ 64 - 1) :
    (∀ calls : List EncryptCall, calls.length = n → (cipherNonces cc sessionp calls).Nodup) ↔
      min n (toWrap sessionp) ≤ nonceSpan sessionp ∧ n - toWrap sessionp ≤ nonceSpan sessionp := by
  rw [← nonceAt_injective_iff sessionp n short]
  have range_nodup : ((List.range n).map (nonceAt sessionp)).Nodup ↔
      ∀ i < n, ∀ j < n, nonceAt sessionp i = nonceAt sessionp j → i = j := by
    rw [List.nodup_map_iff_inj_on List.nodup_range]
    simp only [List.mem_range]
  rw [← range_nodup]
  constructor
  · intro distinct
    -- a run in which every call succeeds uses the nonce of every increment
    let rqp : EncryptRq := { command := 0, rq := [[0]], rqSessionId := 0 }
    let calls : List EncryptCall := List.replicate n ⟨true, rqp⟩
    have all : cipherNonces cc sessionp calls = (List.range n).map (nonceAt sessionp) := by
      have sublist := cipherNonces_sublist cc sessionp calls
      rw [List.length_replicate] at sublist
      apply sublist.eq_of_length
      rw [cipherNonces, List.length_map, length_encryptRun cc keyed (by decide), List.length_map,
        List.length_range]
    rw [← all]
    exact distinct calls List.length_replicate
  · intro distinct calls length
    exact (length ▸ cipherNonces_sublist cc sessionp calls).nodup distinct

theorem cipher_nonces_distinct_iff (cc : CcModes) (md5 : Bytes → Bytes) (nsec : UInt64)
    (sessionp : SmbSession) (keyed : sessionp.smb3EncryptKey ≠ []) (n : Nat) (short : n < 2 ^ 64 - 1) :
    let start := smb3InitNonce md5 nsec sessionp
    (∀ calls : List EncryptCall, calls.length = n → (cipherNonces cc start calls).Nodup) ↔
      min n (toWrap start) ≤ nonceSpan start ∧ n - toWrap start ≤ nonceSpan start :=
  cipherNonces_nodup_iff cc (smb3InitNonce md5 nsec sessionp) keyed n short

theorem cipher_nonces_distinct_four_billion :
    gcmSession.smb3EncryptKey ≠ [] ∧ ∀ calls : List EncryptCall, calls.length = 2 ^ 32 →
      (cipherNonces shiftedModes (smb3InitNonce checksum 9 gcmSession) calls).Nodup :=
  ⟨by decide, (cipher_nonces_distinct_iff shiftedModes checksum 9 gcmSession (by decide) (2 ^ 32)
    (by decide)).mpr (by decide)⟩

theorem cipher_nonces_repeat :
    ¬∀ calls : List EncryptCall, calls.length = 2 ^ 32 + 1 →
      (cipherNonces shiftedModes (smb3InitNonce checksum 9 gcmSession) calls).Nodup := by
  rw [cipherNonces_nodup_iff _ _ (by decide) _ (by decide)]
  decide

end SmbClient.Crypt
