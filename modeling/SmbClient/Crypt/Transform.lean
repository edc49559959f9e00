import SmbClient.Lib.Aead
import SmbClient.Session.State

/-!
The SMB 3 transform header and its nonce.
-/

namespace SmbClient.Crypt
open SmbClient.Lib SmbClient.Session

def smb2EncryptionAes128Ccm : UInt16 := 1
def smb2EncryptionAes128Gcm : UInt16 := 2
def smb2EncryptionAes256Ccm : UInt16 := 3
def smb2EncryptionAes256Gcm : UInt16 := 4

inductive CipherMode
  | gcm | ccm
  deriving DecidableEq, Repr

def cipherMode (ciper : UInt16) : CipherMode :=
  if ciper = smb2EncryptionAes128Gcm ∨ ciper = smb2EncryptionAes256Gcm then .gcm else .ccm

def defaultCiper (sessionp : SmbSession) : SmbSession :=
  if sessionp.smb3EncryptCiper ∈ [smb2EncryptionAes128Gcm, smb2EncryptionAes256Gcm,
      smb2EncryptionAes128Ccm, smb2EncryptionAes256Ccm] then sessionp
  else { sessionp with smb3EncryptCiper := smb2EncryptionAes128Ccm }

variable (sessionp : SmbSession)

theorem cipherMode_defaultCiper :
    cipherMode (defaultCiper sessionp).smb3EncryptCiper = cipherMode sessionp.smb3EncryptCiper := by
  unfold defaultCiper
  split
  · rfl
  · rename_i unknown
    simp only [List.mem_cons, List.not_mem_nil, or_false, not_or] at unknown
    have fallback : cipherMode smb2EncryptionAes128Ccm = .ccm := by decide
    rw [fallback]
    simp [cipherMode, unknown.1, unknown.2.1]

@[simp] theorem defaultCiper_key : (defaultCiper sessionp).smb3EncryptKey = sessionp.smb3EncryptKey := by
  unfold defaultCiper
  split <;> rfl

@[simp] theorem defaultCiper_high : (defaultCiper sessionp).smb3NonceHigh = sessionp.smb3NonceHigh := by
  unfold defaultCiper
  split <;> rfl

@[simp] theorem defaultCiper_low : (defaultCiper sessionp).smb3NonceLow = sessionp.smb3NonceLow := by
  unfold defaultCiper
  split <;> rfl

def CipherMode.nonceLen : CipherMode → Nat
  | gcm => 12
  | ccm => 11

structure CcModes where
  gcm : Aead
  ccm : Aead

def CcModes.aead (cc : CcModes) : CipherMode → Aead
  | .gcm => cc.gcm
  | .ccm => cc.ccm

def CipherMode.dataLen (mode : CipherMode) (msglen : Nat) : Option Nat :=
  match mode with
  | gcm => none
  | ccm => some msglen

def nonceIncrement (sessionp : SmbSession) : SmbSession :=
  let low := sessionp.smb3NonceLow + 1
  if low = 0 then
    { sessionp with smb3NonceLow := low + 1, smb3NonceHigh := sessionp.smb3NonceHigh + 1 }
  else { sessionp with smb3NonceLow := low }

@[simp] theorem nonceIncrement_ciper : (nonceIncrement sessionp).smb3EncryptCiper = sessionp.smb3EncryptCiper := by
  simp only [nonceIncrement]
  split <;> rfl

@[simp] theorem nonceIncrement_key : (nonceIncrement sessionp).smb3EncryptKey = sessionp.smb3EncryptKey := by
  simp only [nonceIncrement]
  split <;> rfl

def nonceField (sessionp : SmbSession) : Bytes :=
  let nonce := List.replicate 16 0
  let nonce := overwrite nonce 0 (toLe 8 sessionp.smb3NonceHigh.toNat)
  let nonce := overwrite nonce 8 (toLe 8 sessionp.smb3NonceLow.toNat)
  match cipherMode sessionp.smb3EncryptCiper with
  | .gcm => overwrite nonce 12 (List.replicate 4 0)
  | .ccm => overwrite nonce 11 (List.replicate 5 0)

theorem length_nonceField : (nonceField sessionp).length = 16 := by
  unfold nonceField
  cases cipherMode sessionp.smb3EncryptCiper <;> simp [overwrite]

def cipherNonce (sessionp : SmbSession) : Bytes :=
  (nonceField sessionp).take (cipherMode sessionp.smb3EncryptCiper).nonceLen

theorem cipherNonce_eq : cipherNonce sessionp = toLe 8 sessionp.smb3NonceHigh.toNat ++
      toLe ((cipherMode sessionp.smb3EncryptCiper).nonceLen - 8) sessionp.smb3NonceLow.toNat := by
  have low4 : (toLe 8 sessionp.smb3NonceLow.toNat).take 4 = toLe 4 sessionp.smb3NonceLow.toNat :=
    take_toLe (by decide) _
  have high (n : Nat) (wide : 8 ≤ n) : (toLe 8 sessionp.smb3NonceHigh.toNat).take n =
      toLe 8 sessionp.smb3NonceHigh.toNat := List.take_of_length_le (by simpa using wide)
  have low3 : (toLe 8 sessionp.smb3NonceLow.toNat).take 3 = toLe 3 sessionp.smb3NonceLow.toNat :=
    take_toLe (by decide) _
  unfold cipherNonce nonceField
  cases cipherMode sessionp.smb3EncryptCiper <;>
    simp [overwrite, CipherMode.nonceLen, List.take_append, low3, low4, high]

def CipherMode.nonceSpan (mode : CipherMode) : Nat := 256 ^ (mode.nonceLen - 8)

theorem cipherNonce_eq_iff {a b : SmbSession} (same : a.smb3EncryptCiper = b.smb3EncryptCiper) :
    cipherNonce a = cipherNonce b ↔ a.smb3NonceHigh = b.smb3NonceHigh ∧
      a.smb3NonceLow.toNat % (cipherMode a.smb3EncryptCiper).nonceSpan =
        b.smb3NonceLow.toNat % (cipherMode a.smb3EncryptCiper).nonceSpan := by
  have high : toLe 8 a.smb3NonceHigh.toNat = toLe 8 b.smb3NonceHigh.toNat ↔
      a.smb3NonceHigh = b.smb3NonceHigh := by
    rw [toLe_eq_iff, show 256 ^ 8 = 2 ^ 64 by rfl, Nat.mod_eq_of_lt a.smb3NonceHigh.toNat_lt,
      Nat.mod_eq_of_lt b.smb3NonceHigh.toNat_lt, UInt64.toNat_inj]
  rw [cipherNonce_eq, cipherNonce_eq, ← same]
  constructor
  · intro equal
    obtain ⟨highs, lows⟩ := List.append_inj equal (by simp)
    exact ⟨high.mp highs, (toLe_eq_iff _ _ _).mp lows⟩
  · rintro ⟨highs, lows⟩
    rw [high.mpr highs, (toLe_eq_iff _ _ _).mpr lows]

def smb3AesTfProtoStr : Bytes := [0xfd, 0x53, 0x4d, 0x42]

def smb3AesTfHdrLen : Nat := 52
def smb3AesTfSigOff : Nat := 4
def smb3AesTfSigLen : Nat := 16
def smb3AesTfNonceOff : Nat := 20
def smb3AesTfMsglenOff : Nat := 36
def smb3AesTfEncrAlgOff : Nat := 42
def smb3AesTfSessidOff : Nat := 44
def smb3AesAuthdataOff : Nat := 20
def smb3AesAuthdataLen : Nat := 32

def smb311EncryptedFlag : Nat := 1
def smb2EncryptionAES128CCM : Nat := 1

def transformHeader (sessionp : SmbSession) (msglen : Nat) (sessionId : UInt64) : Bytes :=
  let msgp := List.replicate smb3AesTfHdrLen 0
  let msgp := overwrite msgp 0 smb3AesTfProtoStr
  let msgp := overwrite msgp smb3AesTfNonceOff (nonceField sessionp)
  let msgp := overwrite msgp smb3AesTfMsglenOff (toLe 4 msglen)
  let msgp :=
    if sessionp.dialect = .smb311 then overwrite msgp smb3AesTfEncrAlgOff (toLe 2 smb311EncryptedFlag)
    else overwrite msgp smb3AesTfEncrAlgOff (toLe 2 smb2EncryptionAES128CCM)
  overwrite msgp smb3AesTfSessidOff (toLe 8 sessionId.toNat)

def authData (sessionp : SmbSession) (msglen : Nat) (sessionId : UInt64) : Bytes :=
  nonceField sessionp ++ (toLe 4 msglen ++ ([0, 0] ++ (toLe 2 1 ++ toLe 8 sessionId.toNat)))

theorem transformHeader_eq (msglen : Nat) (sessionId : UInt64) : transformHeader sessionp msglen sessionId =
      smb3AesTfProtoStr ++ (List.replicate 16 0 ++ authData sessionp msglen sessionId) := by
  have nonce := length_nonceField sessionp
  have blank : List.replicate smb3AesTfHdrLen (0 : UInt8) =
      List.replicate 4 0 ++ (List.replicate 16 0 ++ (List.replicate 16 0 ++ (List.replicate 4 0 ++
        ([0, 0] ++ (List.replicate 2 0 ++ (List.replicate 8 0 ++ [])))))) := by decide
  have flag (msgp : Bytes) : (if sessionp.dialect = .smb311 then
      overwrite msgp smb3AesTfEncrAlgOff (toLe 2 smb311EncryptedFlag)
      else overwrite msgp smb3AesTfEncrAlgOff (toLe 2 smb2EncryptionAES128CCM)) =
        overwrite msgp 42 (toLe 2 1) := by
    split <;> rfl
  have proto : smb3AesTfProtoStr.length = 4 := rfl
  simp only [transformHeader, flag, blank, smb3AesTfNonceOff, smb3AesTfMsglenOff, smb3AesTfSessidOff]
  simp (disch := simp [nonce, proto]) only [overwrite_append_right, overwrite_append_left, nonce, proto,
    List.length_replicate, length_toLe, List.length_cons, List.length_nil, Nat.reduceSub, Nat.reduceAdd]
  simp [authData]

/-! The fields of `SMB3_AES_TF_HEADER`. -/

def signature (msgp : Bytes) : Bytes := slice msgp smb3AesTfSigOff smb3AesTfSigLen
def origMsgSize (msgp : Bytes) : Nat := ofLe (slice msgp smb3AesTfMsglenOff 4)
def encryptAlgorithm (msgp : Bytes) : Nat := ofLe (slice msgp smb3AesTfEncrAlgOff 2)
def sessId (msgp : Bytes) : Nat := ofLe (slice msgp smb3AesTfSessidOff 8)

/-! A message laid out as `smb3_rq_encrypt` does, read back field by field. -/

section Layout
variable {tag auth data : Bytes} (tagLength : tag.length = 16) (authLength : auth.length = 32)
include tagLength

theorem signature_layout : signature (smb3AesTfProtoStr ++ (tag ++ (auth ++ data))) = tag := by
  rw [signature, slice_append_right _ _ _ _ (by decide)]
  exact slice_append_left _ _ _ tagLength

theorem slice_layout (off len : Nat) (start : smb3AesTfNonceOff ≤ off) :
    slice (smb3AesTfProtoStr ++ (tag ++ (auth ++ data))) off len = slice (auth ++ data) (off - 20) len := by
  unfold smb3AesTfNonceOff at start
  have proto : smb3AesTfProtoStr.length = 4 := rfl
  rw [slice_append_right _ _ _ _ (by omega), slice_append_right _ _ _ _ (by omega), proto, tagLength,
    Nat.sub_sub]

include authLength

theorem field_layout (off len : Nat) (start : smb3AesTfNonceOff ≤ off) (stop : off + len ≤ smb3AesTfHdrLen) :
    slice (smb3AesTfProtoStr ++ (tag ++ (auth ++ data))) off len = slice auth (off - 20) len := by
  unfold smb3AesTfNonceOff at start
  unfold smb3AesTfHdrLen at stop
  have inside : len - (auth.length - (off - 20)) = 0 := by omega
  rw [slice_layout tagLength _ _ start, slice, slice, List.drop_append_of_le_length (by omega),
    List.take_append, List.length_drop, inside]
  simp

theorem drop_layout : (smb3AesTfProtoStr ++ (tag ++ (auth ++ data))).drop smb3AesTfHdrLen = data := by
  simp [smb3AesTfHdrLen, List.drop_append, tagLength, authLength, smb3AesTfProtoStr]

end Layout

def shiftedModes : CcModes := ⟨.shifted, .shifted⟩

def gcmSession : SmbSession where
  sessionId := 7
  dialect := .smb311
  mackey := some [1, 2, 3]
  smb3EncryptCiper := smb2EncryptionAes128Gcm
  smb3EncryptKey := [5, 6]
  smb3DecryptKey := [5, 6]

end SmbClient.Crypt
