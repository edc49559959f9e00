import SmbClient.Crypt.Transform
import SmbClient.Mbuf.Chain

/-!
`smb3_rq_encrypt`, cut where it releases the session lock.
-/

namespace SmbClient.Crypt
open SmbClient.Lib SmbClient.Session SmbClient.Mbuf

def smb2Write : UInt16 := 0x0009

structure EncryptRq where
  compound : Bool := false
  compressed : Bool := false
  command : UInt16
  rq : Chain
  rqCompressed : Chain := []
  nextRqs : List Chain := []
  rqSessionId : UInt64
  deriving DecidableEq, Repr

def detachRequest (rqp : EncryptRq) : Chain :=
  if rqp.compound then rqp.nextRqs.foldl (· ++ ·) rqp.rq
  else if rqp.compressed then
    let mb := if rqp.command = smb2Write then rqp.rqCompressed else []
    if mb = [] then rqp.rq else mb
  else rqp.rq

def smb3RqEncryptLocked (gethdr : Bool) (sessionp : SmbSession) : Option Errno × SmbSession :=
  let sessionp := defaultCiper sessionp
  if sessionp.smb3EncryptKey.length = 0 then (some .einval, sessionp)
  else if !gethdr then (some .enobufs, sessionp)
  else (none, nonceIncrement sessionp)

def smb3RqEncryptUnlocked (cc : CcModes) (sessionp : SmbSession) (rqp : EncryptRq) :
    Except Errno Chain :=
  let mb := detachRequest rqp
  let len := mbufGetChainLen mb
  if 0xffffffff < len then .error .eauth
  else
    let msgp := transformHeader sessionp len rqp.rqSessionId
    let mode := cipherMode sessionp.smb3EncryptCiper
    let aead := cc.aead mode
    let ctx := aead.encryptInit sessionp.smb3EncryptKey (slice msgp smb3AesTfNonceOff mode.nonceLen)
      (slice msgp smb3AesAuthdataOff smb3AesAuthdataLen) (mode.dataLen len)
    let encrypted := aead.encryptor.updateSegments ctx mb
    .ok (overwrite msgp smb3AesTfSigOff (aead.encryptFinalize encrypted.2) :: encrypted.1)

def smb3RqEncrypt (cc : CcModes) (gethdr : Bool) (sessionp : SmbSession) (rqp : EncryptRq) :
    Except Errno Chain × SmbSession :=
  match smb3RqEncryptLocked gethdr sessionp with
  | (some error, sessionp) => (.error error, sessionp)
  | (none, sessionp) => (smb3RqEncryptUnlocked cc sessionp rqp, sessionp)

theorem smb3RqEncryptLocked_cases (gethdr : Bool) (sessionp : SmbSession) :
    (∃ error, smb3RqEncryptLocked gethdr sessionp = (some error, defaultCiper sessionp)) ∨
      sessionp.smb3EncryptKey ≠ [] ∧
        smb3RqEncryptLocked gethdr sessionp = (none, nonceIncrement (defaultCiper sessionp)) := by
  simp only [smb3RqEncryptLocked, defaultCiper_key]
  split
  · exact .inl ⟨_, rfl⟩
  · rename_i keyed
    split
    · exact .inl ⟨_, rfl⟩
    · exact .inr ⟨fun missing => keyed (congrArg List.length missing), rfl⟩

variable {cc : CcModes} {sessionp : SmbSession} {rqp : EncryptRq} {mb : Chain}

theorem smb3RqEncrypt_eq_ok {gethdr : Bool} {after : SmbSession} (sent : smb3RqEncrypt cc gethdr sessionp rqp = (.ok mb, after)) :
    sessionp.smb3EncryptKey ≠ [] ∧ after = nonceIncrement (defaultCiper sessionp) ∧
      smb3RqEncryptUnlocked cc after rqp = .ok mb := by
  unfold smb3RqEncrypt at sent
  obtain ⟨error, locked⟩ | ⟨keyed, locked⟩ := smb3RqEncryptLocked_cases gethdr sessionp
  · simp [locked] at sent
  · simp only [locked, Prod.mk.injEq] at sent
    exact ⟨keyed, sent.2.symm, sent.2 ▸ sent.1⟩

variable (sessionp : SmbSession) (msglen : Nat) (sessionId : UInt64)

theorem length_authData : (authData sessionp msglen sessionId).length = 32 := by
  simp [authData, length_nonceField]

theorem slice_authData : slice (transformHeader sessionp msglen sessionId) smb3AesAuthdataOff smb3AesAuthdataLen =
      authData sessionp msglen sessionId := by
  rw [transformHeader_eq, slice_append_right _ _ _ _ (by decide),
    slice_append_right _ _ _ _ (by decide)]
  simp [slice, smb3AesTfProtoStr, smb3AesAuthdataOff, smb3AesAuthdataLen, length_authData,
    List.take_of_length_le]

theorem slice_nonce_authData :
    slice (authData sessionp msglen sessionId) 0 (cipherMode sessionp.smb3EncryptCiper).nonceLen =
      cipherNonce sessionp := by
  have inside : (cipherMode sessionp.smb3EncryptCiper).nonceLen - 16 = 0 := by
    cases cipherMode sessionp.smb3EncryptCiper <;> rfl
  simp [slice, authData, cipherNonce, List.take_append, length_nonceField, inside]

theorem nonce_inside (mode : CipherMode) : smb3AesTfNonceOff + mode.nonceLen ≤ smb3AesTfHdrLen := by
  cases mode <;> decide

theorem slice_nonce : slice (transformHeader sessionp msglen sessionId) smb3AesTfNonceOff
      (cipherMode sessionp.smb3EncryptCiper).nonceLen = cipherNonce sessionp := by
  rw [transformHeader_eq, slice_append_right _ _ _ _ (by decide), slice_append_right _ _ _ _ (by decide)]
  exact slice_nonce_authData sessionp msglen sessionId

def sealedMessage (cc : CcModes) (sessionp : SmbSession) (sessionId : UInt64) (plain : Bytes) : Bytes :=
  let mode := cipherMode sessionp.smb3EncryptCiper
  let auth := authData sessionp plain.length sessionId
  let encrypted := (cc.aead mode).encrypt sessionp.smb3EncryptKey (cipherNonce sessionp) auth
    (mode.dataLen plain.length) plain
  smb3AesTfProtoStr ++ (encrypted.2 ++ (auth ++ encrypted.1))

theorem smb3RqEncryptUnlocked_ok (cc : CcModes) (sessionp : SmbSession) (rqp : EncryptRq)
    (small : (bytes (detachRequest rqp)).length ≤ 0xffffffff) :
    ∃ mb, smb3RqEncryptUnlocked cc sessionp rqp = .ok mb ∧
      bytes mb = sealedMessage cc sessionp rqp.rqSessionId (bytes (detachRequest rqp)) := by
  have fits : ¬0xffffffff < (bytes (detachRequest rqp)).length := by omega
  simp only [smb3RqEncryptUnlocked, mbufGetChainLen_eq, if_neg fits, slice_authData, slice_nonce]
  refine ⟨_, rfl, ?_⟩
  have tag := (cc.aead (cipherMode sessionp.smb3EncryptCiper)).encryptFinalize_length
  rw [bytes_cons, transformHeader_eq, overwrite_append_right (by decide),
    show smb3AesTfSigOff - smb3AesTfProtoStr.length = 0 from rfl,
    overwrite_append_left (by rw [tag, List.length_replicate])]
  simp only [bytes, Transducer.updateSegments_flatten, Transducer.updateSegments_ctx, sealedMessage,
    Aead.encrypt, List.append_assoc]

theorem smb3RqEncryptUnlocked_eq_ok {sessionp} (sent : smb3RqEncryptUnlocked cc sessionp rqp = .ok mb) :
    (bytes (detachRequest rqp)).length ≤ 0xffffffff ∧
      bytes mb = sealedMessage cc sessionp rqp.rqSessionId (bytes (detachRequest rqp)) := by
  by_cases small : (bytes (detachRequest rqp)).length ≤ 0xffffffff
  · obtain ⟨mb', expected, content⟩ := smb3RqEncryptUnlocked_ok cc sessionp rqp small
    rw [expected, Except.ok.injEq] at sent
    exact ⟨small, sent ▸ content⟩
  · simp [smb3RqEncryptUnlocked, mbufGetChainLen_eq, Nat.lt_of_not_le small] at sent

def messageNonce (mode : CipherMode) (mb : Chain) : Bytes :=
  slice (bytes mb) smb3AesTfNonceOff mode.nonceLen

theorem messageNonce_eq {sessionp} (sent : smb3RqEncryptUnlocked cc sessionp rqp = .ok mb) :
    messageNonce (cipherMode sessionp.smb3EncryptCiper) mb = cipherNonce sessionp := by
  rw [messageNonce, (smb3RqEncryptUnlocked_eq_ok sent).2, sealedMessage,
    field_layout (Aead.length_encrypt_snd _ _ _ _ _ _) (length_authData _ _ _) _ _ (le_refl _)
      (nonce_inside _)]
  exact slice_nonce_authData sessionp _ _

end SmbClient.Crypt
