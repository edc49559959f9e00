import SmbClient.Crypt.Encrypt
import SmbClient.Crypt.Decrypt

namespace SmbClient.Crypt
open SmbClient.Lib SmbClient.Session SmbClient.Mbuf

/-- The two ends of one session, as far as the transform goes. -/
structure SameSession (sender receiver : SmbSession) (rqp : EncryptRq) : Prop where
  key : receiver.smb3DecryptKey = sender.smb3EncryptKey
  mode : cipherMode receiver.smb3EncryptCiper = cipherMode sender.smb3EncryptCiper
  sessionId : receiver.sessionId = rqp.rqSessionId

section Sealed
variable (cc : CcModes) (sessionp : SmbSession) (sessionId : UInt64) (plain : Bytes)

theorem sealed_field (off len : Nat) (start : smb3AesTfNonceOff ≤ off) (stop : off + len ≤ smb3AesTfHdrLen) :
    slice (sealedMessage cc sessionp sessionId plain) off len =
      slice (authData sessionp plain.length sessionId) (off - 20) len :=
  field_layout (Aead.length_encrypt_snd _ _ _ _ _ _) (length_authData _ _ _) off len start stop

theorem origMsgSize_sealed (small : plain.length ≤ 0xffffffff) :
    origMsgSize (sealedMessage cc sessionp sessionId plain) = plain.length := by
  have field : slice (authData sessionp plain.length sessionId) 16 4 = toLe 4 plain.length := by
    rw [authData, slice_append_right _ _ _ _ (Nat.le_of_eq (length_nonceField _)), length_nonceField]
    exact slice_append_left _ _ _ (length_toLe _ _)
  rw [origMsgSize, sealed_field _ _ _ _ _ _ (by decide) (by decide)]
  exact (congrArg ofLe field).trans (ofLe_toLe_of_lt (Nat.lt_of_le_of_lt small (by decide)))

theorem encryptAlgorithm_sealed : encryptAlgorithm (sealedMessage cc sessionp sessionId plain) = 1 := by
  have field : slice (authData sessionp plain.length sessionId) 22 2 = toLe 2 1 := by
    rw [authData, slice_append_right _ _ _ _ (by rw [length_nonceField]; decide), length_nonceField,
      slice_append_right _ _ _ _ (by simp), slice_append_right _ _ _ _ (by simp)]
    simp [slice]
  rw [encryptAlgorithm, sealed_field _ _ _ _ _ _ (by decide) (by decide)]
  exact (congrArg ofLe field).trans (by decide)

theorem sessId_sealed : sessId (sealedMessage cc sessionp sessionId plain) = sessionId.toNat := by
  have field : slice (authData sessionp plain.length sessionId) 24 8 = toLe 8 sessionId.toNat := by
    rw [authData, slice_append_right _ _ _ _ (by rw [length_nonceField]; decide), length_nonceField,
      slice_append_right _ _ _ _ (by simp), slice_append_right _ _ _ _ (by simp)]
    simp [slice, List.take_of_length_le]
  rw [sessId, sealed_field _ _ _ _ _ _ (by decide) (by decide)]
  exact (congrArg ofLe field).trans (ofLe_toLe_of_lt sessionId.toNat_lt)

theorem drop_sealed : (sealedMessage cc sessionp sessionId plain).drop smb3AesTfHdrLen =
    ((cc.aead (cipherMode sessionp.smb3EncryptCiper)).encrypt sessionp.smb3EncryptKey (cipherNonce sessionp)
      (authData sessionp plain.length sessionId)
      ((cipherMode sessionp.smb3EncryptCiper).dataLen plain.length) plain).1 :=
  drop_layout (Aead.length_encrypt_snd _ _ _ _ _ _) (length_authData _ _ _)

end Sealed

variable {rqp : EncryptRq}

theorem opened_sealed (cc : CcModes) {sender receiver : SmbSession}
    (same : SameSession sender receiver rqp) (plain : Bytes) (small : plain.length ≤ 0xffffffff) :
    opened cc receiver (sealedMessage cc sender rqp.rqSessionId plain) =
      (plain, signature (sealedMessage cc sender rqp.rqSessionId plain)) := by
  have declared : ∀ n ∈ (cipherMode sender.smb3EncryptCiper).dataLen plain.length, n = plain.length := by
    cases cipherMode sender.smb3EncryptCiper with
    | gcm => simp [CipherMode.dataLen]
    | ccm => simp [CipherMode.dataLen]
  have tag : signature (sealedMessage cc sender rqp.rqSessionId plain) = _ :=
    signature_layout (Aead.length_encrypt_snd _ _ _ _ _ _)
  have auth := sealed_field cc sender rqp.rqSessionId plain smb3AesAuthdataOff smb3AesAuthdataLen
    (by decide) (by decide)
  have whole : slice (authData sender plain.length rqp.rqSessionId) (smb3AesAuthdataOff - 20)
      smb3AesAuthdataLen = authData sender plain.length rqp.rqSessionId :=
    List.take_of_length_le (Nat.le_of_eq (length_authData _ _ _))
  rw [opened, same.key, same.mode, auth, whole, origMsgSize_sealed cc sender _ plain small,
    sealed_field _ _ _ _ _ _ (le_refl _) (nonce_inside _), drop_sealed, tag]
  rw [show smb3AesTfNonceOff - 20 = 0 from rfl, slice_nonce_authData]
  exact Aead.decrypt_of_encrypt _ _ _ _ plain _ declared

theorem headerRejected_sealed (cc : CcModes) {sender receiver : SmbSession}
    (same : SameSession sender receiver rqp) (keyed : sender.smb3EncryptKey ≠ []) (plain : Bytes)
    (small : plain.length ≤ kDefaultMaxIOSize) :
    ¬HeaderRejected receiver (sealedMessage cc sender rqp.rqSessionId plain) := by
  have size := origMsgSize_sealed cc sender rqp.rqSessionId plain (Nat.le_trans small (by decide))
  rintro (nokey | short | proto | algorithm | session | large)
  · exact keyed (same.key ▸ nokey)
  · have tag := Aead.length_encrypt_snd (cc.aead (cipherMode sender.smb3EncryptCiper))
    simp only [sealedMessage, List.length_append, length_authData, tag, smb3AesTfHdrLen,
      show smb3AesTfProtoStr.length = 4 from rfl] at short
    omega
  · exact proto (List.take_left' rfl)
  · exact algorithm (encryptAlgorithm_sealed cc sender rqp.rqSessionId plain)
  · exact session (by rw [sessId_sealed, same.sessionId])
  · rw [size] at large
    omega

section Received
variable (kpi : MbufKpi) (kalloc : Kalloc) (cc : CcModes) {sender receiver : SmbSession} {rqp : EncryptRq}
  {plain : Bytes} {received : Chain}

theorem smb3MsgDecrypt_sealed (memory : ∀ size ≤ kDefaultMaxIOSize, kalloc.alloc size ≠ none)
    (same : SameSession sender receiver rqp) (keyed : sender.smb3EncryptKey ≠ [])
    (small : plain.length ≤ kDefaultMaxIOSize) (wire : bytes received = sealedMessage cc sender rqp.rqSessionId plain) :
    ∃ payload, (smb3MsgDecrypt kpi kalloc cc receiver received).1 = .ok payload ∧ bytes payload = plain := by
  have fits : plain.length ≤ 0xffffffff := Nat.le_trans small (by decide)
  have declared : ((bytes received).drop smb3AesTfHdrLen).length = origMsgSize (bytes received) := by
    rw [wire, drop_sealed, Aead.length_encrypt_fst, origMsgSize_sealed _ _ _ _ fits]
  obtain ⟨rejected, -⟩ | ⟨-, payload, split, rest⟩ := splitTransform_cases kpi receiver received
  · rw [wire] at rejected
    exact absurd rejected (headerRejected_sealed cc same keyed _ small)
  have verdict := (pathsAgree_of_length kpi kalloc cc receiver memory received declared).verdict split rest
  have content := bytes_recut_opened cc receiver (bytes received) payload rest
  rw [wire, opened_sealed cc same _ fits] at verdict content
  exact ⟨_, verdict.trans (if_pos rfl), content⟩

theorem smb3MsgDecrypt_sealed_large (large : kDefaultMaxIOSize < plain.length) (fits : plain.length ≤ 0xffffffff)
    (wire : bytes received = sealedMessage cc sender rqp.rqSessionId plain) (payload : Chain) :
    (smb3MsgDecrypt kpi kalloc cc receiver received).1 ≠ .ok payload := by
  intro ok
  obtain ⟨-, error, refused⟩ | ⟨accepted, -⟩ := splitTransform_cases kpi receiver received
  · rw [smb3MsgDecrypt_fst, refused] at ok
    cases ok
  · apply accepted
    rw [wire]
    refine .inr (.inr (.inr (.inr (.inr ?_))))
    rwa [origMsgSize_sealed _ _ _ _ fits]

end Received

def requestBytes (rqp : EncryptRq) : Bytes :=
  if rqp.compound then (rqp.rq :: rqp.nextRqs).flatMap bytes
  else if rqp.compressed ∧ rqp.command = smb2Write ∧ rqp.rqCompressed ≠ [] then bytes rqp.rqCompressed
  else bytes rqp.rq

theorem bytes_foldl (m : Chain) (chains : List Chain) :
    bytes (chains.foldl (· ++ ·) m) = bytes m ++ chains.flatMap bytes := by
  induction chains generalizing m with
  | nil => simp
  | cons next rest ih => simp [ih]

theorem bytes_detachRequest (rqp : EncryptRq) : bytes (detachRequest rqp) = requestBytes rqp := by
  unfold detachRequest requestBytes
  by_cases compound : rqp.compound = true
  · simp [compound, bytes_foldl]
  · by_cases compressed : rqp.compressed = true <;> by_cases write : rqp.command = smb2Write <;>
      by_cases missing : rqp.rqCompressed = [] <;> simp [compound, compressed, write, missing]

theorem smb3RqEncrypt_sends (cc : CcModes) {sessionp : SmbSession} (keyed : sessionp.smb3EncryptKey ≠ [])
    (small : (requestBytes rqp).length ≤ 0xffffffff) :
    ∃ mb, smb3RqEncrypt cc true sessionp rqp = (.ok mb, nonceIncrement (defaultCiper sessionp)) ∧
      bytes mb = sealedMessage cc (nonceIncrement (defaultCiper sessionp)) rqp.rqSessionId (requestBytes rqp) := by
  rw [← bytes_detachRequest] at small ⊢
  obtain ⟨mb, sent, content⟩ := smb3RqEncryptUnlocked_ok cc (nonceIncrement (defaultCiper sessionp)) rqp small
  refine ⟨mb, ?_, content⟩
  simp [smb3RqEncrypt, smb3RqEncryptLocked, keyed, sent]

theorem smb3MsgDecrypt_smb3RqEncrypt (kpi : MbufKpi) (kalloc : Kalloc) (cc : CcModes)
    (memory : ∀ size ≤ kDefaultMaxIOSize, kalloc.alloc size ≠ none) (gethdr : Bool)
    (sender after receiver : SmbSession) (rqp : EncryptRq) (same : SameSession sender receiver rqp)
    (mb : Chain) (sent : smb3RqEncrypt cc gethdr sender rqp = (.ok mb, after))
    (small : (requestBytes rqp).length ≤ kDefaultMaxIOSize) (received : Chain) (carried : bytes received = bytes mb) :
    ∃ payload, (smb3MsgDecrypt kpi kalloc cc receiver received).1 = .ok payload ∧
      bytes payload = requestBytes rqp := by
  obtain ⟨keyed, rfl, unlocked⟩ := smb3RqEncrypt_eq_ok sent
  have same' : SameSession (nonceIncrement (defaultCiper sender)) receiver rqp :=
    ⟨by simpa using same.key, by simpa [cipherMode_defaultCiper] using same.mode, same.sessionId⟩
  have wire := carried.trans (smb3RqEncryptUnlocked_eq_ok unlocked).2
  rw [bytes_detachRequest] at wire
  exact smb3MsgDecrypt_sealed kpi kalloc cc memory same' (by simpa using keyed) small wire

def compoundRq : EncryptRq where
  compound := true
  command := 0x0005
  rq := [List.replicate 64 0, [], [1, 2, 3]]
  nextRqs := [[List.replicate 64 1], [[4, 5], [6]]]
  rqSessionId := 7

theorem smb3MsgDecrypt_compoundRq : ∃ mb after,
    smb3RqEncrypt shiftedModes true gcmSession compoundRq = (.ok mb, after) ∧
      ∃ payload, (smb3MsgDecrypt .copying .zeroed shiftedModes gcmSession mb).1 = .ok payload ∧
        bytes payload = requestBytes compoundRq := by
  obtain ⟨mb, sent, -⟩ := smb3RqEncrypt_sends shiftedModes (by decide : gcmSession.smb3EncryptKey ≠ [])
    (by decide +kernel : (requestBytes compoundRq).length ≤ 0xffffffff)
  exact ⟨mb, _, sent, smb3MsgDecrypt_smb3RqEncrypt .copying .zeroed shiftedModes
    (fun _ _ => by simp [Kalloc.zeroed]) true gcmSession _ gcmSession compoundRq ⟨rfl, rfl, rfl⟩ mb sent
    (by decide +kernel) mb rfl⟩

def writeRq (dataLen : Nat) : EncryptRq where
  command := smb2Write
  rq := [List.replicate 112 0, List.replicate dataLen 0]
  rqSessionId := 7

theorem length_writeRq (dataLen : Nat) : (requestBytes (writeRq dataLen)).length = 112 + dataLen := by
  have plain : requestBytes (writeRq dataLen) = bytes (writeRq dataLen).rq := rfl
  rw [plain, writeRq, bytes_cons, bytes_cons, bytes_nil, List.append_nil, List.length_append,
    List.length_replicate, List.length_replicate]

theorem smb3MsgDecrypt_writeRq (dataLen : Nat) (large : kDefaultMaxIOSize < 112 + dataLen)
    (fits : 112 + dataLen ≤ 0xffffffff) :
    ∃ mb after, smb3RqEncrypt shiftedModes true gcmSession (writeRq dataLen) = (.ok mb, after) ∧
      ∀ payload, (smb3MsgDecrypt .copying .zeroed shiftedModes gcmSession mb).1 ≠ .ok payload := by
  rw [← length_writeRq] at large fits
  obtain ⟨mb, sent, content⟩ := smb3RqEncrypt_sends shiftedModes
    (by decide : gcmSession.smb3EncryptKey ≠ []) fits
  exact ⟨mb, _, sent, smb3MsgDecrypt_sealed_large .copying .zeroed shiftedModes large fits content⟩

theorem smb3MsgDecrypt_largest_write : ∃ mb after,
    smb3RqEncrypt shiftedModes true gcmSession (writeRq kDefaultMaxIOSize) = (.ok mb, after) ∧
      ∀ payload, (smb3MsgDecrypt .copying .zeroed shiftedModes gcmSession mb).1 ≠ .ok payload :=
  smb3MsgDecrypt_writeRq kDefaultMaxIOSize (by decide) (by decide)

end SmbClient.Crypt
