import SmbClient.Crypt.Transform
import SmbClient.Mbuf.Chain

namespace SmbClient.Crypt
open SmbClient.Lib SmbClient.Session SmbClient.Mbuf

def splitTransform (kpi : MbufKpi) (sessionp : SmbSession) (mb : Chain) : Except Errno (Bytes × Chain) :=
  if sessionp.smb3DecryptKey.length = 0 then .error .eauth
  else
    match kpi.split mb smb3AesTfHdrLen with
    | none => .error .ebadrpc
    | some (mbHdr, mbufPayload) =>
      match kpi.pullup mbHdr smb3AesTfHdrLen with
      | none => .error .ebadrpc
      | some mbHdr =>
        let msgp := mbHdr.headD []
        if msgp.take 4 ≠ smb3AesTfProtoStr then .error .ebadrpc
        else if encryptAlgorithm msgp ≠ smb2EncryptionAES128CCM then .error .eauth
        else if sessId msgp ≠ sessionp.sessionId.toNat then .error .eauth
        else if kDefaultMaxIOSize < origMsgSize msgp then .error .eio
        else .ok (msgp, mbufPayload)

abbrev Decrypted (aead : Aead) := Option (Chain × aead.decryptor.Ctx)

def decryptInPlace (aead : Aead) (ctx : aead.decryptor.Ctx) (mbufPayload : Chain) : Decrypted aead :=
  some (aead.decryptor.updateSegments ctx mbufPayload)

def decryptBuffered (kalloc : Kalloc) (aead : Aead) (ctx : aead.decryptor.Ctx) (decryptBuffer : Option Bytes)
    (msglen : Nat) (mbufPayload : Chain) : Decrypted aead × Option Bytes :=
  let kept := decryptBuffer.filter fun buf => msglen ≤ buf.length
  match kept.or (kalloc.alloc msglen) with
  | none => (none, none)
  | some buf =>
    let copied := gather buf 0 mbufPayload
    if copied.2 then
      let update := aead.decryptor.update ctx (copied.1.take msglen)
      let buf := overwrite copied.1 0 update.1
      ((scatter buf 0 mbufPayload).map fun payload => (payload, update.2), some buf)
    else (none, some copied.1)

def checkSignature (aead : Aead) (sig : Bytes) : Decrypted aead → Except Errno Chain
  | none => .error .eauth
  | some (mbufPayload, ctx) =>
    if aead.decryptFinalize ctx = sig then .ok mbufPayload else .error .eauth

def decryptCtx (aead : Aead) (mode : CipherMode) (key msgp : Bytes) : aead.decryptor.Ctx :=
  aead.decryptInit key (slice msgp smb3AesTfNonceOff mode.nonceLen)
    (slice msgp smb3AesAuthdataOff smb3AesAuthdataLen) (mode.dataLen (origMsgSize msgp))

def decryptPayload (kalloc : Kalloc) (aead : Aead) (mode : CipherMode) (key : Bytes)
    (decryptBuffer : Option Bytes) (msgp : Bytes) (mbufPayload : Chain) :
    Except Errno Chain × Option Bytes :=
  let ctx := decryptCtx aead mode key msgp
  if 64 * 1024 < origMsgSize msgp then
    let buffered := decryptBuffered kalloc aead ctx decryptBuffer (origMsgSize msgp) mbufPayload
    (checkSignature aead (signature msgp) buffered.1, buffered.2)
  else (checkSignature aead (signature msgp) (decryptInPlace aead ctx mbufPayload), decryptBuffer)

def smb3MsgDecrypt (kpi : MbufKpi) (kalloc : Kalloc) (cc : CcModes) (sessionp : SmbSession) (mb : Chain) :
    Except Errno Chain × SmbSession :=
  let sessionp := defaultCiper sessionp
  match splitTransform kpi sessionp mb with
  | .error error => (.error error, sessionp)
  | .ok (msgp, mbufPayload) =>
    let mode := cipherMode sessionp.smb3EncryptCiper
    let result := decryptPayload kalloc (cc.aead mode) mode sessionp.smb3DecryptKey
      sessionp.decryptBuffer msgp mbufPayload
    (result.1, { sessionp with decryptBuffer := result.2 })

/-- No message whose header is like this gets as far as the cipher. -/
def HeaderRejected (sessionp : SmbSession) (message : Bytes) : Prop :=
  sessionp.smb3DecryptKey = [] ∨ message.length < smb3AesTfHdrLen ∨
    message.take 4 ≠ smb3AesTfProtoStr ∨ encryptAlgorithm message ≠ smb2EncryptionAES128CCM ∨
    sessId message ≠ sessionp.sessionId.toNat ∨ kDefaultMaxIOSize < origMsgSize message

instance (sessionp : SmbSession) (message : Bytes) : Decidable (HeaderRejected sessionp message) :=
  inferInstanceAs (Decidable (_ ∨ _))

theorem pulled_header (kpi : MbufKpi) {mb mbHdr pulled payload : Chain}
    (split : kpi.split mb smb3AesTfHdrLen = some (mbHdr, payload))
    (pullup : kpi.pullup mbHdr smb3AesTfHdrLen = some pulled) :
    pulled.headD [] = (bytes mb).take smb3AesTfHdrLen := by
  obtain ⟨front, -, -⟩ := kpi.split_bytes _ _ _ _ split
  obtain ⟨same, -⟩ := kpi.pullup_bytes _ _ _ pullup
  have head := kpi.pullup_head pullup
  have short : (pulled.headD []).length ≤ smb3AesTfHdrLen := by
    have whole : (bytes pulled).length ≤ smb3AesTfHdrLen := by
      rw [same, front, List.length_take]
      exact Nat.min_le_left _ _
    cases pulled with
    | nil => exact Nat.zero_le _
    | cons first rest =>
      rw [bytes_cons, List.length_append] at whole
      exact Nat.le_of_add_right_le whole
  rw [List.take_of_length_le short, front, List.take_take, Nat.min_self] at head
  exact head

theorem fields_take (message : Bytes) :
    encryptAlgorithm (message.take smb3AesTfHdrLen) = encryptAlgorithm message ∧
      sessId (message.take smb3AesTfHdrLen) = sessId message ∧
      origMsgSize (message.take smb3AesTfHdrLen) = origMsgSize message ∧
      signature (message.take smb3AesTfHdrLen) = signature message := by
  refine ⟨?_, ?_, ?_, ?_⟩
  · rw [encryptAlgorithm, slice_take (by decide), encryptAlgorithm]
  · rw [sessId, slice_take (by decide), sessId]
  · rw [origMsgSize, slice_take (by decide), origMsgSize]
  · rw [signature, slice_take (by decide), signature]

theorem splitTransform_cases (kpi : MbufKpi) (sessionp : SmbSession) (mb : Chain) :
    (HeaderRejected sessionp (bytes mb) ∧ ∃ error, splitTransform kpi sessionp mb = .error error) ∨
      (¬HeaderRejected sessionp (bytes mb) ∧ ∃ payload,
        splitTransform kpi sessionp mb = .ok ((bytes mb).take smb3AesTfHdrLen, payload) ∧
          bytes payload = (bytes mb).drop smb3AesTfHdrLen) := by
  unfold splitTransform HeaderRejected
  by_cases key : sessionp.smb3DecryptKey.length = 0
  · exact .inl ⟨.inl (List.eq_nil_of_length_eq_zero key), _, if_pos key⟩
  rw [if_neg key]
  cases split : kpi.split mb smb3AesTfHdrLen with
  | none =>
    refine .inl ⟨.inr (.inl (Nat.lt_of_not_le fun enough => ?_)), _, rfl⟩
    exact kpi.split_succeeds mb smb3AesTfHdrLen enough split
  | some parts =>
    obtain ⟨mbHdr, payload⟩ := parts
    obtain ⟨front, back, enough⟩ := kpi.split_bytes _ _ _ _ split
    cases pullup : kpi.pullup mbHdr smb3AesTfHdrLen with
    | none =>
      have whole : smb3AesTfHdrLen ≤ (bytes mbHdr).length := by
        rw [front, List.length_take, Nat.min_eq_left enough]
      exact absurd pullup (kpi.pullup_succeeds mbHdr smb3AesTfHdrLen (by decide) whole)
    | some pulled =>
      obtain ⟨algorithm, session, size, -⟩ := fields_take (bytes mb)
      simp only [pullup, pulled_header kpi split pullup, algorithm, session, size]
      rw [List.take_take, show min 4 smb3AesTfHdrLen = 4 from rfl]
      split_ifs with proto alg sess large
      · exact .inl ⟨.inr (.inr (.inl proto)), _, rfl⟩
      · exact .inl ⟨.inr (.inr (.inr (.inl alg))), _, rfl⟩
      · exact .inl ⟨.inr (.inr (.inr (.inr (.inl sess)))), _, rfl⟩
      · exact .inl ⟨.inr (.inr (.inr (.inr (.inr large)))), _, rfl⟩
      · refine .inr ⟨?_, payload, rfl, back⟩
        rintro (nokey | short | bad | bad | bad | bad)
        · exact key (by rw [nokey]; rfl)
        · omega
        · exact proto bad
        · exact alg bad
        · exact sess bad
        · exact large bad

theorem checkSignature_inPlace (aead : Aead) (ctx : aead.decryptor.Ctx) (sig : Bytes) (mbufPayload : Chain) :
    checkSignature aead sig (decryptInPlace aead ctx mbufPayload) =
      if aead.decryptFinalize (aead.decryptor.update ctx (bytes mbufPayload)).2 = sig then
        .ok (recut mbufPayload (aead.decryptor.update ctx (bytes mbufPayload)).1)
      else .error .eauth := by
  rw [decryptInPlace, Transducer.updateSegments_eq]
  rfl

theorem decryptBuffered_cases (kalloc : Kalloc) (aead : Aead) (ctx : aead.decryptor.Ctx)
    (decryptBuffer : Option Bytes) (mbufPayload : Chain) :
    (decryptBuffered kalloc aead ctx decryptBuffer (bytes mbufPayload).length mbufPayload).1 =
        decryptInPlace aead ctx mbufPayload ∨
      kalloc.alloc (bytes mbufPayload).length = none ∧
        (decryptBuffered kalloc aead ctx decryptBuffer (bytes mbufPayload).length mbufPayload).1 = none := by
  cases found : (decryptBuffer.filter fun buf => (bytes mbufPayload).length ≤ buf.length).or
      (kalloc.alloc (bytes mbufPayload).length) with
  | none => exact .inr ⟨(Option.or_eq_none_iff.mp found).2, by simp [decryptBuffered, found]⟩
  | some buf =>
    left
    have large : (bytes mbufPayload).length ≤ buf.length := by
      obtain kept | ⟨-, fresh⟩ := Option.or_eq_some_iff.mp found
      · simpa using (Option.filter_eq_some_iff.mp kept).2
      · exact Nat.le_of_eq (kalloc.alloc_length _ _ fresh).symm
    have copied : gather buf 0 mbufPayload = (overwrite buf 0 (bytes mbufPayload), true) :=
      gather_fits buf 0 mbufPayload (by rw [Nat.zero_add]; exact large)
    have length := aead.decryptor.update_length ctx (bytes mbufPayload)
    have back : scatter (overwrite (overwrite buf 0 (bytes mbufPayload)) 0
        (aead.decryptor.update ctx (bytes mbufPayload)).1) 0 mbufPayload =
          some (recut mbufPayload (aead.decryptor.update ctx (bytes mbufPayload)).1) := by
      have fits : 0 + (bytes mbufPayload).length ≤ buf.length := by omega
      have same : (overwrite buf 0 (bytes mbufPayload)).length = buf.length := length_overwrite fits
      rw [scatter_eq _ _ _ (by rw [length_overwrite (by omega), same]; exact fits), List.drop_zero]
      congr 1
      exact recut_append mbufPayload _ _ (Nat.le_of_eq length.symm)
    rw [decryptInPlace, Transducer.updateSegments_eq]
    simp only [decryptBuffered, found, copied, take_overwrite_zero, if_true, back, Option.map_some]
    rfl

def opened (cc : CcModes) (sessionp : SmbSession) (message : Bytes) : Bytes × Bytes :=
  let mode := cipherMode sessionp.smb3EncryptCiper
  (cc.aead mode).decrypt sessionp.smb3DecryptKey (slice message smb3AesTfNonceOff mode.nonceLen)
    (slice message smb3AesAuthdataOff smb3AesAuthdataLen) (mode.dataLen (origMsgSize message))
    (message.drop smb3AesTfHdrLen)

def PathsAgree (kpi : MbufKpi) (kalloc : Kalloc) (cc : CcModes) (sessionp : SmbSession) (mb : Chain) : Prop :=
  ∀ msgp payload, splitTransform kpi sessionp mb = .ok (msgp, payload) →
    let mode := cipherMode sessionp.smb3EncryptCiper
    let aead := cc.aead mode
    let ctx := decryptCtx aead mode sessionp.smb3DecryptKey msgp
    checkSignature aead (signature msgp)
        (decryptBuffered kalloc aead ctx sessionp.decryptBuffer (origMsgSize msgp) payload).1 =
      checkSignature aead (signature msgp) (decryptInPlace aead ctx payload)

structure ExactDecryption (kpi : MbufKpi) (kalloc : Kalloc) (cc : CcModes) (sessionp : SmbSession)
    (mb : Chain) : Prop where
  exact : ∀ payload, (smb3MsgDecrypt kpi kalloc cc sessionp mb).1 = .ok payload →
    (bytes payload).length = origMsgSize (bytes mb) ∧
      (bytes payload, signature (bytes mb)) = opened cc sessionp (bytes mb)
  paths : PathsAgree kpi kalloc cc sessionp mb

section
variable (kpi : MbufKpi) (kalloc : Kalloc) (cc : CcModes) (sessionp : SmbSession)

theorem splitTransform_defaultCiper (mb : Chain) :
    splitTransform kpi (defaultCiper sessionp) mb = splitTransform kpi sessionp mb := by
  unfold splitTransform defaultCiper
  split <;> rfl

theorem smb3MsgDecrypt_fst (mb : Chain) : (smb3MsgDecrypt kpi kalloc cc sessionp mb).1 =
      match splitTransform kpi sessionp mb with
      | .error error => .error error
      | .ok (msgp, payload) =>
        let mode := cipherMode sessionp.smb3EncryptCiper
        (decryptPayload kalloc (cc.aead mode) mode sessionp.smb3DecryptKey sessionp.decryptBuffer msgp
          payload).1 := by
  have key : (defaultCiper sessionp).smb3DecryptKey = sessionp.smb3DecryptKey ∧
      (defaultCiper sessionp).decryptBuffer = sessionp.decryptBuffer := by
    unfold defaultCiper
    split <;> exact ⟨rfl, rfl⟩
  simp only [smb3MsgDecrypt, splitTransform_defaultCiper, cipherMode_defaultCiper, key]
  cases splitTransform kpi sessionp mb <;> rfl

theorem decryptCtx_take (aead : Aead) (mode : CipherMode) (key message : Bytes) :
    decryptCtx aead mode key (message.take smb3AesTfHdrLen) = decryptCtx aead mode key message := by
  have nonce : smb3AesTfNonceOff + mode.nonceLen ≤ smb3AesTfHdrLen := by
    cases mode <;> decide
  rw [decryptCtx, slice_take nonce, slice_take (by decide), (fields_take message).2.2.1, decryptCtx]

theorem checkSignature_opened (message : Bytes) (payload : Chain)
    (rest : bytes payload = message.drop smb3AesTfHdrLen) :
    let mode := cipherMode sessionp.smb3EncryptCiper
    let msgp := message.take smb3AesTfHdrLen
    checkSignature (cc.aead mode) (signature msgp)
        (decryptInPlace (cc.aead mode) (decryptCtx (cc.aead mode) mode sessionp.smb3DecryptKey msgp) payload) =
      if (opened cc sessionp message).2 = signature message then
        .ok (recut payload (opened cc sessionp message).1)
      else .error .eauth := by
  simp only [checkSignature_inPlace, decryptCtx_take, (fields_take message).2.2.2, rest]
  rfl

theorem bytes_recut_opened (message : Bytes) (payload : Chain)
    (rest : bytes payload = message.drop smb3AesTfHdrLen) :
    bytes (recut payload (opened cc sessionp message).1) = (opened cc sessionp message).1 := by
  rw [bytes, recut_flatten]
  refine List.take_of_length_le (Nat.le_of_eq ?_)
  rw [opened, Aead.length_decrypt_fst, ← rest, bytes]

variable {kpi kalloc cc sessionp} in
theorem PathsAgree.verdict {mb payload : Chain} (agree : PathsAgree kpi kalloc cc sessionp mb)
    (split : splitTransform kpi sessionp mb = .ok ((bytes mb).take smb3AesTfHdrLen, payload))
    (rest : bytes payload = (bytes mb).drop smb3AesTfHdrLen) :
    (smb3MsgDecrypt kpi kalloc cc sessionp mb).1 =
      if (opened cc sessionp (bytes mb)).2 = signature (bytes mb) then
        .ok (recut payload (opened cc sessionp (bytes mb)).1)
      else .error .eauth := by
  rw [← checkSignature_opened cc sessionp (bytes mb) payload rest]
  simp only [smb3MsgDecrypt_fst, split, decryptPayload]
  split
  · exact agree _ payload split
  · rfl

theorem pathsAgree_of_length (memory : ∀ size ≤ kDefaultMaxIOSize, kalloc.alloc size ≠ none) (mb : Chain)
    (declared : ((bytes mb).drop smb3AesTfHdrLen).length = origMsgSize (bytes mb)) :
    PathsAgree kpi kalloc cc sessionp mb := by
  intro msgp payload ok
  obtain ⟨-, error, refused⟩ | ⟨accepted, payload', split, rest⟩ := splitTransform_cases kpi sessionp mb
  · rw [refused] at ok
    cases ok
  rw [split, Except.ok.injEq, Prod.mk.injEq] at ok
  obtain ⟨rfl, rfl⟩ := ok
  have small : (bytes payload').length ≤ kDefaultMaxIOSize := by
    rw [rest, declared]
    exact Nat.le_of_not_lt fun large => accepted (.inr (.inr (.inr (.inr (.inr large)))))
  have length : origMsgSize ((bytes mb).take smb3AesTfHdrLen) = (bytes payload').length := by
    rw [(fields_take (bytes mb)).2.2.1, rest, declared]
  dsimp only
  rw [length]
  obtain same | ⟨outOfMemory, -⟩ := decryptBuffered_cases kalloc _ (decryptCtx _ _ _ _) sessionp.decryptBuffer payload'
  · rw [same]
  · exact absurd outOfMemory (memory _ small)

theorem smb3MsgDecrypt_opened {mb chain : Chain} (declared : origMsgSize (bytes mb) ≤ 64 * 1024 ∨
      ((bytes mb).drop smb3AesTfHdrLen).length = origMsgSize (bytes mb))
    (ok : (smb3MsgDecrypt kpi kalloc cc sessionp mb).1 = .ok chain) :
    (bytes chain, signature (bytes mb)) = opened cc sessionp (bytes mb) := by
  obtain ⟨-, error, refused⟩ | ⟨-, payload, split, rest⟩ := splitTransform_cases kpi sessionp mb
  · rw [smb3MsgDecrypt_fst, refused] at ok
    cases ok
  have size := (fields_take (bytes mb)).2.2.1
  have verdict := checkSignature_opened cc sessionp (bytes mb) payload rest
  simp only [smb3MsgDecrypt_fst, split, decryptPayload] at ok
  have accepted : checkSignature (cc.aead (cipherMode sessionp.smb3EncryptCiper))
      (signature ((bytes mb).take smb3AesTfHdrLen)) (decryptInPlace _
        (decryptCtx _ (cipherMode sessionp.smb3EncryptCiper) sessionp.smb3DecryptKey
          ((bytes mb).take smb3AesTfHdrLen)) payload) = .ok chain := by
    split at ok
    · rename_i large
      rw [size] at large
      have length : origMsgSize ((bytes mb).take smb3AesTfHdrLen) = (bytes payload).length := by
        rw [size, rest, declared.resolve_left (Nat.not_le_of_lt large)]
      rw [length] at ok
      obtain same | ⟨-, outOfMemory⟩ := decryptBuffered_cases kalloc _ (decryptCtx _ _ _ _)
        sessionp.decryptBuffer payload
      · rwa [same] at ok
      · rw [outOfMemory] at ok
        cases ok
    · exact ok
  dsimp only at verdict
  rw [verdict] at accepted
  split at accepted
  · rename_i tag
    rw [Except.ok.injEq] at accepted
    rw [← accepted, bytes_recut_opened cc sessionp (bytes mb) payload rest, ← tag]
  · cases accepted

theorem exactDecryption_of_length (memory : ∀ size ≤ kDefaultMaxIOSize, kalloc.alloc size ≠ none) (mb : Chain)
    (declared : ((bytes mb).drop smb3AesTfHdrLen).length = origMsgSize (bytes mb)) :
    ExactDecryption kpi kalloc cc sessionp mb := by
  have agree := pathsAgree_of_length kpi kalloc cc sessionp memory mb declared
  refine ⟨fun chain ok => ?_, agree⟩
  obtain ⟨-, error, refused⟩ | ⟨accepted, payload, split, rest⟩ := splitTransform_cases kpi sessionp mb
  · rw [smb3MsgDecrypt_fst, refused] at ok
    cases ok
  rw [agree.verdict split rest] at ok
  split at ok
  · rename_i tag
    rw [Except.ok.injEq] at ok
    rw [← ok, bytes_recut_opened cc sessionp (bytes mb) payload rest, ← tag]
    refine ⟨?_, rfl⟩
    rw [opened, Aead.length_decrypt_fst, declared]
  · cases ok

theorem exactDecryption_of_rejected (mb : Chain) (rejected : HeaderRejected sessionp (bytes mb)) :
    ExactDecryption kpi kalloc cc sessionp mb := by
  obtain ⟨-, error, refused⟩ | ⟨accepted, -⟩ := splitTransform_cases kpi sessionp mb
  · constructor
    · intro payload ok
      rw [smb3MsgDecrypt_fst, refused] at ok
      cases ok
    · intro msgp payload ok
      rw [refused] at ok
      cases ok
  · exact absurd rejected accepted

end

section Resigned
variable {message sig : Bytes} (full : sig.length = smb3AesTfSigLen) (long : smb3AesTfHdrLen ≤ message.length)
include full long

theorem length_resigned : (overwrite message smb3AesTfSigOff sig).length = message.length := by
  refine length_overwrite (Nat.le_trans ?_ long)
  rw [full]
  decide

theorem slice_resigned {off : Nat} (after : smb3AesTfNonceOff ≤ off) (len : Nat) :
    slice (overwrite message smb3AesTfSigOff sig) off len = slice message off len := by
  refine slice_overwrite_after (Nat.le_trans (by decide) long) (Nat.le_trans ?_ after)
  rw [full]
  decide

theorem drop_resigned : (overwrite message smb3AesTfSigOff sig).drop smb3AesTfHdrLen =
    message.drop smb3AesTfHdrLen := by
  refine drop_overwrite (Nat.le_trans (by decide) long) ?_
  rw [full]
  decide

theorem signature_resigned : signature (overwrite message smb3AesTfSigOff sig) = sig := by
  rw [signature, ← full]
  exact slice_overwrite_same (Nat.le_trans (by decide) long)

theorem origMsgSize_resigned : origMsgSize (overwrite message smb3AesTfSigOff sig) = origMsgSize message := by
  rw [origMsgSize, slice_resigned full long (by decide), origMsgSize]

theorem opened_resigned (cc : CcModes) (sessionp : SmbSession) :
    opened cc sessionp (overwrite message smb3AesTfSigOff sig) = opened cc sessionp message := by
  rw [opened, slice_resigned full long (le_refl _), slice_resigned full long (by decide),
    origMsgSize_resigned full long, drop_resigned full long, opened]

theorem headerRejected_resigned (sessionp : SmbSession) :
    HeaderRejected sessionp (overwrite message smb3AesTfSigOff sig) ↔ HeaderRejected sessionp message := by
  have proto : (overwrite message smb3AesTfSigOff sig).take 4 = message.take 4 :=
    take_overwrite (by decide) (Nat.le_trans (by decide) long)
  rw [HeaderRejected, length_resigned full long, proto, encryptAlgorithm, sessId,
    slice_resigned full long (by decide), slice_resigned full long (by decide),
    origMsgSize_resigned full long, HeaderRejected, encryptAlgorithm, sessId]

end Resigned

/-- What the signature field holds does not matter to whether the header is accepted, so a sender
who knows the key can make any payload pass the check. -/
theorem exactDecryption_iff (kpi : MbufKpi) (kalloc : Kalloc) (cc : CcModes) (sessionp : SmbSession)
    (memory : ∀ size ≤ kDefaultMaxIOSize, kalloc.alloc size ≠ none) (message : Bytes) :
    (∀ sig : Bytes, sig.length = smb3AesTfSigLen → ∀ mb : Chain,
        bytes mb = overwrite message smb3AesTfSigOff sig → ExactDecryption kpi kalloc cc sessionp mb) ↔
      HeaderRejected sessionp message ∨ (message.drop smb3AesTfHdrLen).length = origMsgSize message := by
  constructor
  · intro exact
    by_cases rejected : HeaderRejected sessionp message
    · exact .inl rejected
    right
    have long : smb3AesTfHdrLen ≤ message.length :=
      Nat.le_of_not_lt fun short => rejected (.inr (.inl short))
    have full : (opened cc sessionp message).2.length = smb3AesTfSigLen := Aead.length_decrypt_snd _ _ _ _ _ _
    have one := exact _ full [overwrite message smb3AesTfSigOff (opened cc sessionp message).2] (by simp)
    obtain ⟨refused, -⟩ | ⟨-, payload, split, rest⟩ := splitTransform_cases kpi sessionp
      [overwrite message smb3AesTfSigOff (opened cc sessionp message).2]
    · simp only [bytes_cons, bytes_nil, List.append_nil, headerRejected_resigned full long] at refused
      exact absurd refused rejected
    have accepted := one.paths.verdict split rest
    have length := (one.exact _ (accepted.trans (if_pos ?_))).1
    · rw [bytes_recut_opened cc sessionp _ payload rest] at length
      simp only [bytes_cons, bytes_nil, List.append_nil, opened_resigned full long,
        origMsgSize_resigned full long] at length
      rwa [opened, Aead.length_decrypt_fst] at length
    · simp only [bytes_cons, bytes_nil, List.append_nil, opened_resigned full long,
        signature_resigned full long]
  · intro cond sig full mb content
    by_cases long : smb3AesTfHdrLen ≤ message.length
    · obtain rejected | declared := cond
      · apply exactDecryption_of_rejected
        rwa [content, headerRejected_resigned full long]
      · apply exactDecryption_of_length kpi kalloc cc sessionp memory
        rwa [content, drop_resigned full long, origMsgSize_resigned full long]
    · -- overwriting the signature of a message this short cannot make it long enough
      apply exactDecryption_of_rejected
      right
      left
      rw [content, overwrite, full]
      simp only [List.length_append, List.length_take, List.length_drop, smb3AesTfSigOff, smb3AesTfSigLen,
        smb3AesTfHdrLen, full] at long ⊢
      omega

def unsignedMessage (msglen : Nat) (payload : Bytes) : Bytes :=
  smb3AesTfProtoStr ++ (List.replicate 16 0 ++ (authData gcmSession msglen gcmSession.sessionId ++ payload))

theorem exactDecryption_two_bytes :
    ¬HeaderRejected gcmSession (unsignedMessage 2 [10, 20]) ∧
      ∀ sig : Bytes, sig.length = smb3AesTfSigLen → ∀ mb : Chain,
        bytes mb = overwrite (unsignedMessage 2 [10, 20]) smb3AesTfSigOff sig →
          ExactDecryption .copying .zeroed shiftedModes gcmSession mb :=
  ⟨by decide, (exactDecryption_iff .copying .zeroed shiftedModes gcmSession (fun _ _ => by simp [Kalloc.zeroed])
    (unsignedMessage 2 [10, 20])).mpr (.inr (by decide))⟩

theorem smb3MsgDecrypt_inexact :
    let message := unsignedMessage 1 [10, 20]
    let signed := overwrite message smb3AesTfSigOff (opened shiftedModes gcmSession message).2
    (smb3MsgDecrypt .copying .zeroed shiftedModes gcmSession [signed]).1 = .ok [[5, 15]] ∧
      origMsgSize signed = 1 := by
  decide +kernel

end SmbClient.Crypt
