import SmbClient.Lib.Buffer
import SmbClient.Lib.Mac

namespace SmbClient.Lib

/-- A streaming translation: each call translates its input in place, and cutting the input
into several calls does not change the output. -/
structure Transducer (α : Type) where
  Ctx : Type
  update : Ctx → List α → List α × Ctx
  update_nil : ∀ ctx, update ctx [] = ([], ctx)
  update_append : ∀ ctx a b, update ctx (a ++ b) =
    ((update ctx a).1 ++ (update (update ctx a).2 b).1, (update (update ctx a).2 b).2)
  update_length : ∀ ctx a, (update ctx a).1.length = a.length

namespace Transducer
variable {α : Type} (t : Transducer α)

/-- One call for each non-empty segment, the result written over the segment. -/
def updateSegments (ctx : t.Ctx) : List (List α) → List (List α) × t.Ctx
  | [] => ([], ctx)
  | seg :: rest =>
    if seg.length = 0 then
      let r := updateSegments ctx rest
      (seg :: r.1, r.2)
    else
      let u := t.update ctx seg
      let r := updateSegments u.2 rest
      (u.1 :: r.1, r.2)

theorem updateSegments_eq (ctx : t.Ctx) (segs : List (List α)) :
    t.updateSegments ctx segs =
      (recut segs (t.update ctx segs.flatten).1, (t.update ctx segs.flatten).2) := by
  induction segs generalizing ctx with
  | nil => simp [updateSegments, recut, t.update_nil]
  | cons seg rest ih =>
    by_cases empty : seg.length = 0
    · obtain rfl := List.eq_nil_of_length_eq_zero empty
      simp [updateSegments, recut, ih ctx]
    · have front : ((t.update ctx seg).1 ++ (t.update (t.update ctx seg).2 rest.flatten).1).take
          seg.length = (t.update ctx seg).1 := by
        rw [← t.update_length ctx seg, List.take_left]
      have back : ((t.update ctx seg).1 ++ (t.update (t.update ctx seg).2 rest.flatten).1).drop
          seg.length = (t.update (t.update ctx seg).2 rest.flatten).1 := by
        rw [← t.update_length ctx seg, List.drop_left]
      simp only [updateSegments, if_neg empty, recut, ih, List.flatten_cons, t.update_append, front,
        back]

theorem updateSegments_flatten (ctx : t.Ctx) (segs : List (List α)) :
    (t.updateSegments ctx segs).1.flatten = (t.update ctx segs.flatten).1 := by
  rw [updateSegments_eq, recut_flatten, ← t.update_length ctx segs.flatten, List.take_length]

theorem updateSegments_ctx (ctx : t.Ctx) (segs : List (List α)) :
    (t.updateSegments ctx segs).2 = (t.update ctx segs.flatten).2 := by
  rw [updateSegments_eq]

end Transducer

/-- A streaming authenticated cipher with a context for each direction. `dataLen` is the length
of the data for a mode that has to be told it before the first byte. -/
structure Aead where
  encryptor : Transducer UInt8
  decryptor : Transducer UInt8
  encryptInit : (key nonce authData : Bytes) → (dataLen : Option Nat) → encryptor.Ctx
  decryptInit : (key nonce authData : Bytes) → (dataLen : Option Nat) → decryptor.Ctx
  encryptFinalize : encryptor.Ctx → Bytes
  decryptFinalize : decryptor.Ctx → Bytes
  encryptFinalize_length : ∀ ctx, (encryptFinalize ctx).length = 16
  decryptFinalize_length : ∀ ctx, (decryptFinalize ctx).length = 16
  decrypt_encrypt : ∀ key nonce authData dataLen plain, (∀ n ∈ dataLen, n = plain.length) →
    let sealed := encryptor.update (encryptInit key nonce authData dataLen) plain
    let opened := decryptor.update (decryptInit key nonce authData dataLen) sealed.1
    opened.1 = plain ∧ decryptFinalize opened.2 = encryptFinalize sealed.2

namespace Aead
variable (aead : Aead)

def encrypt (key nonce authData : Bytes) (dataLen : Option Nat) (plain : Bytes) : Bytes × Bytes :=
  let sealed := aead.encryptor.update (aead.encryptInit key nonce authData dataLen) plain
  (sealed.1, aead.encryptFinalize sealed.2)

def decrypt (key nonce authData : Bytes) (dataLen : Option Nat) (data : Bytes) : Bytes × Bytes :=
  let opened := aead.decryptor.update (aead.decryptInit key nonce authData dataLen) data
  (opened.1, aead.decryptFinalize opened.2)

section
variable (key nonce authData plain : Bytes) (dataLen : Option Nat)

theorem decrypt_of_encrypt (declared : ∀ n ∈ dataLen, n = plain.length) :
    aead.decrypt key nonce authData dataLen (aead.encrypt key nonce authData dataLen plain).1 =
      (plain, (aead.encrypt key nonce authData dataLen plain).2) := by
  obtain ⟨same, tag⟩ := aead.decrypt_encrypt key nonce authData dataLen plain declared
  exact Prod.ext same tag

theorem length_encrypt_fst : (aead.encrypt key nonce authData dataLen plain).1.length = plain.length :=
  aead.encryptor.update_length _ _

theorem length_encrypt_snd : (aead.encrypt key nonce authData dataLen plain).2.length = 16 :=
  aead.encryptFinalize_length _

end

theorem length_decrypt_fst (key nonce authData data : Bytes) (dataLen : Option Nat) :
    (aead.decrypt key nonce authData dataLen data).1.length = data.length :=
  aead.decryptor.update_length _ _

theorem length_decrypt_snd (key nonce authData data : Bytes) (dataLen : Option Nat) :
    (aead.decrypt key nonce authData dataLen data).2.length = 16 :=
  aead.decryptFinalize_length _

end Aead

/-- Passes each byte on as `shift` of the key and the byte, and records what `record` makes of it. -/
def Transducer.shifting (shift record : Bytes → UInt8 → UInt8) : Transducer UInt8 where
  Ctx := Bytes × Bytes
  update ctx data := (data.map (shift ctx.1), ctx.1, ctx.2 ++ data.map (record ctx.1))
  update_nil ctx := by simp
  update_append ctx a b := by simp
  update_length ctx a := by simp

/-- A shift of every byte by the first key byte, with `checksum` over all there is as its tag: not
hard to break, but it meets the laws of `Aead` and can be evaluated. -/
def Aead.shifted : Aead where
  encryptor := .shifting (fun key byte => byte + key.headD 0) fun _ byte => byte
  decryptor := .shifting (fun key byte => byte - key.headD 0) fun key byte => byte - key.headD 0
  encryptInit key nonce authData dataLen := (key, key ++ nonce ++ authData ++ toLe 4 (dataLen.getD 0))
  decryptInit key nonce authData dataLen := (key, key ++ nonce ++ authData ++ toLe 4 (dataLen.getD 0))
  encryptFinalize ctx := checksum ctx.2
  decryptFinalize ctx := checksum ctx.2
  encryptFinalize_length ctx := length_checksum _
  decryptFinalize_length ctx := length_checksum _
  decrypt_encrypt := by
    intro key nonce authData dataLen plain _
    simp [Transducer.shifting, Function.comp_def]

end SmbClient.Lib
