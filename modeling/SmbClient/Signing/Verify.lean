import SmbClient.Lib.Mac
import SmbClient.Lib.Segments
import SmbClient.Mbuf.MdChain
import SmbClient.Session.State

/-!
The two verifiers of reply signatures. Both work on what is left of a chain from its cursor on.
-/

namespace SmbClient.Signing
open SmbClient.Lib SmbClient.Mbuf SmbClient.Session

def smb2SigOff : Nat := 48
def smb2SigLen : Nat := 16
def smb2HdrLen : Nat := 64
def smb3KeyLen : Nat := 16

def smb2Cancel : UInt16 := 0x000c
def smb2SigningAesCmac : UInt16 := 1
def smb2SigningAesGmac : UInt16 := 2

def replyLen (mb : Chain) (nextCmdOffset : Nat) : Nat :=
  if nextCmdOffset = 0 then mbufGetChainLen mb else nextCmdOffset

structure Hmac where
  digest : Digest UInt8
  init : Bytes → digest.Ctx
  final : digest.Ctx → Bytes

def smb2VerifyFeed (di : Digest UInt8) (hc : di.Ctx) (mb : Chain) (nextCmdOffset : Nat) :
    Except Errno di.Ctx :=
  let remaining := replyLen mb nextCmdOffset
  if remaining < smb2HdrLen then .error .ebadrpc
  else
    match di.feed hc mb smb2SigOff with
    | none => .error .ebadrpc
    | some (hc, mb) =>
      let hc := di.update hc (List.replicate smb2SigLen 0)
      match Digest.unit.feed () mb smb2SigLen with
      | none => .error .ebadrpc
      | some (_, mb) =>
        match di.feed hc mb (remaining - smb2SigOff - smb2SigLen) with
        | none => .error .ebadrpc
        | some (hc, _) => .ok hc

def smb2Verify (hmac : Hmac) (sessionp : SmbSession) (mdp : MdChain) (nextCmdOffset : Nat) (signature : Bytes) :
    Except Errno Bool :=
  (smb2VerifyFeed hmac.digest (hmac.init (sessionp.mackey.getD [])) mdp.unread nextCmdOffset).map fun hc =>
    signature = (hmac.final hc).take smb2SigLen

structure VerifyRq where
  messageid : UInt64
  command : UInt16
  deriving DecidableEq, Repr

structure SigningModes where
  cmac : Mac
  gmac : Mac

def smb3InitGmacIv (messageid : UInt64) (command : UInt16) (isResponse : Bool) : Bytes :=
  toLe 8 messageid.toNat ++
    toLe 4 ((if isResponse then 1 else 0) + (if command = smb2Cancel then 2 else 0))

def signingMac (modes : SigningModes) (algorithm : UInt16) (rqp : VerifyRq) (isResponse : Bool) :
    Option (Mac × Bytes) :=
  if algorithm = smb2SigningAesCmac then some (modes.cmac, [])
  else if algorithm = smb2SigningAesGmac then
    some (modes.gmac, smb3InitGmacIv rqp.messageid rqp.command isResponse)
  else none

def smb3GetSignatureBlocks (modes : SigningModes) (stack : Bytes) (algorithm : UInt16) (rqp : VerifyRq)
    (isResponse : Bool) (key : Bytes) (mb : Chain) (packetLen : Nat) : Option Bytes :=
  (signingMac modes algorithm rqp isResponse).bind fun (mac, iv) =>
    (mac.init (key.take smb3KeyLen) iv).bind fun ctx =>
      (mac.absorber.feedUpTo ctx mb packetLen).map fun ctx => (mac.final ctx).getD stack

def smb3GetSignature (modes : SigningModes) (stack : Bytes) (algorithm : UInt16) (rqp : VerifyRq)
    (isResponse : Bool) (key : Bytes) (mb : Chain) (packetLen : Nat) (outSignature : Bytes) : Bytes :=
  if key.length < smb3KeyLen then outSignature
  else
    let zeros := List.replicate smb2SigLen 0
    if packetLen = 0 then zeros
    else
      match smb3GetSignatureBlocks modes stack algorithm rqp isResponse key mb packetLen with
      | none => zeros
      | some mac => mac.take smb2SigLen

def zeroSignature (mb : Chain) : Except Errno Chain :=
  match fillAt 0 mb smb2SigOff smb2SigLen with
  | none => .error .ebadrpc
  | some mb => .ok mb

def verifyKey (sessionp : SmbSession) (iod : Option SmbIod) : Bytes :=
  match iod with
  | some iod => if iod.useChannelKeys then iod.smb3SigningKey else sessionp.smb3SigningKey
  | none => sessionp.smb3SigningKey

def smb3Verify (modes : SigningModes) (stack : Bytes) (sessionp : SmbSession) (iod : Option SmbIod)
    (rqp : VerifyRq) (mdp : MdChain) (nextCmdOffset : Nat) (signature : Bytes) :
    Except Errno (Bool × Chain) :=
  if sessionp.smb3SigningKey.length < smb3KeyLen then .error .eauth
  else
    (zeroSignature mdp.unread).map fun mb =>
      let replySignature := smb3GetSignature modes stack sessionp.smb3SigningAlgorithm rqp true
        (verifyKey sessionp iod) mb (replyLen mb nextCmdOffset) (List.replicate smb2SigLen 0)
      (signature = replySignature, mb)

def signedBytes (rest : Bytes) (nextCmdOffset : Nat) : Bytes :=
  (overwrite rest smb2SigOff (List.replicate smb2SigLen 0)).take
    (if nextCmdOffset = 0 then rest.length else nextCmdOffset)

theorem fillAt_signature (mb : Chain) : (fillAt 0 mb smb2SigOff smb2SigLen).map bytes =
    if smb2HdrLen ≤ (bytes mb).length then
      some (overwrite (bytes mb) smb2SigOff (List.replicate smb2SigLen 0))
    else none :=
  fillAt_flatten 0 mb smb2SigOff smb2SigLen (by decide)

variable {mb zeroed : Chain}

theorem zeroSignature_ok (enough : smb2HdrLen ≤ (bytes mb).length) :
    ∃ zeroed, zeroSignature mb = .ok zeroed ∧
      bytes zeroed = overwrite (bytes mb) smb2SigOff (List.replicate smb2SigLen 0) := by
  have filled := fillAt_signature mb
  rw [if_pos enough, Option.map_eq_some_iff] at filled
  obtain ⟨zeroed, found, content⟩ := filled
  exact ⟨zeroed, by simp [zeroSignature, found], content⟩

theorem zeroSignature_short (short : (bytes mb).length < smb2HdrLen) :
    zeroSignature mb = .error .ebadrpc := by
  have filled := fillAt_signature mb
  rw [if_neg (Nat.not_le_of_lt short), Option.map_eq_none_iff] at filled
  simp [zeroSignature, filled]

theorem replyLen_zeroed (enough : smb2HdrLen ≤ (bytes mb).length)
    (content : bytes zeroed = overwrite (bytes mb) smb2SigOff (List.replicate smb2SigLen 0)) (nextCmdOffset : Nat) :
    replyLen zeroed nextCmdOffset = if nextCmdOffset = 0 then (bytes mb).length else nextCmdOffset := by
  rw [replyLen, mbufGetChainLen_eq, content, length_overwrite]
  rwa [List.length_replicate]

theorem replyLen_pos (enough : smb2HdrLen ≤ (bytes mb).length)
    (content : bytes zeroed = overwrite (bytes mb) smb2SigOff (List.replicate smb2SigLen 0))
    (nextCmdOffset : Nat) : 0 < replyLen zeroed nextCmdOffset := by
  rw [replyLen_zeroed enough content]
  unfold smb2HdrLen at enough
  split <;> omega

theorem feedUpTo_signedBytes (d : Absorber UInt8) (ctx : d.Ctx) (enough : smb2HdrLen ≤ (bytes mb).length)
    (content : bytes zeroed = overwrite (bytes mb) smb2SigOff (List.replicate smb2SigLen 0)) (nextCmdOffset : Nat) :
    d.feedUpTo ctx zeroed (replyLen zeroed nextCmdOffset) =
      d.absorb ctx (signedBytes (bytes mb) nextCmdOffset) := by
  have positive := replyLen_pos enough content nextCmdOffset
  cases zeroed with
  | nil =>
    have length := congrArg List.length content
    rw [length_overwrite (by rwa [List.length_replicate])] at length
    simp only [bytes_nil, List.length_nil] at length
    unfold smb2HdrLen at enough
    omega
  | cons first rest =>
    rw [d.feedUpTo_eq ctx first rest _ positive, signedBytes, ← content, replyLen_zeroed enough content]
    rfl

end SmbClient.Signing
