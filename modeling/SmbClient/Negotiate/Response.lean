import SmbClient.Mbuf.Reader
import SmbClient.Negotiate.Session

/-! `smb2_smb_parse_negotiate` and `smb2_smb_parse_negotiate_contexts`. -/

namespace SmbClient.Negotiate
open SmbClient.Lib SmbClient.Lib.Fallible SmbClient.Mbuf SmbClient.Mbuf.Reader

structure Neg where
  sessionp : NegSession
  iod : NegIod
  deriving DecidableEq, Repr

abbrev NegReader := Reader Neg

def validateOrSave {ν : Type} [DecidableEq ν] (saved : Sopt → ν) (save : ν → NegSession → NegSession) (value : ν) :
    NegReader Unit := do
  let neg ← state
  if neg.iod.alternateChannel then require (value = saved neg.sessionp.sopt) .einval
  else update fun neg => { neg with sessionp := save value neg.sessionp }

def saveSecurityMode (mode : Nat) (sessionp : NegSession) : NegSession :=
  let enabled := mode &&& smb2NegotiateSigningEnabled ≠ 0
  let required := mode &&& smb2NegotiateSigningRequired ≠ 0
  { sessionp with
    sopt.svSecurityMode := mode
    flags.signing := sessionp.flags.signing || enabled
    flags.signingRequired := sessionp.flags.signingRequired || required
    flags.userSecurity := true
    flags.encryptPassword := true
    securitySignature := sessionp.securitySignature || required || sessionp.misc.clientSigningRequired }

def SessionFlags.withDialect (flags : SessionFlags) (dialect : Nat) : Option SessionFlags :=
  if dialect = smb2Dialect0311 then some { flags with smb2 := true, smb311 := true }
  else if dialect = smb2Dialect0302 then some { flags with smb2 := true, smb302 := true }
  else if dialect = smb2Dialect0300 then some { flags with smb2 := true, smb30 := true }
  else if dialect = smb2Dialect0210 then some { flags with smb2 := true, smb21 := true }
  else if dialect = smb2Dialect02ff then some { flags with smb2 := true }
  else if dialect = smb2Dialect0202 then some { flags with smb2 := true, smb2002 := true }
  else none

def saveDialect (dialect : Nat) : NegReader Unit := do
  update fun neg => { neg with sessionp.sopt.svDialect := dialect }
  let neg ← state
  match neg.sessionp.flags.withDialect dialect with
  | none => fail .enotsup
  | some flags => update fun neg => { neg with sessionp.flags := flags }

def parseDialect (dialect : Nat) : NegReader Unit := do
  let neg ← state
  if neg.iod.alternateChannel then require (dialect = neg.sessionp.sopt.svDialect) .einval
  else saveDialect dialect

def saveGuid (guid : Bytes) (sessionp : NegSession) : NegSession := { sessionp with sopt.svGuid := guid }

def saveCapabilities (capabilities : Nat) (sessionp : NegSession) : NegSession :=
  -- directory leases are given up without leases
  let active := if capabilities &&& smb2GlobalCapLeasing = 0
    then capabilities - (capabilities &&& smb2GlobalCapDirectoryLeasing) else capabilities
  { sessionp with
    sopt.svSavedCapabilities := capabilities
    sopt.svActiveCapabilities := active
    flags.multichannelOn := sessionp.flags.smb3OrLater && active &&& smb2GlobalCapMultiChannel ≠ 0 &&
      sessionp.negCapabilities &&& smb2GlobalCapMultiChannel ≠ 0 }

def saveMaxtransact (size : Nat) (sessionp : NegSession) : NegSession := { sessionp with sopt.svMaxtransact := size }
def saveMaxread (size : Nat) (sessionp : NegSession) : NegSession := { sessionp with sopt.svMaxread := size }
def saveMaxwrite (size : Nat) (sessionp : NegSession) : NegSession := { sessionp with sopt.svMaxwrite := size }

/-! ## The contexts -/

inductive ContextType
  | preauthIntegrity | encryption | compression | signing | ignored
  deriving DecidableEq, Repr

def ContextType.ofCode (code : Nat) : ContextType :=
  if code = 0x0001 then preauthIntegrity
  else if code = 0x0002 then encryption
  else if code = 0x0003 then compression
  else if code = 0x0008 then signing
  else ignored

def smb2SigningAesCmac : Nat := 0x0001
def smb2SigningAesGmac : Nat := 0x0002
def smb2CompressionCapabilitiesFlagNone : Nat := 0

def compressionAlgorithmBit (algorithm : Nat) : Nat :=
  if algorithm = 3 then 4
  else if algorithm = 2 then 2
  else if algorithm = 1 then 1
  else if algorithm = 4 then 8
  else 0

inductive Setting
  | cipher (algorithm : Nat)
  | compressionFlags (flags : Nat)
  | compressionAlgorithm (algorithm : Nat)
  | signingAlgorithm (algorithm : Nat)
  deriving DecidableEq, Repr

def Setting.save (alternateChannel : Bool) (security : SecurityParams) : Setting → SecurityParams
  | cipher algorithm => if alternateChannel then security else { security with encryptCiper := algorithm }
  | compressionFlags flags =>
    if !security.compressionChainingOff && flags == smb2CompressionCapabilitiesFlagNone then
      { security with compressionChainingOff := true }
    else security
  | compressionAlgorithm algorithm =>
    { security with
      compressionAlgorithmsMap := security.compressionAlgorithmsMap ||| compressionAlgorithmBit algorithm }
  | signingAlgorithm algorithm => { security with signingAlgorithm := algorithm }

def store (setting : Setting) : NegReader Unit := update fun neg =>
  { neg with sessionp.security := setting.save neg.iod.alternateChannel neg.sessionp.security }

def parseHashAlgorithms : Nat → NegReader Unit
  | 0 => pure ()
  | count + 1 => do
      let _hashAlgorithm ← getUint 2
      parseHashAlgorithms count

def parsePreauthIntegrity : NegReader Unit := do
  let hashAlgorithmCnt ← getUint 2
  let saltLen ← getUint 2
  parseHashAlgorithms hashAlgorithmCnt
  skip saltLen

def parseCipher : NegReader Unit := do
  let cipherCnt ← getUint 2
  require (cipherCnt = 1) .ebadrpc
  let cipherAlgorithm ← getUint 2
  let neg ← state
  require (neg.iod.alternateChannel = true → cipherAlgorithm = neg.sessionp.security.encryptCiper) .einval
  store (.cipher cipherAlgorithm)

def parseCompressionAlgorithms : Nat → NegReader Unit
  | 0 => pure ()
  | count + 1 => do
      let compressionAlgorithm ← getUint 2
      store (.compressionAlgorithm compressionAlgorithm)
      parseCompressionAlgorithms count

def parseCompression : NegReader Unit := do
  let compressionAlgorithmCnt ← getUint 2
  let _padding ← getUint 2
  let compressionFlags ← getUint 4
  store (.compressionFlags compressionFlags)
  parseCompressionAlgorithms compressionAlgorithmCnt

def parseSigning : NegReader Unit := do
  let signingCnt ← getUint 2
  require (signingCnt = 1) .ebadrpc
  let signingAlgorithm ← getUint 2
  require (signingAlgorithm = smb2SigningAesCmac ∨ signingAlgorithm = smb2SigningAesGmac) .einval
  store (.signingAlgorithm signingAlgorithm)

def parseContextData : ContextType → NegReader Unit
  | .preauthIntegrity => parsePreauthIntegrity
  | .encryption => parseCipher
  | .compression => parseCompression
  | .signing => parseSigning
  | .ignored => pure ()

def parseContext : NegReader Nat := do
  let contextType ← getUint 2
  let contextDataLen ← getUint 2
  let _reserved ← getUint 4
  parseContextData (.ofCode contextType)
  pure contextDataLen

def contextStride (contextDataLen : Nat) : Nat :=
  let len := (contextDataLen + 8) % 2 ^ 16
  if len % 8 ≠ 0 then (len + (8 - len % 8)) % 2 ^ 16 else len

def parseContextLoop : Nat → NegReader Unit
  | 0 => do
      let _ ← shadow parseContext
  | count + 1 => do
      let contextDataLen ← shadow parseContext
      skip (contextStride contextDataLen)
      parseContextLoop count

structure Contexts where
  negBytesParsed : Nat
  negContextOffset : Nat
  negContextCount : Nat
  deriving DecidableEq, Repr

def Contexts.gap (contexts : Contexts) : Nat :=
  if contexts.negContextOffset = 0 then 0
  else (contexts.negContextOffset + 2 * 2 ^ 32 - 64 - contexts.negBytesParsed) % 2 ^ 32

def Contexts.more (contexts : Contexts) : Nat :=
  if contexts.negContextCount = 0 then 2 ^ 16 - 1 else contexts.negContextCount - 1

def smb2SmbParseNegotiateContexts (contexts : Contexts) : NegReader Unit := do
  skip contexts.gap
  parseContextLoop contexts.more

/-! ## The response -/

def parseHead : NegReader Nat := do
  let structSize ← getUint 2
  require (structSize = 65) .ebadrpc
  let securityMode ← getUint 2
  validateOrSave (·.svSecurityMode) saveSecurityMode securityMode
  let dialect ← getUint 2
  parseDialect dialect
  pure dialect

def parseToken (kalloc : Kalloc) (secBufLen : Nat) : NegReader (Nat × Option Errno) :=
  if secBufLen = 0 then pure (0, none)
  else if (kalloc.alloc secBufLen).isNone then pure (0, some .enomem)
  else do
    let token ← getMem secBufLen
    update fun neg => { neg with iod.negotiateToken := some token }
    pure (secBufLen, none)

def secBufGap (secBufOffset : Nat) : Nat :=
  if secBufOffset = 0 then 0 else (secBufOffset + 2 ^ 16 - 128) % 2 ^ 16

def parseSettings : NegReader Nat := do
  let negContextCount ← getUint 2
  let guid ← getMem 16
  validateOrSave (·.svGuid) saveGuid guid
  let capabilities ← getUint 4
  validateOrSave (·.svSavedCapabilities) saveCapabilities capabilities
  let maxtransact ← getUint 4
  validateOrSave (·.svMaxtransact) saveMaxtransact maxtransact
  let maxread ← getUint 4
  validateOrSave (·.svMaxread) saveMaxread maxread
  let maxwrite ← getUint 4
  validateOrSave (·.svMaxwrite) saveMaxwrite maxwrite
  skip 8
  skip 8
  pure negContextCount

def parseTail (kalloc : Kalloc) : NegReader (Contexts × Option Errno) := do
  let negContextCount ← parseSettings
  let secBufOffset ← getUint 2
  let secBufLen ← getUint 2
  let negContextOffset ← getUint 4
  skip (secBufGap secBufOffset)
  let (tokenLen, error) ← parseToken kalloc secBufLen
  pure ({ negBytesParsed := 64 + secBufGap secBufOffset + tokenLen, negContextOffset, negContextCount }, error)

def parseTailAndContexts (kalloc : Kalloc) : NegReader Unit := do
  let (contexts, error) ← parseTail kalloc
  let neg ← state
  if neg.sessionp.flags.smb311 then smb2SmbParseNegotiateContexts contexts
  else
    match error with
    | none => pure ()
    | some e => fail e

def smb2SmbParseNegotiate (kalloc : Kalloc) (smb1Req : Bool) : NegReader Unit := do
  let dialect ← parseHead
  let neg ← state
  if !neg.iod.alternateChannel && dialect != smb2Dialect0202 && dialect != smb2Dialect0210 && smb1Req then pure ()
  else parseTailAndContexts kalloc

end SmbClient.Negotiate
