import SmbClient.Mbuf.Chain

/-! The part of `struct smb_session` that the Negotiate exchange reads and sets, and what the client
puts into its request. -/

namespace SmbClient.Negotiate
open SmbClient.Lib SmbClient.Mbuf

def smb2Dialect0202 : Nat := 0x0202
def smb2Dialect02ff : Nat := 0x02ff
def smb2Dialect0210 : Nat := 0x0210
def smb2Dialect0300 : Nat := 0x0300
def smb2Dialect0302 : Nat := 0x0302
def smb2Dialect0311 : Nat := 0x0311

def smb2NegotiateSigningEnabled : Nat := 0x0001
def smb2NegotiateSigningRequired : Nat := 0x0002

def smb2GlobalCapDfs : Nat := 0x01
def smb2GlobalCapLeasing : Nat := 0x02
def smb2GlobalCapLargeMtu : Nat := 0x04
def smb2GlobalCapMultiChannel : Nat := 0x08
def smb2GlobalCapPersistentHandles : Nat := 0x10
def smb2GlobalCapDirectoryLeasing : Nat := 0x20
def smb2GlobalCapEncryption : Nat := 0x40

structure SessionFlags where
  smb2 : Bool := false
  smb2002 : Bool := false
  smb21 : Bool := false
  smb30 : Bool := false
  smb302 : Bool := false
  smb311 : Bool := false
  signing : Bool := false
  signingRequired : Bool := false
  userSecurity : Bool := false
  encryptPassword : Bool := false
  guestAccess : Bool := false
  anonymousAccess : Bool := false
  multichannelOn : Bool := false
  disable311 : Bool := false
  deriving DecidableEq, Repr

def SessionFlags.smb3OrLater (flags : SessionFlags) : Bool := flags.smb30 || flags.smb302 || flags.smb311

structure MiscFlags where
  negSmb2Enabled : Bool := false
  negSmb3Enabled : Bool := false
  clientSigningRequired : Bool := false
  smb2SigningRequired : Bool := false
  smb3SigningRequired : Bool := false
  deriving DecidableEq, Repr

structure Sopt where
  svSecurityMode : Nat := 0
  svDialect : Nat := 0
  svGuid : Bytes := List.replicate 16 0
  svSavedCapabilities : Nat := 0
  svActiveCapabilities : Nat := 0
  svMaxtransact : Nat := 0
  svMaxread : Nat := 0
  svMaxwrite : Nat := 0
  deriving DecidableEq, Repr

structure SecurityParams where
  encryptCiper : Nat := 0
  signingAlgorithm : Nat := 1
  compressionAlgorithmsMap : Nat := 0
  compressionChainingOff : Bool := false
  deriving DecidableEq, Repr

structure Quantum where
  min : Nat := 0
  med : Nat := 0
  max : Nat := 0
  current : Nat := 0
  deriving DecidableEq, Repr

structure IoLimits where
  rxmax : Nat := 0
  wxmax : Nat := 0
  txmax : Nat := 0
  read : Quantum := {}
  write : Quantum := {}
  deriving DecidableEq, Repr

structure NegSession where
  flags : SessionFlags := {}
  misc : MiscFlags := {}
  securitySignature : Bool := false
  sopt : Sopt := {}
  security : SecurityParams := {}
  clientGuid : Bytes := List.replicate 16 0
  maxDialect : Nat := 0
  negDialects : List Nat := []
  negSecurityMode : Nat := 0
  negCapabilities : Nat := 0
  limits : IoLimits := {}
  deriving DecidableEq, Repr

structure NegIod where
  alternateChannel : Bool := false
  negotiateToken : Option Bytes := none
  deriving DecidableEq, Repr

def smb2SmbGetClientCapabilities (sessionp : NegSession) : Nat :=
  if sessionp.misc.negSmb3Enabled then
    smb2GlobalCapDfs ||| smb2GlobalCapLeasing ||| smb2GlobalCapLargeMtu ||| smb2GlobalCapPersistentHandles |||
      smb2GlobalCapDirectoryLeasing ||| smb2GlobalCapEncryption |||
      (if sessionp.flags.multichannelOn then smb2GlobalCapMultiChannel else 0)
  else 0

def smb2SmbGetClientSecurityMode (sessionp : NegSession) : Nat :=
  if sessionp.misc.clientSigningRequired then smb2NegotiateSigningRequired else smb2NegotiateSigningEnabled

def allDialects : List Nat :=
  [smb2Dialect0202, smb2Dialect0210, smb2Dialect0300, smb2Dialect0302, smb2Dialect0311]

def dialectsUpTo (maxDialect : Nat) : Nat :=
  if maxDialect = smb2Dialect0202 then 1
  else if maxDialect = smb2Dialect0210 then 2
  else if maxDialect = smb2Dialect0300 then 3
  else if maxDialect = smb2Dialect0302 then 4
  else 5

def SessionFlags.dialect (flags : SessionFlags) : Except Errno Nat :=
  if flags.smb311 then .ok smb2Dialect0311
  else if flags.smb302 then .ok smb2Dialect0302
  else if flags.smb30 then .ok smb2Dialect0300
  else if flags.smb21 then .ok smb2Dialect0210
  else if flags.smb2002 then .ok smb2Dialect0202
  else .error .einval

def smb2SmbGetClientDialects (sessionp : NegSession) (inReconnect : Bool) (stale : List Nat) :
    Except Errno (List Nat) × NegSession :=
  if !inReconnect then
    if sessionp.misc.negSmb3Enabled && sessionp.misc.negSmb2Enabled then
      (.ok (allDialects.take (if sessionp.flags.disable311 then 4 else 5)), sessionp)
    else if sessionp.misc.negSmb3Enabled then
      (.ok [smb2Dialect0300, smb2Dialect0302, smb2Dialect0311], sessionp)
    else if sessionp.misc.negSmb2Enabled then (.ok [smb2Dialect0202, smb2Dialect0210], sessionp)
    else (.ok stale, sessionp)
  else if sessionp.maxDialect ≠ 0 then
    (.ok (allDialects.take (dialectsUpTo sessionp.maxDialect)), { sessionp with maxDialect := 0 })
  else (sessionp.flags.dialect.map fun dialect => [dialect], sessionp)

/-! The largest transfers of a session: `smb2_session_maxread` and its siblings. -/

structure Nbpcb where
  sndbuf : Nat
  rcvbuf : Nat
  deriving DecidableEq, Repr

structure Tunables where
  pageSize : Nat
  maxread : Nat
  maxwrite : Nat
  tdata : Option Nbpcb
  deriving DecidableEq, Repr

def sessionMaxIo (pageSize srvrMax : Nat) (sockbuf : Option Nat) (maxIo : Nat) : Nat :=
  let maxmsgsize := min srvrMax (sockbuf.getD srvrMax)
  let maxmsgsize := if maxmsgsize > pageSize then maxmsgsize / pageSize * pageSize else maxmsgsize
  if maxmsgsize > maxIo then maxIo else maxmsgsize

def Quantum.capped (quantum : Quantum) (maxmsgsize : Nat) : Quantum where
  min := Min.min quantum.min maxmsgsize
  med := Min.min quantum.med maxmsgsize
  max := Min.min quantum.max maxmsgsize
  current := Min.min quantum.current maxmsgsize

def smb2SessionMaxread (tunables : Tunables) (sessionp : NegSession) (maxRead : Nat) : Nat :=
  sessionMaxIo tunables.pageSize sessionp.sopt.svMaxread (tunables.tdata.map (·.rcvbuf)) maxRead

def smb2SessionMaxwrite (tunables : Tunables) (sessionp : NegSession) (maxWrite : Nat) : Nat :=
  sessionMaxIo tunables.pageSize sessionp.sopt.svMaxwrite (tunables.tdata.map (·.sndbuf)) maxWrite

def smb2SessionMaxtransact (tunables : Tunables) (sessionp : NegSession) : Nat :=
  let socksize := (tunables.tdata.map (·.sndbuf)).getD sessionp.sopt.svMaxtransact
  min sessionp.sopt.svMaxtransact socksize

def setLimits (tunables : Tunables) (sessionp : NegSession) : NegSession :=
  let rxmax := smb2SessionMaxread tunables sessionp tunables.maxread
  let wxmax := smb2SessionMaxwrite tunables sessionp tunables.maxwrite
  { sessionp with
    limits.rxmax := rxmax
    limits.wxmax := wxmax
    limits.txmax := smb2SessionMaxtransact tunables sessionp
    limits.read := sessionp.limits.read.capped rxmax
    limits.write := sessionp.limits.write.capped wxmax }

end SmbClient.Negotiate
