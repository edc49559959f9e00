import SmbClient.Lib.LittleEndian

namespace SmbClient.Session
open SmbClient.Lib

inductive Dialect
  | smb202 | smb21 | smb30 | smb302 | smb311
  deriving DecidableEq, Repr

def Dialect.smb3OrLater : Dialect → Bool
  | smb202 | smb21 => false
  | smb30 | smb302 | smb311 => true

inductive Command
  | negotiate | sessionSetup | logoff | treeConnect | treeDisconnect | create | close | flush | read
  | write | lock | ioctl | cancel | echo | queryDirectory | changeNotify | queryInfo | setInfo
  | oplockBreak
  deriving DecidableEq, Repr

def Command.code : Command → UInt16
  | negotiate => 0x0000
  | sessionSetup => 0x0001
  | logoff => 0x0002
  | treeConnect => 0x0003
  | treeDisconnect => 0x0004
  | create => 0x0005
  | close => 0x0006
  | flush => 0x0007
  | read => 0x0008
  | write => 0x0009
  | lock => 0x000a
  | ioctl => 0x000b
  | cancel => 0x000c
  | echo => 0x000d
  | queryDirectory => 0x000e
  | changeNotify => 0x000f
  | queryInfo => 0x0010
  | setInfo => 0x0011
  | oplockBreak => 0x0012

structure SmbSession where
  sessionId : UInt64
  dialect : Dialect
  securitySignature : Bool := false
  encryptData : Bool := false
  anonymousAccess : Bool := false
  guestAccess : Bool := false
  nonCompoundReplies : Bool := false
  mackey : Option Bytes := none
  smb3SigningKey : Bytes := []
  smb3SigningAlgorithm : UInt16 := 1
  smb3EncryptCiper : UInt16
  smb3EncryptKey : Bytes
  smb3DecryptKey : Bytes
  smb3NonceHigh : UInt64 := 0
  smb3NonceLow : UInt64 := 0
  decryptBuffer : Option Bytes := none
  serverCompressionAlgorithmsMap : Nat := 0
  compressionChainingOff : Bool := false
  compressionIoThreshold : Nat := 4096
  compressionChunkLen : Nat := 262144
  deriving DecidableEq, Repr

structure SmbIod where
  alternateChannel : Bool := false
  useChannelKeys : Bool := false
  mackey : Option Bytes := none
  smb3SigningKey : Bytes := []
  preAuthIntHash : Bytes := List.replicate 64 0
  preAuthIntHashNeg : Bytes := List.replicate 64 0
  sessSetupReply : Option Bytes := none
  sessSetupMessageId : Nat := 0
  deriving DecidableEq, Repr

def kDefaultMaxIOSize : Nat := 8 * 1024 * 1024

end SmbClient.Session
