import SmbClient.Lib.BitTable
import SmbClient.Lib.Traced
import SmbClient.Mbuf.Chain

/-! `smbfs_getsecurity`: the owner, the group and the access control list of a node, decoded in place from the
security descriptor that a server returned. -/

namespace SmbClient.Security
open SmbClient.Lib SmbClient.Mbuf

abbrev Guid := Bytes

def kauthNullGuid : Guid := List.replicate 16 0

def kauthNtsidMaxAuthorities : Nat := 16

structure NtSid where
  kind : UInt8
  authcount : Nat
  authority : Bytes
  authorities : List UInt32
  count_le : authcount ≤ kauthNtsidMaxAuthorities
  authority_length : authority.length = 6
  authorities_length : authorities.length = kauthNtsidMaxAuthorities
  deriving DecidableEq, Repr

def NtSid.zero : NtSid where
  kind := 0
  authcount := 0
  authority := List.replicate 6 0
  authorities := List.replicate 16 0
  count_le := by decide
  authority_length := rfl
  authorities_length := rfl

structure Memory where
  contents : Nat → UInt8
  seclen : Nat

namespace Memory

def bytes (w : Memory) (off len : Nat) : Bytes := (List.range' off len).map w.contents

def uint (w : Memory) (off len : Nat) : Nat := ofLe (w.bytes off len)

def ofBytes (data : Bytes) : Memory := ⟨fun i => data.getD i 0, data.length⟩

@[simp] theorem length_bytes (w : Memory) (off len : Nat) : (w.bytes off len).length = len := by
  simp [bytes]

end Memory

inductive Access
  | read (off len : Nat)
  | store (index : Nat)
  deriving DecidableEq, Repr

abbrev Walker := Traced Access Errno

def note (accesses : List Access) : Walker Unit := ⟨accesses, .ok ()⟩

def readUint (w : Memory) (off len : Nat) : Walker Nat := do
  note [.read off len]
  pure (w.uint off len)

/-! ## Offsets and SIDs -/

inductive SdType
  | owner | group | sacl | dacl
  deriving DecidableEq, Repr

def SdType.field : SdType → Nat
  | .owner => 4
  | .group => 8
  | .sacl => 12
  | .dacl => 16

def sizeofNtsecdesc : Nat := 20

def wrap32 (value : Int) : Int := (value + 2 ^ 31) % 2 ^ 32 - 2 ^ 31

def smbSdoffset (w : Memory) (type : SdType) : Walker (Option Nat) := do
  let field ← readUint w type.field 4
  let sdOff := wrap32 field
  let seclen := wrap32 w.seclen
  let endLen := wrap32 (sdOff + 8)
  if seclen < 0 then pure none
  else if 8 > seclen then pure none
  else if sdOff ≤ 0 ∨ sdOff > seclen then pure none
  else if endLen < 0 ∨ endLen > seclen then pure none
  else pure (some sdOff.toNat)

def subauthReads (sid count : Nat) : List Access := (List.range count).map fun i => .read (sid + 8 + 4 * i) 4

def Memory.sidAt (w : Memory) (sid count : Nat) (fits : count ≤ kauthNtsidMaxAuthorities) : NtSid where
  kind := w.contents sid
  authcount := count
  authority := w.bytes (sid + 2) 6
  authorities := (List.range count).map (fun i => UInt32.ofNat (w.uint (sid + 8 + 4 * i) 4)) ++
    List.replicate (kauthNtsidMaxAuthorities - count) 0
  count_le := fits
  authority_length := w.length_bytes _ _
  authorities_length := by simp; omega

def smbSid2sid16 (w : Memory) (sid : Nat) : Walker NtSid := do
  let count ← readUint w (sid + 1) 1
  if fits : count ≤ kauthNtsidMaxAuthorities then
    if sid + 8 + 4 * count > w.seclen then pure .zero
    else do
      note [.read sid 1, .read (sid + 2) 6]
      note (subauthReads sid count)
      pure (w.sidAt sid count fits)
  else pure .zero

def smbPrintsid (w : Memory) (sid : Nat) : Walker Unit := do
  note [.read (sid + 2) 6, .read sid 1]
  let count ← readUint w (sid + 1) 1
  let subs := min count kauthNtsidMaxAuthorities
  if sid + 8 + 4 * subs > w.seclen then pure () else note (subauthReads sid subs)

/-! ## The node -/

def kauthUidNone : UInt32 := 0xFFFFFF9B
def kauthGidNone : UInt32 := 0xFFFFFF9B
def accessperms : Nat := 0o777

structure Smbnode where
  uid : UInt32
  gid : UInt32
  nfsUid : UInt32 := kauthUidNone
  nfsGid : UInt32 := kauthGidNone
  hasPosixModes : Bool := false
  mode : Nat
  deriving DecidableEq, Repr

def securityNtAuthority : Bytes := [0, 0, 0, 0, 0, 5]

theorem length_securityNtAuthority : securityNtAuthority.length = 6 := rfl

def securityNfsIdBaseRid : UInt32 := 0x58
def nfsSidTypeOwner : UInt32 := 1
def nfsSidTypeGroup : UInt32 := 2
def nfsSidTypeModes : UInt32 := 3

def NtSid.IsNfs (sid : NtSid) : Prop :=
  sid.kind = 1 ∧ sid.authcount = 3 ∧ sid.authority = securityNtAuthority ∧
    sid.authorities.getD 0 0 = securityNfsIdBaseRid

instance (sid : NtSid) : Decidable sid.IsNfs := inferInstanceAs (Decidable (_ ∧ _))

def Smbnode.takeNfs (np : Smbnode) (sid : NtSid) : Smbnode :=
  let type := sid.authorities.getD 1 0
  let value := sid.authorities.getD 2 0
  if type = nfsSidTypeOwner then { np with nfsUid := value }
  else if type = nfsSidTypeGroup then { np with nfsGid := value }
  else if type = nfsSidTypeModes then
    { np with hasPosixModes := true, mode := np.mode - np.mode % 512 + value.toNat % 512 }
  else np

def windowsNfsSID (np : Smbnode) (sid : NtSid) : Option Smbnode :=
  if sid.IsNfs then some (np.takeNfs sid) else none

structure Kauth where
  ntsid2guid : NtSid → Except Errno Guid
  guid2ntsid : Guid → Except Errno NtSid
  ntsid2uid : NtSid → Except Errno UInt32
  ntsid2gid : NtSid → Except Errno UInt32
  uid2guid : UInt32 → Except Errno Guid
  gid2guid : UInt32 → Except Errno Guid
  aclAlloc : Nat → Bool

structure Smbmount where
  mapsNetworkLocalUser : Bool
  ntwrkSid : NtSid
  uuid : Guid
  uid : UInt32
  gid : UInt32
  /-- `smbfs_loglevel == SMB_ACL_LOG_LEVEL`. -/
  aclLog : Bool

def tmpuuid1 : Bytes := [0xFF, 0xFF, 0xEE, 0xEE, 0xDD, 0xDD, 0xCC, 0xCC, 0xBB, 0xBB, 0xAA, 0xAA]
def tmpuuid2 : Bytes := [0xAA, 0xAA, 0xBB, 0xBB, 0xCC, 0xCC, 0xDD, 0xDD, 0xEE, 0xEE, 0xFF, 0xFF]

def isMemberdTempuuid (uuid : Guid) : Bool := uuid.take 12 == tmpuuid1 || uuid.take 12 == tmpuuid2

variable (k : Kauth) (smp : Smbmount)

/-- The user of the mount stands for the network user it was mounted as. -/
def guidOfSid (sid : NtSid) : Except Errno Guid :=
  if smp.mapsNetworkLocalUser ∧ smp.ntwrkSid = sid then .ok smp.uuid else k.ntsid2guid sid

def defaultIdentifier (owner : Bool) (identifier : Guid) (nodeIdentifier : UInt32) : Guid × UInt32 :=
  let nodeIdentifier :=
    if nodeIdentifier = kauthUidNone then (if owner then smp.uid else smp.gid) else nodeIdentifier
  if identifier = kauthNullGuid then
    match if owner then k.uid2guid nodeIdentifier else k.gid2guid nodeIdentifier with
    | .ok guid => (guid, nodeIdentifier)
    | .error _ => (identifier, nodeIdentifier)
  else (identifier, nodeIdentifier)

def logUnmapped (w : Memory) (sid : Nat) : Walker Unit := if smp.aclLog then smbPrintsid w sid else pure ()

def identifierOf (w : Memory) (owner : Bool) (nodeIdentifier : UInt32) (sidp : Nat) : Walker (Guid × UInt32) := do
  let sid ← smbSid2sid16 w sidp
  if owner ∧ smp.mapsNetworkLocalUser ∧ smp.ntwrkSid = sid then pure (smp.uuid, smp.uid)
  else
    match k.ntsid2guid sid with
    | .error _ => do
        logUnmapped smp w sidp
        pure (defaultIdentifier k smp owner kauthNullGuid nodeIdentifier)
    | .ok guid =>
      if isMemberdTempuuid guid ∧ nodeIdentifier ≠ kauthUidNone then pure (guid, nodeIdentifier)
      else
        match if owner then k.ntsid2uid sid else k.ntsid2gid sid with
        | .ok id => pure (guid, id)
        | .error _ => pure (defaultIdentifier k smp owner guid nodeIdentifier)

def findIdentifier (w : Option Memory) (owner : Bool) (nodeIdentifier : UInt32) : Walker (Guid × UInt32) :=
  match w with
  | none => pure (defaultIdentifier k smp owner kauthNullGuid nodeIdentifier)
  | some w => do
      match ← smbSdoffset w (if owner then .owner else .group) with
      | none => pure (defaultIdentifier k smp owner kauthNullGuid nodeIdentifier)
      | some sidp => identifierOf k smp w owner nodeIdentifier sidp

def smbfsSetNodeIdentifier (w : Option Memory) (owner : Bool) (np : Smbnode) : Walker (Guid × Smbnode) := do
  let found ← findIdentifier k smp w owner (if owner then np.uid else np.gid)
  pure (found.1, if owner then { np with uid := found.2 } else { np with gid := found.2 })

/-! ## Access control entries -/

structure KauthAce where
  applicable : Guid
  flags : Nat
  rights : Nat
  deriving DecidableEq, Repr

structure KauthAcl where
  flags : Nat
  entries : List KauthAce
  deriving DecidableEq, Repr

inductive AceKind
  | permit | deny | audit | alarm
  deriving DecidableEq, Repr

def kauthAceKindmask : Nat := 0xF

def AceKind.kauth : AceKind → Nat
  | .permit => 1
  | .deny => 2
  | .audit => 3
  | .alarm => 4

def AceKind.wire : AceKind → Nat
  | .permit => 0
  | .deny => 1
  | .audit => 2
  | .alarm => 3

def AceKind.ofWire : Nat → Option AceKind
  | 0 => some .permit
  | 1 => some .deny
  | 2 => some .audit
  | 3 => some .alarm
  | _ => none

def kauthAceInherited : Nat := 1 <<< 4
def kauthAceFileInherit : Nat := 1 <<< 5
def kauthAceDirectoryInherit : Nat := 1 <<< 6
def kauthAceLimitInherit : Nat := 1 <<< 7
def kauthAceOnlyInherit : Nat := 1 <<< 8
def kauthAceSuccess : Nat := 1 <<< 9
def kauthAceFailure : Nat := 1 <<< 10

def objectInheritAceFlag : Nat := 0x01
def containerInheritAceFlag : Nat := 0x02
def noPropagateInheritAceFlag : Nat := 0x04
def inheritOnlyAceFlag : Nat := 0x08
def inheritedAceFlag : Nat := 0x10
def successfulAccessAceFlag : Nat := 0x40
def failedAccessAceFlag : Nat := 0x80

def flagsFromWire : List (Nat × Nat) :=
  [(objectInheritAceFlag, kauthAceFileInherit), (containerInheritAceFlag, kauthAceDirectoryInherit),
    (noPropagateInheritAceFlag, kauthAceLimitInherit), (inheritOnlyAceFlag, kauthAceOnlyInherit),
    (inheritedAceFlag, kauthAceInherited), (successfulAccessAceFlag, kauthAceSuccess),
    (failedAccessAceFlag, kauthAceFailure)]

def kauthVnodeReadData : Nat := 1 <<< 1
def kauthVnodeWriteData : Nat := 1 <<< 2
def kauthVnodeExecute : Nat := 1 <<< 3
def kauthVnodeDelete : Nat := 1 <<< 4
def kauthVnodeAppendData : Nat := 1 <<< 5
def kauthVnodeDeleteChild : Nat := 1 <<< 6
def kauthVnodeReadAttributes : Nat := 1 <<< 7
def kauthVnodeWriteAttributes : Nat := 1 <<< 8
def kauthVnodeReadExtattributes : Nat := 1 <<< 9
def kauthVnodeWriteExtattributes : Nat := 1 <<< 10
def kauthVnodeReadSecurity : Nat := 1 <<< 11
def kauthVnodeWriteSecurity : Nat := 1 <<< 12
def kauthVnodeChangeOwner : Nat := 1 <<< 13
def kauthVnodeSynchronize : Nat := 1 <<< 20
def kauthAceGenericAll : Nat := 1 <<< 21
def kauthAceGenericExecute : Nat := 1 <<< 22
def kauthAceGenericWrite : Nat := 1 <<< 23
def kauthAceGenericRead : Nat := 1 <<< 24

def smb2FileReadData : Nat := 0x00000001
def smb2FileWriteData : Nat := 0x00000002
def smb2FileAppendData : Nat := 0x00000004
def smb2FileReadEa : Nat := 0x00000008
def smb2FileWriteEa : Nat := 0x00000010
def smb2FileExecute : Nat := 0x00000020
def smb2FileDeleteChild : Nat := 0x00000040
def smb2FileReadAttributes : Nat := 0x00000080
def smb2FileWriteAttributes : Nat := 0x00000100
def smb2Delete : Nat := 0x00010000
def smb2ReadControl : Nat := 0x00020000
def smb2WriteDac : Nat := 0x00040000
def smb2WriteOwner : Nat := 0x00080000
def smb2Synchronize : Nat := 0x00100000
def smb2GenericAll : Nat := 0x10000000
def smb2GenericExecute : Nat := 0x20000000
def smb2GenericWrite : Nat := 0x40000000
def smb2GenericRead : Nat := 0x80000000

def rightsFromWire : List (Nat × Nat) :=
  [(smb2GenericRead, kauthAceGenericRead), (smb2GenericWrite, kauthAceGenericWrite),
    (smb2GenericExecute, kauthAceGenericExecute), (smb2GenericAll, kauthAceGenericAll),
    (smb2Synchronize, kauthVnodeSynchronize), (smb2WriteOwner, kauthVnodeChangeOwner),
    (smb2WriteDac, kauthVnodeWriteSecurity), (smb2ReadControl, kauthVnodeReadSecurity),
    (smb2Delete, kauthVnodeDelete), (smb2FileWriteAttributes, kauthVnodeWriteAttributes),
    (smb2FileReadAttributes, kauthVnodeReadAttributes), (smb2FileDeleteChild, kauthVnodeDeleteChild),
    (smb2FileExecute, kauthVnodeExecute), (smb2FileWriteEa, kauthVnodeWriteExtattributes),
    (smb2FileReadEa, kauthVnodeReadExtattributes), (smb2FileAppendData, kauthVnodeAppendData),
    (smb2FileWriteData, kauthVnodeWriteData), (smb2FileReadData, kauthVnodeReadData)]

structure Walk where
  visited : Nat := 0
  entries : List KauthAce := []
  np : Smbnode
  deriving DecidableEq, Repr

def visitAce (w : Memory) (acep : Nat) (s : Walk) : Walker (Option Errno × Walk) := do
  let s := { s with visited := s.visited + 1 }
  let type ← readUint w acep 1
  match AceKind.ofWire type with
  | none => pure (some .eproto, s)
  | some kind =>
    let sidp := acep + 8
    if sidp + 8 > w.seclen then pure (some .eproto, s)
    else do
      let sid ← smbSid2sid16 w sidp
      match windowsNfsSID s.np sid with
      | some np => pure (none, { s with np })
      | none => do
          note [.store s.entries.length]
          match guidOfSid k smp sid with
          | .error _ => do
              logUnmapped smp w sidp
              pure (none, s)
          | .ok applicable => do
              let flags ← readUint w (acep + 1) 1
              let rights ← readUint w (acep + 4) 4
              let ace : KauthAce :=
                { applicable
                  flags := kind.kauth ||| translate flagsFromWire flags
                  rights := translate rightsFromWire rights }
              pure (none, { s with entries := s.entries ++ [ace] })

def walkAces (w : Memory) : Nat → Nat → Walk → Walker (Option Errno × Walk)
  | 0, _, s => pure (none, s)
  | left + 1, acep, s =>
    if acep + 8 < w.seclen then do
      let visit ← visitAce k smp w acep s
      match visit.1 with
      | some error => pure (some error, visit.2)
      | none => do
          let acelen ← readUint w (acep + 2) 2
          walkAces w left (acep + acelen) visit.2
    else pure (none, s)

def seDaclProtected : Nat := 0x1000
def kauthFilesecNoInherit : Nat := 1 <<< 17

structure Decoded where
  error : Option Errno := none
  acl : Option KauthAcl := none
  guuid : Option Guid := none
  uuuid : Option Guid := none
  np : Smbnode
  visited : Nat := 0
  deriving DecidableEq, Repr

def decodeDacl (w : Memory) (sec : Decoded) (dacl : Nat) : Walker Decoded := do
  let acecount ← readUint w (dacl + 4) 2
  if ¬k.aclAlloc acecount then pure { sec with error := some .enomem }
  else do
    let control ← readUint w 2 2
    let flags := if control &&& seDaclProtected ≠ 0 then control ||| kauthFilesecNoInherit else control
    let walked ← walkAces k smp w acecount (dacl + 8) { np := sec.np }
    let sec := { sec with np := walked.2.np, visited := walked.2.visited }
    match walked.1 with
    | some error => pure { sec with error := some error }
    | none =>
      if walked.2.entries = [] then pure sec
      else pure { sec with acl := some { flags, entries := walked.2.entries } }

def decodeFound (w : Memory) (sec : Decoded) : Option Nat → Walker Decoded
  | none => pure sec
  | some dacl => decodeDacl k smp w sec dacl

structure Wanted where
  acl : Bool
  guuid : Bool
  uuuid : Bool

def identifierIfWanted (wanted owner : Bool) (w : Option Memory) (np : Smbnode) : Walker (Option Guid × Smbnode) :=
  if wanted then do
    let found ← smbfsSetNodeIdentifier k smp w owner np
    pure (some found.1, found.2)
  else pure (none, np)

def smbfsGetsecurity (namedStream : Bool) (np : Smbnode) (wanted : Wanted) (cached : Except Errno Memory) :
    Walker Decoded :=
  if namedStream then pure { error := some .einval, np }
  else do
    let w := cached.toOption
    let error := match cached with
      | .error .eacces | .ok _ => none
      | .error e => some e
    let group ← identifierIfWanted k smp wanted.guuid false w np
    let user ← identifierIfWanted k smp wanted.uuuid true w group.2
    let sec : Decoded := { error, guuid := group.1, uuuid := user.1, np := user.2 }
    match w with
    | none => pure sec
    | some w =>
      if wanted.acl then do
        let dacl ← smbSdoffset w .dacl
        decodeFound k smp w sec dacl
      else pure sec

end SmbClient.Security
