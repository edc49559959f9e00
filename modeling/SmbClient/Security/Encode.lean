import SmbClient.Security.Descriptor

/-! `smbfs_setsecurity`: the security descriptor that a client sends. -/

namespace SmbClient.Security
open SmbClient.Lib SmbClient.Mbuf

def kauthAclMaxEntries : Nat := 128

structure WireAce where
  kind : AceKind
  flags : Nat
  rights : Nat
  sid : NtSid

def NtSid.len (sid : NtSid) : Nat := 8 + 4 * sid.authcount

def NtSid.put (sid : NtSid) : Bytes :=
  [sid.kind] ++ toLe 1 sid.authcount ++ sid.authority ++
    (sid.authorities.take sid.authcount).flatMap fun authority => toLe 4 authority.toNat

def WireAce.put (ace : WireAce) : Bytes :=
  toLe 1 ace.kind.wire ++ toLe 1 ace.flags ++ toLe 2 (8 + ace.sid.len) ++ toLe 4 ace.rights ++ ace.sid.put

def nfsSid (type value : UInt32) : NtSid where
  kind := 1
  authcount := 3
  authority := securityNtAuthority
  authorities := [securityNfsIdBaseRid, type, value] ++ List.replicate 13 0
  count_le := by decide
  authority_length := length_securityNtAuthority
  authorities_length := rfl

def setNfsAce (type value : UInt32) : WireAce := ⟨.deny, 0, 0, nfsSid type value⟩

def nfsAces (np : Smbnode) : List WireAce :=
  (if np.nfsUid ≠ kauthUidNone then [setNfsAce nfsSidTypeOwner np.nfsUid] else []) ++
    (if np.nfsGid ≠ kauthGidNone then [setNfsAce nfsSidTypeGroup np.nfsGid] else []) ++
    (if np.hasPosixModes then [setNfsAce nfsSidTypeModes (UInt32.ofNat np.mode)] else [])

def AceKind.ofKauth : Nat → Option AceKind
  | 1 => some .permit
  | 2 => some .deny
  | 3 => some .audit
  | 4 => some .alarm
  | _ => none

def flagsToWire : List (Nat × Nat) :=
  [(kauthAceInherited, inheritedAceFlag), (kauthAceFileInherit, objectInheritAceFlag),
    (kauthAceDirectoryInherit, containerInheritAceFlag), (kauthAceLimitInherit, noPropagateInheritAceFlag),
    (kauthAceOnlyInherit, inheritOnlyAceFlag), (kauthAceSuccess, successfulAccessAceFlag),
    (kauthAceFailure, failedAccessAceFlag)]

def rightsToWire : List (Nat × Nat) :=
  [(kauthAceGenericRead, smb2GenericRead), (kauthAceGenericWrite, smb2GenericWrite),
    (kauthAceGenericExecute, smb2GenericExecute), (kauthAceGenericAll, smb2GenericAll),
    (kauthVnodeSynchronize, smb2Synchronize), (kauthVnodeChangeOwner, smb2WriteOwner),
    (kauthVnodeWriteSecurity, smb2WriteDac), (kauthVnodeReadSecurity, smb2ReadControl),
    (kauthVnodeWriteExtattributes, smb2FileWriteEa), (kauthVnodeReadExtattributes, smb2FileReadEa),
    (kauthVnodeWriteAttributes, smb2FileWriteAttributes), (kauthVnodeReadAttributes, smb2FileReadAttributes),
    (kauthVnodeDeleteChild, smb2FileDeleteChild), (kauthVnodeAppendData, smb2FileAppendData),
    (kauthVnodeDelete, smb2Delete), (kauthVnodeExecute, smb2FileExecute),
    (kauthVnodeWriteData, smb2FileWriteData), (kauthVnodeReadData, smb2FileReadData)]

def wireRights (kind : AceKind) (rights : Nat) : Nat :=
  if kind ≠ .deny then translate rightsToWire rights ||| smb2Synchronize else translate rightsToWire rights

variable (k : Kauth) (smp : Smbmount)

def sidOfGuid (guid : Guid) : Except Errno NtSid :=
  if smp.mapsNetworkLocalUser ∧ smp.uuid = guid then .ok smp.ntwrkSid else k.guid2ntsid guid

def encodeAce (ace : KauthAce) : Except Errno WireAce :=
  match AceKind.ofKauth (ace.flags &&& kauthAceKindmask) with
  | none => .error .einval
  | some kind => do
      let sid ← sidOfGuid k smp ace.applicable
      pure { kind, flags := translate flagsToWire ace.flags, rights := wireRights kind ace.rights, sid }

def putDacl (aces : List WireAce) : Bytes :=
  let body := aces.flatMap WireAce.put
  [2, 0] ++ toLe 2 (8 + body.length) ++ toLe 2 aces.length ++ [0, 0] ++ body

def encodeDacl (np : Smbnode) (acl : KauthAcl) : Except Errno Bytes :=
  if acl.entries.length > kauthAclMaxEntries then .error .einval
  else do
    let aces ← acl.entries.mapM (encodeAce k smp)
    pure (putDacl (nfsAces np ++ aces))

inductive AclArg
  | inactive | null | noAcl
  | acl (acl : KauthAcl)

structure Vattr where
  guuid : Option Guid
  uuuid : Option Guid
  acl : AclArg

structure SecurityInfo where
  owner : Option NtSid := none
  group : Option NtSid := none
  dacl : Option Bytes := none
  controlFlags : Nat := 0

def seSelfRelative : Nat := 0x8000
def seDaclSent : Nat := 0x0004 ||| 0x0400 ||| 0x0100

def putSids (info : SecurityInfo) : Bytes :=
  (info.owner.map NtSid.put).getD [] ++ (info.group.map NtSid.put).getD []

def putDescriptor (info : SecurityInfo) : Bytes :=
  let control := info.controlFlags ||| seSelfRelative ||| (if info.dacl.isSome then seDaclSent else 0)
  let offsetGroup := sizeofNtsecdesc + ((info.owner.map NtSid.len).getD 0)
  let offsetDacl := offsetGroup + ((info.group.map NtSid.len).getD 0)
  [1, 0] ++ toLe 2 control ++ toLe 4 (if info.owner.isSome then sizeofNtsecdesc else 0) ++
    toLe 4 (if info.group.isSome then offsetGroup else 0) ++ toLe 4 0 ++
    toLe 4 (if info.dacl.isSome then offsetDacl else 0) ++ putSids info ++ info.dacl.getD []

def groupSid : Option Guid → Except Errno (Option NtSid)
  | none => .ok none
  | some guid => if guid = kauthNullGuid then .ok none else (k.guid2ntsid guid).map some

def ownerSid : Option Guid → Except Errno (Option NtSid)
  | none => .ok none
  | some guid => if guid = kauthNullGuid then .ok none else (sidOfGuid k smp guid).map some

def smbfsSetsecurity (namedStream : Bool) (np : Smbnode) (vap : Vattr) : Except Errno (Option Bytes) :=
  if namedStream then .error .enotsup
  else do
    let group ← groupSid k vap.guuid
    let owner ← ownerSid k smp vap.uuuid
    match vap.acl with
    | .acl acl =>
      let dacl ← encodeDacl k smp np acl
      let controlFlags := if acl.flags &&& kauthFilesecNoInherit ≠ 0 then seDaclProtected else 0
      pure (some (putDescriptor { owner, group, dacl := some dacl, controlFlags }))
    | _ =>
      if owner = none ∧ group = none then pure none
      else pure (some (putDescriptor { owner, group }))

end SmbClient.Security
