import Mathlib.Data.List.Forall2
import SmbClient.Security.Decode
import SmbClient.Security.Encode

/-! A descriptor that the client has built, decoded again. -/

namespace SmbClient.Security
open SmbClient.Lib SmbClient.Lib.Traced SmbClient.Mbuf

/-! ## What memory holds -/

theorem Memory.bytes_add (w : Memory) (off a b : Nat) :
    w.bytes off (a + b) = w.bytes off a ++ w.bytes (off + a) b := by
  simp only [bytes, ← List.map_append, List.range'_append_1]

/-- The buffer has `data` at `off`. -/
def Memory.Holds (w : Memory) (off : Nat) (data : Bytes) : Prop :=
  w.bytes off data.length = data ∧ off + data.length ≤ w.seclen

section
variable {w : Memory} {off : Nat} {a b : Bytes}

theorem Memory.Holds.append_iff : w.Holds off (a ++ b) ↔ w.Holds off a ∧ w.Holds (off + a.length) b := by
  unfold Holds
  rw [List.length_append, bytes_add]
  constructor
  · rintro ⟨same, inside⟩
    have halves := List.append_inj same (w.length_bytes _ _)
    exact ⟨⟨halves.1, by omega⟩, halves.2, by omega⟩
  · rintro ⟨⟨first, _⟩, second, inside⟩
    exact ⟨by rw [first, second], by omega⟩

theorem Memory.Holds.uint {width value : Nat} (holds : w.Holds off (toLe width value)) :
    w.uint off width = value % 256 ^ width := by
  have same := holds.1
  rw [length_toLe] at same
  rw [Memory.uint, same, ofLe_toLe]

theorem Memory.holds_ofBytes (data : Bytes) : (Memory.ofBytes data).Holds 0 data := by
  refine ⟨?_, Nat.le_of_eq (Nat.zero_add _)⟩
  apply List.ext_getElem
  · simp
  · intro i inside inside'
    simp [bytes, ofBytes, inside']

theorem Memory.Holds.authorities {authorities : List UInt32}
    (holds : w.Holds off (authorities.flatMap fun authority => toLe 4 authority.toNat)) :
    (List.range authorities.length).map (fun i => UInt32.ofNat (w.uint (off + 4 * i) 4)) = authorities := by
  induction authorities generalizing off with
  | nil => rfl
  | cons authority rest ih =>
    rw [List.flatMap_cons, Memory.Holds.append_iff, length_toLe] at holds
    have later := ih holds.2
    have first := holds.1.uint
    rw [Nat.mod_eq_of_lt (show authority.toNat < 256 ^ 4 from authority.toNat_lt)] at first
    simp only [List.length_cons, List.range_succ_eq_map, List.map_cons, List.map_map, Nat.mul_zero, Nat.add_zero,
      first, UInt32.ofNat_toNat, List.cons.injEq, true_and]
    refine Eq.trans (List.map_congr_left fun i _ => ?_) later
    simp only [Function.comp_apply, Nat.mul_succ]
    congr 2
    omega

end

/-! ## Entries -/

theorem NtSid.length_used (sid : NtSid) : (sid.authorities.take sid.authcount).length = sid.authcount := by
  rw [List.length_take, sid.authorities_length]
  exact Nat.min_eq_left sid.count_le

theorem NtSid.length_put (sid : NtSid) : sid.put.length = sid.len := by
  have counted := sid.length_used
  simp only [NtSid.put, NtSid.len, List.length_append, List.length_cons, List.length_nil, length_toLe,
    sid.authority_length, List.length_flatMap, List.map_const', List.sum_replicate_nat, counted]
  omega

def NtSid.plain (sid : NtSid) : NtSid where
  kind := sid.kind
  authcount := sid.authcount
  authority := sid.authority
  authorities := sid.authorities.take sid.authcount ++ List.replicate (kauthNtsidMaxAuthorities - sid.authcount) 0
  count_le := sid.count_le
  authority_length := sid.authority_length
  authorities_length := by
    have fits := sid.count_le
    simp [sid.authorities_length]
    omega

variable {w : Memory} {wires : List WireAce}

theorem smbSid2sid16_put {off : Nat} {sid : NtSid} (holds : w.Holds off sid.put) :
    (smbSid2sid16 w off).result = .ok sid.plain := by
  have room := holds.2
  rw [sid.length_put, NtSid.len] at room
  simp only [NtSid.put, Memory.Holds.append_iff, List.length_append, List.length_cons, List.length_nil, length_toLe,
    sid.authority_length, Nat.zero_add, Nat.reduceAdd] at holds
  obtain ⟨⟨⟨kind, count⟩, authority⟩, used⟩ := holds
  have counted : w.uint (off + 1) 1 = sid.authcount := by
    rw [count.uint]
    exact Nat.mod_eq_of_lt (Nat.lt_of_le_of_lt sid.count_le (by decide))
  have rebuilt : w.sidAt off sid.authcount sid.count_le = sid.plain := by
    have first : w.contents off = sid.kind := List.head_eq_of_cons_eq kind.1
    have name : w.bytes (off + 2) 6 = sid.authority := by
      have same := authority.1
      rwa [sid.authority_length] at same
    have authorities := used.authorities
    rw [sid.length_used] at authorities
    simp only [Memory.sidAt, NtSid.plain, first, name, authorities]
  simp only [smbSid2sid16, readUint, result_bind, note, except_ok_bind, result_pure, counted, dif_pos sid.count_le]
  rw [if_neg (by omega)]
  simp only [result_bind, except_ok_bind, result_pure, rebuilt]

variable (k : Kauth) (smp : Smbmount)

def Walk.take (s : Walk) (ace : WireAce) : Walk :=
  let s := { s with visited := s.visited + 1 }
  match windowsNfsSID s.np ace.sid.plain with
  | some np => { s with np }
  | none =>
    match guidOfSid k smp ace.sid.plain with
    | .error _ => s
    | .ok applicable =>
      { s with
        entries := s.entries ++
          [{ applicable
             flags := ace.kind.kauth ||| translate flagsFromWire (ace.flags % 256)
             rights := translate rightsFromWire (ace.rights % 2 ^ 32) }] }

theorem WireAce.length_put (ace : WireAce) : ace.put.length = 8 + ace.sid.len := by
  simp only [WireAce.put, List.length_append, length_toLe, ace.sid.length_put]

theorem visitAce_put {acep : Nat} {ace : WireAce} (holds : w.Holds acep ace.put) (s : Walk) :
    (visitAce k smp w acep s).result = .ok (none, s.take k smp ace) ∧ w.uint (acep + 2) 2 = ace.put.length := by
  have room := holds.2
  rw [ace.length_put, NtSid.len] at room
  have short := ace.sid.count_le
  unfold kauthNtsidMaxAuthorities at short
  simp only [WireAce.put, Memory.Holds.append_iff, List.length_append, length_toLe, Nat.reduceAdd] at holds
  obtain ⟨⟨⟨⟨type, flags⟩, length⟩, rights⟩, sid⟩ := holds
  have kind : AceKind.ofWire (w.uint acep 1) = some ace.kind := by
    rw [type.uint]
    cases ace.kind <;> rfl
  constructor
  · simp only [visitAce, readUint, note, result_bind, except_ok_bind, result_pure, kind]
    rw [if_neg (by omega)]
    simp only [result_bind, smbSid2sid16_put sid, except_ok_bind, Walk.take]
    cases windowsNfsSID s.np ace.sid.plain with
    | some np => rfl
    | none =>
      simp only [result_bind, except_ok_bind]
      cases guidOfSid k smp ace.sid.plain with
      | error e =>
        obtain ⟨_, _, logged, _⟩ := @yields_logUnmapped w 0 (acep + 8) smp (by omega)
        simp only [result_bind, logged, except_ok_bind, result_pure]
      | ok applicable =>
        simp only [result_bind, except_ok_bind, result_pure, flags.uint, rights.uint]
        rfl
  · rw [length.uint, ace.length_put, NtSid.len]
    exact Nat.mod_eq_of_lt (by omega)

theorem walkAces_put {acep : Nat} {aces : List WireAce} (holds : w.Holds acep (aces.flatMap WireAce.put))
    (s : Walk) : (walkAces k smp w aces.length acep s).result = .ok (none, aces.foldl (Walk.take k smp) s) := by
  induction aces generalizing acep s with
  | nil => rfl
  | cons ace rest ih =>
    rw [List.flatMap_cons, Memory.Holds.append_iff] at holds
    have header : acep + 8 < w.seclen := by
      have room := holds.1.2
      rw [ace.length_put, NtSid.len] at room
      omega
    obtain ⟨visit, length⟩ := visitAce_put k smp holds.1 s
    rw [List.length_cons, walkAces, if_pos header, result_bind, visit, except_ok_bind]
    simp only [readUint, note, result_bind, except_ok_bind, result_pure, length]
    exact ih holds.2 _

/-! ## The translation of an entry -/

def kauthAceInheritMask : Nat :=
  kauthAceInherited ||| kauthAceFileInherit ||| kauthAceDirectoryInherit ||| kauthAceLimitInherit |||
    kauthAceOnlyInherit

def kauthAceRights : Nat := knownBits rightsToWire

def addedRights (ace : KauthAce) : Nat :=
  if ace.flags &&& kauthAceKindmask = AceKind.deny.kauth then 0 else kauthVnodeSynchronize

structure SameAce (before after : KauthAce) : Prop where
  kind : after.flags &&& kauthAceKindmask = before.flags &&& kauthAceKindmask
  inheritance : after.flags &&& kauthAceInheritMask = before.flags &&& kauthAceInheritMask
  applicable : after.applicable = before.applicable
  rights : after.rights = (before.rights &&& kauthAceRights) ||| addedRights before

theorem flags_back (flags : Nat) :
    translate flagsFromWire (translate flagsToWire flags % 256) = flags &&& knownBits flagsToWire := by
  have narrow : translate flagsToWire flags < 2 ^ 8 := translate_lt (by decide) flags
  rw [Nat.mod_eq_of_lt (show _ < 256 from narrow)]
  exact translate_translate (by decide) (by decide) (by decide) flags

theorem rights_back (kind : AceKind) (rights : Nat) : translate rightsFromWire (wireRights kind rights % 2 ^ 32) =
    (rights &&& kauthAceRights) ||| if kind = .deny then 0 else kauthVnodeSynchronize := by
  have narrow : translate rightsToWire rights < 2 ^ 32 := translate_lt (by decide) rights
  have back : translate rightsFromWire (translate rightsToWire rights) = rights &&& kauthAceRights :=
    translate_translate (by decide) (by decide) (by decide) rights
  have added : translate rightsFromWire smb2Synchronize = kauthVnodeSynchronize := by decide
  by_cases deny : kind = .deny
  · simp only [wireRights, deny, ne_eq, not_true, if_false, if_true, Nat.mod_eq_of_lt narrow, back, Nat.or_zero]
  · have both : translate rightsToWire rights ||| smb2Synchronize < 2 ^ 32 := Nat.or_lt_two_pow narrow (by decide)
    simp only [wireRights, deny, ne_eq, not_false_eq_true, if_false, if_true, Nat.mod_eq_of_lt both, translate_or, back,
      added]

theorem ofKauth_eq_some {word : Nat} {kind : AceKind} (found : AceKind.ofKauth word = some kind) :
    word = kind.kauth := by
  unfold AceKind.ofKauth at found
  split at found <;> cases found <;> rfl

theorem kauth_inj {a b : AceKind} : a.kauth = b.kauth ↔ a = b := by
  cases a <;> cases b <;> decide

theorem encodeAce_eq_ok {ace : KauthAce} {wire : WireAce} (encoded : encodeAce k smp ace = .ok wire) :
    ace.flags &&& kauthAceKindmask = wire.kind.kauth ∧ sidOfGuid k smp ace.applicable = .ok wire.sid ∧
      wire.flags = translate flagsToWire ace.flags ∧ wire.rights = wireRights wire.kind ace.rights := by
  unfold encodeAce at encoded
  split at encoded
  · cases encoded
  · rename_i kind found
    obtain ⟨sid, mapped, built⟩ := except_bind_eq_ok.mp encoded
    cases built
    exact ⟨ofKauth_eq_some found, mapped, rfl, rfl⟩

/-- The identity of an entry comes back from its SID, which is none of those for an NFS server. -/
def MapsBack (ace : KauthAce) : Prop :=
  ∀ sid, sidOfGuid k smp ace.applicable = .ok sid →
    guidOfSid k smp sid.plain = .ok ace.applicable ∧ ¬sid.plain.IsNfs

theorem take_encoded {ace : KauthAce} {wire : WireAce} (encoded : encodeAce k smp ace = .ok wire)
    (back : MapsBack k smp ace) (s : Walk) :
    ∃ after, (s.take k smp wire).entries = s.entries ++ [after] ∧ SameAce ace after := by
  obtain ⟨kind, mapped, flags, rights⟩ := encodeAce_eq_ok k smp encoded
  obtain ⟨found, notNfs⟩ := back wire.sid mapped
  have kept : windowsNfsSID s.np wire.sid.plain = none := if_neg notNfs
  have decoded : translate rightsFromWire (wire.rights % 2 ^ 32) =
      (ace.rights &&& kauthAceRights) ||| addedRights ace := by
    rw [rights, rights_back, addedRights, kind]
    simp only [kauth_inj]
  refine ⟨⟨ace.applicable, wire.kind.kauth ||| (ace.flags &&& knownBits flagsToWire),
    (ace.rights &&& kauthAceRights) ||| addedRights ace⟩, ?_, ?_⟩
  · simp only [Walk.take, kept, found, flags, flags_back, decoded]
  · refine ⟨?_, ?_, rfl, rfl⟩
    · dsimp only
      have apart : knownBits flagsToWire &&& kauthAceKindmask = 0 := by decide
      have whole : wire.kind.kauth &&& kauthAceKindmask = wire.kind.kauth := by cases wire.kind <;> rfl
      rw [Nat.and_or_distrib_right, Nat.and_assoc, apart, Nat.and_zero, Nat.or_zero, whole, kind]
    · dsimp only
      have inside : knownBits flagsToWire &&& kauthAceInheritMask = kauthAceInheritMask := by decide
      have apart : wire.kind.kauth &&& kauthAceInheritMask = 0 := by cases wire.kind <;> rfl
      rw [Nat.and_or_distrib_right, Nat.and_assoc, inside, apart, Nat.zero_or]

theorem foldl_take_encoded {aces : List KauthAce}
    (encoded : List.Forall₂ (fun ace wire => encodeAce k smp ace = .ok wire) aces wires)
    (back : ∀ ace ∈ aces, MapsBack k smp ace) (s : Walk) :
    ∃ after, (wires.foldl (Walk.take k smp) s).entries = s.entries ++ after ∧ List.Forall₂ SameAce aces after := by
  induction encoded generalizing s with
  | nil => exact ⟨[], (List.append_nil _).symm, .nil⟩
  | @cons ace wire aces wires first rest ih =>
    obtain ⟨decoded, appended, same⟩ := take_encoded k smp first (back ace List.mem_cons_self) s
    obtain ⟨after, later, all⟩ := ih (fun ace listed => back ace (List.mem_cons_of_mem _ listed)) (s.take k smp wire)
    refine ⟨decoded :: after, ?_, .cons same all⟩
    rw [List.foldl_cons, later, appended, List.append_assoc, List.singleton_append]

theorem isNfs_nfsSid (type value : UInt32) : (nfsSid type value).plain.IsNfs := ⟨rfl, rfl, rfl, rfl⟩

theorem foldl_take_nfs (nfs : ∀ wire ∈ wires, wire.sid.plain.IsNfs) (s : Walk) :
    (wires.foldl (Walk.take k smp) s).entries = s.entries := by
  induction wires generalizing s with
  | nil => rfl
  | cons wire rest ih =>
    have first : windowsNfsSID s.np wire.sid.plain = some (s.np.takeNfs wire.sid.plain) :=
      if_pos (nfs wire List.mem_cons_self)
    rw [List.foldl_cons, ih fun wire listed => nfs wire (List.mem_cons_of_mem _ listed)]
    simp only [Walk.take, first]

theorem nfsAces_isNfs (np : Smbnode) : ∀ wire ∈ nfsAces np, wire.sid.plain.IsNfs := by
  intro wire listed
  simp only [nfsAces, List.mem_append] at listed
  obtain (listed | listed) | listed := listed <;> split at listed <;>
    simp only [List.mem_singleton, List.not_mem_nil] at listed
  all_goals
    subst listed
    apply isNfs_nfsSid

/-! ## The descriptor -/

theorem wrap32_of_lt {value : Int} (positive : 0 ≤ value) (small : value < 2 ^ 31) : wrap32 value = value := by
  unfold wrap32
  omega

theorem smbSdoffset_found {type : SdType} {off : Nat} (field : w.uint type.field 4 = off)
    (positive : 0 < off) (fits : off + 8 ≤ w.seclen) (small : w.seclen < 2 ^ 31) :
    (smbSdoffset w type).result = .ok (some off) := by
  have sameOff : wrap32 (off : Int) = off := wrap32_of_lt (by omega) (by omega)
  have sameLen : wrap32 (w.seclen : Int) = w.seclen := wrap32_of_lt (by omega) (by omega)
  have sameEnd : wrap32 ((off : Int) + 8) = off + 8 := wrap32_of_lt (by omega) (by omega)
  simp only [smbSdoffset, readUint, note, result_bind, except_ok_bind, result_pure, field, sameOff, sameLen, sameEnd]
  rw [if_neg (by omega), if_neg (by omega), if_neg (by omega), if_neg (by omega)]
  rfl

theorem forall₂_of_mapM {α β : Type} {f : α → Except Errno β} {xs : List α} {ys : List β}
    (mapped : xs.mapM f = .ok ys) : List.Forall₂ (fun x y => f x = .ok y) xs ys := by
  induction xs generalizing ys with
  | nil =>
    cases mapped
    exact .nil
  | cons x xs ih =>
    rw [List.mapM_cons] at mapped
    obtain ⟨y, first, mapped⟩ := except_bind_eq_ok.mp mapped
    obtain ⟨rest, later, built⟩ := except_bind_eq_ok.mp mapped
    cases built
    exact .cons first (ih later)

theorem length_putSids (info : SecurityInfo) : (putSids info).length =
    (info.owner.map NtSid.len).getD 0 + (info.group.map NtSid.len).getD 0 := by
  obtain ⟨owner, group, dacl, controlFlags⟩ := info
  cases owner <;> cases group <;> simp [putSids, NtSid.length_put]

theorem NtSid.len_le (sid : NtSid) : sid.len ≤ 72 := by
  have short := sid.count_le
  unfold kauthNtsidMaxAuthorities at short
  unfold NtSid.len
  omega

theorem length_putSids_le (info : SecurityInfo) : (putSids info).length ≤ 144 := by
  have short (sid : Option NtSid) : (sid.map NtSid.len).getD 0 ≤ 72 := by
    cases sid with
    | none => exact Nat.zero_le _
    | some sid => exact sid.len_le
  rw [length_putSids]
  exact Nat.add_le_add (short info.owner) (short info.group)

theorem length_flatMap_put_le (aces : List WireAce) : (aces.flatMap WireAce.put).length ≤ 80 * aces.length := by
  induction aces with
  | nil => exact Nat.zero_le _
  | cons ace rest ih =>
    have first := ace.sid.len_le
    rw [List.flatMap_cons, List.length_append, ace.length_put, List.length_cons]
    omega

theorem putDescriptor_dacl {info : SecurityInfo} {aces : List WireAce} (sent : info.dacl = some (putDacl aces))
    (few : aces.length ≤ 1000) :
    let w := Memory.ofBytes (putDescriptor info)
    let dacl := sizeofNtsecdesc + (putSids info).length
    (smbSdoffset w .dacl).result = .ok (some dacl) ∧ w.uint (dacl + 4) 2 = aces.length ∧
      w.Holds (dacl + 8) (aces.flatMap WireAce.put) := by
  intro w dacl
  have sids := length_putSids_le info
  have entries := length_flatMap_put_le aces
  have holds : w.Holds 0 (putDescriptor info) := Memory.holds_ofBytes _
  simp only [putDescriptor, sent, Option.isSome_some, if_true, Option.getD_some, putDacl, Memory.Holds.append_iff,
    List.length_append, List.length_cons, List.length_nil, length_toLe, Nat.reduceAdd, Nat.zero_add] at holds
  obtain ⟨⟨⟨_, offset⟩, _⟩, ⟨⟨⟨_, count⟩, _⟩, body⟩⟩ := holds
  have place : sizeofNtsecdesc + (info.owner.map NtSid.len).getD 0 + (info.group.map NtSid.len).getD 0 = dacl := by
    rw [Nat.add_assoc, ← length_putSids]
  rw [place] at offset
  have bodyHeld : w.Holds (dacl + 8) (aces.flatMap WireAce.put) := body
  have size : w.seclen = dacl + 8 + (aces.flatMap WireAce.put).length := by
    change (putDescriptor info).length = _
    simp only [putDescriptor, sent, Option.getD_some, putDacl, List.length_append, List.length_cons, List.length_nil,
      length_toLe, dacl, sizeofNtsecdesc]
    omega
  have near : dacl = 20 + (putSids info).length := rfl
  refine ⟨smbSdoffset_found ?_ (by omega) (by omega) (by omega), ?_, bodyHeld⟩
  · exact offset.uint.trans (Nat.mod_eq_of_lt (by omega))
  · have counted := count.uint
    rw [Nat.mod_eq_of_lt (by omega)] at counted
    exact counted

theorem smbfsSetsecurity_acl {np : Smbnode} {vap : Vattr} {acl : KauthAcl} {desc : Bytes} (isAcl : vap.acl = .acl acl)
    (accepted : smbfsSetsecurity k smp false np vap = .ok (some desc)) :
    ∃ info wires, List.Forall₂ (fun ace wire => encodeAce k smp ace = .ok wire) acl.entries wires ∧
      acl.entries.length ≤ kauthAclMaxEntries ∧ info.dacl = some (putDacl (nfsAces np ++ wires)) ∧
      desc = putDescriptor info := by
  simp only [smbfsSetsecurity, Bool.false_eq_true, if_false, isAcl] at accepted
  obtain ⟨group, _, accepted⟩ := except_bind_eq_ok.mp accepted
  obtain ⟨owner, _, accepted⟩ := except_bind_eq_ok.mp accepted
  obtain ⟨dacl, encoded, accepted⟩ := except_bind_eq_ok.mp accepted
  unfold encodeDacl at encoded
  split at encoded
  · cases encoded
  · rename_i few
    obtain ⟨wires, mapped, built⟩ := except_bind_eq_ok.mp encoded
    cases built
    cases accepted
    exact ⟨_, wires, forall₂_of_mapM mapped, Nat.le_of_not_gt few, rfl, rfl⟩

theorem length_nfsAces_le (np : Smbnode) : (nfsAces np).length ≤ 3 := by
  unfold nfsAces
  split <;> split <;> split <;> simp

theorem decodeDacl_put {dacl : Nat} {sec : Decoded}
    (counted : w.uint (dacl + 4) 2 = wires.length) (holds : w.Holds (dacl + 8) (wires.flatMap WireAce.put))
    (room : k.aclAlloc wires.length = true) (kept : (wires.foldl (Walk.take k smp) { np := sec.np }).entries ≠ []) :
    ∃ decoded acl, (decodeDacl k smp w sec dacl).result = .ok decoded ∧ decoded.acl = some acl ∧
      decoded.error = sec.error ∧ acl.entries = (wires.foldl (Walk.take k smp) { np := sec.np }).entries := by
  simp only [decodeDacl, readUint, note, result_bind, except_ok_bind, result_pure, counted, room, not_true, if_false,
    walkAces_put k smp holds, if_neg kept]
  exact ⟨_, _, rfl, rfl, rfl, rfl⟩

theorem smbfsGetsecurity_dacl {np : Smbnode} {wanted : Wanted} {group user : Option Guid × Smbnode}
    {dacl : Nat} (gotGroup : (identifierIfWanted k smp wanted.guuid false (some w) np).result = .ok group)
    (gotUser : (identifierIfWanted k smp wanted.uuuid true (some w) group.2).result = .ok user)
    (asked : wanted.acl = true) (found : (smbSdoffset w .dacl).result = .ok (some dacl)) :
    (smbfsGetsecurity k smp false np wanted (.ok w)).result =
      (decodeDacl k smp w { guuid := group.1, uuuid := user.1, np := user.2 } dacl).result := by
  have reached (sec : Decoded) : (smbSdoffset w .dacl >>= decodeFound k smp w sec).result =
      (decodeFound k smp w sec (some dacl)).result := by
    rw [result_bind, found, except_ok_bind]
  unfold smbfsGetsecurity
  rw [if_neg Bool.false_ne_true, result_bind]
  refine (congrArg (· >>= _) gotGroup).trans ?_
  rw [except_ok_bind, result_bind]
  refine (congrArg (· >>= _) gotUser).trans ?_
  rw [except_ok_bind]
  simp only [Except.toOption, asked, if_true]
  exact reached _

/-- A list that is set and got again has the same entries in the same order, but for the added right. -/
theorem smbfsGetsecurity_setsecurity {np np' : Smbnode} {vap : Vattr} {acl : KauthAcl} {desc : Bytes} {wanted : Wanted}
    (isAcl : vap.acl = .acl acl) (accepted : smbfsSetsecurity k smp false np vap = .ok (some desc))
    (nonempty : acl.entries ≠ []) (back : ∀ ace ∈ acl.entries, MapsBack k smp ace) (asked : wanted.acl = true)
    (room : k.aclAlloc ((nfsAces np).length + acl.entries.length) = true) :
    ∃ decoded after, (smbfsGetsecurity k smp false np' wanted (.ok (.ofBytes desc))).result = .ok decoded ∧
      decoded.error = none ∧ decoded.acl = some after ∧ List.Forall₂ SameAce acl.entries after.entries := by
  obtain ⟨info, wires, encoded, few, sent, rfl⟩ := smbfsSetsecurity_acl k smp isAcl accepted
  have all : (nfsAces np ++ wires).length = (nfsAces np).length + acl.entries.length := by
    rw [List.length_append, encoded.length_eq]
  have short : (nfsAces np ++ wires).length ≤ 1000 := by
    have three := length_nfsAces_le np
    unfold kauthAclMaxEntries at few
    omega
  obtain ⟨found, counted, holds⟩ := putDescriptor_dacl sent short
  have whole : sizeofNtsecdesc ≤ (Memory.ofBytes (putDescriptor info)).seclen := by
    have inside := holds.2
    omega
  obtain ⟨_, group, gotGroup, _⟩ := @yields_identifierIfWanted _ 0 k smp whole wanted.guuid false np'
  obtain ⟨_, user, gotUser, _⟩ := @yields_identifierIfWanted _ 0 k smp whole wanted.uuuid true group.2
  obtain ⟨after, entries, same⟩ := foldl_take_encoded k smp encoded back
    ((nfsAces np).foldl (Walk.take k smp) { np := user.2 })
  rw [foldl_take_nfs k smp (nfsAces_isNfs np), List.nil_append, ← List.foldl_append] at entries
  have kept : after ≠ [] := by
    rintro rfl
    exact nonempty (List.forall₂_nil_right_iff.mp same)
  let sec : Decoded := { guuid := group.1, uuuid := user.1, np := user.2 }
  have decodes : ((nfsAces np ++ wires).foldl (Walk.take k smp) { np := sec.np }).entries ≠ [] := entries ▸ kept
  obtain ⟨decoded, result, run, isAcl, noError, contents⟩ :=
    decodeDacl_put k smp counted holds (all ▸ room) decodes
  refine ⟨decoded, result, ?_, noError, isAcl, ?_⟩
  · exact (smbfsGetsecurity_dacl k smp gotGroup gotUser asked found).trans run
  · rw [contents, entries]
    exact same

def lastByte (byte : UInt8) : Guid := List.replicate 15 0 ++ [byte]

def twoEntries : KauthAcl where
  flags := 0
  entries :=
    [⟨lastByte 7, AceKind.permit.kauth ||| kauthAceFileInherit, kauthVnodeReadData⟩,
      ⟨lastByte 9, AceKind.deny.kauth, kauthVnodeWriteData⟩]

def nfsNode : Smbnode := { uid := 0, gid := 0, nfsUid := 501, mode := 0o644 }

theorem smbfsGetsecurity_setsecurity_two :
    ∃ desc, smbfsSetsecurity plainKauth plainMount false nfsNode ⟨none, none, .acl twoEntries⟩ = .ok (some desc) ∧
      ∃ decoded after,
        (smbfsGetsecurity plainKauth plainMount false nfsNode ⟨true, false, false⟩ (.ok (.ofBytes desc))).result =
            .ok decoded ∧
          decoded.error = none ∧ decoded.acl = some after ∧ List.Forall₂ SameAce twoEntries.entries after.entries := by
  have accepted : ∃ desc,
      smbfsSetsecurity plainKauth plainMount false nfsNode ⟨none, none, .acl twoEntries⟩ = .ok (some desc) := ⟨_, rfl⟩
  obtain ⟨desc, accepted⟩ := accepted
  refine ⟨desc, accepted, smbfsGetsecurity_setsecurity plainKauth plainMount rfl accepted (by decide) ?_ rfl (by decide)⟩
  intro ace listed sid mapped
  simp only [twoEntries, List.mem_cons, List.not_mem_nil, or_false] at listed
  obtain rfl | rfl := listed <;> cases mapped <;> exact ⟨rfl, by decide⟩

def nfsKauth : Kauth :=
  { plainKauth with
    ntsid2guid := fun sid => .ok (lastByte (sid.authorities.getD 2 0).toUInt8)
    guid2ntsid := fun guid => .ok (nfsSid nfsSidTypeOwner (guid.getD 15 0).toUInt32) }

/-- An entry for such an identity, which maps to its SID and back, is not there when the list is read. -/
theorem smbfsGetsecurity_loses_nfs :
    let guid := lastByte 7
    let acl : KauthAcl := ⟨0, [⟨guid, AceKind.permit.kauth, kauthVnodeReadData⟩]⟩
    let node : Smbnode := { uid := 0, gid := 0, mode := 0o644 }
    (sidOfGuid nfsKauth plainMount guid >>= guidOfSid nfsKauth plainMount) = .ok guid ∧
      ((smbfsSetsecurity nfsKauth plainMount false node ⟨none, none, .acl acl⟩).toOption.bind id).map
          (fun desc => ((smbfsGetsecurity nfsKauth plainMount false node ⟨true, false, false⟩
            (.ok (.ofBytes desc))).result.toOption.map (·.acl))) =
        some (some none) := by
  decide +kernel

end SmbClient.Security
