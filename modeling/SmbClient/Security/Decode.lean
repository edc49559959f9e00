import SmbClient.Security.Descriptor

/-! Decoding stays inside the buffer of the descriptor, whatever its bytes are. -/

namespace SmbClient.Security
open SmbClient.Lib SmbClient.Lib.Traced SmbClient.Mbuf

/-- A read lies in the buffer, and a store in the entries that an ACL of `count` has. -/
def Access.Inside (w : Memory) (count : Nat) : Access → Prop
  | .read off len => off + len ≤ w.seclen
  | .store index => index < count

instance (w : Memory) (count : Nat) : DecidablePred (Access.Inside w count)
  | .read _ _ => inferInstanceAs (Decidable (_ ≤ _))
  | .store _ => inferInstanceAs (Decidable (_ < _))

def acecountAt (w : Memory) : Except Errno (Option Nat) → Nat
  | .ok (some dacl) => w.uint (dacl + 4) 2
  | _ => 0

def declaredAces (w : Memory) : Nat := acecountAt w (smbSdoffset w .dacl).result

theorem declaredAces_eq {w : Memory} {dacl : Nat} (found : (smbSdoffset w .dacl).result = .ok (some dacl)) :
    declaredAces w = w.uint (dacl + 4) 2 :=
  congrArg (acecountAt w) found

section
variable {w : Memory} {count : Nat}

theorem yields_note {accesses : List Access} (inside : ∀ a ∈ accesses, a.Inside w count) :
    Yields (Access.Inside w count) (fun _ => True) (note accesses) :=
  ⟨inside, (), rfl, trivial⟩

theorem yields_readUint {off len : Nat} (inside : off + len ≤ w.seclen) :
    Yields (Access.Inside w count) (fun value => value = w.uint off len) (readUint w off len) :=
  .bind (yields_note (by simpa [Access.Inside] using inside)) fun _ _ => .pure rfl

theorem yields_smbSdoffset (whole : sizeofNtsecdesc ≤ w.seclen) (type : SdType) :
    Yields (Access.Inside w count) (fun found => ∀ off ∈ found, off + 8 ≤ w.seclen) (smbSdoffset w type) := by
  have header : type.field + 4 ≤ w.seclen := by
    refine Nat.le_trans ?_ whole
    cases type <;> decide
  refine .bind (yields_readUint header) fun field _ => ?_
  refine .ite (fun _ => .pure nofun) fun notNegative => ?_
  refine .ite (fun _ => .pure nofun) fun notShort => ?_
  refine .ite (fun _ => .pure nofun) fun inRange => ?_
  refine .ite (fun _ => .pure nofun) fun endInRange => .pure ?_
  intro off found
  rw [Option.mem_def, Option.some.injEq] at found
  subst found
  unfold wrap32 at inRange endInRange notNegative
  unfold wrap32
  omega

variable {sid : Nat}

theorem subauthReads_inside {subs : Nat} (fits : sid + 8 + 4 * subs ≤ w.seclen) :
    ∀ a ∈ subauthReads sid subs, a.Inside w count := by
  intro a listed
  obtain ⟨i, member, rfl⟩ := List.mem_map.mp listed
  have below := List.mem_range.mp member
  change sid + 8 + 4 * i + 4 ≤ w.seclen
  omega

theorem yields_smbSid2sid16 (fits : sid + 8 ≤ w.seclen) :
    Yields (Access.Inside w count) (fun _ => True) (smbSid2sid16 w sid) := by
  refine .bind (yields_readUint (by omega)) fun subs _ => ?_
  split
  · refine .ite (fun _ => .pure trivial) fun room => ?_
    refine .bind (yields_note ?_) fun _ _ => ?_
    · simp only [List.mem_cons, List.not_mem_nil, or_false, forall_eq_or_imp, forall_eq, Access.Inside]
      omega
    · exact .bind (yields_note (subauthReads_inside (by omega))) fun _ _ => .pure trivial
  · exact .pure trivial

theorem yields_smbPrintsid (fits : sid + 8 ≤ w.seclen) :
    Yields (Access.Inside w count) (fun _ => True) (smbPrintsid w sid) := by
  refine .bind (yields_note ?_) fun _ _ => ?_
  · simp only [List.mem_cons, List.not_mem_nil, or_false, forall_eq_or_imp, forall_eq, Access.Inside]
    omega
  refine .bind (yields_readUint (by omega)) fun subs _ => ?_
  exact .ite (fun _ => .pure trivial) fun room => yields_note (subauthReads_inside (by omega))

variable (k : Kauth) (smp : Smbmount)

theorem yields_logUnmapped (fits : sid + 8 ≤ w.seclen) :
    Yields (Access.Inside w count) (fun _ => True) (logUnmapped smp w sid) :=
  .ite (fun _ => yields_smbPrintsid fits) fun _ => .pure trivial

theorem yields_identifierOf (owner : Bool) (nodeIdentifier : UInt32) {sidp : Nat} (fits : sidp + 8 ≤ w.seclen) :
    Yields (Access.Inside w count) (fun _ => True) (identifierOf k smp w owner nodeIdentifier sidp) := by
  refine .bind (yields_smbSid2sid16 fits) fun sid _ => ?_
  refine .ite (fun _ => .pure trivial) fun _ => ?_
  split
  · exact .bind (yields_logUnmapped smp fits) fun _ _ => .pure trivial
  · refine .ite (fun _ => .pure trivial) fun _ => ?_
    split <;> exact .pure trivial

theorem yields_identifierIfWanted (whole : sizeofNtsecdesc ≤ w.seclen) (wanted owner : Bool) (np : Smbnode) :
    Yields (Access.Inside w count) (fun _ => True) (identifierIfWanted k smp wanted owner (some w) np) := by
  refine .ite (fun _ => ?_) fun _ => .pure trivial
  refine .bind (Q := fun _ => True) ?_ fun _ _ => .pure trivial
  refine .bind (Q := fun _ => True) ?_ fun _ _ => .pure trivial
  refine .bind (yields_smbSdoffset whole _) fun found inside => ?_
  cases found with
  | none => exact .pure trivial
  | some sidp => exact yields_identifierOf k smp owner _ (inside sidp rfl)

/-! ## The walk over the entries -/

theorem yields_visitAce {acep : Nat} {s : Walk} (header : acep + 8 < w.seclen) (room : s.entries.length < count) :
    Yields (Access.Inside w count)
      (fun r => r.2.visited = s.visited + 1 ∧ r.2.entries.length ≤ s.entries.length + 1)
      (visitAce k smp w acep s) := by
  have unchanged : s.entries.length ≤ s.entries.length + 1 := Nat.le_succ _
  refine .bind (yields_readUint (by omega)) fun type _ => ?_
  cases AceKind.ofWire type with
  | none => exact .pure ⟨rfl, unchanged⟩
  | some kind =>
    refine .ite (fun _ => .pure ⟨rfl, unchanged⟩) fun fits => ?_
    refine .bind (yields_smbSid2sid16 (by omega)) fun sid _ => ?_
    cases windowsNfsSID s.np sid with
    | some np => exact .pure ⟨rfl, unchanged⟩
    | none =>
      refine .bind (yields_note (by simpa [Access.Inside] using room)) fun _ _ => ?_
      cases guidOfSid k smp sid with
      | error e => exact .bind (yields_logUnmapped smp (by omega)) fun _ _ => .pure ⟨rfl, unchanged⟩
      | ok applicable =>
        refine .bind (yields_readUint (by omega)) fun flags _ => ?_
        refine .bind (yields_readUint (by omega)) fun rights _ => .pure ⟨rfl, ?_⟩
        simp

theorem yields_walkAces {left acep : Nat} {s : Walk} (room : s.entries.length + left ≤ count) :
    Yields (Access.Inside w count)
      (fun r => r.2.visited ≤ s.visited + left ∧ r.2.entries.length ≤ s.entries.length + left)
      (walkAces k smp w left acep s) := by
  induction left generalizing acep s with
  | zero => exact .pure ⟨Nat.le_refl _, Nat.le_refl _⟩
  | succ left ih =>
    refine .ite (fun header => ?_) fun _ => .pure ⟨Nat.le_add_right _ _, Nat.le_add_right _ _⟩
    refine .bind (yields_visitAce k smp header (by omega)) fun visit ⟨visited, kept⟩ => ?_
    cases visit.1 with
    | some error => exact .pure ⟨by dsimp only; omega, by dsimp only; omega⟩
    | none =>
      refine .bind (yields_readUint (by omega)) fun acelen _ => ?_
      refine .mono (ih (by omega)) fun r ⟨more, keeps⟩ => ⟨?_, ?_⟩ <;> omega

theorem yields_decodeDacl (whole : sizeofNtsecdesc ≤ w.seclen) {dacl : Nat} (fits : dacl + 8 ≤ w.seclen)
    {sec : Decoded} (fresh : sec.acl = none) (unvisited : sec.visited = 0) :
    let declared := w.uint (dacl + 4) 2
    Yields (Access.Inside w declared)
      (fun r => r.visited ≤ declared ∧ ∀ acl ∈ r.acl, acl.entries.length ≤ declared)
      (decodeDacl k smp w sec dacl) := by
  intro declared
  refine .bind (yields_readUint (by omega)) fun acecount counted => ?_
  subst counted
  have nothing : ∀ acl ∈ sec.acl, acl.entries.length ≤ declared := by simp [fresh]
  refine .ite (fun _ => .pure ⟨unvisited ▸ Nat.zero_le _, nothing⟩) fun _ => ?_
  refine .bind (yields_readUint (Nat.le_trans (by decide) whole)) fun control _ => ?_
  refine .bind (yields_walkAces k smp (Nat.le_of_eq (Nat.zero_add _))) fun walked ⟨visited, kept⟩ => ?_
  have few : walked.2.visited ≤ declared := visited.trans_eq (Nat.zero_add _)
  have short : walked.2.entries.length ≤ declared := kept.trans_eq (Nat.zero_add _)
  cases walked.1 with
  | some error => exact .pure ⟨few, nothing⟩
  | none =>
    refine .ite (fun _ => .pure ⟨few, nothing⟩) fun _ => .pure ⟨few, ?_⟩
    intro acl found
    cases found
    exact short

/-- Every read of the descriptor lies in its buffer, no more entries are visited or stored than it declares, and the
call comes to an end. -/
theorem smbfsGetsecurity_inside (namedStream : Bool) (np : Smbnode) (wanted : Wanted)
    (whole : sizeofNtsecdesc ≤ w.seclen) :
    Yields (Access.Inside w (declaredAces w))
      (fun r => r.visited ≤ declaredAces w ∧ ∀ acl ∈ r.acl, acl.entries.length ≤ declaredAces w)
      (smbfsGetsecurity k smp namedStream np wanted (.ok w)) := by
  refine .ite (fun _ => .pure ⟨Nat.zero_le _, nofun⟩) fun _ => ?_
  refine .bind (yields_identifierIfWanted k smp whole _ _ _) fun group _ => ?_
  refine .bind (yields_identifierIfWanted k smp whole _ _ _) fun user _ => ?_
  refine .ite (fun _ => ?_) fun _ => .pure ⟨Nat.zero_le _, nofun⟩
  obtain ⟨logged, found, run, inside⟩ := @yields_smbSdoffset w (declaredAces w) whole .dacl
  refine .bind (Q := (· = found)) ⟨logged, found, run, rfl⟩ fun reached same => ?_
  subst same
  cases reached with
  | none => exact .pure ⟨Nat.zero_le _, nofun⟩
  | some dacl =>
    rw [declaredAces_eq run]
    exact yields_decodeDacl k smp whole (inside dacl rfl) rfl rfl

end

def shortDescriptor : Bytes :=
  [1, 0] ++ toLe 2 0x8004 ++ toLe 4 20 ++ toLe 4 0 ++ toLe 4 0 ++ toLe 4 32 ++
    ([1, 1] ++ securityNtAuthority ++ toLe 4 18) ++
    ([2, 0] ++ toLe 2 36 ++ toLe 2 3 ++ [0, 0]) ++
    ([0, 3] ++ toLe 2 20 ++ toLe 4 1 ++ [1, 1] ++ securityNtAuthority ++ toLe 4 19) ++ [1, 0, 0]

def accountSid (rid : UInt32) : NtSid where
  kind := 1
  authcount := 1
  authority := securityNtAuthority
  authorities := rid :: List.replicate 15 0
  count_le := by decide
  authority_length := rfl
  authorities_length := rfl

def plainKauth : Kauth where
  ntsid2guid sid := .ok (List.replicate 15 0 ++ [(sid.authorities.getD 0 0).toUInt8])
  guid2ntsid guid := .ok (accountSid (guid.getD 15 0).toUInt32)
  ntsid2uid sid := .ok (sid.authorities.getD 0 0)
  ntsid2gid sid := .ok (sid.authorities.getD 0 0)
  uid2guid _ := .error .enoent
  gid2guid _ := .error .enoent
  aclAlloc count := count ≤ 128

def plainMount : Smbmount := ⟨false, .zero, kauthNullGuid, 501, 20, true⟩

theorem smbfsGetsecurity_inside_short :
    let w := Memory.ofBytes shortDescriptor
    let r := smbfsGetsecurity plainKauth plainMount false { uid := 0, gid := 0, mode := 0 } ⟨true, true, true⟩ (.ok w)
    sizeofNtsecdesc ≤ w.seclen ∧ AllLogged (Access.Inside w (declaredAces w)) r ∧ declaredAces w = 3 :=
  ⟨by decide, (smbfsGetsecurity_inside plainKauth plainMount false _ _ (by decide)).1, by decide +kernel⟩

end SmbClient.Security
