import SmbClient.Security.Decode
import SmbClient.Security.Encode

/-! `smbfs_set_ace_modes`: a node gets its permission bits before they are sent to the server, and has to get back
what it had if that fails. -/

namespace SmbClient.Security
open SmbClient.Lib SmbClient.Lib.Traced SmbClient.Mbuf

def Smbnode.withPerms (np : Smbnode) (mode : Nat) : Smbnode :=
  { np with mode := np.mode - np.mode % (accessperms + 1) + mode % (accessperms + 1) }

/-- `smbfs_smb_setsec` and, with SMB 1, the open before it: what becomes of a descriptor that is sent. -/
abbrev Setsec := Bytes → Option Errno

def smbfsSetDefaultNfsAce (np : Smbnode) (setsec : Setsec) : Option Errno :=
  setsec (putDescriptor { dacl := some (putDacl [setNfsAce nfsSidTypeModes (UInt32.ofNat np.mode)]) })

section
variable (k : Kauth) (smp : Smbmount)

def setAcl (namedStream : Bool) (np : Smbnode) (setsec : Setsec) : Option KauthAcl → Option Errno
  | none => smbfsSetDefaultNfsAce np setsec
  | some acl =>
    match smbfsSetsecurity k smp namedStream np ⟨none, none, .acl acl⟩ with
    | .error e => some e
    | .ok descriptor => descriptor.bind setsec

def smbfsSetAceModes (namedStream : Bool) (np : Smbnode) (vamode : Nat) (cached : Except Errno Memory)
    (setsec : Setsec) : Walker (Option Errno × Smbnode) := do
  let saveMode := np.mode
  let sec ← smbfsGetsecurity k smp namedStream np ⟨true, false, false⟩ cached
  match sec.error with
  | some e => pure (some e, sec.np)
  | none =>
    let np := { sec.np.withPerms vamode with hasPosixModes := true }
    match setAcl k smp namedStream np setsec sec.acl with
    | some e => pure (some e, np.withPerms saveMode)
    | none => pure (none, np)

end

/-! ## The modes that a descriptor holds -/

/-- The has-posix-modes flag and the permission bits. -/
def Smbnode.modes (np : Smbnode) : Bool × Nat := (np.hasPosixModes, np.mode % (accessperms + 1))

theorem Smbnode.modes_withPerms (np : Smbnode) (mode : Nat) :
    (np.withPerms mode).modes = (np.hasPosixModes, mode % (accessperms + 1)) := by
  refine Prod.ext rfl ?_
  simp only [Smbnode.modes, Smbnode.withPerms, accessperms]
  omega

def NtSid.posixModes (sid : NtSid) : Option Nat :=
  if sid.IsNfs ∧ sid.authorities.getD 1 0 = nfsSidTypeModes then
    some ((sid.authorities.getD 2 0).toNat % (accessperms + 1))
  else none

def Memory.sidIn (w : Memory) (sid : Nat) : NtSid :=
  if fits : w.uint (sid + 1) 1 ≤ kauthNtsidMaxAuthorities then
    if sid + 8 + 4 * w.uint (sid + 1) 1 > w.seclen then .zero else w.sidAt sid (w.uint (sid + 1) 1) fits
  else .zero

def Memory.badAce (w : Memory) (acep : Nat) : Bool :=
  (AceKind.ofWire (w.uint acep 1)).isNone || decide (acep + 8 + 8 > w.seclen)

/-- The modes in the entries from `acep` on, in order, and whether a bad entry ends them. -/
def Memory.aceModes (w : Memory) : Nat → Nat → List Nat × Bool
  | 0, _ => ([], false)
  | left + 1, acep =>
    if acep + 8 < w.seclen then
      if w.badAce acep then ([], true)
      else
        let rest := w.aceModes left (acep + w.uint (acep + 2) 2)
        ((w.sidIn (acep + 8)).posixModes.toList ++ rest.1, rest.2)
    else ([], false)

/-- The modes that a read of the ACL comes by, and whether it fails. -/
def readModes (k : Kauth) (namedStream : Bool) : Except Errno Memory → List Nat × Bool
  | .error e => ([], namedStream || e != .eacces)
  | .ok w =>
    if namedStream then ([], true)
    else
      match (smbSdoffset w .dacl).result with
      | .ok (some dacl) =>
        if k.aclAlloc (w.uint (dacl + 4) 2) then w.aceModes (w.uint (dacl + 4) 2) (dacl + 8) else ([], true)
      | _ => ([], false)

def lastModes (modes : List Nat) (before : Bool × Nat) : Bool × Nat := (modes.getLast?.map (true, ·)).getD before

theorem lastModes_append (first second : List Nat) (before : Bool × Nat) :
    lastModes (first ++ second) before = lastModes second (lastModes first before) := by
  unfold lastModes
  rw [List.getLast?_append]
  cases second.getLast? <;> rfl

theorem modes_takeNfs {np : Smbnode} {sid : NtSid} (nfs : sid.IsNfs) :
    (np.takeNfs sid).modes = lastModes sid.posixModes.toList np.modes := by
  unfold Smbnode.takeNfs NtSid.posixModes
  dsimp only
  by_cases isModes : sid.authorities.getD 1 0 = nfsSidTypeModes
  · have typed : sid.IsNfs ∧ sid.authorities.getD 1 0 = nfsSidTypeModes := ⟨nfs, isModes⟩
    rw [if_neg (by rw [isModes]; decide), if_neg (by rw [isModes]; decide), if_pos isModes, if_pos typed]
    exact Smbnode.modes_withPerms { np with hasPosixModes := true } _
  · have other : ¬(sid.IsNfs ∧ sid.authorities.getD 1 0 = nfsSidTypeModes) := fun both => isModes both.2
    rw [if_neg isModes, if_neg other]
    split_ifs <;> rfl

/-! ## What a read leaves -/

section
variable {w : Memory} (k : Kauth) (smp : Smbmount)

abbrev Ends {α : Type} (Q : α → Prop) (x : Walker α) : Prop := Yields (fun _ => True) Q x

theorem ends_note (accesses : List Access) : Ends (fun _ => True) (note accesses) := ⟨fun _ _ => trivial, (), rfl, trivial⟩

theorem ends_readUint (off len : Nat) : Ends (· = w.uint off len) (readUint w off len) :=
  .bind (ends_note _) fun _ _ => .pure rfl

theorem ends_smbSid2sid16 (sid : Nat) : Ends (· = w.sidIn sid) (smbSid2sid16 w sid) := by
  refine .bind (ends_readUint _ _) fun count counted => ?_
  subst counted
  unfold Memory.sidIn
  split
  · refine .ite (fun past => .pure (if_pos past).symm) fun inside => ?_
    exact .bind (ends_note _) fun _ _ => .bind (ends_note _) fun _ _ => .pure (if_neg inside).symm
  · exact .pure rfl

theorem ends_visitAce (acep : Nat) (s : Walk) :
    Ends (fun r => r.1.isSome = w.badAce acep ∧ r.2.np.modes =
      if w.badAce acep then s.np.modes else lastModes (w.sidIn (acep + 8)).posixModes.toList s.np.modes)
      (visitAce k smp w acep s) := by
  refine .bind (ends_readUint _ _) fun type typed => ?_
  subst typed
  unfold Memory.badAce
  cases AceKind.ofWire (w.uint acep 1) with
  | none => exact .pure ⟨rfl, rfl⟩
  | some kind =>
    refine .ite (fun past => .pure ?_) fun inside => ?_
    · simp [past]
    refine .bind (ends_smbSid2sid16 _) fun sid decoded => ?_
    subst decoded
    simp only [Option.isNone_some, Bool.false_or, decide_eq_false inside]
    unfold windowsNfsSID
    by_cases nfs : (w.sidIn (acep + 8)).IsNfs
    · rw [if_pos nfs]
      exact .pure ⟨rfl, modes_takeNfs nfs⟩
    · have plain : (w.sidIn (acep + 8)).posixModes = none := if_neg fun both => nfs both.1
      rw [if_neg nfs, plain]
      refine .bind (ends_note _) fun _ _ => ?_
      cases guidOfSid k smp (w.sidIn (acep + 8)) with
      | error e =>
        have logged := (@yields_logUnmapped w 0 (acep + 8) smp (by omega)).2
        exact .bind ⟨fun _ _ => trivial, logged⟩ fun _ _ => .pure ⟨rfl, rfl⟩
      | ok applicable => exact .bind (ends_readUint _ _) fun _ _ => .bind (ends_readUint _ _) fun _ _ => .pure ⟨rfl, rfl⟩

theorem ends_walkAces (left acep : Nat) (s : Walk) :
    Ends (fun r => r.1.isSome = (w.aceModes left acep).2 ∧ r.2.np.modes = lastModes (w.aceModes left acep).1 s.np.modes)
      (walkAces k smp w left acep s) := by
  induction left generalizing acep s with
  | zero => exact .pure ⟨rfl, rfl⟩
  | succ left ih =>
    rw [Memory.aceModes]
    refine .ite (fun header => ?_) fun done => .pure ?_
    · rw [if_pos header]
      refine .bind (ends_visitAce k smp acep s) fun ⟨error, next⟩ ⟨ended, modes⟩ => ?_
      cases error with
      | some e =>
        rw [← ended] at modes ⊢
        exact .pure ⟨rfl, modes⟩
      | none =>
        refine .bind (ends_readUint _ _) fun acelen read => ?_
        subst read
        rw [← ended] at modes ⊢
        refine .mono (ih _ next) fun r ⟨error, later⟩ => ⟨error, ?_⟩
        rw [later, modes]
        exact (lastModes_append _ _ _).symm
    · rw [if_neg done]
      exact ⟨rfl, rfl⟩

theorem ends_smbSdoffset (type : SdType) :
    Ends (fun found => (smbSdoffset w type).result = .ok found) (smbSdoffset w type) := by
  have ended : Ends (fun _ => True) (smbSdoffset w type) := by
    refine .bind (ends_readUint _ _) fun field _ => ?_
    refine .ite (fun _ => .pure trivial) fun _ => ?_
    refine .ite (fun _ => .pure trivial) fun _ => ?_
    refine .ite (fun _ => .pure trivial) fun _ => ?_
    exact .ite (fun _ => .pure trivial) fun _ => .pure trivial
  obtain ⟨-, found, run, -⟩ := ended
  exact ⟨fun _ _ => trivial, found, run, run⟩

theorem ends_smbfsGetsecurity (namedStream : Bool) (np : Smbnode) (cached : Except Errno Memory) :
    Ends (fun sec => sec.error.isSome = (readModes k namedStream cached).2 ∧
        sec.np.modes = lastModes (readModes k namedStream cached).1 np.modes)
      (smbfsGetsecurity k smp namedStream np ⟨true, false, false⟩ cached) := by
  have unwanted (owner : Bool) (w : Option Memory) (np : Smbnode) :
      Ends (· = (none, np)) (identifierIfWanted k smp false owner w np) := .pure rfl
  cases namedStream with
  | true => cases cached <;> exact .pure ⟨rfl, rfl⟩
  | false =>
    refine .bind (unwanted _ _ _) fun group none => ?_
    subst none
    refine .bind (unwanted _ _ _) fun user none => ?_
    subst none
    cases cached with
    | error e => cases e <;> exact .pure ⟨rfl, rfl⟩
    | ok w =>
      refine .ite (fun _ => ?_) fun unasked => absurd rfl unasked
      refine .bind (ends_smbSdoffset .dacl) fun found run => ?_
      simp only [readModes, run]
      cases found with
      | none => exact .pure ⟨rfl, rfl⟩
      | some dacl =>
        refine .bind (ends_readUint _ _) fun acecount counted => ?_
        subst counted
        dsimp only
        by_cases room : k.aclAlloc (w.uint (dacl + 4) 2) = true
        · rw [if_neg (not_not.mpr room), if_pos room]
          refine .bind (ends_readUint _ _) fun control _ => ?_
          refine .bind (ends_walkAces k smp _ _ _) fun ⟨error, walk⟩ ⟨failed, modes⟩ => ?_
          cases error with
          | some e => exact .pure ⟨failed, modes⟩
          | none => exact .ite (fun _ => .pure ⟨failed, modes⟩) fun _ => .pure ⟨failed, modes⟩
        · rw [if_pos room, if_neg room]
          exact .pure ⟨rfl, rfl⟩

/-- A failing call leaves flag and bits as they were just when the node had the flag before; or, where the ACL could not be
read, when the last modes that were read are those of the node. -/
theorem smbfsSetAceModes_restores_iff (namedStream : Bool) (np : Smbnode) (vamode : Nat) (cached : Except Errno Memory)
    (setsec : Setsec) : ∃ error after,
      (smbfsSetAceModes k smp namedStream np vamode cached setsec).result = .ok (error, after) ∧
      (error ≠ none → (after.modes = np.modes ↔
        if (readModes k namedStream cached).2 then ∀ mode ∈ (readModes k namedStream cached).1.getLast?, np.modes = (true, mode)
        else np.hasPosixModes = true)) := by
  obtain ⟨-, sec, run, failed, modes⟩ := ends_smbfsGetsecurity k smp namedStream np cached
  unfold smbfsSetAceModes
  simp only [result_bind, run, except_ok_bind]
  cases read : sec.error with
  | some e =>
    refine ⟨some e, sec.np, rfl, fun _ => ?_⟩
    rw [read] at failed
    rw [← failed, if_pos (Option.isSome_some), modes, lastModes]
    cases (readModes k namedStream cached).1.getLast? with
    | none => simp
    | some mode => simp [eq_comm]
  | none =>
    rw [read] at failed
    rw [← failed, if_neg (by decide)]
    dsimp only
    split
    · rename_i e refused
      refine ⟨some e, _, rfl, fun _ => ?_⟩
      rw [Smbnode.modes_withPerms]
      exact ⟨fun same => (congrArg Prod.fst same).symm, fun had => Prod.ext had.symm rfl⟩
    · exact ⟨none, _, rfl, fun none => absurd rfl none⟩

end

/-- A node without posix modes: the server refuses to set its ACL, and the flag stays. -/
theorem smbfsSetAceModes_keeps_flag :
    (smbfsSetAceModes plainKauth plainMount false { uid := 0, gid := 0, mode := 0o644 } 0o600 (.error .eacces)
      fun _ => some .eacces).result = .ok (some .eacces, { uid := 0, gid := 0, mode := 0o644, hasPosixModes := true }) := by
  decide

end SmbClient.Security
