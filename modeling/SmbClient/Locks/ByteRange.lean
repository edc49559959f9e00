import SmbClient.Mbuf.Chain
import Mathlib.Data.List.FinRange

/-!
Byte range locks: the choice of the FID that an I/O request is done on, `FindFileRef`, and the locks that go when a
process closes the file, `smbfs_free_locks_on_close`. Locks are kept with the FIDs they were taken on, which are the
lock entries of the shared FID and the lock FID.
-/

namespace SmbClient.Locks
open SmbClient.Mbuf

structure ByteRangeLock where
  offset : Int
  length : Int
  pid : Int
  deriving DecidableEq, Repr

structure LockEntry where
  refcnt : Int := 0
  fid : Nat := 0
  lockList : List ByteRangeLock := []
  deriving DecidableEq, Repr

structure FileRefs where
  sharedRefcnt : Int := 0
  sharedFid : Nat := 0
  sharedAccessMode : Nat := 0
  lockEntries : Fin 3 → LockEntry := fun _ => {}
  lockRefcnt : Int := 0
  lockFid : Nat := 0
  lockAccessMode : Nat := 0
  lockFidLocks : List ByteRangeLock := []
  smbflock : Option Nat := none

def kAccessRead : Nat := 1
def kAccessWrite : Nat := 2

namespace ByteRangeLock
variable (l : ByteRangeLock) (offset length : Int)

def fallsInside : Bool :=
  decide (offset ≤ l.offset ∧ l.offset < offset + length) ||
    decide (offset < l.offset + l.length ∧ l.offset + l.length ≤ offset + length)

/-- Some byte of the range is locked. -/
def Overlaps : Prop :=
  ∃ byte, (offset ≤ byte ∧ byte < offset + length) ∧ l.offset ≤ byte ∧ byte < l.offset + l.length

def Surrounds : Prop := l.offset < offset ∧ offset + length < l.offset + l.length

end ByteRangeLock

def matchExact (offset length : Int) : List ByteRangeLock → Option Int × List ByteRangeLock
  | [] => (none, [])
  | l :: rest =>
    let l := { l with offset, length := if offset ≠ 0 then length else l.length }
    if offset ≠ 0 ∧ length ≠ 0 then (some l.pid, l :: rest)
    else
      let r := matchExact offset length rest
      (r.1, l :: r.2)

def checkByteRangeLockEntry (lockList : List ByteRangeLock) (offset length : Int) (exactMatch : Bool) :
    Option Int × List ByteRangeLock :=
  if exactMatch then matchExact offset length lockList
  else ((lockList.find? (·.fallsInside offset length)).map (·.pid), lockList)

namespace FileRefs
variable (np : FileRefs)

def smbfsFindLockEntry (accessMode : Nat) : Option LockEntry :=
  if accessMode = kAccessRead ||| kAccessWrite then some (np.lockEntries 0)
  else if accessMode = kAccessRead then some (np.lockEntries 1)
  else if accessMode = kAccessWrite then some (np.lockEntries 2)
  else none

def flockFor (accessMode : Nat) : Option Nat :=
  if 0 < np.sharedRefcnt then np.smbflock.filter fun mode => accessMode &&& mode != 0 else none

def flockRef (mode : Nat) : Except Errno Nat :=
  match np.smbfsFindLockEntry mode with
  | none => .error .ebadf
  | some entry => if entry.refcnt ≤ 0 then .error .ebadf else .ok entry.fid

def shared : List LockEntry := (List.finRange 3).map np.lockEntries

def entries : List (Nat × List ByteRangeLock) :=
  (np.shared.map fun e => (e.fid, e.lockList)) ++ [(np.lockFid, np.lockFidLocks)]

def inUse : List (Nat × List ByteRangeLock) :=
  (if 0 < np.sharedRefcnt then (np.shared.filter fun e => 0 < e.refcnt).map fun e => (e.fid, e.lockList) else []) ++
    if 0 < np.lockRefcnt then [(np.lockFid, np.lockFidLocks)] else []

def searchLocks (pid offset length : Int) : Option (Except Errno Nat) :=
  np.inUse.findSome? fun (fid, lockList) =>
    (checkByteRangeLockEntry lockList offset length false).1.map fun holder =>
      if pid ≠ holder then .error .eacces else .ok fid

def anyFid (accessMode : Nat) : Except Errno Nat :=
  if 0 < np.sharedRefcnt ∧ np.sharedAccessMode &&& accessMode ≠ 0 then .ok np.sharedFid
  else if 0 < np.lockRefcnt ∧ np.lockAccessMode &&& accessMode ≠ 0 then .ok np.lockFid
  else .error .ebadf

def findFileRef (p : Option Int) (accessMode : Nat) (offset length : Int) : Except Errno Nat :=
  if np.sharedRefcnt = 0 ∧ np.lockRefcnt = 0 then .error .ebadf
  else
    match np.flockFor accessMode with
    | some mode => np.flockRef mode
    | none =>
      match p.bind fun pid => np.searchLocks pid offset length with
      | some verdict => verdict
      | none => np.anyFid accessMode

end FileRefs

/-! ## Conflicts -/

namespace ByteRangeLock
variable {l : ByteRangeLock} {offset length : Int}

theorem overlaps_iff : l.Overlaps offset length ↔
    (0 < length ∧ 0 < l.length) ∧ l.offset < offset + length ∧ offset < l.offset + l.length := by
  constructor
  · rintro ⟨byte, inside, locked⟩
    omega
  · intro meets
    by_cases first : offset ≤ l.offset
    · exact ⟨l.offset, by omega, by omega⟩
    · exact ⟨offset, by omega, by omega⟩

theorem fallsInside_iff (nonempty : 0 < l.length) :
    l.fallsInside offset length = true ↔ l.Overlaps offset length ∧ ¬l.Surrounds offset length := by
  rw [overlaps_iff, fallsInside, Surrounds, Bool.or_eq_true, decide_eq_true_eq, decide_eq_true_eq]
  omega

end ByteRangeLock

namespace FileRefs
variable {np : FileRefs} {pid offset length : Int}

/-- The lock is recorded with the FID. -/
def Holds (np : FileRefs) (fid : Nat) (l : ByteRangeLock) : Prop := ∃ lockList, (fid, lockList) ∈ np.entries ∧ l ∈ lockList

def Uses (np : FileRefs) (fid : Nat) (l : ByteRangeLock) : Prop := ∃ lockList, (fid, lockList) ∈ np.inUse ∧ l ∈ lockList

variable {fid : Nat} {l : ByteRangeLock}

theorem Uses.holds (uses : np.Uses fid l) : np.Holds fid l := by
  obtain ⟨lockList, member, listed⟩ := uses
  refine ⟨lockList, ?_, listed⟩
  unfold inUse at member
  unfold entries
  rw [List.mem_append] at member ⊢
  refine member.imp ?_ ?_
  · intro member
    split at member
    · obtain ⟨e, used, same⟩ := List.mem_map.mp member
      exact List.mem_map.mpr ⟨e, List.mem_of_mem_filter used, same⟩
    · cases member
  · intro member
    split at member
    · exact member
    · cases member

/-- An overlapping lock that the comparisons find. -/
def Detects (np : FileRefs) (offset length : Int) : Prop :=
  ∃ fid l, np.Uses fid l ∧ l.Overlaps offset length ∧ ¬l.Surrounds offset length

theorem searchLocks_some {verdict : Except Errno Nat} (found : np.searchLocks pid offset length = some verdict) :
    ∃ fid l, np.Uses fid l ∧ l.fallsInside offset length = true ∧
      verdict = if pid ≠ l.pid then .error .eacces else .ok fid := by
  obtain ⟨⟨fid, lockList⟩, member, hit⟩ := List.exists_of_findSome?_eq_some found
  simp only [checkByteRangeLockEntry, Bool.false_eq_true, if_false, Option.map_map, Option.map_eq_some_iff] at hit
  obtain ⟨l, first, same⟩ := hit
  have inside : l.fallsInside offset length = true :=
    List.find?_some (p := fun l : ByteRangeLock => l.fallsInside offset length) first
  exact ⟨fid, l, ⟨lockList, member, List.mem_of_find?_eq_some first⟩, inside, same.symm⟩

theorem searchLocks_isSome (uses : np.Uses fid l)
    (inside : l.fallsInside offset length = true) (pid : Int) : np.searchLocks pid offset length ≠ none := by
  obtain ⟨lockList, member, listed⟩ := uses
  intro missed
  have skipped := List.findSome?_eq_none_iff.mp missed _ member
  simp only [checkByteRangeLockEntry, Bool.false_eq_true, if_false, Option.map_map, Option.map_eq_none_iff] at skipped
  exact List.find?_eq_none.mp skipped l listed inside

section
variable (np : FileRefs) (pid offset length : Int)

/-- The range overlaps locks, and all of them are of the kind. -/
def OverlapsOnly (kind : Int → Prop) : Prop :=
  (∃ fid l, np.Holds fid l ∧ l.Overlaps offset length) ∧
    ∀ fid l, np.Holds fid l → l.Overlaps offset length → kind l.pid

/-- I/O on bytes that other processes have locked is refused, and I/O on bytes that only this process has locked is
done on a FID with one of these locks. -/
structure Arbitrates (ref : Except Errno Nat) : Prop where
  others : np.OverlapsOnly offset length (· ≠ pid) → ref = .error .eacces
  own : np.OverlapsOnly offset length (· = pid) →
    ∃ fid l, np.Holds fid l ∧ l.Overlaps offset length ∧ ref = .ok fid

end

theorem detects_iff (nonempty : ∀ fid l, np.Holds fid l → 0 < l.length) (pid : Int) :
    np.Detects offset length ↔ np.searchLocks pid offset length ≠ none := by
  constructor
  · rintro ⟨fid, l, uses, overlaps, free⟩
    exact searchLocks_isSome uses ((l.fallsInside_iff (nonempty fid l uses.holds)).mpr ⟨overlaps, free⟩) pid
  · intro found
    obtain ⟨verdict, found⟩ := Option.ne_none_iff_exists'.mp found
    obtain ⟨fid, l, uses, inside, -⟩ := searchLocks_some found
    exact ⟨fid, l, uses, (l.fallsInside_iff (nonempty fid l uses.holds)).mp inside⟩

theorem findFileRef_eq {accessMode : Nat} (noFlock : np.flockFor accessMode = none) (pid offset length : Int) :
    np.findFileRef (some pid) accessMode offset length =
      (np.searchLocks pid offset length).getD (np.anyFid accessMode) := by
  unfold findFileRef
  by_cases closed : np.sharedRefcnt = 0 ∧ np.lockRefcnt = 0
  · simp [closed, searchLocks, inUse, anyFid]
  · rw [if_neg closed, noFlock]
    cases found : np.searchLocks pid offset length <;> simp [found]

theorem findFileRef_arbitrates_iff (np : FileRefs) (pid : Int) (accessMode : Nat) (offset length : Int)
    (nonempty : ∀ fid l, np.Holds fid l → 0 < l.length) (noFlock : np.flockFor accessMode = none) :
    np.Arbitrates pid offset length (np.findFileRef (some pid) accessMode offset length) ↔
      (np.OverlapsOnly offset length (· ≠ pid) → np.Detects offset length) ∧
      (np.OverlapsOnly offset length (· = pid) → np.Detects offset length ∨
        ∃ fid l, np.Holds fid l ∧ l.Overlaps offset length ∧ np.anyFid accessMode = .ok fid) := by
  rw [findFileRef_eq noFlock, detects_iff nonempty pid]
  cases search : np.searchLocks pid offset length with
  | none =>
    have allowed : np.anyFid accessMode ≠ .error .eacces := by
      unfold anyFid
      split_ifs <;> simp
    constructor
    · intro done
      exact ⟨fun others => absurd (done.others others) allowed, fun own => .inr (done.own own)⟩
    · intro ⟨others, own⟩
      exact ⟨fun only => absurd rfl (others only), fun only => (own only).resolve_left fun found => found rfl⟩
  | some verdict =>
    obtain ⟨fid, l, uses, inside, same⟩ := searchLocks_some search
    have overlaps := ((l.fallsInside_iff (nonempty fid l uses.holds)).mp inside).1
    refine iff_of_true ⟨?_, ?_⟩ ⟨fun _ => Option.some_ne_none _, fun _ => .inl (Option.some_ne_none _)⟩
    · intro only
      rw [Option.getD_some, same, if_pos (only.2 fid l uses.holds overlaps).symm]
    · intro only
      refine ⟨fid, l, uses.holds, overlaps, ?_⟩
      rw [Option.getD_some, same, if_neg fun differs => differs (only.2 fid l uses.holds overlaps).symm]

def lockedFile (locks : List ByteRangeLock) : FileRefs where
  sharedRefcnt := 1
  sharedFid := 10
  sharedAccessMode := 3
  lockEntries i := if i = 0 then { refcnt := 1, fid := 20, lockList := locks } else {}

theorem lockedFile_holds {locks : List ByteRangeLock} (holds : (lockedFile locks).Holds fid l) : l ∈ locks := by
  obtain ⟨lockList, member, listed⟩ := holds
  simp only [entries, shared, List.finRange_succ, List.finRange_zero, lockedFile, List.map_cons, List.map_nil,
    List.cons_append, List.nil_append, List.mem_cons, Prod.mk.injEq, List.not_mem_nil, or_false] at member
  rcases member with ⟨-, rfl⟩ | ⟨-, rfl⟩ | ⟨-, rfl⟩ | ⟨-, rfl⟩
  · exact listed
  all_goals simp_all

/-- Bytes 50 to 149 are locked by process 7, and process 8 writes 100 bytes from 0 on. -/
theorem findFileRef_arbitrates_refused :
    (lockedFile [⟨50, 100, 7⟩]).findFileRef (some 8) 3 0 100 = .error .eacces := by
  have detected : (lockedFile [⟨50, 100, 7⟩]).Detects 0 100 :=
    ⟨20, ⟨50, 100, 7⟩, ⟨[⟨50, 100, 7⟩], by simp [inUse, shared, lockedFile, List.finRange_succ], by simp⟩,
      ⟨60, by decide, by decide⟩, by unfold ByteRangeLock.Surrounds; decide⟩
  refine ((findFileRef_arbitrates_iff (lockedFile [⟨50, 100, 7⟩]) 8 3 0 100 ?_ rfl).mpr
    ⟨fun _ => detected, fun _ => .inl detected⟩).others ?_
  · intro fid l holds
    rw [List.mem_singleton.mp (lockedFile_holds holds)]
    decide
  · obtain ⟨fid, l, uses, overlaps, -⟩ := detected
    refine ⟨⟨fid, l, uses.holds, overlaps⟩, fun fid l holds _ => ?_⟩
    rw [List.mem_singleton.mp (lockedFile_holds holds)]
    decide

/-- Bytes 0 to 99 are locked by process 7, and process 8 may write bytes 10 to 19. -/
theorem findFileRef_surrounded :
    let np := lockedFile [⟨0, 100, 7⟩]
    np.findFileRef (some 8) 3 10 10 = .ok 10 ∧ np.OverlapsOnly 10 10 (· ≠ 8) ∧
      ¬np.Arbitrates 8 10 10 (np.findFileRef (some 8) 3 10 10) := by
  intro np
  have allowed : np.findFileRef (some 8) 3 10 10 = .ok 10 := by decide +kernel
  have only : np.OverlapsOnly 10 10 (· ≠ 8) := by
    refine ⟨⟨20, ⟨0, 100, 7⟩, ⟨[⟨0, 100, 7⟩], ?_, by simp⟩, 15, by decide, by decide⟩, fun fid l holds _ => ?_⟩
    · simp [np, entries, shared, lockedFile, List.finRange_succ]
    · rw [List.mem_singleton.mp (lockedFile_holds holds)]
      decide
  refine ⟨allowed, only, fun done => ?_⟩
  have refused := done.others only
  rw [allowed] at refused
  cases refused

end FileRefs

/-! ## The locks of a process that closes the file -/

structure Node extends FileRefs where
  flockPid : Int := 0
  flockLen : Int := 0

structure Close where
  fread : Bool
  fwrite : Bool
  fwaslocked : Bool
  pid : Int
  deriving DecidableEq, Repr

structure Unlock where
  fid : Nat
  offset : Int
  length : Int
  warning : Option Errno
  deriving DecidableEq, Repr

def Close.accessMode (close : Close) : Nat :=
  (if close.fread then kAccessRead else 0) ||| (if close.fwrite then kAccessWrite else 0)

def addRemoveByteRangeLockEntry (lockList : List ByteRangeLock) (offset length : Int) (unLock : Bool) (pid : Int) :
    List ByteRangeLock :=
  if unLock then lockList.eraseP fun curr => curr.offset = offset ∧ curr.length = length
  else lockList ++ [⟨offset, length, pid⟩]

def unlockAll (fid : Nat) (pid : Int) : Nat → (Nat → Option Errno) → List ByteRangeLock →
    Option (List ByteRangeLock × List Unlock)
  | 0, _, _ => none
  | fuel + 1, answers, lockList =>
    match lockList.find? (·.pid = pid) with
    | none => some (lockList, [])
    | some curr =>
      let left := addRemoveByteRangeLockEntry lockList curr.offset curr.length true pid
      (unlockAll fid pid fuel (fun n => answers (n + 1)) left).map fun (last, log) =>
        (last, { fid, offset := curr.offset, length := curr.length, warning := answers 0 } :: log)

inductive Place
  | lockFid
  | lockEntry (i : Fin 3)
  deriving DecidableEq, Repr

namespace Node
variable (np : Node)

def lockList : Place → List ByteRangeLock
  | .lockFid => np.lockFidLocks
  | .lockEntry i => (np.lockEntries i).lockList

def fid : Place → Nat
  | .lockFid => np.lockFid
  | .lockEntry i => (np.lockEntries i).fid

def setLockList (place : Place) (locks : List ByteRangeLock) : Node :=
  match place with
  | .lockFid => { np with lockFidLocks := locks }
  | .lockEntry i =>
    { np with lockEntries := Function.update np.lockEntries i { np.lockEntries i with lockList := locks } }

def lockIndex (accessMode : Nat) : Option (Fin 3) :=
  if accessMode = kAccessRead ||| kAccessWrite then some 0
  else if accessMode = kAccessRead then some 1
  else if accessMode = kAccessWrite then some 2
  else none

def InUse (i : Option (Fin 3)) : Prop := ∃ entry ∈ i.map np.lockEntries, 0 < entry.refcnt

instance (i : Option (Fin 3)) : Decidable (np.InUse i) := by
  unfold InUse
  infer_instance

def flockEntry (accessMode : Nat) : Option (Fin 3) :=
  if ¬np.InUse (lockIndex accessMode) ∧ accessMode &&& kAccessWrite = 0 then lockIndex (accessMode ||| kAccessWrite)
  else lockIndex accessMode

def freeFlock (close : Close) (answer : Option Errno) : Node × Option (Fin 3) × List Unlock :=
  if np.smbflock.isSome ∧ np.flockPid = close.pid then
    let fileBRLEntry := np.flockEntry close.accessMode
    let log := (fileBRLEntry.filter fun i => 0 < (np.lockEntries i).refcnt).toList.map fun i =>
      { fid := (np.lockEntries i).fid, offset := 0, length := np.flockLen, warning := answer : Unlock }
    ({ np with smbflock := none }, fileBRLEntry, log)
  else (np, none, [])

def closePlace (close : Close) : Except Errno (Option Place) :=
  if close.fwaslocked then .ok (if np.lockRefcnt ≤ 0 then none else some .lockFid)
  else if np.sharedRefcnt ≤ 0 then .error .ebadf
  else
    match lockIndex close.accessMode with
    | none => .error .ebadf
    | some i => .ok (some (.lockEntry i))

def clearEmpty (i : Fin 3) : Node :=
  if (np.lockEntries i).lockList = [] ∧ (np.lockEntries i).fid ≠ 0 then
    { np with lockEntries := Function.update np.lockEntries i {} }
  else np

def clearEntry (place : Place) (fileBRLEntry : Option (Fin 3)) : Node :=
  match place, fileBRLEntry with
  | .lockEntry i, _ => np.clearEmpty i
  | .lockFid, some i => np.clearEmpty i
  | .lockFid, none => np

end Node

def smbfsFreeLocksOnClose (np : Node) (close : Close) (answers : Nat → Option Errno) :
    Option (Option Errno × Node × List Unlock) :=
  let (np, fileBRLEntry, flocks) := np.freeFlock close (answers 0)
  match np.closePlace close with
  | .error e => some (some e, np, flocks)
  | .ok none => some (none, np, flocks)
  | .ok (some place) =>
    (unlockAll (np.fid place) close.pid ((np.lockList place).length + 1) (fun n => answers (n + 1))
      (np.lockList place)).map fun (left, log) =>
        (none, (np.setLockList place left).clearEntry place fileBRLEntry, flocks ++ log)

/-! ## What the loop leaves -/

def SameRange (a b : ByteRangeLock) : Prop := a.offset = b.offset ∧ a.length = b.length

instance (a b : ByteRangeLock) : Decidable (SameRange a b) := inferInstanceAs (Decidable (_ ∧ _))

def keptLocks (pid : Int) : List ByteRangeLock → List ByteRangeLock
  | [] => []
  | l :: rest =>
    if l.pid ≠ pid ∧ ¬∃ own ∈ rest, own.pid = pid ∧ SameRange own l then l :: keptLocks pid rest
    else keptLocks pid rest

variable {pid : Int} {lockList : List ByteRangeLock}

theorem keptLocks_turn {curr : ByteRangeLock} (found : lockList.find? (·.pid = pid) = some curr) :
    keptLocks pid (addRemoveByteRangeLockEntry lockList curr.offset curr.length true pid) = keptLocks pid lockList := by
  simp only [addRemoveByteRangeLockEntry, if_true]
  induction lockList with
  | nil => rfl
  | cons l rest ih =>
    by_cases own : l.pid = pid
    · -- the process holds the first lock of the list, which is the one that goes
      rw [List.find?_cons_of_pos (by simpa using own), Option.some.injEq] at found
      subst found
      rw [List.eraseP_cons_of_pos (by simp), keptLocks, if_neg fun kept => kept.1 own]
    rw [List.find?_cons_of_neg (by simpa using own)] at found
    have member := List.mem_of_find?_eq_some found
    have holder : curr.pid = pid := by simpa using List.find?_some found
    by_cases same : SameRange l curr
    · rw [List.eraseP_cons_of_pos (by simpa [SameRange] using same), keptLocks, if_neg]
      exact fun kept => kept.2 ⟨curr, member, holder, same.1.symm, same.2.symm⟩
    · rw [List.eraseP_cons_of_neg (by simpa [SameRange] using same), keptLocks, keptLocks, ih found]
      -- a lock on the range of `l` is not the one that goes
      have later (other : ByteRangeLock) (range : SameRange other l) :
          other ∈ rest.eraseP (fun x => x.offset = curr.offset ∧ x.length = curr.length) ↔ other ∈ rest := by
        apply List.mem_eraseP_of_neg
        intro gone
        rw [decide_eq_true_eq] at gone
        exact same ⟨range.1.symm.trans gone.1, range.2.symm.trans gone.2⟩
      have equiv : (∃ own ∈ rest.eraseP (fun x => x.offset = curr.offset ∧ x.length = curr.length),
          own.pid = pid ∧ SameRange own l) ↔ ∃ own ∈ rest, own.pid = pid ∧ SameRange own l :=
        exists_congr fun other => and_congr_left fun ⟨_, range⟩ => later other range
      simp only [equiv]

theorem length_turn {curr : ByteRangeLock} (found : lockList.find? (·.pid = pid) = some curr) :
    (addRemoveByteRangeLockEntry lockList curr.offset curr.length true pid).length + 1 = lockList.length := by
  simp only [addRemoveByteRangeLockEntry, if_true]
  have member := List.mem_of_find?_eq_some found
  have length := List.length_eraseP_of_mem (p := fun l => decide (l.offset = curr.offset ∧ l.length = curr.length))
    member (by simp)
  have present := List.length_pos_of_mem member
  omega

theorem keptLocks_of_none (none : lockList.find? (·.pid = pid) = none) : keptLocks pid lockList = lockList := by
  rw [List.find?_eq_none] at none
  induction lockList with
  | nil => rfl
  | cons l rest ih =>
    have later : ∀ x ∈ rest, ¬decide (x.pid = pid) = true := fun x member => none x (List.mem_cons_of_mem _ member)
    rw [keptLocks, if_pos, ih later]
    refine ⟨by simpa using none l List.mem_cons_self, ?_⟩
    rintro ⟨own, member, holder, _⟩
    exact later own member (decide_eq_true holder)

theorem unlockAll_eq (fid : Nat) (pid : Int) {fuel : Nat} (answers : Nat → Option Errno) (fueled : lockList.length < fuel) :
    ∃ log, unlockAll fid pid fuel answers lockList = some (keptLocks pid lockList, log) := by
  induction fuel generalizing answers lockList with
  | zero => exact absurd fueled (Nat.not_lt_zero _)
  | succ fuel ih =>
    unfold unlockAll
    cases found : lockList.find? (·.pid = pid) with
    | none => exact ⟨[], by rw [keptLocks_of_none found]⟩
    | some curr =>
      have shorter := length_turn found
      have fewer : (addRemoveByteRangeLockEntry lockList curr.offset curr.length true pid).length < fuel := by omega
      obtain ⟨log, rest⟩ := ih (fun n => answers (n + 1)) fewer
      dsimp only
      rw [rest, keptLocks_turn found]
      exact ⟨_, rfl⟩

/-- No lock of another process comes before one of the process on the same range. -/
def Unshadowed (pid : Int) (lockList : List ByteRangeLock) : Prop :=
  lockList.Pairwise fun l own => l.pid ≠ pid → own.pid = pid → ¬SameRange own l

instance (pid : Int) (lockList : List ByteRangeLock) : Decidable (Unshadowed pid lockList) := by
  unfold Unshadowed
  infer_instance

def others (pid : Int) (lockList : List ByteRangeLock) : List ByteRangeLock := lockList.filter (·.pid ≠ pid)

theorem length_keptLocks_le (pid : Int) (lockList : List ByteRangeLock) :
    (keptLocks pid lockList).length ≤ (others pid lockList).length := by
  induction lockList with
  | nil => exact Nat.le_refl _
  | cons l rest ih =>
    unfold keptLocks others
    split
    · rename_i kept
      rw [List.filter_cons_of_pos (by simpa using kept.1)]
      exact Nat.succ_le_succ ih
    · refine Nat.le_trans ih (List.Sublist.length_le ?_)
      exact (List.sublist_cons_self l rest).filter _

theorem keptLocks_eq_iff (pid : Int) (lockList : List ByteRangeLock) :
    keptLocks pid lockList = others pid lockList ↔ Unshadowed pid lockList := by
  induction lockList with
  | nil => exact iff_of_true rfl .nil
  | cons l rest ih =>
    unfold Unshadowed
    rw [List.pairwise_cons, ← Unshadowed, ← ih]
    by_cases own : l.pid = pid
    · rw [keptLocks, if_neg fun kept => kept.1 own, others, List.filter_cons_of_neg (by simpa using own)]
      exact ⟨fun same => ⟨fun _ _ foreign => absurd own foreign, same⟩, And.right⟩
    · rw [others, List.filter_cons_of_pos (by simpa using own), keptLocks]
      by_cases shadowed : ∃ own ∈ rest, own.pid = pid ∧ SameRange own l
      · rw [if_neg fun kept => kept.2 shadowed]
        obtain ⟨own', member, holder, range⟩ := shadowed
        refine iff_of_false (fun same => ?_) fun unshadowed => unshadowed.1 own' member own holder range
        have shorter := length_keptLocks_le pid rest
        rw [same, List.length_cons, others] at shorter
        exact Nat.not_succ_le_self _ shorter
      · rw [if_pos ⟨own, shadowed⟩, List.cons.injEq]
        refine ⟨fun same => ⟨fun own' member _ holder range => ?_, same.2⟩, fun holds => ⟨rfl, holds.2⟩⟩
        exact shadowed ⟨own', member, holder, range⟩

/-! ## The function -/

theorem Node.freeFlock_same (np : Node) (close : Close) (answer : Option Errno) (place : Place) :
    (np.freeFlock close answer).1.closePlace close = np.closePlace close ∧
      (np.freeFlock close answer).1.lockList place = np.lockList place := by
  unfold Node.freeFlock
  split
  · exact ⟨rfl, by cases place <;> rfl⟩
  · exact ⟨rfl, rfl⟩

theorem Node.lockList_setLockList (np : Node) (place : Place) (locks : List ByteRangeLock) :
    (np.setLockList place locks).lockList place = locks := by
  cases place with
  | lockFid => rfl
  | lockEntry i => simp only [Node.setLockList, Node.lockList, Function.update_self]

theorem Node.lockList_clearEmpty (np : Node) (place : Place) (i : Fin 3) :
    (np.clearEmpty i).lockList place = np.lockList place := by
  unfold Node.clearEmpty
  split
  · rename_i empty
    cases place with
    | lockFid => rfl
    | lockEntry j =>
      by_cases same : j = i
      · subst same
        simp only [Node.lockList, Function.update_self, empty.1]
      · simp only [Node.lockList, Function.update_of_ne same]
  · rfl

theorem Node.lockList_clearEntry (np : Node) (place : Place) (fileBRLEntry : Option (Fin 3)) :
    (np.clearEntry place fileBRLEntry).lockList place = np.lockList place := by
  unfold Node.clearEntry
  split
  · apply Node.lockList_clearEmpty
  · apply Node.lockList_clearEmpty
  · rfl

/-- The close comes to an end, and it leaves the locks of the other processes as they were just when none of them is
in front of a lock of the process on the same range. -/
theorem smbfsFreeLocksOnClose_others_iff (np : Node) (close : Close) (answers : Nat → Option Errno) {place : Place}
    (locked : np.closePlace close = .ok (some place)) :
    ∃ after log, smbfsFreeLocksOnClose np close answers = some (none, after, log) ∧
      (after.lockList place = others close.pid (np.lockList place) ↔ Unshadowed close.pid (np.lockList place)) := by
  obtain ⟨samePlace, sameList⟩ := np.freeFlock_same close (answers 0) place
  unfold smbfsFreeLocksOnClose
  cases freed : np.freeFlock close (answers 0) with
  | mk np' rest =>
    obtain ⟨fileBRLEntry, flocks⟩ := rest
    rw [freed] at samePlace sameList
    obtain ⟨log, ends⟩ := unlockAll_eq (np'.fid place) close.pid (fun n => answers (n + 1))
      (Nat.lt_succ_self (np'.lockList place).length)
    dsimp only
    rw [samePlace, locked]
    dsimp only
    rw [ends]
    refine ⟨_, _, rfl, ?_⟩
    rw [Node.lockList_clearEntry, Node.lockList_setLockList, sameList]
    exact keptLocks_eq_iff close.pid (np.lockList place)

def readLocked (lockList : List ByteRangeLock) : Node where
  sharedRefcnt := 2
  lockEntries := Function.update (fun _ => {}) 1 { refcnt := 2, fid := 5, lockList }

theorem smbfsFreeLocksOnClose_others_apart :
    let np := readLocked [⟨0, 10, 8⟩, ⟨20, 10, 7⟩]
    ∃ after log, smbfsFreeLocksOnClose np ⟨true, false, false, 7⟩ (fun _ => none) = some (none, after, log) ∧
      after.lockList (.lockEntry 1) = [⟨0, 10, 8⟩] := by
  intro np
  obtain ⟨after, log, ends, kept⟩ :=
    smbfsFreeLocksOnClose_others_iff np ⟨true, false, false, 7⟩ (fun _ => none) rfl
  exact ⟨after, log, ends, kept.mpr (by decide)⟩

/-- Processes 8 and 7 have a shared lock on the same range. When process 7 closes the file, both locks go. -/
theorem smbfsFreeLocksOnClose_loses_lock :
    let np := readLocked [⟨0, 10, 8⟩, ⟨0, 10, 7⟩]
    (smbfsFreeLocksOnClose np ⟨true, false, false, 7⟩ (fun _ => none)).map (fun r => r.2.1.lockList (.lockEntry 1)) =
        some [] ∧ others 7 (np.lockList (.lockEntry 1)) = [⟨0, 10, 8⟩] := by
  decide

end SmbClient.Locks
