import SmbClient.Mbuf.Chain

/-!
The lease of a vnode: `struct smb2_lease`, the global table of leases, `smbfs_add_update_lease` and
`smbfs_handle_lease_break`.
-/

namespace SmbClient.Leases
open SmbClient.Mbuf

/-! ## Epochs -/

def smbfsGetEpochDelta (serverEpoch fileEpoch : UInt16) : Int :=
  let server : Int := serverEpoch.toNat
  let file : Int := fileEpoch.toNat
  if server = file then 0
  else if file < server then (server - file).bmod (2 ^ 16)
  else if 32767 < file - server then (file - server).bmod (2 ^ 16)
  else -1

def epochSteps (serverEpoch fileEpoch : UInt16) : Nat := (serverEpoch - fileEpoch).toNat

def Ahead (serverEpoch fileEpoch : UInt16) : Prop :=
  1 ≤ epochSteps serverEpoch fileEpoch ∧ epochSteps serverEpoch fileEpoch ≤ 32767

def Behind (serverEpoch fileEpoch : UInt16) : Prop := Ahead fileEpoch serverEpoch

instance (serverEpoch fileEpoch : UInt16) : Decidable (Ahead serverEpoch fileEpoch) :=
  inferInstanceAs (Decidable (_ ∧ _))

instance (serverEpoch fileEpoch : UInt16) : Decidable (Behind serverEpoch fileEpoch) :=
  inferInstanceAs (Decidable (Ahead _ _))

/-- The wrap lies between the epoch that is stored and the one that comes. -/
def Wrapped (serverEpoch fileEpoch : UInt16) : Prop := serverEpoch < fileEpoch

instance (serverEpoch fileEpoch : UInt16) : Decidable (Wrapped serverEpoch fileEpoch) :=
  inferInstanceAs (Decidable (_ < _))

section
variable {serverEpoch fileEpoch : UInt16}

theorem epochSteps_eq (serverEpoch fileEpoch : UInt16) : epochSteps serverEpoch fileEpoch =
    if fileEpoch.toNat ≤ serverEpoch.toNat then serverEpoch.toNat - fileEpoch.toNat
    else 2 ^ 16 + serverEpoch.toNat - fileEpoch.toNat := by
  have small := serverEpoch.toNat_lt
  have small' := fileEpoch.toNat_lt
  rw [epochSteps, UInt16.toNat_sub]
  split <;> omega

theorem delta_pos_iff : 0 < smbfsGetEpochDelta serverEpoch fileEpoch ↔
    Ahead serverEpoch fileEpoch ∧ ¬Wrapped serverEpoch fileEpoch := by
  have small := serverEpoch.toNat_lt
  have small' := fileEpoch.toNat_lt
  simp only [smbfsGetEpochDelta, Ahead, Wrapped, epochSteps_eq, UInt16.lt_iff_toNat_lt, Int.bmod]
  split_ifs <;> omega

theorem not_ahead_of_behind (behind : Behind serverEpoch fileEpoch) : ¬Ahead serverEpoch fileEpoch := by
  have small := serverEpoch.toNat_lt
  have small' := fileEpoch.toNat_lt
  simp only [Behind, Ahead, epochSteps_eq] at behind ⊢
  split_ifs at behind ⊢ <;> omega

theorem delta_of_behind (behind : Behind serverEpoch fileEpoch) : ¬0 < smbfsGetEpochDelta serverEpoch fileEpoch := by
  intro newer
  exact not_ahead_of_behind behind (delta_pos_iff.mp newer).1

end

/-! ## Leases -/

@[match_pattern] abbrev leaseNone : Nat := 0
@[match_pattern] abbrev leaseRead : Nat := 1
@[match_pattern] abbrev leaseReadHandle : Nat := 3
@[match_pattern] abbrev leaseReadWrite : Nat := 5
@[match_pattern] abbrev leaseReadWriteHandle : Nat := 7

def readCaching : Nat := 1
def handleCaching : Nat := 2
def writeCaching : Nat := 4

def mayCache (leaseState : Nat) : Bool := leaseState &&& (readCaching ||| writeCaching) != 0

structure LeaseFlags where
  granted : Bool := false
  v2 : Bool := false
  broken : Bool := false
  deferredClose : Bool := false
  deriving DecidableEq, Repr

structure Lease where
  flags : LeaseFlags := {}
  reqLeaseState : Nat := 0
  leaseState : Nat := 0
  key : Nat × Nat := (0, 0)
  epoch : UInt16 := 0
  defCloseTimer : Nat := 0
  pendingBreak : Bool := false
  deriving DecidableEq, Repr

inductive Msync
  | pushdirty | invalidate
  deriving DecidableEq, Repr

structure Node where
  isdir : Bool := false
  lease : Lease := {}
  nocache : Bool := false
  hasBRLs : Nat := 0
  writeImmediately : Bool := false
  needsUbcInvalidate : Bool := false
  needsUbcPushdirty : Bool := false
  lockFid : Nat := 0
  sharedFid : Nat := 0
  synced : List Msync := []
  deriving DecidableEq, Repr

structure Verdict where
  upgrade : Bool := false
  purgeCache : Bool := false
  error : Option Errno := none
  deriving DecidableEq, Repr

def evaluate (deltaEpoch : Int) (current new : Nat) : Verdict :=
  match current with
  | leaseNone =>
    match new with
    | leaseRead | leaseReadWrite | leaseReadHandle | leaseReadWriteHandle => { upgrade := true }
    | leaseNone => {}
    | _ => { error := some .einval }
  | leaseRead =>
    match new with
    | leaseRead => { purgeCache := true }
    | leaseReadWrite | leaseReadHandle | leaseReadWriteHandle =>
      { upgrade := true, purgeCache := decide (deltaEpoch ≠ 1) }
    | leaseNone => { purgeCache := true }
    | _ => { error := some .einval }
  | leaseReadWrite =>
    match new with
    | leaseRead | leaseReadHandle => { error := some .einval }
    | leaseReadWriteHandle => { upgrade := true }
    | leaseReadWrite => { upgrade := true }
    | leaseNone => { purgeCache := true }
    | _ => { error := some .einval }
  | leaseReadHandle =>
    match new with
    | leaseRead | leaseReadWrite => { error := some .einval }
    | leaseReadHandle => { purgeCache := true }
    | leaseReadWriteHandle => { upgrade := true, purgeCache := decide (deltaEpoch ≠ 1) }
    | leaseNone => { purgeCache := true }
    | _ => { error := some .einval }
  | leaseReadWriteHandle =>
    match new with
    | leaseRead | leaseReadWrite | leaseReadHandle => { error := some .einval }
    | leaseReadWriteHandle => {}
    | leaseNone => { purgeCache := true }
    | _ => { error := some .einval }
  | _ => { error := some .einval }

def Node.decideWrites (np : Node) : Node :=
  if mayCache np.lease.leaseState then
    { np with writeImmediately := decide (np.lease.leaseState &&& writeCaching = 0) }
  else np

namespace Node
variable (np : Node)

def upgrade (inLease : Lease) : Node :=
  { np with lease := { np.lease with
      leaseState := inLease.leaseState
      epoch := inLease.epoch
      defCloseTimer := 0
      reqLeaseState := inLease.reqLeaseState
      flags := inLease.flags
      key := inLease.key } }

def purge (inReconnect : Bool) : Node :=
  if inReconnect then { np with needsUbcInvalidate := true }
  else { np with needsUbcInvalidate := false, synced := np.synced ++ [.invalidate] }

def enableCaching : Node :=
  if mayCache np.lease.leaseState ∧ np.hasBRLs = 0 then { np with nocache := false } else np

def settleCache (purgeCache inReconnect : Bool) : Node :=
  if np.isdir then np
  else if np.nocache then np.enableCaching
  else
    let np := if purgeCache then np.purge inReconnect else np
    if mayCache np.lease.leaseState then np else { np with nocache := true }

def updateLease (deltaEpoch : Int) (inLease : Lease) (inReconnect : Bool) : Option Errno × Node :=
  let verdict := if 0 < deltaEpoch then evaluate deltaEpoch np.lease.leaseState inLease.leaseState else {}
  let np := if verdict.upgrade then np.upgrade inLease else np
  (verdict.error, np.decideWrites.settleCache verdict.purgeCache inReconnect)

end Node

inductive Command
  | add
  | remove
  | update (inLease : Lease) (inReconnect : Bool)

structure Holder where
  table : List (Nat × Nat) := []
  np : Node := {}
  deriving DecidableEq, Repr

def deltaOf (inLease : Lease) (np : Node) : Int :=
  if inLease.flags.v2 then smbfsGetEpochDelta inLease.epoch np.lease.epoch else 1

def smbfsAddUpdateLease (leasing : Bool) (s : Holder) : Command → Option Errno × Holder
  | .add =>
    if !leasing then (none, s)
    else if s.np.lease.key ∈ s.table then (some .ealready, s)
    else (none, { s with table := s.np.lease.key :: s.table })
  | .remove =>
    if !leasing then (none, s)
    else if s.np.lease.key ∈ s.table then
      -- the requested state is left for a later upgrade
      (none, ⟨s.table.erase s.np.lease.key,
        { s.np with lease := { s.np.lease with flags := {}, leaseState := 0, epoch := 0 } }⟩)
    else (some .enoent, s)
  | .update inLease inReconnect =>
    if !leasing then (none, s)
    else if inLease.key ∈ s.table then
      if inLease.flags.granted then
        let updated := s.np.updateLease (deltaOf inLease s.np) inLease inReconnect
        (updated.1, { s with np := updated.2 })
      else (none, s)
    else (some .enoent, s)

/-! ## What an update records -/

def Known (leaseState : Nat) : Prop :=
  leaseState ∈ [leaseNone, leaseRead, leaseReadHandle, leaseReadWrite, leaseReadWriteHandle]

instance (leaseState : Nat) : Decidable (Known leaseState) := inferInstanceAs (Decidable (_ ∈ _))

/-- No right is lost. -/
def Keeps (current new : Nat) : Prop := Known current ∧ Known new ∧ current &&& new = current

/-- A right is lost, but not all of them, or one of the states is unknown. -/
def Refused (current new : Nat) : Prop :=
  ¬Known current ∨ ¬Known new ∨ new ≠ leaseNone ∧ current &&& new ≠ current

instance (current new : Nat) : Decidable (Keeps current new) := inferInstanceAs (Decidable (_ ∧ _))
instance (current new : Nat) : Decidable (Refused current new) := inferInstanceAs (Decidable (_ ∨ _))

theorem evaluate_keeps {current new : Nat} (keeps : Keeps current new) (deltaEpoch : Int) :
    (evaluate deltaEpoch current new).error = none ∧
      ((evaluate deltaEpoch current new).upgrade = true ∨ current = new) := by
  obtain ⟨known, known', same⟩ := keeps
  simp only [Known, List.mem_cons, List.not_mem_nil, or_false] at known known'
  rcases known with rfl | rfl | rfl | rfl | rfl <;> rcases known' with rfl | rfl | rfl | rfl | rfl <;>
    first
    | exact absurd same (by decide)
    | simp [evaluate]

theorem evaluate_refused {current new : Nat} (refused : Refused current new) (deltaEpoch : Int) :
    (evaluate deltaEpoch current new).error = some .einval ∧ (evaluate deltaEpoch current new).upgrade = false := by
  by_cases known : Known current ∧ Known new
  · obtain ⟨known, known'⟩ := known
    have lost : new ≠ leaseNone ∧ current &&& new ≠ current := by
      simpa only [Refused, known, known', not_true, false_or] using refused
    simp only [Known, List.mem_cons, List.not_mem_nil, or_false] at known known'
    rcases known with rfl | rfl | rfl | rfl | rfl <;> rcases known' with rfl | rfl | rfl | rfl | rfl <;>
      first
      | exact absurd lost (by decide)
      | simp [evaluate]
  · simp only [Known, List.mem_cons, List.not_mem_nil, or_false] at known
    unfold evaluate
    split <;> (try split) <;> simp_all

section
variable (np : Node)

@[simp] theorem decideWrites_lease : np.decideWrites.lease = np.lease := by
  unfold Node.decideWrites
  split <;> rfl

@[simp] theorem decideWrites_isdir : np.decideWrites.isdir = np.isdir := by
  unfold Node.decideWrites
  split <;> rfl

@[simp] theorem purge_lease (inReconnect : Bool) : (np.purge inReconnect).lease = np.lease := by
  unfold Node.purge
  split <;> rfl

@[simp] theorem enableCaching_lease : np.enableCaching.lease = np.lease := by
  unfold Node.enableCaching
  split <;> rfl

@[simp] theorem settleCache_lease (purgeCache inReconnect : Bool) :
    (np.settleCache purgeCache inReconnect).lease = np.lease := by
  unfold Node.settleCache
  dsimp only
  split_ifs <;> simp

theorem mayCache_of_settleCache {purgeCache inReconnect : Bool} (file : np.isdir = false)
    (caching : (np.settleCache purgeCache inReconnect).nocache = false) : mayCache np.lease.leaseState = true := by
  revert caching
  unfold Node.settleCache Node.enableCaching
  dsimp only
  split_ifs <;> simp_all

end

theorem smbfsAddUpdateLease_records (s : Holder) (inLease : Lease) (inReconnect : Bool)
    (found : inLease.key ∈ s.table) (granted : inLease.flags.granted = true)
    (newer : inLease.flags.v2 = true → Ahead inLease.epoch s.np.lease.epoch ∧ ¬Wrapped inLease.epoch s.np.lease.epoch) :
    let updated := smbfsAddUpdateLease true s (.update inLease inReconnect)
    (Keeps s.np.lease.leaseState inLease.leaseState →
      updated.1 = none ∧ updated.2.np.lease.leaseState = inLease.leaseState ∧
        (s.np.isdir = false → updated.2.np.nocache = false → mayCache inLease.leaseState = true)) ∧
    (Refused s.np.lease.leaseState inLease.leaseState →
      updated.1 = some .einval ∧ updated.2.np.lease = s.np.lease ∧
        (s.np.isdir = false → updated.2.np.nocache = false → mayCache s.np.lease.leaseState = true)) := by
  have positive : 0 < deltaOf inLease s.np := by
    unfold deltaOf
    split
    · rename_i v2
      exact delta_pos_iff.mpr (newer v2)
    · decide
  simp only [smbfsAddUpdateLease, Bool.not_true, Bool.false_eq_true, if_false, if_pos found, granted, if_true,
    Node.updateLease, if_pos positive]
  generalize deltaOf inLease s.np = delta
  constructor
  · intro keeps
    obtain ⟨accepted, recorded⟩ := evaluate_keeps keeps delta
    have state : (if (evaluate delta s.np.lease.leaseState inLease.leaseState).upgrade = true
        then s.np.upgrade inLease else s.np).lease.leaseState = inLease.leaseState := by
      split
      · rfl
      · simp_all
    refine ⟨accepted, ?_, ?_⟩
    · rw [settleCache_lease, decideWrites_lease, state]
    · intro file caching
      have allowed := mayCache_of_settleCache _ ?_ caching
      · rwa [decideWrites_lease, state] at allowed
      · rw [decideWrites_isdir]
        split <;> exact file
  · intro refused
    obtain ⟨failed, kept⟩ := evaluate_refused refused delta
    simp only [kept, Bool.false_eq_true, if_false]
    refine ⟨failed, by simp, ?_⟩
    intro file caching
    have allowed := mayCache_of_settleCache _ (by simpa using file) caching
    rwa [decideWrites_lease] at allowed

/-- Handle caching comes to a read lease. -/
theorem smbfsAddUpdateLease_records_readHandle :
    let held : Holder := { table := [(1, 2)], np := { lease := { leaseState := leaseRead, key := (1, 2), epoch := 4 } } }
    let inLease : Lease :=
      { flags := { granted := true, v2 := true }, leaseState := leaseReadHandle, key := (1, 2), epoch := 5 }
    (smbfsAddUpdateLease true held (.update inLease false)).2.np.lease.leaseState = leaseReadHandle := by
  intro held inLease
  exact ((smbfsAddUpdateLease_records held inLease false (by decide) rfl (by decide)).1 (by decide)).2.1

/-- A newer lease with read caching only is not taken over from read and write caching. -/
theorem smbfsAddUpdateLease_downgrade :
    let held : Holder :=
      { table := [(1, 2)], np := { lease := { leaseState := leaseReadWrite, key := (1, 2), epoch := 4 } } }
    let inLease : Lease :=
      { flags := { granted := true, v2 := true }, leaseState := leaseRead, key := (1, 2), epoch := 5 }
    let updated := smbfsAddUpdateLease true held (.update inLease false)
    updated.1 = some .einval ∧ updated.2.np.lease.leaseState ≠ inLease.leaseState := by
  decide +kernel

/-! ## Lease breaks -/

structure LeaseRq where
  serverEpoch : UInt16 := 0
  ackRequired : Bool := false
  key : Nat × Nat := (0, 0)
  currLeaseState : Nat := 0
  newLeaseState : Nat := 0
  needCloseDir : Bool := false
  deriving DecidableEq, Repr

structure Surroundings where
  smb3 : Bool := true
  leasing : Bool := true
  vnodeFound : Bool := true
  closeError : Option Errno := none
  queueError : Option Errno := none
  dirLocked : Bool := true
  deriving DecidableEq, Repr

def has (leaseState right : Nat) : Bool := leaseState &&& right != 0

def loses (lease : Lease) (rq : LeaseRq) (right : Nat) : Bool :=
  has lease.leaseState right && !has rq.newLeaseState right

def needCloseFiles (lease : Lease) (rq : LeaseRq) : Bool := loses lease rq handleCaching && lease.flags.deferredClose

def Lease.cancelDeferredClose (lease : Lease) : Lease :=
  { lease with
    flags := { lease.flags with granted := false, deferredClose := false }
    defCloseTimer := 0
    pendingBreak := true }

def Lease.record (smb3 : Bool) (deltaEpoch : Int) (lease : Lease) (rq : LeaseRq) : Lease :=
  if smb3 then
    if 0 < deltaEpoch then { lease with leaseState := rq.newLeaseState, epoch := rq.serverEpoch } else lease
  else { lease with leaseState := rq.newLeaseState }

def Lease.noteNone (lease : Lease) : Lease :=
  if lease.leaseState = leaseNone then
    { lease with flags := { lease.flags with broken := true, granted := false } }
  else lease

def missedChange (smb3 : Bool) (deltaEpoch : Int) (lease : Lease) (rq : LeaseRq) : Bool :=
  smb3 && decide (1 < deltaEpoch) && decide (lease.leaseState = rq.newLeaseState)

def flushCache (smb3 : Bool) (deltaEpoch : Int) (lease : Lease) (rq : LeaseRq) : Bool :=
  loses lease rq writeCaching ||
    missedChange smb3 deltaEpoch lease rq && decide (lease.leaseState ≠ rq.currLeaseState)

def purgeCache (smb3 : Bool) (deltaEpoch : Int) (lease : Lease) (rq : LeaseRq) : Bool :=
  loses lease rq readCaching || missedChange smb3 deltaEpoch lease rq

def Node.breakCache (np : Node) (allowCaching flush purge closing : Bool) : Node :=
  if np.nocache then
    if allowCaching ∧ np.hasBRLs = 0 then { np with nocache := false } else np
  else
    let np := if flush then { np with needsUbcPushdirty := false, synced := np.synced ++ [.pushdirty] } else np
    let np := if purge then { np with needsUbcInvalidate := false, synced := np.synced ++ [.invalidate] } else np
    if !allowCaching && !closing then { np with nocache := true } else np

def Node.closeFile (np : Node) (closeError : Option Errno) : Option Errno × Node × Bool :=
  if np.lockFid ≠ 0 then (closeError, { np with lockFid := 0 }, closeError.isNone)
  else if np.sharedFid ≠ 0 then (closeError, { np with sharedFid := 0 }, closeError.isNone)
  else (some .ebadf, np, false)

structure Broken where
  error : Option Errno
  holder : Holder
  ack : Option Nat := none
  deriving DecidableEq, Repr

def Holder.dropLease (s : Holder) (leasing : Bool) (closing : Bool) : Holder :=
  if s.np.lease.leaseState = leaseNone ∨ closing = true then (smbfsAddUpdateLease leasing s .remove).2 else s

section
variable (env : Surroundings) (s : Holder) (rq : LeaseRq)

def recorded : Lease :=
  let lease := if needCloseFiles s.np.lease rq then s.np.lease.cancelDeferredClose else s.np.lease
  (lease.record env.smb3 (smbfsGetEpochDelta rq.serverEpoch s.np.lease.epoch) rq).noteNone

def Holder.takeBreak : Holder :=
  { s with np := { s.np with lease := recorded env s rq }.decideWrites }.dropLease env.leasing
    (needCloseFiles s.np.lease rq)

def breakFile : Option Errno × Holder × Bool :=
  let lease := s.np.lease
  let closing := needCloseFiles lease rq
  let delta := smbfsGetEpochDelta rq.serverEpoch lease.epoch
  let taken := s.takeBreak env rq
  let np := taken.np.breakCache (mayCache (recorded env s rq).leaseState) (flushCache env.smb3 delta lease rq)
    (purgeCache env.smb3 delta lease rq) closing
  if closing then
    let closed := np.closeFile env.closeError
    (closed.1, { taken with np := closed.2.1 }, closed.2.2)
  else (none, { taken with np }, false)

end

def breakDir (env : Surroundings) (s : Holder) (rq : LeaseRq) : Option Errno × Holder × Bool :=
  if rq.needCloseDir && env.dirLocked then (none, (smbfsAddUpdateLease env.leasing s .remove).2, true)
  else (none, s, false)

def Holder.clearPendingBreak (s : Holder) (pending : Bool) : Holder :=
  if pending then { s with np := { s.np with lease := { s.np.lease with pendingBreak := false } } } else s

def smbfsHandleLeaseBreak (env : Surroundings) (s : Holder) (rq : LeaseRq) : Broken :=
  if rq.key ∉ s.table ∨ env.vnodeFound = false then ⟨some .enoent, s, none⟩
  else
    let pending := !s.np.isdir && needCloseFiles s.np.lease rq
    let done := if s.np.isdir then breakDir env s rq else breakFile env s rq
    if !done.2.2 && rq.ackRequired then
      ⟨env.queueError, done.2.1.clearPendingBreak pending, some rq.newLeaseState⟩
    else ⟨done.1, done.2.1.clearPendingBreak pending, none⟩

/-! ## What is kept of a file's lease -/

def Removable (env : Surroundings) (s : Holder) : Prop := env.leasing = true ∧ s.np.lease.key ∈ s.table

instance (env : Surroundings) (s : Holder) : Decidable (Removable env s) := inferInstanceAs (Decidable (_ ∧ _))

section
variable (env : Surroundings) (s : Holder) (rq : LeaseRq)

theorem noteNone_leaseState (lease : Lease) : lease.noteNone.leaseState = lease.leaseState := by
  unfold Lease.noteNone
  split <;> rfl

theorem noteNone_key (lease : Lease) : lease.noteNone.key = lease.key := by
  unfold Lease.noteNone
  split <;> rfl

theorem record_leaseState (smb3 : Bool) (delta : Int) (lease : Lease) :
    (lease.record smb3 delta rq).leaseState =
      if smb3 = true ∧ ¬0 < delta then lease.leaseState else rq.newLeaseState := by
  unfold Lease.record
  split_ifs <;> simp_all

theorem record_key (smb3 : Bool) (delta : Int) (lease : Lease) : (lease.record smb3 delta rq).key = lease.key := by
  unfold Lease.record
  split_ifs <;> rfl

def Newer : Prop :=
  env.smb3 = true → Ahead rq.serverEpoch s.np.lease.epoch ∧ ¬Wrapped rq.serverEpoch s.np.lease.epoch

instance : Decidable (Newer env s rq) := inferInstanceAs (Decidable (_ → _))

theorem recorded_leaseState : (recorded env s rq).leaseState =
    if Newer env s rq then rq.newLeaseState else s.np.lease.leaseState := by
  have kept : (if needCloseFiles s.np.lease rq then s.np.lease.cancelDeferredClose else s.np.lease).leaseState =
      s.np.lease.leaseState := by
    split <;> rfl
  have stale : (env.smb3 = true ∧ ¬0 < smbfsGetEpochDelta rq.serverEpoch s.np.lease.epoch) ↔ ¬Newer env s rq := by
    rw [delta_pos_iff, Newer, Classical.not_imp]
  rw [recorded, noteNone_leaseState, record_leaseState, kept]
  simp only [stale, ite_not]

theorem recorded_key : (recorded env s rq).key = s.np.lease.key := by
  rw [recorded, noteNone_key, record_key]
  split <;> rfl

theorem dropLease_leaseState (leasing closing : Bool) : (s.dropLease leasing closing).np.lease.leaseState =
    if closing = true ∧ leasing = true ∧ s.np.lease.key ∈ s.table then 0 else s.np.lease.leaseState := by
  unfold Holder.dropLease smbfsAddUpdateLease
  split_ifs <;> simp_all

theorem dropLease_np (leasing closing : Bool) :
    (s.dropLease leasing closing).np = { s.np with lease := (s.dropLease leasing closing).np.lease } := by
  unfold Holder.dropLease smbfsAddUpdateLease
  split_ifs <;> rfl

theorem decideWrites_eq (np : Node) :
    np.decideWrites = { np with writeImmediately := np.decideWrites.writeImmediately } := by
  unfold Node.decideWrites
  split <;> rfl

theorem takeBreak_leaseState : (s.takeBreak env rq).np.lease.leaseState =
    if needCloseFiles s.np.lease rq = true ∧ Removable env s then 0 else (recorded env s rq).leaseState := by
  rw [Holder.takeBreak, dropLease_leaseState, decideWrites_lease, recorded_key]
  rfl

theorem takeBreak_np : (s.takeBreak env rq).np =
    { s.np with lease := (s.takeBreak env rq).np.lease, writeImmediately := (s.takeBreak env rq).np.writeImmediately } := by
  unfold Holder.takeBreak
  rw [dropLease_np, decideWrites_eq]

structure CacheOnly (np broken : Node) (nocache : Bool) : Prop where
  lease : broken.lease = np.lease
  lockFid : broken.lockFid = np.lockFid
  sharedFid : broken.sharedFid = np.sharedFid
  nocache : broken.nocache = nocache

theorem breakCache_only (np : Node) (allowCaching flush purge closing : Bool) :
    CacheOnly np (np.breakCache allowCaching flush purge closing)
      (if np.nocache then !(allowCaching && decide (np.hasBRLs = 0)) else !allowCaching && !closing) := by
  obtain ⟨_, _, nocache, hasBRLs, _, _, _, _, _, _⟩ := np
  unfold Node.breakCache
  cases nocache with
  | true =>
    by_cases enabled : allowCaching = true ∧ hasBRLs = 0
    · simp only [if_true, if_pos enabled]
      exact ⟨rfl, rfl, rfl, by simp [enabled]⟩
    · simp only [if_true, if_neg enabled]
      exact ⟨rfl, rfl, rfl, by cases allowCaching <;> simp_all⟩
  | false =>
    cases flush <;> cases purge <;> cases allowCaching <;> cases closing <;> exact ⟨rfl, rfl, rfl, rfl⟩

theorem closeFile_keeps (np : Node) (closeError : Option Errno) :
    (np.closeFile closeError).2.1.lease = np.lease ∧ (np.closeFile closeError).2.1.nocache = np.nocache := by
  unfold Node.closeFile
  split_ifs <;> exact ⟨rfl, rfl⟩

def Closes (np : Node) (closeError : Option Errno) : Prop := (np.lockFid ≠ 0 ∨ np.sharedFid ≠ 0) ∧ closeError = none

instance (np : Node) (closeError : Option Errno) : Decidable (Closes np closeError) := inferInstanceAs (Decidable (_ ∧ _))

theorem closeFile_implicit (np : Node) (closeError : Option Errno) :
    (np.closeFile closeError).2.2 = decide (Closes np closeError) := by
  unfold Node.closeFile Closes
  cases closeError <;> split_ifs <;> simp_all

structure BrokenFile (done : Option Errno × Holder × Bool) : Prop where
  leaseState : done.2.1.np.lease.leaseState =
    if needCloseFiles s.np.lease rq = true ∧ Removable env s then 0 else (recorded env s rq).leaseState
  nocache : done.2.1.np.nocache =
    if s.np.nocache then !(mayCache (recorded env s rq).leaseState && decide (s.np.hasBRLs = 0))
    else !mayCache (recorded env s rq).leaseState && !needCloseFiles s.np.lease rq
  implicit : done.2.2 = (needCloseFiles s.np.lease rq && decide (Closes s.np env.closeError))

theorem breakFile_spec : BrokenFile env s rq (breakFile env s rq) := by
  have state := takeBreak_leaseState env s rq
  have same := takeBreak_np env s rq
  have kept := breakCache_only (s.takeBreak env rq).np (mayCache (recorded env s rq).leaseState)
    (flushCache env.smb3 (smbfsGetEpochDelta rq.serverEpoch s.np.lease.epoch) s.np.lease rq)
    (purgeCache env.smb3 (smbfsGetEpochDelta rq.serverEpoch s.np.lease.epoch) s.np.lease rq)
    (needCloseFiles s.np.lease rq)
  have cached : (s.takeBreak env rq).np.nocache = s.np.nocache := by rw [same]
  have locks : (s.takeBreak env rq).np.hasBRLs = s.np.hasBRLs := by rw [same]
  have closes (np : Node) (lock : np.lockFid = (s.takeBreak env rq).np.lockFid)
      (shared : np.sharedFid = (s.takeBreak env rq).np.sharedFid) :
      Closes np env.closeError ↔ Closes s.np env.closeError := by
    rw [Closes, lock, shared, same, Closes]
  unfold breakFile
  dsimp only
  generalize (s.takeBreak env rq).np.breakCache _ _ _ _ = np at kept ⊢
  split
  · rename_i closing
    obtain ⟨lease, nocache⟩ := closeFile_keeps np env.closeError
    refine ⟨?_, ?_, ?_⟩
    · rw [lease, kept.lease, state]
    · rw [nocache, kept.nocache, cached, locks]
    · rw [closeFile_implicit, closing, Bool.true_and]
      exact decide_eq_decide.mpr (closes np kept.lockFid kept.sharedFid)
  · rename_i open_
    refine ⟨?_, ?_, ?_⟩
    · rw [kept.lease, state]
    · rw [kept.nocache, cached, locks]
    · rw [Bool.eq_false_of_not_eq_true open_, Bool.false_and]

/-- The acknowledgement is queued, unless a close takes its place. -/
def Acks : Prop :=
  rq.key ∈ s.table ∧ env.vnodeFound = true ∧ rq.ackRequired = true ∧
    ¬(needCloseFiles s.np.lease rq = true ∧ Closes s.np env.closeError)

/-- What is kept after a break that is acknowledged is in the state that is acknowledged. -/
def Kept (broken : Broken) : Prop :=
  ∀ state, broken.ack = some state →
    broken.holder.np.lease.leaseState &&& state = broken.holder.np.lease.leaseState ∧
      (broken.holder.np.nocache = false → mayCache state = true)

/-- A break that is not newer takes no right from the lease, and a file that is to be closed does not stay cached
under a state without caching. -/
def Harmless : Prop :=
  (¬Newer env s rq →
    (s.np.lease.leaseState &&& rq.newLeaseState = s.np.lease.leaseState ∨
      needCloseFiles s.np.lease rq = true ∧ Removable env s) ∧
    (mayCache s.np.lease.leaseState = true → (s.np.nocache = true → s.np.hasBRLs = 0) →
      mayCache rq.newLeaseState = true)) ∧
  (needCloseFiles s.np.lease rq = true → s.np.nocache = false → mayCache rq.newLeaseState = true)

end

theorem clearPendingBreak_keeps (s : Holder) (pending : Bool) :
    (s.clearPendingBreak pending).np.lease.leaseState = s.np.lease.leaseState ∧
      (s.clearPendingBreak pending).np.nocache = s.np.nocache := by
  unfold Holder.clearPendingBreak
  split <;> exact ⟨rfl, rfl⟩

theorem kept_iff_of_file {env : Surroundings} {s : Holder} {rq : LeaseRq} (file : s.np.isdir = false) :
    Kept (smbfsHandleLeaseBreak env s rq) ↔ (Acks env s rq →
      (breakFile env s rq).2.1.np.lease.leaseState &&& rq.newLeaseState =
          (breakFile env s rq).2.1.np.lease.leaseState ∧
        ((breakFile env s rq).2.1.np.nocache = false → mayCache rq.newLeaseState = true)) := by
  have implicit := (breakFile_spec env s rq).implicit
  unfold Kept smbfsHandleLeaseBreak Acks
  by_cases unknown : rq.key ∉ s.table ∨ env.vnodeFound = false
  · simp only [if_pos unknown, reduceCtorEq, false_implies, implies_true, true_iff]
    rintro ⟨found, vnode, -⟩
    rcases unknown with missing | gone
    · exact absurd found missing
    · rw [vnode] at gone
      cases gone
  · obtain ⟨found, vnode⟩ := not_or.mp unknown
    simp only [if_neg unknown]
    simp only [file, Bool.false_eq_true, if_false, implicit, Decidable.not_not.mp found,
      Bool.eq_true_of_not_eq_false vnode, true_and]
    cases required : rq.ackRequired with
    | false => simp
    | true =>
      by_cases closed : needCloseFiles s.np.lease rq = true ∧ Closes s.np env.closeError
      · simp [closed]
      · have sent : (!(needCloseFiles s.np.lease rq && decide (Closes s.np env.closeError)) && true) = true := by
          simpa [Bool.eq_false_or_eq_true, imp_iff_not_or] using closed
        simp only [sent, if_true, Option.some.injEq, forall_eq', clearPendingBreak_keeps, closed, not_false_eq_true,
          forall_const, true_and]

theorem smbfsHandleLeaseBreak_kept_iff (env : Surroundings) (s : Holder) (rq : LeaseRq) :
    (s.np.isdir = false → Kept (smbfsHandleLeaseBreak env s rq)) ↔
      (s.np.isdir = false → Acks env s rq → Harmless env s rq) := by
  refine forall_congr' fun file => ?_
  rw [kept_iff_of_file file]
  refine forall_congr' fun _ => ?_
  obtain ⟨state, nocache, -⟩ := breakFile_spec env s rq
  rw [state, nocache, recorded_leaseState, Harmless]
  by_cases newer : Newer env s rq
  · have taken : (if needCloseFiles s.np.lease rq = true ∧ Removable env s then 0 else rq.newLeaseState) &&&
        rq.newLeaseState = if needCloseFiles s.np.lease rq = true ∧ Removable env s then 0 else rq.newLeaseState := by
      split
      · exact Nat.zero_and _
      · exact Nat.and_self _
    simp only [newer, if_true, taken, not_true, false_implies, true_and]
    cases s.np.nocache <;> cases mayCache rq.newLeaseState <;> cases needCloseFiles s.np.lease rq <;> simp
  · simp only [newer, if_false, not_false_eq_true, forall_const]
    by_cases dropped : needCloseFiles s.np.lease rq = true ∧ Removable env s
    · simp only [dropped, true_and, and_true, or_true, forall_const]
      cases s.np.nocache <;> cases mayCache rq.newLeaseState <;> simp
    · simp only [dropped, or_false]
      cases s.np.nocache <;> cases mayCache rq.newLeaseState <;> cases needCloseFiles s.np.lease rq <;> simp

/-- The break is the first after the epoch has wrapped. -/
theorem smbfsHandleLeaseBreak_keeps_wrapped :
    let held : Holder :=
      { table := [(1, 2)], np := { lease := { leaseState := leaseReadWriteHandle, key := (1, 2), epoch := 65535 } } }
    let rq : LeaseRq :=
      { serverEpoch := 0, ackRequired := true, key := (1, 2), currLeaseState := leaseReadWriteHandle, newLeaseState := leaseNone }
    let broken := smbfsHandleLeaseBreak {} held rq
    broken.ack = some leaseNone ∧ broken.holder.np.lease.leaseState = leaseReadWriteHandle ∧
      broken.holder.np.nocache = false ∧ ¬Kept broken := by
  intro held rq broken
  refine ⟨by decide +kernel, by decide +kernel, by decide +kernel, fun kept => ?_⟩
  exact absurd (kept leaseNone (by decide +kernel)).1 (by decide +kernel)

end SmbClient.Leases
