import SmbClient.Leases.Break
import SmbClient.Lib.Runs

/-!
The changes that a server makes to one lease, and the order in which the client hears of them: in the replies to
opens and in lease breaks.
-/

namespace SmbClient.Leases
open SmbClient.Lib

structure History where
  first : UInt16
  states : List Nat

def History.epoch (h : History) (i : Nat) : UInt16 := h.first + UInt16.ofNat i

inductive Delivery
  | grant (i reqLeaseState : Nat) (inReconnect : Bool)
  | leaseBreak (i currLeaseState : Nat) (ackRequired : Bool) (env : Surroundings)
  | elsewhere (next : Holder)

variable (h : History) (key : Nat × Nat)

def History.lease (i reqLeaseState leaseState : Nat) : Lease :=
  { flags := { granted := true, v2 := true }, reqLeaseState, leaseState, key, epoch := h.epoch i }

def History.rq (i currLeaseState newLeaseState : Nat) (ackRequired : Bool) : LeaseRq :=
  { serverEpoch := h.epoch i, ackRequired, key, currLeaseState, newLeaseState }

def deliver (s : Holder) : Delivery → Option Holder
  | .grant i reqLeaseState inReconnect =>
    h.states[i]?.map fun leaseState =>
      (smbfsAddUpdateLease true s (.update (h.lease key i reqLeaseState leaseState) inReconnect)).2
  | .leaseBreak i currLeaseState ackRequired env =>
    h.states[i]?.map fun newLeaseState =>
      (smbfsHandleLeaseBreak { env with smb3 := true } s (h.rq key i currLeaseState newLeaseState ackRequired)).holder
  | .elsewhere next => some next

/-- What is ahead is applied, its state recorded with its epoch; what is behind leaves both alone. -/
def Treated (s : Holder) : Delivery → Prop
  | .grant i reqLeaseState inReconnect => ∀ leaseState, h.states[i]? = some leaseState → key ∈ s.table →
      let inLease := h.lease key i reqLeaseState leaseState
      let lease := (smbfsAddUpdateLease true s (.update inLease inReconnect)).2.np.lease
      (Ahead inLease.epoch s.np.lease.epoch → lease.leaseState = leaseState ∧ lease.epoch = inLease.epoch) ∧
      (Behind inLease.epoch s.np.lease.epoch → lease = s.np.lease)
  | .leaseBreak i currLeaseState ackRequired env => ∀ newLeaseState, h.states[i]? = some newLeaseState →
      let rq := h.rq key i currLeaseState newLeaseState ackRequired
      let lease := recorded { env with smb3 := true } s rq
      (Ahead rq.serverEpoch s.np.lease.epoch → lease.leaseState = newLeaseState ∧ lease.epoch = rq.serverEpoch) ∧
      (Behind rq.serverEpoch s.np.lease.epoch →
        lease.leaseState = s.np.lease.leaseState ∧ lease.epoch = s.np.lease.epoch)
  | .elsewhere _ => True

/-- No right is lost, and one is added, unless read and write caching is granted again. -/
def TakesOver (current new : Nat) : Prop := Keeps current new ∧ (current ≠ new ∨ current = leaseReadWrite)

instance (current new : Nat) : Decidable (TakesOver current new) := inferInstanceAs (Decidable (_ ∧ _))

/-- The change that comes has no wrap between it and the epoch that is stored, and an open reply brings a state that
the table of states takes over. -/
def Regular (s : Holder) : Delivery → Prop
  | .grant i _ _ => ∀ leaseState, h.states[i]? = some leaseState → key ∈ s.table →
      Ahead (h.epoch i) s.np.lease.epoch →
        ¬Wrapped (h.epoch i) s.np.lease.epoch ∧ TakesOver s.np.lease.leaseState leaseState
  | .leaseBreak i _ _ _ => ∀ newLeaseState, h.states[i]? = some newLeaseState →
      Ahead (h.epoch i) s.np.lease.epoch → ¬Wrapped (h.epoch i) s.np.lease.epoch
  | .elsewhere _ => True

variable {h key}

theorem evaluate_upgrade_iff (deltaEpoch : Int) (current new : Nat) :
    (evaluate deltaEpoch current new).upgrade = true ↔ TakesOver current new := by
  by_cases known : Known current ∧ Known new
  · obtain ⟨known, known'⟩ := known
    simp only [Known, List.mem_cons, List.not_mem_nil, or_false] at known known'
    rcases known with rfl | rfl | rfl | rfl | rfl <;> rcases known' with rfl | rfl | rfl | rfl | rfl <;>
      first
      | exact iff_of_true rfl (by decide)
      | exact iff_of_false Bool.false_ne_true (by decide)
  · have refused : Refused current new := by
      rw [Refused, ← or_assoc, ← Decidable.not_and_iff_or_not]
      exact .inl known
    rw [(evaluate_refused refused deltaEpoch).2]
    exact iff_of_false Bool.false_ne_true fun takes => known ⟨takes.1.1, takes.1.2.1⟩

theorem updateLease_lease (np : Node) (deltaEpoch : Int) (inLease : Lease) (inReconnect : Bool) :
    (np.updateLease deltaEpoch inLease inReconnect).2.lease =
      if 0 < deltaEpoch ∧ TakesOver np.lease.leaseState inLease.leaseState then (np.upgrade inLease).lease
      else np.lease := by
  by_cases newer : 0 < deltaEpoch
  · by_cases takes : TakesOver np.lease.leaseState inLease.leaseState
    · simp [Node.updateLease, newer, takes, (evaluate_upgrade_iff _ _ _).mpr takes]
    · have kept := mt (evaluate_upgrade_iff deltaEpoch np.lease.leaseState inLease.leaseState).mp takes
      simp [Node.updateLease, newer, takes, kept]
  · simp [Node.updateLease, newer]

theorem ne_of_ahead {serverEpoch fileEpoch : UInt16} (ahead : Ahead serverEpoch fileEpoch) :
    fileEpoch ≠ serverEpoch := by
  rintro rfl
  simp [Ahead, epochSteps] at ahead

theorem recorded_epoch (env : Surroundings) (s : Holder) (rq : LeaseRq) (smb3 : env.smb3 = true) :
    (recorded env s rq).epoch =
      if 0 < smbfsGetEpochDelta rq.serverEpoch s.np.lease.epoch then rq.serverEpoch else s.np.lease.epoch := by
  have kept : (if needCloseFiles s.np.lease rq then s.np.lease.cancelDeferredClose else s.np.lease).epoch =
      s.np.lease.epoch := by
    split <;> rfl
  have noted (lease : Lease) : lease.noteNone.epoch = lease.epoch := by
    unfold Lease.noteNone
    split <;> rfl
  rw [recorded, noted, Lease.record, if_pos smb3]
  split
  · rfl
  · exact kept

theorem treated_iff (s : Holder) (d : Delivery) : Treated h key s d ↔ Regular h key s d := by
  cases d with
  | grant i reqLeaseState inReconnect =>
    refine forall_congr' fun leaseState => forall_congr' fun _ => forall_congr' fun found => ?_
    have updated : (smbfsAddUpdateLease true s (.update (h.lease key i reqLeaseState leaseState) inReconnect)).2.np =
        (s.np.updateLease (smbfsGetEpochDelta (h.epoch i) s.np.lease.epoch)
          (h.lease key i reqLeaseState leaseState) inReconnect).2 := by
      simp [smbfsAddUpdateLease, History.lease, found, deltaOf]
    dsimp only
    rw [updated, updateLease_lease]
    constructor
    · intro treated ahead
      by_contra irregular
      have stored := (treated.1 ahead).2
      rw [if_neg fun taken => irregular ⟨(delta_pos_iff.mp taken.1).2, taken.2⟩] at stored
      exact ne_of_ahead ahead stored
    · intro regular
      refine ⟨fun ahead => ?_, fun behind => if_neg fun taken => delta_of_behind behind taken.1⟩
      rw [if_pos ⟨delta_pos_iff.mpr ⟨ahead, (regular ahead).1⟩, (regular ahead).2⟩]
      exact ⟨rfl, rfl⟩
  | leaseBreak i currLeaseState ackRequired env =>
    refine forall_congr' fun newLeaseState => forall_congr' fun _ => ?_
    dsimp only
    rw [recorded_leaseState, recorded_epoch _ _ _ rfl]
    constructor
    · intro treated ahead wrapped
      have old : ¬0 < smbfsGetEpochDelta (h.epoch i) s.np.lease.epoch := fun newer => (delta_pos_iff.mp newer).2 wrapped
      exact ne_of_ahead ahead ((if_neg old).symm.trans (treated.1 ahead).2)
    · intro noWrap
      refine ⟨fun ahead => ?_, fun behind => ?_⟩
      · exact ⟨if_pos fun _ => ⟨ahead, noWrap ahead⟩, if_pos (delta_pos_iff.mpr ⟨ahead, noWrap ahead⟩)⟩
      · exact ⟨if_neg fun newer => not_ahead_of_behind behind (newer rfl).1, if_neg (delta_of_behind behind)⟩
  | elsewhere next => exact Iff.rfl

end SmbClient.Leases
