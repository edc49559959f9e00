import SmbClient.Leases.Break

/-! `smb2_lease_init`: the lease key that a node asks the server for. -/

namespace SmbClient.Leases
open SmbClient.Lib SmbClient.Mbuf

/-- The stack from the start of the `uuid` array on: `uuid_generate` fills the first 16 bytes. -/
abbrev Stack := Nat → UInt8

def Stack.uuid (stack : Stack) : Bytes := (List.range 16).map stack

structure KeyedNode where
  leaseKey : Nat × Nat
  epoch : UInt16
  isStream : Bool := false
  deriving DecidableEq, Repr

structure InitCall where
  smb21OrLater : Bool := true
  capLeasing : Bool := true
  dnp : Option KeyedNode := none
  np : Option KeyedNode := none
  -- what `smbfs_smb_get_parent` finds for the node and for the file of a stream
  parent : Option KeyedNode := none
  fileParent : Option KeyedNode := none
  newLeaseKey : Bool
  stack : Stack

structure InitLease where
  error : Option Errno := none
  leaseKey : Nat × Nat := (0, 0)
  parLeaseKey : Nat × Nat := (0, 0)
  epoch : UInt16 := 0
  -- the offsets of the bytes read from the stack
  reads : List Nat := []
  deriving DecidableEq, Repr

def load64 (stack : Stack) (off : Nat) : Nat := ofLe ((List.range' off 8).map stack)

def InitCall.parLeaseKey (call : InitCall) : Nat × Nat :=
  if call.np.any (·.isStream) then
    match call.parent with
    | none => (0, 0)
    | some _ => (call.fileParent.map (·.leaseKey)).getD (0, 0)
  else ((call.dnp.or call.parent).map (·.leaseKey)).getD (0, 0)

def InitLease.generateKey (lease : InitLease) (stack : Stack) : InitLease :=
  { lease with
    leaseKey := (load64 stack 15, load64 stack 7)
    reads := List.range' 15 8 ++ List.range' 7 8 }

def InitCall.leases (call : InitCall) : Bool := call.smb21OrLater && call.capLeasing

def InitCall.unplaced (call : InitCall) : Bool := call.np.isNone && call.dnp.isNone

def smb2LeaseInit (call : InitCall) : InitLease :=
  if call.unplaced then { error := some .einval }
  else if call.leases then
    let lease : InitLease :=
      { parLeaseKey := call.parLeaseKey, epoch := (call.np.map (·.epoch)).getD 0 }
    if call.newLeaseKey then lease.generateKey call.stack
    else
      match call.np with
      | some np => { lease with leaseKey := np.leaseKey }
      | none => { lease with error := some .einval }
  else {}

/-- The call gets as far as a new key. -/
def InitCall.Generates (call : InitCall) : Prop :=
  call.unplaced = false ∧ call.leases = true ∧ call.newLeaseKey = true

instance (call : InitCall) : Decidable call.Generates := inferInstanceAs (Decidable (_ ∧ _ ∧ _))

def generatedKeys (calls : List InitCall) : List (Nat × Nat) :=
  (calls.filter (·.Generates)).map fun call => (smb2LeaseInit call).leaseKey

/-- Every key is made of the 16 bytes alone, the keys differ, and the key of a lease break is that of at most
one of them. -/
structure KeysSound (calls : List InitCall) : Prop where
  inside : ∀ call ∈ calls, ∀ off ∈ (smb2LeaseInit call).reads, off < 16
  different : (generatedKeys calls).Nodup
  named : ∀ key, (generatedKeys calls).count key ≤ 1

theorem reads_eq (call : InitCall) :
    (smb2LeaseInit call).reads = if call.Generates then List.range' 15 8 ++ List.range' 7 8 else [] := by
  unfold smb2LeaseInit
  by_cases unplaced : call.unplaced = true
  · simp [InitCall.Generates, unplaced]
  by_cases leases : call.leases = true
  · by_cases asks : call.newLeaseKey = true
    · simp [InitCall.Generates, unplaced, leases, asks, InitLease.generateKey]
    · cases call.np <;> simp [InitCall.Generates, unplaced, leases, asks]
  · simp [InitCall.Generates, unplaced, leases]

theorem leaseKeys_sound_iff (calls : List InitCall) (asks : ∀ call ∈ calls, call.newLeaseKey = true) :
    KeysSound calls ↔ ∀ call ∈ calls, call.unplaced = true ∨ call.leases = false := by
  constructor
  · intro sound call member
    have inside := sound.inside call member
    rw [reads_eq] at inside
    by_contra placed
    rw [not_or, Bool.not_eq_true, Bool.not_eq_false] at placed
    rw [if_pos ⟨placed.1, placed.2, asks call member⟩] at inside
    exact absurd (inside 22 (by decide)) (by decide)
  · intro idle
    have none : ∀ call ∈ calls, ¬call.Generates := by
      rintro call member ⟨placed, leases, -⟩
      rcases idle call member with unplaced | without
      · simp [placed] at unplaced
      · simp [leases] at without
    have keys : generatedKeys calls = [] := by
      rw [generatedKeys, List.map_eq_nil_iff, List.filter_eq_nil_iff]
      exact fun call member generates => none call member (of_decide_eq_true generates)
    refine ⟨fun call member off read => ?_, ?_, fun key => ?_⟩
    · rw [reads_eq, if_neg (none call member)] at read
      cases read
    · rw [keys]
      exact List.nodup_nil
    · rw [keys]
      exact Nat.zero_le _

def rootNode : KeyedNode := ⟨(1, 2), 0, false⟩

theorem leaseKeys_sound_without_leasing : KeysSound
    [{ np := some rootNode, capLeasing := false, newLeaseKey := true, stack := fun _ => 7 }] := by
  refine (leaseKeys_sound_iff _ ?_).mpr ?_
  · simp
  · simp [InitCall.leases]

/-- Two uuids that differ in their first byte only, and bytes behind the array that are read into both keys. -/
theorem leaseKeys_collide :
    let call (first : UInt8) : InitCall :=
      { np := some rootNode, newLeaseKey := true, stack := fun off => if off = 0 then first else 7 }
    (call 1).stack.uuid ≠ (call 2).stack.uuid ∧ (smb2LeaseInit (call 1)).leaseKey = (smb2LeaseInit (call 2)).leaseKey ∧
      22 ∈ (smb2LeaseInit (call 1)).reads := by
  decide

end SmbClient.Leases
