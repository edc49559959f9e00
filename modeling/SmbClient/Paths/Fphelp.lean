import SmbClient.Mbuf.Chain

namespace SmbClient.Paths
open SmbClient.Lib
open SmbClient.Mbuf (Errno)

def smbfsMaxpathcomp : Nat := 1024

structure Smbnode where
  nVnode : Nat
  nName : Bytes
  deriving DecidableEq, Repr

structure Lineage where
  np : Smbnode
  isStream : Bool
  ancestors : List Smbnode
  missing : Bool

structure Smbmount where
  networkPath : Option Bytes
  smb2 : Bool

structure Puts where
  failed : Nat → Option (Errno × Nat) := fun _ => none
  odd : Nat → Bool := fun _ => false

structure Message where
  written : Bytes := []
  lenp : Option Nat := none
  done : Nat := 0
  deriving DecidableEq, Repr

namespace Message

def mbPutMem (puts : Puts) (mbp : Message) (data : Bytes) : Message × Option Errno :=
  if data = [] then (mbp, none)
  else
    match puts.failed mbp.done with
    | none => ({ mbp with written := mbp.written ++ data, done := mbp.done + 1 }, none)
    -- a put that fails has not copied all bytes
    | some (e, n) => ({ mbp with written := mbp.written ++ data.dropLast.take n, done := mbp.done + 1 }, some e)

def putCounted (puts : Puts) (mbp : Message) (data : Bytes) : Message × Option Errno :=
  match mbp.mbPutMem puts data with
  | (mbp, none) => ({ mbp with lenp := mbp.lenp.map (· + data.length) }, none)
  | (mbp, some e) => (mbp, some e)

def slash (usingUnicode : Bool) : Bytes := if usingUnicode then [92, 0] else [92]

def putSlash (puts : Puts) (usingUnicode : Bool) (mbp : Message) : Message × Option Errno :=
  mbp.putCounted puts (slash usingUnicode)

def smbPutDmem (puts : Puts) (convert : Bytes → Except Errno Bytes) (usingUnicode : Bool) (mbp : Message) (src : Bytes) :
    Message × Option Errno :=
  if src = [] then (mbp, none)
  else
    match convert src with
    | .error e => (mbp, some e)
    | .ok utf16Str =>
      let mbp := if usingUnicode && puts.odd mbp.done then (mbp.mbPutMem puts [0]).1 else mbp
      mbp.putCounted puts utf16Str

end Message

def putStartPath (puts : Puts) (smp : Smbmount) (usingUnicode : Bool) (mbp : Message) : Message × Option Errno × Bool :=
  match smp.networkPath with
  | none => (mbp, none, !smp.smb2)
  | some networkPath =>
    match if smp.smb2 then (mbp, none) else mbp.putSlash puts usingUnicode with
    | (mbp, some e) => (mbp, some e, true)
    | (mbp, none) =>
      let (mbp, error) := mbp.putCounted puts networkPath
      (mbp, error, true)

structure Walk where
  i : Nat := 0
  npstack : List Smbnode := []
  lockStack : List Smbnode
  got : List Nat := []
  put : List Nat := []

def climb (missing : Bool) (walk : Walk) (np : Smbnode) : List Smbnode → Walk × Option Errno
  | [] => (walk, if missing then some .enoent else none)
  | parent :: rest =>
    let got := walk.got ++ [parent.nVnode]
    if walk.i = smbfsMaxpathcomp then
      ({ walk with got, put := walk.put ++ [parent.nVnode] }, some .enametoolong)
    else
      climb missing
        { walk with
          i := walk.i + 1
          npstack := walk.npstack ++ [np]
          lockStack := walk.lockStack ++ [parent]
          got } parent rest

def Lineage.walk (lineage : Lineage) : Walk × Option Errno :=
  let locked : Walk := { lockStack := [lineage.np] }
  if lineage.isStream then
    match lineage.ancestors with
    | parent :: rest =>
      climb lineage.missing
        { locked with lockStack := [lineage.np, parent], got := [parent.nVnode] } parent rest
    | [] => if lineage.missing then (locked, some .enoent) else climb false locked lineage.np []
  else climb lineage.missing locked lineage.np lineage.ancestors

def putNames (puts : Puts) (convert : Bytes → Except Errno Bytes) (usingUnicode : Bool) :
    (mbp : Message) → (addSlash : Bool) → (error : Option Errno) → List Smbnode → Message × Option Errno
  | mbp, _, error, [] => (mbp, error)
  | mbp, addSlash, error, np :: rest =>
    match if addSlash then mbp.putSlash puts usingUnicode else (mbp, error) with
    | (mbp, some e) => (mbp, some e)
    | (mbp, none) =>
      match mbp.smbPutDmem puts convert usingUnicode np.nName with
      | (mbp, some e) => (mbp, some e)
      | (mbp, none) => putNames puts convert usingUnicode mbp true none rest

structure Fphelp where
  mbp : Message
  error : Option Errno
  lockStack : List Smbnode
  got : List Nat
  put : List Nat

def smbFphelp (start puts : Puts) (convert : Bytes → Except Errno Bytes) (smp : Smbmount) (mbp : Message)
    (lineage : Lineage) (usingUnicode : Bool) : Fphelp :=
  let (mbp, error, addSlash) := putStartPath start smp usingUnicode mbp
  let (walk, walkError) := lineage.walk
  let (mbp, error) :=
    match walkError with
    | some e => (mbp, some e)
    | none => putNames puts convert usingUnicode mbp addSlash error walk.npstack.reverse
  -- the first node was not got with `smbfs_smb_get_parent`
  { mbp, error, lockStack := walk.lockStack, got := walk.got, put := walk.put ++ walk.lockStack.tail.map Smbnode.nVnode }

def Lineage.upwards (lineage : Lineage) : List Smbnode :=
  match lineage.isStream, lineage.ancestors with
  | true, parent :: rest => parent :: rest
  | _, ancestors => lineage.np :: ancestors

def Lineage.components (lineage : Lineage) : List Smbnode := lineage.upwards.dropLast.reverse

variable {missing : Bool} {walk : Walk} {np : Smbnode} {ancestors : List Smbnode}

theorem climb_fits (fits : walk.i + ancestors.length ≤ smbfsMaxpathcomp) :
    climb missing walk np ancestors =
      ({ walk with
          i := walk.i + ancestors.length
          npstack := walk.npstack ++ (np :: ancestors).dropLast
          lockStack := walk.lockStack ++ ancestors
          got := walk.got ++ ancestors.map Smbnode.nVnode }, if missing then some .enoent else none) := by
  induction ancestors generalizing walk np with
  | nil => simp [climb]
  | cons parent rest ih =>
    rw [List.length_cons] at fits
    rw [climb, if_neg (by omega), ih (by dsimp only; omega)]
    simp [Nat.add_assoc, Nat.add_comm 1]

theorem climb_full (below : walk.i ≤ smbfsMaxpathcomp) (more : smbfsMaxpathcomp < walk.i + ancestors.length) :
    (climb missing walk np ancestors).2 = some .enametoolong ∧
      (climb missing walk np ancestors).1.lockStack.length = walk.lockStack.length + (smbfsMaxpathcomp - walk.i) := by
  induction ancestors generalizing walk np with
  | nil => exact absurd more (Nat.not_lt.mpr below)
  | cons parent rest ih =>
    rw [List.length_cons] at more
    rw [climb]
    split
    next last => exact ⟨rfl, by simp [last]⟩
    next room =>
      have rest' := @ih
        { walk with
          i := walk.i + 1
          npstack := walk.npstack ++ [np]
          lockStack := walk.lockStack ++ [parent]
          got := walk.got ++ [parent.nVnode] } parent (by dsimp only; omega) (by dsimp only; omega)
      refine ⟨rest'.1, rest'.2.trans ?_⟩
      simp only [List.length_append, List.length_singleton]
      omega

theorem climb_balanced (locked : walk.lockStack ≠ [])
    (balanced : (walk.put ++ walk.lockStack.tail.map Smbnode.nVnode).Perm walk.got) :
    let result := (climb missing walk np ancestors).1
    (result.put ++ result.lockStack.tail.map Smbnode.nVnode).Perm result.got := by
  induction ancestors generalizing walk np with
  | nil => exact balanced
  | cons parent rest ih =>
    rw [climb]
    split
    · dsimp only
      rw [List.append_assoc]
      refine List.Perm.trans ?_ (balanced.append_right [parent.nVnode])
      rw [List.append_assoc]
      exact List.perm_append_comm.append_left walk.put
    · apply ih
      · simp
      · dsimp only
        rw [List.tail_append_of_ne_nil locked, List.map_append, ← List.append_assoc]
        exact balanced.append_right [parent.nVnode]

theorem length_climb (ancestors : List Smbnode) (fresh : walk.i = 0) :
    (climb missing walk np ancestors).1.lockStack.length =
      walk.lockStack.length + min ancestors.length smbfsMaxpathcomp := by
  by_cases fits : ancestors.length ≤ smbfsMaxpathcomp
  · rw [climb_fits (by omega), List.length_append, Nat.min_eq_left fits]
  · rw [(climb_full (by omega) (by omega)).2, fresh, Nat.sub_zero, Nat.min_eq_right (Nat.le_of_not_le fits)]

theorem Lineage.length_lockStack (lineage : Lineage) :
    lineage.walk.1.lockStack.length =
      if lineage.isStream && !lineage.ancestors.isEmpty then 2 + min (lineage.ancestors.length - 1) smbfsMaxpathcomp
      else 1 + min lineage.ancestors.length smbfsMaxpathcomp := by
  unfold Lineage.walk
  cases stream : lineage.isStream with
  | false => simp [length_climb]
  | true =>
    cases ancestors : lineage.ancestors with
    | nil => cases lineage.missing <;> simp [climb]
    | cons parent rest => simp [length_climb]

theorem Lineage.length_lockStack_le_iff (lineage : Lineage) :
    lineage.walk.1.lockStack.length ≤ smbfsMaxpathcomp + 1 ↔
      (lineage.isStream = true → lineage.ancestors.length ≤ smbfsMaxpathcomp) := by
  rw [lineage.length_lockStack]
  cases stream : lineage.isStream with
  | false =>
    simp only [Bool.false_and, Bool.false_eq_true, if_false, false_implies, iff_true]
    omega
  | true =>
    cases ancestors : lineage.ancestors with
    | nil => simp
    | cons parent rest =>
      simp only [List.isEmpty_cons, Bool.not_false, Bool.and_self, if_true, List.length_cons, Nat.add_sub_cancel,
        true_implies]
      omega

theorem Lineage.length_components (lineage : Lineage) :
    lineage.components.length =
      if lineage.isStream && !lineage.ancestors.isEmpty then lineage.ancestors.length - 1
      else lineage.ancestors.length := by
  unfold Lineage.components Lineage.upwards
  split
  next parent rest stream ancestors => simp [stream, ancestors]
  next plain =>
    have other : (lineage.isStream && !lineage.ancestors.isEmpty) = false := by
      cases stream : lineage.isStream with
      | false => rfl
      | true =>
        cases ancestors : lineage.ancestors with
        | nil => rfl
        | cons parent rest => exact absurd ancestors (plain parent rest stream)
    simp [other]

theorem Lineage.walk_too_many {lineage : Lineage} (many : smbfsMaxpathcomp < lineage.components.length) :
    lineage.walk.2 = some .enametoolong := by
  rw [lineage.length_components] at many
  unfold Lineage.walk
  cases stream : lineage.isStream with
  | false =>
    simp only [stream, Bool.false_and, Bool.false_eq_true, if_false] at many
    exact (climb_full (Nat.zero_le _) (by omega)).1
  | true =>
    cases ancestors : lineage.ancestors with
    | nil => simp [ancestors] at many
    | cons parent rest =>
      simp only [stream, ancestors, List.isEmpty_cons, Bool.not_false, Bool.and_self, if_true,
        List.length_cons, Nat.add_sub_cancel] at many
      exact (climb_full (Nat.zero_le _) (by omega)).1

theorem smbFphelp_lockStack (start puts : Puts) (convert : Bytes → Except Errno Bytes) (smp : Smbmount) (mbp : Message)
    (lineage : Lineage) (usingUnicode : Bool) :
    (smbFphelp start puts convert smp mbp lineage usingUnicode).lockStack = lineage.walk.1.lockStack := by
  unfold smbFphelp
  dsimp only

/-- The lock stack has the elements that are stored into, and a path that is too long is an error. -/
def Guarded (lineage : Lineage) (result : Fphelp) : Prop :=
  result.lockStack.length ≤ smbfsMaxpathcomp + 1 ∧
    (smbfsMaxpathcomp < lineage.components.length → result.error.isSome = true)

theorem smbFphelp_guarded_iff (start puts : Puts) (convert : Bytes → Except Errno Bytes) (smp : Smbmount)
    (mbp : Message) (lineage : Lineage) (usingUnicode : Bool) :
    Guarded lineage (smbFphelp start puts convert smp mbp lineage usingUnicode) ↔
      (lineage.isStream = true → lineage.ancestors.length ≤ smbfsMaxpathcomp) := by
  have refused : smbfsMaxpathcomp < lineage.components.length →
      (smbFphelp start puts convert smp mbp lineage usingUnicode).error.isSome = true := by
    intro many
    simp only [smbFphelp, Lineage.walk_too_many many, Option.isSome_some]
  unfold Guarded
  rw [and_iff_left refused, smbFphelp_lockStack]
  exact lineage.length_lockStack_le_iff

def deepStream : Lineage := ⟨⟨0, []⟩, true, List.replicate (smbfsMaxpathcomp + 1) ⟨1, [97]⟩, false⟩

/-- One store is behind the lock stack. -/
theorem smbFphelp_stores_outside :
    deepStream.components.length = smbfsMaxpathcomp ∧
      (smbFphelp {} {} .ok ⟨none, true⟩ {} deepStream true).lockStack.length = smbfsMaxpathcomp + 2 := by
  rw [smbFphelp_lockStack, deepStream.length_lockStack, deepStream.length_components]
  simp only [deepStream, List.replicate_succ, List.isEmpty_cons, Bool.not_false, Bool.and_self, if_true,
    List.length_cons, List.length_replicate, Nat.add_sub_cancel, Nat.min_self, true_and]
  exact Nat.add_comm _ _

end SmbClient.Paths
