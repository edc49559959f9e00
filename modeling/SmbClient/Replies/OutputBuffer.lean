import Mathlib.Data.Finset.Insert
import Mathlib.Data.Finset.Lattice.Basic
import SmbClient.ReadWrite.Reply

/-! Replies whose fixed part says where their payload is. The parsers count the distance to it in the
type of the field, and have already read the fixed part by then. -/

namespace SmbClient.Replies
open SmbClient.Lib SmbClient.Lib.Fallible SmbClient.Mbuf SmbClient.Mbuf.Reader SmbClient.ReadWrite

structure Named where
  offset : Nat
  length : Nat
  deriving DecidableEq, Repr

def Named.Before (named : Named) (fixedEnd : Nat) : Prop :=
  named.offset < fixedEnd ∧ (named.offset ≠ 0 ∨ named.length ≠ 0)

instance (named : Named) (fixedEnd : Nat) : Decidable (named.Before fixedEnd) :=
  inferInstanceAs (Decidable (_ ∧ _))

def skipDistance (bits fixedEnd offset : Nat) : Nat :=
  if offset = 0 then 0 else (offset + 2 ^ bits - fixedEnd) % 2 ^ bits

theorem skipDistance_of_le {bits fixedEnd offset : Nat} (after : fixedEnd ≤ offset) (small : offset < 2 ^ bits) :
    skipDistance bits fixedEnd offset = offset - fixedEnd := by
  unfold skipDistance
  split
  · omega
  · have split : offset + 2 ^ bits - fixedEnd = offset - fixedEnd + 2 ^ bits := by omega
    rw [split, Nat.add_mod_right, Nat.mod_eq_of_lt (by omega)]

/-- The reply names a place before the end of the fixed part, and is long enough for the distance that the
subtraction gives. -/
def Displaced (bits fixedSize fixedEnd : Nat) (named : Named) (data : Bytes) : Prop :=
  named.Before fixedEnd ∧ fixedSize + skipDistance bits fixedEnd named.offset ≤ data.length

def leftBehind (bits fixedSize fixedEnd : Nat) (named : Named) (data : Bytes) : Nat :=
  data.length - (fixedSize + skipDistance bits fixedEnd named.offset)

structure PlacedParser (τ β α : Type) where
  start : Nat
  fixedEnd : Nat
  fields : Bytes → Named
  parser : Reader τ α
  toPayload : Reader τ β
  payload : β → Reader τ α
  parser_eq : parser = toPayload >>= payload

variable {τ β α : Type}

/-- The payload of a reply that is accepted is taken from the place that the reply names, and a reply
that names a place before the end of the fixed part is not accepted. -/
structure PlacedParser.InPlace (p : PlacedParser τ β α) (s : Reading τ) : Prop where
  starts : ∀ {b u a t}, p.toPayload s = (.ok b, u) → p.payload b u = (.ok a, t) → (p.fields s.mdp.rest).length ≠ 0 →
    p.start + (s.mdp.rest.length - u.mdp.rest.length) = (p.fields s.mdp.rest).offset
  rejected : (p.fields s.mdp.rest).Before p.fixedEnd → ∃ e t, p.parser s = (.error e, t)

structure PlacedParser.Reaches (p : PlacedParser τ β α) (bits : Nat) (wellFormed : Prop) (b : β) (u s : Reading τ) :
    Prop where
  start_le : p.start ≤ p.fixedEnd
  offset_lt : (p.fields s.mdp.rest).offset < 2 ^ bits
  settles : Settles p.toPayload s
    (wellFormed ∧ p.fixedEnd - p.start + skipDistance bits p.fixedEnd (p.fields s.mdp.rest).offset ≤ s.mdp.rest.length)
    (fun b' u' => b' = b ∧ u' = u)
  rest : u.mdp.rest =
    s.mdp.rest.drop (p.fixedEnd - p.start + skipDistance bits p.fixedEnd (p.fields s.mdp.rest).offset)

theorem PlacedParser.Reaches.inPlace_iff {p : PlacedParser τ β α} {bits : Nat} {wellFormed taken : Prop} {b : β}
    {u s : Reading τ} (reaches : p.Reaches bits wellFormed b u s) (payload : (∃ a t, p.payload b u = (.ok a, t)) ↔ taken) :
    p.InPlace s ↔
      ¬(Displaced bits (p.fixedEnd - p.start) p.fixedEnd (p.fields s.mdp.rest) s.mdp.rest ∧ wellFormed ∧ taken) := by
  constructor
  · rintro inPlace ⟨⟨before, room⟩, formed, takes⟩
    obtain ⟨_, _, reached, rfl, rfl⟩ := reaches.settles.ok ⟨formed, room⟩
    obtain ⟨a, t, done⟩ := payload.mpr takes
    obtain ⟨e, t', failed⟩ := inPlace.rejected before
    rw [p.parser_eq, bind_of_ok reached, done] at failed
    cases failed
  · intro fine
    refine ⟨fun reached done present => ?_, fun before => ?_⟩
    · by_cases accepted : wellFormed ∧
          p.fixedEnd - p.start + skipDistance bits p.fixedEnd (p.fields s.mdp.rest).offset ≤ s.mdp.rest.length
      · obtain ⟨_, _, found, rfl, rfl⟩ := reaches.settles.ok accepted
        rw [found] at reached
        cases reached
        have after : p.fixedEnd ≤ (p.fields s.mdp.rest).offset := by
          by_contra before
          have named : (p.fields s.mdp.rest).Before p.fixedEnd := ⟨Nat.lt_of_not_le before, .inr present⟩
          exact fine ⟨⟨named, accepted.2⟩, accepted.1, payload.mp ⟨_, _, done⟩⟩
        have distance := skipDistance_of_le after reaches.offset_lt
        have room := accepted.2
        have ordered := reaches.start_le
        rw [distance] at room
        rw [reaches.rest, List.length_drop, distance]
        omega
      · obtain ⟨e, t, failed⟩ := reaches.settles.error accepted
        rw [failed] at reached
        cases reached
    · rw [p.parser_eq]
      by_cases accepted : wellFormed ∧
          p.fixedEnd - p.start + skipDistance bits p.fixedEnd (p.fields s.mdp.rest).offset ≤ s.mdp.rest.length
      · obtain ⟨_, _, found, rfl, rfl⟩ := reaches.settles.ok accepted
        rw [bind_of_ok found]
        cases run : p.payload _ _ with
        | mk result t =>
          cases result with
          | ok a => exact absurd ⟨⟨before, accepted.2⟩, accepted.1, payload.mp ⟨a, t, run⟩⟩ fine
          | error e => exact ⟨e, t, rfl⟩
      · obtain ⟨e, t, failed⟩ := reaches.settles.error accepted
        exact ⟨e, t, bind_of_error failed⟩

/-! `smb2_smb_parse_query_dir`, `smb2_smb_parse_query_info` and `smb2_smb_parse_change_notify`: replies with
the same fixed part of 8 bytes in front of an output buffer. -/

def toOutputBuffer (save : Nat → τ → τ) (allowed : τ → Nat → Bool) : Reader τ Named := do
  let structSize ← getUint 2
  require (structSize = 9) .ebadrpc
  let offset ← getUint 2
  let length ← getUint 4
  update (save length)
  let saved ← state
  require (allowed saved length = true) .ebadrpc
  skip (skipDistance 16 (64 + 8) offset)
  pure { offset, length }

def outputBufferFields (data : Bytes) : Named where
  offset := ofLe (slice data 2 2)
  length := ofLe (slice data 4 4)

/-! ## Query Directory -/

structure QueryDirRq where
  outputBufferLen : Nat
  retBufferLen : Nat := 0
  rcvOutputUio : Option Target

def mdGetUioTo (uio : τ → Option Target) (setUio : Target → τ → τ) (size : Nat) : Reader τ Unit := fun s =>
  match uio s.state with
  | none => (.ok (), s)
  | some target =>
    let r := mdGetUio size ⟨s.mdp, target⟩
    (r.1, { s with state := setUio r.2.state s.state })

def parseDirEntries : Reader QueryDirRq Unit := do
  let queryp ← state
  if queryp.rcvOutputUio.isSome ∧ queryp.outputBufferLen > 0 then do
    let readSize := min queryp.outputBufferLen queryp.retBufferLen
    mdGetUioTo (·.rcvOutputUio) (fun target queryp => { queryp with rcvOutputUio := some target }) readSize
    update fun queryp => { queryp with outputBufferLen := readSize }
  else pure ()

def toDirEntries : Reader QueryDirRq Named :=
  toOutputBuffer (fun length queryp => { queryp with retBufferLen := length }) (fun _ _ => true)

def smb2SmbParseQueryDir : Reader QueryDirRq Unit := do
  let _ ← toDirEntries
  parseDirEntries

/-! ## Query Info -/

inductive InfoType
  | file | filesystem | security | other
  deriving DecidableEq, Repr

def fileInternalInformation : Nat := 6
def fileAllInformation : Nat := 18
def fileStreamInformation : Nat := 22
def fileFsSizeInformation : Nat := 3
def fileFsAttributeInformation : Nat := 5

structure FileFsAttributeInformation where
  fileSystemAttrs : Nat := 0
  maxComponentNameLen : Nat := 0
  fileSystemNameLen : Nat := 0
  fileSystemName : Option Bytes := none
  deriving DecidableEq, Repr

structure FileFsSizeInformation where
  totalAllocUnits : Nat := 0
  availAllocUnits : Nat := 0
  sectorsPerAllocUnit : Nat := 0
  bytesPerSector : Nat := 0
  deriving DecidableEq, Repr

structure QueryInfoRq (ν : Type) where
  infoType : InfoType
  fileInfoClass : Nat
  outputBufferLen : Nat
  retBufferLen : Nat := 0
  inodeNumber : Nat := 0
  fsAttrs : FileFsAttributeInformation := {}
  fsSize : FileFsSizeInformation := {}
  ntsecdesc : Option Bytes := none
  node : ν

structure QueryInfoEnv (ν : Type) where
  kalloc : Kalloc
  parseFileAllInfo : Reader (QueryInfoRq ν) Unit
  parseFileStreamInfo : Nat → Reader (QueryInfoRq ν) Unit

section
variable {ν : Type}

def smbMaxFNameLen : Nat := 255
def pathMax : Nat := 1024
def sizeofNtsecdesc : Nat := 20

def smb2SmbParseFsAttr (kalloc : Kalloc) : Reader (QueryInfoRq ν) Unit := do
  let attrs ← getUint 4
  update fun queryp => { queryp with fsAttrs.fileSystemAttrs := attrs }
  let maxLen ← getUint 4
  update fun queryp => { queryp with fsAttrs.maxComponentNameLen := min maxLen (smbMaxFNameLen * 2) }
  let nameLen ← getUint 4
  update fun queryp => { queryp with fsAttrs.fileSystemNameLen := nameLen }
  if nameLen > 0 ∧ nameLen < pathMax then
    if (kalloc.alloc nameLen).isNone then fail .enomem
    else do
      let name ← getMem nameLen
      update fun queryp => { queryp with fsAttrs.fileSystemName := some name }
  else pure ()

def smb2SmbParseFsSize : Reader (QueryInfoRq ν) Unit := do
  let totalAllocUnits ← getUint 8
  update fun queryp => { queryp with fsSize.totalAllocUnits := totalAllocUnits }
  let availAllocUnits ← getUint 8
  update fun queryp => { queryp with fsSize.availAllocUnits := availAllocUnits }
  let sectorsPerAllocUnit ← getUint 4
  update fun queryp => { queryp with fsSize.sectorsPerAllocUnit := sectorsPerAllocUnit }
  let bytesPerSector ← getUint 4
  update fun queryp => { queryp with fsSize.bytesPerSector := bytesPerSector }

def smb2SmbParseSecurity (kalloc : Kalloc) : Reader (QueryInfoRq ν) Unit := do
  let queryp ← state
  require (queryp.retBufferLen ≥ sizeofNtsecdesc) .ebadrpc
  if (kalloc.alloc queryp.retBufferLen).isNone then fail .enomem
  else do
    let desc ← getMem queryp.retBufferLen
    update fun queryp => { queryp with ntsecdesc := some desc }

def parseInternalInfo : Reader (QueryInfoRq ν) Unit := do
  let inodeNumber ← getUint 8
  update fun queryp => { queryp with inodeNumber }

def parseInfo (env : QueryInfoEnv ν) : Reader (QueryInfoRq ν) Unit := do
  let queryp ← state
  if queryp.infoType = .file ∧ queryp.fileInfoClass = fileStreamInformation then
    env.parseFileStreamInfo queryp.retBufferLen
  else if queryp.retBufferLen > 0 then
    match queryp.infoType with
    | .file =>
      if queryp.fileInfoClass = fileAllInformation then env.parseFileAllInfo
      else if queryp.fileInfoClass = fileInternalInformation then parseInternalInfo
      else pure ()
    | .filesystem =>
      if queryp.fileInfoClass = fileFsAttributeInformation then smb2SmbParseFsAttr env.kalloc
      else if queryp.fileInfoClass = fileFsSizeInformation then smb2SmbParseFsSize
      else pure ()
    | .security => smb2SmbParseSecurity env.kalloc
    | .other => pure ()
  else pure ()

def toInfo : Reader (QueryInfoRq ν) Named :=
  toOutputBuffer (fun length queryp => { queryp with retBufferLen := length })
    (fun queryp length => length ≤ queryp.outputBufferLen)

def smb2SmbParseQueryInfo (env : QueryInfoEnv ν) : Reader (QueryInfoRq ν) Unit := do
  let _ ← toInfo
  parseInfo env

end

/-! ## Change Notify -/

inductive VnodeEvent
  | fileCreated | dirCreated | fileRemoved | dirRemoved | attrib | rename | write
  deriving DecidableEq, Repr

abbrev Events := Finset VnodeEvent

def eventsOfAction (action : Nat) : Option Events :=
  if action = 1 then some {.fileCreated, .dirCreated}
  else if action = 2 then some {.fileRemoved, .dirRemoved}
  else if action = 3 then some {.attrib}
  else if action = 4 ∨ action = 5 then some {.rename}
  else if action = 6 ∨ action = 7 ∨ action = 8 then some {.attrib}
  else none

def subtractWord (nextEntryOffset : Nat) : Nat :=
  if nextEntryOffset ≥ 4 then nextEntryOffset - 4 else nextEntryOffset

def toNextEntry (distance : Nat) : Reader Events Nat :=
  if distance = 0 then pure 0
  else do
    skip distance
    getUint 4

/-- Whether the loop came to its end. -/
def notifyLoop : (fuel nextEntryOffset : Nat) → Reader Events Bool
  | 0, _ => pure false
  | fuel + 1, nextEntryOffset => do
      let action ← getUint 4
      let next ← toNextEntry (subtractWord (subtractWord nextEntryOffset))
      match eventsOfAction action with
      | some events => do
          update (· ∪ events)
          if next = 0 then pure true else notifyLoop fuel next
      | none => if next = 0 then fail .enotsup else notifyLoop fuel next

def defaultEvents (r : Except Errno Bool × Reading Events) : Except Errno Bool × Reading Events :=
  match r.1 with
  | .ok ended => (.ok ended, if r.2.state = ∅ then { r.2 with state := {.attrib, .write} } else r.2)
  | .error e => (.error e, { r.2 with state := {.attrib, .write} })

def parseNotifyEntries (outputBufferLen : Nat) : Reader Events Bool := fun s => defaultEvents <|
  if outputBufferLen = 0 then (.ok true, s)
  else
    match getUint 4 s with
    | (.error _, t) => (.ok true, t)
    | (.ok nextEntryOffset, t) => notifyLoop (t.mdp.rest.length + 1) nextEntryOffset t

def toNotifyEntries : Reader Events Named := toOutputBuffer (fun _ events => events) (fun _ _ => true)

def smb2SmbParseChangeNotify : Reader Events Bool := do
  update fun _ => ∅
  let named ← toNotifyEntries
  parseNotifyEntries named.length

theorem toNextEntry_length {distance next : Nat} {s t : Reading Events} (run : toNextEntry distance s = (.ok next, t)) :
    t.mdp.rest.length ≤ s.mdp.rest.length := by
  unfold toNextEntry at run
  split at run
  · obtain ⟨_, rfl⟩ := of_pure_eq_ok run
    exact Nat.le_refl _
  · obtain ⟨_, u, skipped, read⟩ := of_bind_eq_ok run
    obtain ⟨_, v, fetched, done⟩ := of_bind_eq_ok skipped
    obtain ⟨_, rfl⟩ := of_pure_eq_ok done
    obtain ⟨_, _, first, _⟩ := getMem_ok fetched
    obtain ⟨_, _, second, _⟩ := getUint_ok read
    rw [second, first, List.length_drop, List.length_drop]
    omega

theorem notifyLoop_ends {fuel nextEntryOffset : Nat} {s t : Reading Events} (enough : s.mdp.rest.length < fuel) :
    notifyLoop fuel nextEntryOffset s ≠ (.ok false, t) := by
  induction fuel generalizing nextEntryOffset s with
  | zero => omega
  | succ fuel ih =>
    intro endless
    obtain ⟨action, u, read, endless⟩ := of_bind_eq_ok endless
    obtain ⟨next, v, found, endless⟩ := of_bind_eq_ok endless
    obtain ⟨four, _, left, _⟩ := getUint_ok read
    have shorter : v.mdp.rest.length < fuel := by
      have later := toNextEntry_length found
      rw [left, List.length_drop] at later
      omega
    cases events : eventsOfAction action with
    | none =>
      simp only [events] at endless
      split at endless
      · cases endless
      · exact ih shorter endless
    | some events' =>
      simp only [events, update_bind] at endless
      split at endless
      · cases endless
      · exact ih (s := { v with state := v.state ∪ events' }) shorter endless

theorem parseNotifyEntries_ends (outputBufferLen : Nat) (s t : Reading Events) :
    parseNotifyEntries outputBufferLen s ≠ (.ok false, t) := by
  unfold parseNotifyEntries defaultEvents
  intro endless
  split at endless
  · rename_i ended result
    cases endless
    split at result
    · cases result
    · split at result
      · cases result
      · rename_i nextEntryOffset u _
        exact notifyLoop_ends (Nat.lt_succ_self _) (Prod.ext result rfl)
  · cases endless

end SmbClient.Replies
