import SmbClient.Fid.Table
import SmbClient.Mbuf.Reader

/-! `smb2_smb_parse_close`: the attributes of a closed file, and the end of its fid. -/

namespace SmbClient.Replies
open SmbClient.Lib SmbClient.Lib.Fallible SmbClient.Mbuf SmbClient.Mbuf.Reader SmbClient.Fid

def closeFlagPostqueryAttrib : Nat := 0x0001

structure CloseRq where
  flags : Nat
  fid : SmbFid
  retFlags : Nat := 0
  retCreateTime : Nat := 0
  retAccessTime : Nat := 0
  retWriteTime : Nat := 0
  retChangeTime : Nat := 0
  retAllocSize : Nat := 0
  retEof : Nat := 0
  retAttributes : Nat := 0
  deriving DecidableEq, Repr

def CloseRq.hasAttributes (closep : CloseRq) : Bool := closep.retFlags &&& closeFlagPostqueryAttrib != 0

/-- All the attributes are taken to be invalid if the checked time is 0. -/
def CloseRq.distrust (checked : CloseRq → Nat) (closep : CloseRq) : CloseRq :=
  if checked closep = 0 then { closep with retFlags := closep.retFlags &&& 0xfffe } else closep

def getTime (set : Nat → CloseRq → CloseRq) (checked : CloseRq → Nat) : Reader CloseRq Unit := do
  let time ← getUint 8
  update fun closep => (set time closep).distrust checked

def parseCloseAttributes : Reader CloseRq Unit := do
  let _ ← getUint 4
  getTime (fun time closep => { closep with retCreateTime := time }) (·.retCreateTime)
  getTime (fun time closep => { closep with retAccessTime := time }) (·.retAccessTime)
  getTime (fun time closep => { closep with retWriteTime := time }) (·.retWriteTime)
  -- the source checks the creation time once more
  getTime (fun time closep => { closep with retChangeTime := time }) (·.retCreateTime)
  let allocSize ← getUint 8
  update fun closep => { closep with retAllocSize := allocSize }
  let eof ← getUint 8
  update fun closep => { closep with retEof := eof }
  let attributes ← getUint 4
  update fun closep => { closep with retAttributes := attributes }

def parseCloseBody : Reader CloseRq Unit := do
  let length ← getUint 2
  require (length = 60) .ebadrpc
  let retFlags ← getUint 2
  update fun closep => { closep with retFlags }
  let closep ← state
  if closep.hasAttributes then parseCloseAttributes else pure ()

structure Closed where
  error : Except Errno Unit
  closep : CloseRq
  ssFidTable : FidTable

def smb2SmbParseClose (mdp : MdChain) (closep : CloseRq) (ssFidTable : FidTable) : Closed :=
  let parsed := parseCloseBody ⟨mdp, closep⟩
  { error := parsed.1
    closep := parsed.2.state
    -- the fid goes whether or not the reply could be read
    ssFidTable := (smbFidGetKernelFid ssFidTable closep.fid true).2 }

/-! ## What the reply says -/

structure CloseReply where
  flags : Nat
  createTime : Nat
  accessTime : Nat
  writeTime : Nat
  changeTime : Nat

def closeReply (data : Bytes) : CloseReply where
  flags := ofLe (slice data 2 2)
  createTime := ofLe (slice data 8 8)
  accessTime := ofLe (slice data 16 8)
  writeTime := ofLe (slice data 24 8)
  changeTime := ofLe (slice data 32 8)

def mappings (table : FidTable) (fid : SmbFid) : Nat := (table (tableIndex fid)).countP (·.1 = fid)

structure CloseSound (reply : CloseReply) (before : FidTable) (fid : SmbFid) (closed : Closed) : Prop where
  valid : closed.closep.hasAttributes = true →
    reply.createTime ≠ 0 ∧ reply.accessTime ≠ 0 ∧ reply.writeTime ≠ 0 ∧ reply.changeTime ≠ 0
  once : mappings closed.ssFidTable fid + 1 = mappings before fid
  others : ∀ other, other ≠ fid → closed.ssFidTable.find tableIndex other = before.find tableIndex other

theorem hasAttributes_distrust (checked : CloseRq → Nat) (closep : CloseRq) :
    (closep.distrust checked).hasAttributes = (closep.hasAttributes && checked closep != 0) := by
  unfold CloseRq.distrust
  split
  · rename_i zero
    simp [CloseRq.hasAttributes, closeFlagPostqueryAttrib, zero]
  · rename_i known
    simp [known]

theorem retCreateTime_distrust (checked : CloseRq → Nat) (closep : CloseRq) :
    (closep.distrust checked).retCreateTime = closep.retCreateTime := by
  unfold CloseRq.distrust
  split <;> rfl

theorem getTime_ok {set : Nat → CloseRq → CloseRq} {checked : CloseRq → Nat} {s t : Reading CloseRq}
    {data : Bytes} {k : Nat} (place : s.mdp.rest = data.drop k) (run : getTime set checked s = (.ok (), t)) :
    t.mdp.rest = data.drop (k + 8) ∧ t.state = (set (ofLe (slice data k 8)) s.state).distrust checked := by
  obtain ⟨time, u, read, run⟩ := of_bind_eq_ok run
  obtain ⟨-, found, rest, same⟩ := getUint_ok read
  cases run
  rw [place] at found rest
  refine ⟨rest.trans List.drop_drop, ?_⟩
  dsimp only
  rw [same, found]
  rfl

theorem parseCloseAttributes_ok {s t : Reading CloseRq} {data : Bytes} (place : s.mdp.rest = data.drop 4)
    (run : parseCloseAttributes s = (.ok (), t)) :
    t.state.hasAttributes = (s.state.hasAttributes && (closeReply data).createTime != 0 &&
      (closeReply data).accessTime != 0 && (closeReply data).writeTime != 0) := by
  obtain ⟨_, a, reserved, run⟩ := of_bind_eq_ok run
  obtain ⟨_, b, create, run⟩ := of_bind_eq_ok run
  obtain ⟨_, c, access, run⟩ := of_bind_eq_ok run
  obtain ⟨_, d, write, run⟩ := of_bind_eq_ok run
  obtain ⟨_, e, change, run⟩ := of_bind_eq_ok run
  obtain ⟨-, -, rest, same⟩ := getUint_ok reserved
  rw [place, List.drop_drop] at rest
  obtain ⟨rest, createdAt⟩ := getTime_ok rest create
  obtain ⟨rest, accessedAt⟩ := getTime_ok rest access
  obtain ⟨rest, writtenAt⟩ := getTime_ok rest write
  obtain ⟨-, changedAt⟩ := getTime_ok rest change
  have flags : t.state.hasAttributes = e.state.hasAttributes := by
    obtain ⟨_, f, alloc, run⟩ := of_bind_eq_ok run
    obtain ⟨_, g, allocated, run⟩ := of_bind_eq_ok run
    obtain ⟨_, h, eof, run⟩ := of_bind_eq_ok run
    obtain ⟨_, i, ended, run⟩ := of_bind_eq_ok run
    obtain ⟨_, j, attributes, run⟩ := of_bind_eq_ok run
    cases run
    cases ended
    cases allocated
    simp only [CloseRq.hasAttributes, (getUint_ok alloc).2.2.2, (getUint_ok eof).2.2.2, (getUint_ok attributes).2.2.2]
  have created : d.state.retCreateTime = (closeReply data).createTime := by
    rw [writtenAt, retCreateTime_distrust, accessedAt]
    dsimp only
    rw [retCreateTime_distrust, createdAt]
    dsimp only
    rw [retCreateTime_distrust]
    rfl
  have fourth : e.state.hasAttributes = (d.state.hasAttributes && d.state.retCreateTime != 0) := by
    rw [changedAt, hasAttributes_distrust]
    rfl
  have third : d.state.hasAttributes = (c.state.hasAttributes && (closeReply data).writeTime != 0) := by
    rw [writtenAt, hasAttributes_distrust]
    rfl
  have second : c.state.hasAttributes = (b.state.hasAttributes && (closeReply data).accessTime != 0) := by
    rw [accessedAt, hasAttributes_distrust]
    rfl
  have first : b.state.hasAttributes = (s.state.hasAttributes && (closeReply data).createTime != 0) := by
    rw [createdAt, hasAttributes_distrust, same]
    rfl
  rw [flags, fourth, third, second, first, created]
  cases (closeReply data).createTime != 0 <;> simp

theorem parseCloseBody_ok {s t : Reading CloseRq} (run : parseCloseBody s = (.ok (), t)) :
    t.state.hasAttributes = ((closeReply s.mdp.rest).flags &&& closeFlagPostqueryAttrib != 0 &&
      (closeReply s.mdp.rest).createTime != 0 && (closeReply s.mdp.rest).accessTime != 0 &&
        (closeReply s.mdp.rest).writeTime != 0) := by
  obtain ⟨length, a, first, run⟩ := of_bind_eq_ok run
  obtain ⟨_, b, checked, run⟩ := of_bind_eq_ok run
  obtain ⟨retFlags, c, second, run⟩ := of_bind_eq_ok run
  rw [update_bind, state_bind] at run
  have same : b.mdp = a.mdp := by
    unfold require at checked
    split at checked <;> cases checked
    rfl
  obtain ⟨-, -, rest, -⟩ := getUint_ok first
  obtain ⟨-, found, rest', -⟩ := getUint_ok second
  rw [same, rest] at found rest'
  rw [List.drop_drop] at rest'
  have flags : (closeReply s.mdp.rest).flags = retFlags := found.symm
  rw [flags]
  split at run
  · rename_i has
    exact @parseCloseAttributes_ok _ t s.mdp.rest (by exact rest') run
  · rename_i lacks
    cases run
    rw [Bool.not_eq_true] at lacks
    have unset : (retFlags &&& closeFlagPostqueryAttrib != 0) = false := lacks
    rw [unset]
    exact lacks

theorem countP_eraseFirst {fid : SmbFid} {entries : List (SmbFid × Smb2Fid)} (found : entries.lookup fid ≠ none) :
    (Chained.eraseFirst fid entries).countP (·.1 = fid) + 1 = entries.countP (·.1 = fid) := by
  induction entries with
  | nil => exact absurd rfl found
  | cons entry rest ih =>
    unfold Chained.eraseFirst
    by_cases here : entry.1 = fid
    · simp [here]
    · have later : rest.lookup fid ≠ none := by
        rwa [← Chained.lookup_cons_of_ne here entry.2 rest]
      rw [if_neg here, List.countP_cons, List.countP_cons, ← ih later]
      omega

theorem close_sound_iff (mdp : MdChain) (closep : CloseRq) (table : FidTable)
    (mapped : table.find tableIndex closep.fid ≠ none)
    (parsed : (smb2SmbParseClose mdp closep table).error = .ok ()) :
    CloseSound (closeReply mdp.rest) table closep.fid (smb2SmbParseClose mdp closep table) ↔
      closep.fid ≠ compoundFid ∧ ((closeReply mdp.rest).flags &&& closeFlagPostqueryAttrib ≠ 0 →
        (closeReply mdp.rest).createTime ≠ 0 → (closeReply mdp.rest).accessTime ≠ 0 →
          (closeReply mdp.rest).writeTime ≠ 0 → (closeReply mdp.rest).changeTime ≠ 0) := by
  have flag := parseCloseBody_ok (s := ⟨mdp, closep⟩) (Prod.ext parsed rfl)
  constructor
  · intro sound
    refine ⟨fun compound => ?_, fun set create access write => ?_⟩
    · have once := sound.once
      simp [smb2SmbParseClose, smbFidGetKernelFid, compound] at once
    · refine (sound.valid ?_).2.2.2
      change (parseCloseBody ⟨mdp, closep⟩).2.state.hasAttributes = true
      rw [flag]
      simp [set, create, access, write]
  · rintro ⟨single, valid⟩
    have erased : (smb2SmbParseClose mdp closep table).ssFidTable = table.erase tableIndex closep.fid := by
      obtain ⟨smb2Fid, found⟩ := Option.ne_none_iff_exists'.mp mapped
      simp [smb2SmbParseClose, smbFidGetKernelFid, single, found]
    refine ⟨fun has => ?_, ?_, fun other different => ?_⟩
    · change (parseCloseBody ⟨mdp, closep⟩).2.state.hasAttributes = true at has
      rw [flag] at has
      simp only [Bool.and_eq_true, bne_iff_ne] at has
      obtain ⟨⟨⟨set, create⟩, access⟩, write⟩ := has
      exact ⟨create, access, write, valid set create access write⟩
    · rw [erased, mappings, Chained.erase, Function.update_self]
      exact countP_eraseFirst mapped
    · rw [erased]
      exact Chained.find_erase_of_ne _ _ _ different.symm

def repliedTimes (changeTime : Nat) : MdChain :=
  mdInitm [toLe 2 60 ++ toLe 2 1 ++ toLe 4 0 ++ toLe 8 1 ++ toLe 8 2 ++ toLe 8 3 ++ toLe 8 changeTime ++
    List.replicate 20 0]

def oneMapping : FidTable := Chained.insert tableIndex (fun _ => []) 5 ⟨1, 2⟩

theorem close_sound_of_change : CloseSound (closeReply (repliedTimes 4).rest) oneMapping 5
    (smb2SmbParseClose (repliedTimes 4) { flags := 1, fid := 5 } oneMapping) :=
  (close_sound_iff (repliedTimes 4) { flags := 1, fid := 5 } oneMapping (by decide) (by decide +kernel)).mpr
    ⟨by decide, fun _ _ _ _ => by decide +kernel⟩

/-- A reply with a change time of 0 and three other times. -/
theorem close_trusts_zero_change : (smb2SmbParseClose (repliedTimes 0) { flags := 1, fid := 5 } oneMapping).error = .ok () ∧
    (smb2SmbParseClose (repliedTimes 0) { flags := 1, fid := 5 } oneMapping).closep.hasAttributes = true ∧
      (closeReply (repliedTimes 0).rest).changeTime = 0 := by
  decide +kernel

end SmbClient.Replies
