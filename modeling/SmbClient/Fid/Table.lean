import SmbClient.Lib.Chained
import SmbClient.Lib.Runs
import SmbClient.Lib.Slots
import SmbClient.Mbuf.Chain

/-! `smb_fid.c`: the 64-bit fids of the file system and the SMB2FIDs of the server that they stand for. -/

namespace SmbClient.Fid
open SmbClient.Lib SmbClient.Mbuf

structure Smb2Fid where
  fidPersistent : UInt64
  fidVolatile : UInt64
  deriving DecidableEq, Repr

abbrev SmbFid := UInt64

def compoundFid : SmbFid := 0xffffffffffffffff

def smbFidOneAtATime (key : Bytes) : UInt32 :=
  let hash := key.foldl (fun (hash : UInt32) byte =>
    let hash := hash + byte.toUInt32
    let hash := hash + (hash <<< 10)
    hash ^^^ (hash >>> 6)) 0
  let hash := hash + (hash <<< 3)
  let hash := hash ^^^ (hash >>> 11)
  hash + (hash <<< 15)

def userFid (smb2Fid : Smb2Fid) : SmbFid :=
  let val1 := smbFidOneAtATime (toLe 8 smb2Fid.fidPersistent.toNat)
  let val2 := smbFidOneAtATime (toLe 8 smb2Fid.fidVolatile.toNat)
  (val1.toUInt64 <<< 32) ||| val2.toUInt64

def smbFidTableMask : UInt64 := 0xfff

def tableIndex (fid : SmbFid) : Nat := (fid &&& smbFidTableMask).toNat

abbrev FidTable := Chained SmbFid Smb2Fid

def smbFidInsertNewNode (table : FidTable) (fid : SmbFid) (smb2Fid : Smb2Fid) : FidTable :=
  table.insert tableIndex fid smb2Fid

def smbFidGetUserFid (memory : Bool) (table : FidTable) (smb2Fid : Smb2Fid) : Except Errno SmbFid × FidTable :=
  if memory then (.ok (userFid smb2Fid), smbFidInsertNewNode table (userFid smb2Fid) smb2Fid)
  else (.error .enomem, table)

def smbFidGetKernelFid (table : FidTable) (fid : SmbFid) (removeFid : Bool) : Except Errno Smb2Fid × FidTable :=
  if fid = compoundFid then (.ok ⟨compoundFid, compoundFid⟩, table)
  else
    match table.find tableIndex fid with
    | none => (.error .einval, table)
    | some smb2Fid => (.ok smb2Fid, if removeFid then table.erase tableIndex fid else table)

def smbFidUpdateKernelFid (table : FidTable) (fid : SmbFid) (newSmb2Fid : Smb2Fid) : Option Errno × FidTable :=
  match table.find tableIndex fid with
  | none => (some .einval, table)
  | some _ => (none, table.replace tableIndex fid newSmb2Fid)

/-! ## Open files -/

structure Handle where
  fid : SmbFid
  smb2Fid : Smb2Fid
  deriving DecidableEq, Repr

structure Share where
  ssFidTable : FidTable := fun _ => []
  handles : Slots Handle := []

inductive Event
  | create (smb2Fid : Smb2Fid) (memory : Bool)
  | reopen (handle : Nat) (smb2Fid : Smb2Fid)
  | close (handle : Nat)
  deriving DecidableEq, Repr

def create (share : Share) (smb2Fid : Smb2Fid) (memory : Bool) : Share :=
  match smbFidGetUserFid memory share.ssFidTable smb2Fid with
  | (.error _, table) => { share with ssFidTable := table }
  | (.ok fid, table) => { share with ssFidTable := table, handles := share.handles.alloc { fid, smb2Fid } }

def reopen (share : Share) (handle : Nat) (old : Handle) (smb2Fid : Smb2Fid) : Share :=
  match smbFidUpdateKernelFid share.ssFidTable old.fid smb2Fid with
  | (some _, table) => { share with ssFidTable := table }
  | (none, table) => { share with ssFidTable := table, handles := share.handles.store handle { old with smb2Fid } }

def close (share : Share) (handle : Nat) (old : Handle) : Share where
  ssFidTable := (smbFidGetKernelFid share.ssFidTable old.fid true).2
  handles := share.handles.free handle

def step (share : Share) : Event → Option Share
  | .create smb2Fid memory => some (create share smb2Fid memory)
  | .reopen handle smb2Fid => (share.handles.lookup handle).map fun old => reopen share handle old smb2Fid
  | .close handle => (share.handles.lookup handle).map fun old => close share handle old

/-- The server does not hand out a SMB2FID that another open file has. -/
def ServerDistinct (share : Share) : Event → Prop
  | .create smb2Fid _ => ∀ i h, share.handles.lookup i = some h → h.smb2Fid ≠ smb2Fid
  | .reopen handle smb2Fid => ∀ i h, share.handles.lookup i = some h → i ≠ handle → h.smb2Fid ≠ smb2Fid
  | .close _ => True

/-- The fids of open files are different, and each stands for the SMB2FID recorded last for its file. -/
structure Faithful (share : Share) : Prop where
  distinct : ∀ {i j a b}, share.handles.lookup i = some a → share.handles.lookup j = some b → a.fid = b.fid → i = j
  found : ∀ {i h}, share.handles.lookup i = some h → (smbFidGetKernelFid share.ssFidTable h.fid false).1 = .ok h.smb2Fid

/-- The fid of a new file is not that of an open one, nor that of a compound. -/
def Unused (share : Share) : Event → Prop
  | .create smb2Fid memory => memory = true →
      userFid smb2Fid ≠ compoundFid ∧ ∀ i h, share.handles.lookup i = some h → h.fid ≠ userFid smb2Fid
  | _ => True

structure Proper (share : Share) : Prop extends Faithful share where
  looked_up : ∀ {i h}, share.handles.lookup i = some h → h.fid ≠ compoundFid

theorem getKernelFid_of_ne {table : FidTable} {fid : SmbFid} (different : fid ≠ compoundFid) (smb2Fid : Smb2Fid) :
    (smbFidGetKernelFid table fid false).1 = .ok smb2Fid ↔ table.find tableIndex fid = some smb2Fid := by
  unfold smbFidGetKernelFid
  rw [if_neg different]
  cases table.find tableIndex fid <;> simp

variable {share : Share}

theorem Proper.of_find
    (distinct : ∀ {i j a b}, share.handles.lookup i = some a → share.handles.lookup j = some b → a.fid = b.fid → i = j)
    (looked_up : ∀ {i h}, share.handles.lookup i = some h → h.fid ≠ compoundFid)
    (find : ∀ {i h}, share.handles.lookup i = some h → share.ssFidTable.find tableIndex h.fid = some h.smb2Fid) :
    Proper share where
  distinct := distinct
  looked_up := looked_up
  found := fun live => (getKernelFid_of_ne (looked_up live) _).mpr (find live)

section
variable {share : Share} (proper : Proper share)
include proper

theorem Proper.find {i : Nat} {h : Handle} (live : share.handles.lookup i = some h) :
    share.ssFidTable.find tableIndex h.fid = some h.smb2Fid :=
  (getKernelFid_of_ne (proper.looked_up live) h.smb2Fid).mp (proper.found live)

theorem proper_create {smb2Fid : Smb2Fid} {memory : Bool} (unused : Unused share (.create smb2Fid memory)) :
    Proper (create share smb2Fid memory) := by
  unfold create smbFidGetUserFid
  cases memory with
  | false => exact { proper with }
  | true =>
    obtain ⟨ordinary, fresh⟩ := unused rfl
    -- the new file, or one that was open before
    have split : ∀ {i h}, (share.handles.alloc ⟨userFid smb2Fid, smb2Fid⟩).lookup i = some h →
        share.handles.length = i ∧ h = ⟨userFid smb2Fid, smb2Fid⟩ ∨ share.handles.lookup i = some h := by
      intro i h live
      rw [Slots.lookup_alloc] at live
      split at live
      · rename_i new
        exact .inl ⟨new, (Option.some.inj live).symm⟩
      · exact .inr live
    apply Proper.of_find
    · intro i j a b first second same
      rcases split first with ⟨new, rfl⟩ | old <;> rcases split second with ⟨new', rfl⟩ | old'
      · exact new.symm.trans new'
      · exact absurd same.symm (fresh j b old')
      · exact absurd same (fresh i a old)
      · exact proper.distinct old old' same
    · intro i h live
      rcases split live with ⟨_, rfl⟩ | old
      · exact ordinary
      · exact proper.looked_up old
    · intro i h live
      refine (Chained.find_insert _ _ _ _).trans ?_
      rcases split live with ⟨_, rfl⟩ | old
      · rw [if_pos rfl]
      · rw [if_neg (fresh i h old).symm, proper.find old]

theorem proper_reopen {handle : Nat} {old : Handle} (live : share.handles.lookup handle = some old)
    (smb2Fid : Smb2Fid) : Proper (reopen share handle old smb2Fid) := by
  unfold reopen smbFidUpdateKernelFid
  rw [proper.find live]
  -- the same fids as before, one of them with another SMB2FID
  have split : ∀ {i h}, (share.handles.store handle { old with smb2Fid }).lookup i = some h →
      handle = i ∧ h = { old with smb2Fid } ∨ handle ≠ i ∧ share.handles.lookup i = some h := by
    intro i h found
    rw [Slots.lookup_store _ live] at found
    split at found
    · rename_i here
      exact .inl ⟨here, (Option.some.inj found).symm⟩
    · rename_i elsewhere
      exact .inr ⟨elsewhere, found⟩
  have before : ∀ {i h}, (share.handles.store handle { old with smb2Fid }).lookup i = some h →
      ∃ h', share.handles.lookup i = some h' ∧ h'.fid = h.fid := by
    intro i h found
    rcases split found with ⟨rfl, rfl⟩ | ⟨_, same⟩
    · exact ⟨old, live, rfl⟩
    · exact ⟨h, same, rfl⟩
  apply Proper.of_find
  · intro i j a b first second same
    obtain ⟨a', first, sameA⟩ := before first
    obtain ⟨b', second, sameB⟩ := before second
    exact proper.distinct first second (sameA.trans (same.trans sameB.symm))
  · intro i h found
    obtain ⟨h', found, same⟩ := before found
    exact same ▸ proper.looked_up found
  · intro i h found
    refine (Chained.find_replace _ _ _ _).trans ?_
    rcases split found with ⟨rfl, rfl⟩ | ⟨elsewhere, same⟩
    · rw [if_pos rfl, proper.find live]
      rfl
    · have different : old.fid ≠ h.fid := fun clash => elsewhere (proper.distinct live same clash)
      rw [if_neg different, proper.find same]

theorem proper_close {handle : Nat} {old : Handle} (live : share.handles.lookup handle = some old) :
    Proper (close share handle old) := by
  unfold close smbFidGetKernelFid
  rw [if_neg (proper.looked_up live), proper.find live]
  have before : ∀ {i h}, (share.handles.free handle).lookup i = some h →
      handle ≠ i ∧ share.handles.lookup i = some h := by
    intro i h found
    exact Slots.lookup_free_eq_some.mp found
  apply Proper.of_find
  · exact fun first second same => proper.distinct (before first).2 (before second).2 same
  · exact fun found => proper.looked_up (before found).2
  · intro i h found
    obtain ⟨elsewhere, found⟩ := before found
    have different : old.fid ≠ h.fid := fun clash => elsewhere (proper.distinct live found clash)
    exact (Chained.find_erase_of_ne _ _ _ different).trans (proper.find found)

theorem proper_step {e : Event} {next : Share} (unused : Unused share e) (taken : step share e = some next) :
    Proper next := by
  cases e with
  | create smb2Fid memory =>
    cases taken
    exact proper_create proper unused
  | reopen handle smb2Fid =>
    obtain ⟨old, live, rfl⟩ := Option.map_eq_some_iff.mp taken
    exact proper_reopen proper live smb2Fid
  | close handle =>
    obtain ⟨old, live, rfl⟩ := Option.map_eq_some_iff.mp taken
    exact proper_close proper live

end

theorem unused_of_faithful {e : Event} {next : Share} (taken : step share e = some next) (faithful : Faithful next) :
    Unused share e := by
  cases e with
  | create smb2Fid memory =>
    cases taken
    rintro rfl
    have new : (create share smb2Fid true).handles.lookup share.handles.length = some ⟨userFid smb2Fid, smb2Fid⟩ := by
      show (share.handles.alloc _).lookup _ = _
      rw [Slots.lookup_alloc, if_pos rfl]
    refine ⟨fun compound => ?_, fun i h live same => ?_⟩
    · have found := faithful.found new
      unfold smbFidGetKernelFid at found
      rw [if_pos compound] at found
      cases Except.ok.inj found
      exact absurd compound (by decide +kernel)
    · have kept : (create share smb2Fid true).handles.lookup i = some h := by
        show (share.handles.alloc _).lookup _ = _
        rw [Slots.lookup_alloc, if_neg (Nat.ne_of_gt (Slots.lookup_lt live)), live]
      exact absurd (faithful.distinct kept new same) (Nat.ne_of_lt (Slots.lookup_lt live))
  | reopen handle smb2Fid => trivial
  | close handle => trivial

theorem unused_of_refused {e : Event} (refused : step share e = none) : Unused share e := by
  cases e with
  | create smb2Fid memory => cases refused
  | reopen handle smb2Fid => trivial
  | close handle => trivial

/-- In every history of opens, updates and closes: the fids of open files are different and stand for
their SMB2FIDs in every state just when no file is opened under a fid that is in use. -/
theorem fids_faithful_iff (events : List Event) :
    Throughout step Faithful {} events ↔ AllSteps step Unused {} events := by
  have start : Proper {} := by
    apply Proper.of_find
    all_goals intros; contradiction
  exact throughout_iff step (fun _ proper => proper.toFaithful)
    (fun _ _ _ proper unused taken => proper_step proper unused taken)
    (fun _ _ _ _ taken faithful => unused_of_faithful taken faithful)
    (fun _ _ refused => unused_of_refused refused) start events

/-- After a reconnect a file has another SMB2FID, and the server gives the old one to a file that is
opened then: both have the same fid. -/
theorem fids_clash :
    let events : List Event := [.create ⟨1, 1⟩ true, .reopen 0 ⟨2, 2⟩, .create ⟨1, 1⟩ true]
    AllSteps step ServerDistinct {} events ∧ ¬Throughout step Faithful {} events := by
  refine ⟨?_, fun faithful => ?_⟩
  · refine .cons (fun i h live => ?_) rfl <| .cons (fun i h live other => ?_) rfl <| .cons (fun i h live => ?_) rfl trivial
    · cases live
    · match i with
      | 0 => exact absurd rfl other
      | i + 1 => cases live
    · match i with
      | 0 =>
        cases live
        decide
      | i + 1 => cases live
  · have last := ((faithful.2 _ rfl).2 _ rfl).2 _ rfl
    exact absurd (last.distinct (i := 0) (j := 1) rfl rfl rfl) (by decide)

end SmbClient.Fid
