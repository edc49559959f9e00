import SmbClient.Lib.Draining
import Mathlib.Data.Prod.Lex

namespace SmbClient.Directory
open SmbClient.Lib

structure Timespec where
  tvSec : Int
  tvNsec : Int
  deriving DecidableEq, Repr

def Timespec.gt (t u : Timespec) : Bool :=
  if t.tvSec = u.tvSec then t.tvNsec > u.tvNsec else t.tvSec > u.tvSec

inductive Vnode
  | reclaimed
  | notCifs
  | busy
  | idle
  deriving DecidableEq, Repr

structure GlobalDirCacheEntry where
  dvp : Option Vnode
  lastAccessTime : Timespec
  cachedCnt : Nat
  deriving DecidableEq, Repr

namespace GlobalDirCacheEntry

def cached (entry : GlobalDirCacheEntry) : Bool := entry.cachedCnt > 0

def prunable (entry : GlobalDirCacheEntry) : Bool := entry.dvp = some .reclaimed || entry.dvp = some .idle

def pruneEntry (entry : GlobalDirCacheEntry) : GlobalDirCacheEntry :=
  match entry.dvp with
  | none => entry
  | some .reclaimed => { entry with cachedCnt := 0 }
  | some .notCifs => entry
  -- the trylock fails and the entry is skipped
  | some .busy => entry
  | some .idle => { entry with cachedCnt := 0 }

end GlobalDirCacheEntry

open GlobalDirCacheEntry

def freeOldest (entries : List GlobalDirCacheEntry) (oldestp : Option Nat) : List GlobalDirCacheEntry :=
  match oldestp with
  | none => entries
  | some i => entries.modify i pruneEntry

structure Survey where
  currentDirCnt : Nat := 0
  oldest : Option (Nat × Timespec) := none

def Survey.add (survey : Survey) (i : Nat) (entry : GlobalDirCacheEntry) : Survey :=
  if entry.cached then
    let (oldestp, ts) := survey.oldest.getD (i, entry.lastAccessTime)
    { currentDirCnt := survey.currentDirCnt + 1
      oldest := some (if ts.gt entry.lastAccessTime then (i, entry.lastAccessTime) else (oldestp, ts)) }
  else survey

def surveyFrom (i : Nat) (survey : Survey) : List GlobalDirCacheEntry → Survey
  | [] => survey
  | entry :: rest => surveyFrom (i + 1) (survey.add i entry) rest

def pruneAgain (gMaxDirsCached : Nat) : Nat → List GlobalDirCacheEntry → Option Nat → List GlobalDirCacheEntry
  | 0, entries, _ => entries
  | maxAttempts + 1, entries, oldestp =>
    if maxAttempts = 0 then entries
    else
      let entries := freeOldest entries oldestp
      let survey := surveyFrom 0 {} entries
      if survey.currentDirCnt > gMaxDirsCached then
        pruneAgain gMaxDirsCached maxAttempts entries (survey.oldest.map Prod.fst)
      else entries

def smbGlobalDirCachePrune (gMaxDirsCached : Nat) (entries : List GlobalDirCacheEntry) (oldestPtr : Option Nat) :
    List GlobalDirCacheEntry :=
  pruneAgain gMaxDirsCached 50 entries oldestPtr

abbrev Age := ℤ ×ₗ ℤ ×ₗ ℕ

def age (i : Nat) (time : Timespec) : Age := toLex (time.tvSec, toLex (time.tvNsec, i))

def agesFrom (i : Nat) : List GlobalDirCacheEntry → Finset Age
  | [] => ∅
  | entry :: rest => if entry.cached then insert (age i entry.lastAccessTime) (agesFrom (i + 1) rest) else agesFrom (i + 1) rest

def cachedDirs (entries : List GlobalDirCacheEntry) : Nat := entries.countP cached

/-- Enough of the cached directories are not busy to come down to the maximum. -/
def EnoughIdle (gMaxDirsCached : Nat) (entries : List GlobalDirCacheEntry) : Prop :=
  entries.countP (fun entry => entry.cached && !entry.prunable) ≤ gMaxDirsCached

instance (gMaxDirsCached : Nat) (entries : List GlobalDirCacheEntry) : Decidable (EnoughIdle gMaxDirsCached entries) :=
  inferInstanceAs (Decidable (_ ≤ _))

def Prunes (gMaxDirsCached : Nat) (entries : List GlobalDirCacheEntry) (oldestPtr : Option Nat) : Prop :=
  EnoughIdle gMaxDirsCached entries →
    cachedDirs (smbGlobalDirCachePrune gMaxDirsCached entries oldestPtr) ≤ gMaxDirsCached

/-- At most 48 directories are too many, and as many of the oldest ones can be pruned. -/
def OldestIdle (gMaxDirsCached : Nat) (entries : List GlobalDirCacheEntry) : Prop :=
  cachedDirs entries - gMaxDirsCached ≤ 48 ∧
    ∀ i entry, entries[i]? = some entry → entry.cached = true → entry.prunable = false →
      cachedDirs entries - gMaxDirsCached ≤ ((agesFrom 0 entries).filter (· < age i entry.lastAccessTime)).card

variable {i j : Nat} {entries : List GlobalDirCacheEntry} {entry : GlobalDirCacheEntry} {survey : Survey}
  {free : Age → Bool}

theorem age_lt_age_iff (later : i < j) (t u : Timespec) : age j u < age i t ↔ t.gt u = true := by
  simp only [age, Prod.Lex.toLex_lt_toLex, Timespec.gt]
  split
  next same => simp [same, Nat.lt_asymm later]
  next other => simp [Ne.symm other]

theorem age_injective {t u : Timespec} (same : age i t = age j u) : i = j := by
  simp only [age, EmbeddingLike.apply_eq_iff_eq, Prod.mk.injEq] at same
  exact same.2.2

theorem mem_agesFrom {a : Age} :
    a ∈ agesFrom i entries ↔
      ∃ j entry, entries[j]? = some entry ∧ entry.cached = true ∧ a = age (i + j) entry.lastAccessTime := by
  induction entries generalizing i with
  | nil => simp [agesFrom]
  | cons entry rest ih =>
    have here : a ∈ agesFrom i (entry :: rest) ↔
        (entry.cached = true ∧ a = age i entry.lastAccessTime) ∨ a ∈ agesFrom (i + 1) rest := by
      rw [agesFrom]
      split
      next cached => simp [cached]
      next uncached => simp [uncached]
    rw [here, ih]
    constructor
    · rintro (⟨cached, rfl⟩ | ⟨j, later, found, cached, rfl⟩)
      · exact ⟨0, entry, rfl, cached, rfl⟩
      · exact ⟨j + 1, later, found, cached, by rw [Nat.add_assoc, Nat.add_comm 1 j]⟩
    · rintro ⟨j, later, found, cached, rfl⟩
      cases j with
      | zero =>
        cases found
        exact .inl ⟨cached, rfl⟩
      | succ j => exact .inr ⟨j, later, found, cached, by rw [Nat.add_assoc, Nat.add_comm 1 j]⟩

theorem age_not_mem_agesFrom (before : j < i) (time : Timespec) (entries : List GlobalDirCacheEntry) :
    age j time ∉ agesFrom i entries := by
  intro member
  obtain ⟨k, entry, _, _, same⟩ := mem_agesFrom.mp member
  have := age_injective same
  omega

theorem card_agesFrom (i : Nat) (entries : List GlobalDirCacheEntry) :
    (agesFrom i entries).card = cachedDirs entries := by
  induction entries generalizing i with
  | nil => rfl
  | cons entry rest ih =>
    have new := age_not_mem_agesFrom (Nat.lt_add_one i) entry.lastAccessTime rest
    unfold agesFrom cachedDirs
    split
    next cached => rw [Finset.card_insert_of_notMem new, ih, List.countP_cons_of_pos cached]; rfl
    next uncached => rw [ih, List.countP_cons_of_neg uncached]; rfl

theorem agesFrom_of_uncached (i : Nat) (uncached : entry.cached = false)
    (rest : List GlobalDirCacheEntry) : agesFrom i (entry :: rest) = agesFrom (i + 1) rest := by
  rw [agesFrom, uncached, if_neg Bool.false_ne_true]

theorem pruneEntry_of_prunable (prunable : entry.prunable = true) :
    entry.pruneEntry = { entry with cachedCnt := 0 } := by
  unfold GlobalDirCacheEntry.prunable at prunable
  unfold pruneEntry
  split <;> simp_all

theorem pruneEntry_of_not_prunable (held : entry.prunable = false) :
    entry.pruneEntry = entry := by
  unfold GlobalDirCacheEntry.prunable at held
  unfold pruneEntry
  split <;> simp_all

theorem prunable_pruneEntry (entry : GlobalDirCacheEntry) : entry.pruneEntry.prunable = entry.prunable := by
  cases prunable : entry.prunable with
  | true =>
    rw [pruneEntry_of_prunable prunable]
    exact prunable
  | false => rw [pruneEntry_of_not_prunable prunable, prunable]

theorem agesFrom_modify (i : Nat) (found : entries[j]? = some entry) :
    agesFrom i (entries.modify j pruneEntry) =
      if entry.prunable then (agesFrom i entries).erase (age (i + j) entry.lastAccessTime) else agesFrom i entries := by
  cases prunable : entry.prunable with
  | false =>
    have same : entries.modify j pruneEntry = entries := by
      apply List.ext_getElem?
      intro k
      rw [List.getElem?_modify]
      by_cases here : j = k
      · subst here
        simp [found, pruneEntry_of_not_prunable prunable]
      · simp [here]
    rw [same, if_neg Bool.false_ne_true]
  | true =>
    rw [if_pos rfl]
    induction entries generalizing i j with
    | nil => cases found
    | cons first rest ih =>
      cases j with
      | zero =>
        cases found
        have new := age_not_mem_agesFrom (Nat.lt_add_one i) entry.lastAccessTime rest
        rw [List.modify_zero_cons, pruneEntry_of_prunable prunable, agesFrom_of_uncached i rfl, Nat.add_zero i]
        cases cached : entry.cached with
        | true => rw [agesFrom, cached, if_pos rfl, Finset.erase_insert new]
        | false => rw [agesFrom_of_uncached i cached, Finset.erase_eq_of_notMem new]
      | succ j =>
        have later := ih (i + 1) found
        rw [Nat.add_assoc, Nat.add_comm 1 j] at later
        have other : age i first.lastAccessTime ≠ age (i + (j + 1)) entry.lastAccessTime := by
          intro same
          have := age_injective same
          omega
        rw [List.modify_succ_cons, agesFrom, agesFrom, later]
        split
        · rw [Finset.erase_insert_of_ne other]
        · rfl

def Survey.least (survey : Survey) : WithTop Age := survey.oldest.elim ⊤ fun found => age found.1 found.2

section
variable (before : ∀ found ∈ survey.oldest, found.1 < i)
include before

theorem Survey.least_add (entry : GlobalDirCacheEntry) : (survey.add i entry).least =
      if entry.cached then min survey.least (age i entry.lastAccessTime) else survey.least := by
  unfold Survey.add
  split
  next cached =>
    unfold Survey.least
    cases oldest : survey.oldest with
    | none => simp
    | some found =>
      obtain ⟨oldestp, ts⟩ := found
      have older := age_lt_age_iff (before _ oldest) ts entry.lastAccessTime
      simp only [Option.getD_some, Option.elim_some]
      cases newer : ts.gt entry.lastAccessTime with
      | true =>
        have less := older.mpr newer
        rw [if_pos rfl, min_eq_right (WithTop.coe_le_coe.mpr less.le)]
      | false =>
        have less : ¬age i entry.lastAccessTime < age oldestp ts := by simp [older, newer]
        rw [if_neg Bool.false_ne_true, min_eq_left (WithTop.coe_le_coe.mpr (not_lt.mp less))]
  next => rfl

theorem Survey.before_add (entry : GlobalDirCacheEntry) :
    ∀ found ∈ (survey.add i entry).oldest, found.1 < i + 1 := by
  unfold Survey.add
  split
  · cases oldest : survey.oldest with
    | none =>
      simp only [Option.getD_none, ite_self]
      rintro found ⟨rfl⟩
      exact Nat.lt_succ_self i
    | some found =>
      have older := before found oldest
      simp only [Option.getD_some]
      split <;> rintro found ⟨rfl⟩
      · exact Nat.lt_succ_self i
      · exact Nat.lt_succ_of_lt older
  · exact fun found member => Nat.lt_succ_of_lt (before found member)

theorem surveyFrom_least (entries : List GlobalDirCacheEntry) :
    (surveyFrom i survey entries).least = min survey.least (agesFrom i entries).min := by
  induction entries generalizing i survey with
  | nil => simp [surveyFrom, agesFrom]
  | cons entry rest ih =>
    rw [surveyFrom, ih (Survey.before_add before entry), Survey.least_add before, agesFrom]
    split
    · rw [Finset.min_insert, min_assoc]
    · rfl

end

theorem surveyFrom_currentDirCnt (i : Nat) (survey : Survey) (entries : List GlobalDirCacheEntry) :
    (surveyFrom i survey entries).currentDirCnt = survey.currentDirCnt + cachedDirs entries := by
  induction entries generalizing i survey with
  | nil => rfl
  | cons entry rest ih =>
    rw [surveyFrom, ih, Survey.add, cachedDirs, cachedDirs, List.countP_cons]
    split
    · exact Nat.add_right_comm _ _ _
    · rfl

theorem survey_oldest (present : (agesFrom 0 entries).Nonempty) :
    ∃ i entry, entries[i]? = some entry ∧ (surveyFrom 0 {} entries).oldest.map Prod.fst = some i ∧
      (agesFrom 0 entries).min' present = age i entry.lastAccessTime := by
  obtain ⟨i, entry, found, _, same⟩ := mem_agesFrom.mp ((agesFrom 0 entries).min'_mem present)
  rw [Nat.zero_add] at same
  have least := @surveyFrom_least 0 {} (by simp) entries
  refine ⟨i, entry, found, ?_, same⟩
  rw [← Finset.coe_min' present, same, Survey.least, Survey.least] at least
  cases oldest : (surveyFrom 0 {} entries).oldest with
  | none => simp [oldest] at least
  | some met =>
    simp only [oldest, Option.elim_some, Option.elim_none, top_inf_eq, WithTop.coe_eq_coe] at least
    simp only [Option.map_some, Option.some.injEq]
    exact age_injective least

def Agrees (free : Age → Bool) (entries : List GlobalDirCacheEntry) : Prop :=
  ∀ i entry, entries[i]? = some entry → free (age i entry.lastAccessTime) = entry.prunable

theorem lastAccessTime_pruneEntry (entry : GlobalDirCacheEntry) :
    entry.pruneEntry.lastAccessTime = entry.lastAccessTime := by
  unfold pruneEntry
  split <;> rfl

theorem Agrees.freeOldest (agrees : Agrees free entries)
    (oldestp : Option Nat) : Agrees free (freeOldest entries oldestp) := by
  cases oldestp with
  | none => exact agrees
  | some i =>
    intro j entry found
    rw [Directory.freeOldest, List.getElem?_modify] at found
    obtain ⟨before, known, rfl⟩ := Option.map_eq_some_iff.mp found
    split
    · rw [lastAccessTime_pruneEntry, prunable_pruneEntry]
      exact agrees j before known
    · exact agrees j before known

theorem agesFrom_pruneAgain {gMaxDirsCached : Nat} (maxAttempts : Nat) (oldestp : Option Nat) (agrees : Agrees free entries) :
    agesFrom 0 (pruneAgain gMaxDirsCached (maxAttempts + 2) entries oldestp) =
      drain free gMaxDirsCached maxAttempts (agesFrom 0 (freeOldest entries oldestp)) := by
  induction maxAttempts generalizing entries oldestp with
  | zero => simp only [pruneAgain, drain, one_ne_zero, if_false, if_true, ite_self]
  | succ maxAttempts ih =>
    have known := agrees.freeOldest oldestp
    rw [pruneAgain, if_neg (Nat.succ_ne_zero _), drain]
    generalize freeOldest entries oldestp = left at known ⊢
    simp only [surveyFrom_currentDirCnt, Nat.zero_add]
    by_cases many : cachedDirs left > gMaxDirsCached
    · have more : gMaxDirsCached < (agesFrom 0 left).card := by rwa [card_agesFrom]
      obtain ⟨i, entry, found, oldest, least⟩ := survey_oldest (Finset.card_pos.mp (Nat.zero_lt_of_lt more))
      rw [if_pos many, dif_pos more, ih _ known, oldest]
      simp only [least, known i entry found]
      rw [freeOldest, agesFrom_modify 0 found, Nat.zero_add]
      split <;> rfl
    · have few : ¬gMaxDirsCached < (agesFrom 0 left).card := by rwa [card_agesFrom]
      rw [if_neg many, dif_neg few]

theorem drainable_agesFrom_iff {gMaxDirsCached : Nat} (agrees : Agrees free entries) :
    Drainable free gMaxDirsCached 48 (agesFrom 0 entries) ↔ OldestIdle gMaxDirsCached entries := by
  unfold Drainable OldestIdle
  rw [card_agesFrom]
  apply and_congr_right
  intro _
  constructor
  · intro older i entry found cached held
    have member : age i entry.lastAccessTime ∈ agesFrom 0 entries :=
      mem_agesFrom.mpr ⟨i, entry, found, cached, by rw [Nat.zero_add]⟩
    exact older _ member ((agrees i entry found).trans held)
  · intro older k member held
    obtain ⟨i, entry, found, cached, rfl⟩ := mem_agesFrom.mp member
    rw [Nat.zero_add] at held ⊢
    exact older i entry found cached ((agrees i entry found).symm.trans held)

/-- Pruning gets down to the maximum, where it can, just when no busy directory is among those it has to free. -/
theorem smbGlobalDirCachePrune_prunes_iff (gMaxDirsCached : Nat) (entries : List GlobalDirCacheEntry)
    (oldestPtr : Option Nat) :
    Prunes gMaxDirsCached entries oldestPtr ↔
      (EnoughIdle gMaxDirsCached entries → OldestIdle gMaxDirsCached (freeOldest entries oldestPtr)) := by
  let free : Age → Bool := fun a => entries[(ofLex (ofLex a).2).2]?.any prunable
  have agrees : Agrees free entries := by
    intro i entry found
    simp [free, age, found]
  unfold Prunes smbGlobalDirCachePrune
  rw [← card_agesFrom 0, agesFrom_pruneAgain 48 oldestPtr agrees, card_drain_le_iff,
    drainable_agesFrom_iff (agrees.freeOldest oldestPtr)]

/-- The oldest directory is busy, and the two others stay cached. -/
theorem smbGlobalDirCachePrune_stuck :
    let entries : List GlobalDirCacheEntry :=
      [⟨some .busy, ⟨1, 0⟩, 5⟩, ⟨some .idle, ⟨2, 0⟩, 5⟩, ⟨some .idle, ⟨3, 0⟩, 5⟩]
    EnoughIdle 1 entries ∧ smbGlobalDirCachePrune 1 entries none = entries ∧ cachedDirs entries = 3 := by
  decide +kernel

end SmbClient.Directory
