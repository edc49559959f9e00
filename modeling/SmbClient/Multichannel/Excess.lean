import Mathlib.Data.List.MinMax
import SmbClient.Multichannel.TrialRequest

/-! Which connections `smb2_mc_return_excess_connections` puts out, and whether one stays connected. -/

namespace SmbClient.Multichannel
open SmbClient.Lib Table

namespace Table

/-! ## The connections in the order of their speed -/

variable (t : Table)

def maxConnectedSpeed (p : Con → Bool) : Nat :=
  t.successfulConList.foldl (fun speed id =>
    match t.cons.lookup id with
    | none => speed
    | some con => if p con then max speed con.speed else speed) 0

def maxConnectedWiredSpeed : Nat := t.maxConnectedSpeed fun con => t.preferWired && t.wired con

def topSpeed : Nat :=
  if t.maxConnectedWiredSpeed ≠ 0 then t.maxConnectedWiredSpeed else t.maxConnectedSpeed fun _ => true

def isTop (con : Con) : Bool := con.speed == t.topSpeed && (t.maxConnectedWiredSpeed == 0 || t.wired con)

def isSlow (id : Nat) : Bool := (t.cons.lookup id).any fun con => !t.isTop con

def judged (ids : List Nat) : Table :=
  ids.foldl (fun s id => s.modifyCon id fun con =>
    { con with activeState := if t.isTop con then .active else .inactive }) t

def speedOf (id : Nat) : Nat := ((t.cons.lookup id).map (·.speed)).getD 0

def isFree (p : Con → Bool) (before : List Nat) (id : Nat) : Bool :=
  (t.cons.lookup id).any fun con => !t.isTop con && p con && decide (0 < con.speed) &&
    !(t.judged (before ++ [id])).conClientOrServerOnActive con.clientNic con.serverNic

def spares (t : Table) (p : Con → Bool) : (before ids : List Nat) → List Nat
  | _, [] => []
  | before, id :: rest => (if t.isFree p before id then [id] else []) ++ spares t p (before ++ [id]) rest

def fastestSpare (p : Con → Bool) (ids : List Nat) : Option Nat := (t.spares p [] ids).argmax t.speedOf

def spare : Option Nat :=
  ((t.fastestSpare (fun con => t.preferWired && t.wired con) t.successfulConList).or
    (t.fastestSpare (fun _ => true) t.successfulConList)).or (t.successfulConList.filter t.isSlow).getLast?

end Table

section
variable {t : Table}

variable (ids : List Nat)

theorem judged_append (id : Nat) : t.judged (ids ++ [id]) = (t.judged ids).modifyCon id fun con =>
    { con with activeState := if t.isTop con then .active else .inactive } := by
  unfold judged
  rw [List.foldl_append]
  rfl

theorem judged_eq : ∃ cons, t.judged ids = { t with cons } := by
  induction ids using List.reverseRecOn with
  | nil => exact ⟨t.cons, rfl⟩
  | append_singleton ids id ih =>
    obtain ⟨cons, same⟩ := ih
    rw [judged_append, same]
    exact ⟨_, rfl⟩

theorem rest_judged (con : Con) : (t.judged ids).preferWired = t.preferWired ∧
    (t.judged ids).wired con = t.wired con := by
  obtain ⟨cons, same⟩ := judged_eq (t := t) ids
  rw [same]
  exact ⟨rfl, rfl⟩

theorem lookup_judged (j : Nat) : (t.judged ids).cons.lookup j = (t.cons.lookup j).map fun con =>
    if j ∈ ids then { con with activeState := if t.isTop con then .active else .inactive } else con := by
  induction ids using List.reverseRecOn with
  | nil => simp [judged]
  | append_singleton ids id ih =>
    rw [judged_append]
    unfold modifyCon
    rw [Slots.lookup_modify, ih]
    cases t.cons.lookup j with
    | none => simp
    | some con =>
      by_cases here : id = j
      · subst here
        by_cases earlier : id ∈ ids <;> simp [earlier, isTop, wired]
      · simp [here, Ne.symm here]

theorem spares_append (p : Con → Bool) (before ids : List Nat) (id : Nat) :
    t.spares p before (ids ++ [id]) = t.spares p before ids ++ if t.isFree p (before ++ ids) id then [id] else [] := by
  induction ids generalizing before with
  | nil => simp [spares]
  | cons first rest ih => simp [spares, ih]

variable {p : Con → Bool} {ids : List Nat} {id speed : Nat} {fastest : Option Nat}

theorem mem_spares {before : List Nat} (member : id ∈ t.spares p before ids) :
    id ∈ ids ∧ t.isSlow id = true ∧ 0 < t.speedOf id := by
  induction ids generalizing before with
  | nil => cases member
  | cons first rest ih =>
    rcases List.mem_append.mp member with here | later
    · split at here
      · rename_i free
        obtain rfl := List.mem_singleton.mp here
        unfold isFree at free
        rw [Option.any_eq_true] at free
        obtain ⟨con, found, free⟩ := free
        simp only [Bool.and_eq_true, decide_eq_true_eq] at free
        refine ⟨List.mem_cons_self, ?_, ?_⟩
        · unfold isSlow
          rw [found]
          exact free.1.1.1
        · unfold speedOf
          rw [found]
          exact free.1.2
      · cases here
    · obtain ⟨listed, rest⟩ := ih later
      exact ⟨List.mem_cons_of_mem _ listed, rest⟩

def Fastest (t : Table) (p : Con → Bool) (ids : List Nat) (speed : Nat) (fastest : Option Nat) : Prop :=
  fastest = t.fastestSpare p ids ∧ speed = (fastest.map t.speedOf).getD 0

theorem Fastest.keep (known : Fastest t p ids speed fastest) (unfree : t.isFree p ids id = false) :
    Fastest t p (ids ++ [id]) speed fastest := by
  refine ⟨?_, known.2⟩
  rw [known.1]
  unfold fastestSpare
  rw [spares_append, List.nil_append, unfree]
  simp

theorem Fastest.next (known : Fastest t p ids speed fastest) (free : t.isFree p ids id = true) :
    Fastest t p (ids ++ [id]) (if t.speedOf id > speed then t.speedOf id else speed)
      (if t.speedOf id > speed then some id else fastest) := by
  obtain ⟨isFastest, isSpeed⟩ := known
  have positive : 0 < t.speedOf id := by
    have here : id ∈ t.spares p ids [id] := by simp [spares, free]
    exact (mem_spares here).2.2
  have argmax : t.fastestSpare p (ids ++ [id]) = if t.speedOf id > speed then some id else fastest := by
    unfold fastestSpare
    rw [spares_append, List.nil_append, if_pos free, List.argmax_concat]
    have before : List.argmax t.speedOf (t.spares p [] ids) = fastest := isFastest.symm
    rw [before]
    cases fastest with
    | none => simp [isSpeed, positive]
    | some other => simp [isSpeed]
  refine ⟨argmax.symm, ?_⟩
  split
  · rfl
  · exact isSpeed

theorem Fastest.step {free : Bool}
    (known : Fastest t p ids speed fastest) (isFree : t.isFree p ids id = (free && decide (0 < t.speedOf id))) :
    Fastest t p (ids ++ [id]) (if t.speedOf id > speed ∧ free = true then t.speedOf id else speed)
      (if t.speedOf id > speed ∧ free = true then some id else fastest) := by
  cases free with
  | false => simpa using known.keep (isFree.trans (Bool.false_and _))
  | true =>
    by_cases positive : 0 < t.speedOf id
    · simpa using known.next (isFree.trans (by simp [positive]))
    · have slower : ¬t.speedOf id > speed := by omega
      simpa [slower] using known.keep (isFree.trans (by simp [positive]))

structure Sorted (t : Table) (ids : List Nat) (s : Sorting) : Prop where
  table : s.table = t.judged ids
  inactives : s.inactives = (ids.filter t.isSlow).length
  fastest : Fastest t (fun _ => true) ids s.maxInactiveSpeed s.fastestInactive
  wired : Fastest t (fun con => t.preferWired && t.wired con) ids s.maxInactiveWiredSpeed s.fastestWiredInactive

theorem modifyCon_congr {con : Con} (found : t.cons.lookup id = some con) {f g : Con → Con} (same : f con = g con) :
    t.modifyCon id f = t.modifyCon id g := by
  unfold modifyCon Slots.modify
  simp only [found, same]

theorem sorted_sortCon {s : Sorting} (sorted : Sorted t ids s) (id : Nat) :
    Sorted t (ids ++ [id]) (sortCon t.topSpeed (t.maxConnectedWiredSpeed != 0) s id) := by
  have lookup := lookup_judged (t := t) ids id
  unfold sortCon
  rw [sorted.table]
  cases found : t.cons.lookup id with
  | none =>
    rw [found, Option.map_none] at lookup
    simp only [lookup]
    have unfree (p : Con → Bool) : t.isFree p ids id = false := by simp [isFree, found]
    refine ⟨?_, ?_, sorted.fastest.keep (unfree _), sorted.wired.keep (unfree _)⟩
    · rw [judged_append, sorted.table]
      unfold modifyCon Slots.modify
      simp only [lookup]
    · rw [sorted.inactives, List.filter_append]
      simp [isSlow, found]
  | some con =>
    rw [found, Option.map_some] at lookup
    generalize judgedCon : (if id ∈ ids then { con with activeState := if t.isTop con then .active else .inactive } else con) =
      now at lookup
    have speed : now.speed = con.speed := by
      rw [← judgedCon]
      split <;> rfl
    have nics : now.clientNic = con.clientNic ∧ now.serverNic = con.serverNic := by
      rw [← judgedCon]
      split <;> exact ⟨rfl, rfl⟩
    have wired (ids : List Nat) : (t.judged ids).wired now = t.wired con := by
      rw [(rest_judged ids now).2]
      unfold wired
      rw [nics.1]
    have top : (now.speed = t.topSpeed ∧ ((!(t.maxConnectedWiredSpeed != 0)) = true ∨ (t.judged ids).wired now = true)) ↔
        t.isTop con = true := by
      rw [speed, wired]
      simp [isTop]
    have topNow : t.isTop now = t.isTop con := by
      unfold Table.isTop Table.wired
      rw [speed, nics.1]
    have table (fast : Prop) [Decidable fast] (isFast : fast ↔ t.isTop con = true) : (t.judged ids).modifyCon id
        ({ · with activeState := if fast then .active else .inactive }) = t.judged (ids ++ [id]) := by
      rw [judged_append]
      apply modifyCon_congr lookup
      simp only [isFast, topNow]
    simp only [lookup, table _ top]
    have slow : (ids ++ [id]).filter t.isSlow = ids.filter t.isSlow ++ if t.isTop con then [] else [id] := by
      rw [List.filter_append]
      cases isTop : t.isTop con <;> simp [isSlow, found, isTop]
    split
    · rename_i fast
      have unfree (p : Con → Bool) : t.isFree p ids id = false := by simp [isFree, found, top.mp fast]
      refine ⟨rfl, ?_, sorted.fastest.keep (unfree _), sorted.wired.keep (unfree _)⟩
      rw [slow, if_pos (top.mp fast), List.append_nil]
      exact sorted.inactives
    · rename_i fast
      have isSlow : ¬t.isTop con = true := fun isTop => fast (top.mpr isTop)
      generalize isFree : (!(t.judged (ids ++ [id])).conClientOrServerOnActive now.clientNic now.serverNic) = free
      have isSpeed : t.speedOf id = now.speed := by simp [speedOf, found, speed]
      have frees (p : Con → Bool) : t.isFree p ids id = ((p con && free) && decide (0 < t.speedOf id)) := by
        unfold Table.isFree
        rw [nics.1, nics.2] at isFree
        rw [found, Option.any_some, isFree, isSpeed, speed]
        cases p con <;> cases free <;> simp [isSlow]
      have fastest := sorted.fastest.step (frees _)
      have fastestWired := sorted.wired.step (frees _)
      simp only [Bool.true_and, isSpeed] at fastest
      simp only [Bool.and_eq_true, isSpeed] at fastestWired
      have inactives : s.inactives + 1 = ((ids ++ [id]).filter t.isSlow).length := by
        rw [slow, if_neg isSlow, List.length_append, ← sorted.inactives]
        rfl
      have order (max : Nat) : (t.preferWired = true ∧ t.wired con = true ∧ now.speed > max ∧ free = true) ↔
          now.speed > max ∧ (t.preferWired = true ∧ t.wired con = true) ∧ free = true := by tauto
      rw [(rest_judged _ now).1, wired]
      by_cases first : now.speed > s.maxInactiveSpeed ∧ free = true
      · simp only [if_pos first, order] at fastest ⊢
        split_ifs at fastestWired ⊢ <;> exact ⟨rfl, inactives, fastest, fastestWired⟩
      · simp only [if_neg first, order] at fastest ⊢
        split_ifs at fastestWired ⊢ <;> exact ⟨rfl, inactives, fastest, fastestWired⟩

theorem sorted_foldl {rest : List Nat} {s : Sorting} (sorted : Sorted t ids s) :
    Sorted t (ids ++ rest) (rest.foldl (sortCon t.topSpeed (t.maxConnectedWiredSpeed != 0)) s) := by
  induction rest generalizing ids s with
  | nil => simpa using sorted
  | cons id rest ih =>
    have later := ih (sorted_sortCon sorted id)
    rwa [List.append_assoc] at later

/-! ## The redundant ones -/

def Table.redundant (t : Table) (keep : Option Nat) (ids : List Nat) : List Nat :=
  ids.filter fun id => decide (some id ≠ keep) && (t.cons.lookup id).any (·.activeState == .inactive)

theorem markRedundant_eq (keep : Option Nat) (ids : List Nat) (inactives : Nat) :
    ∃ cons, markRedundant keep ids inactives t = { t with cons } := by
  induction ids generalizing inactives t with
  | nil => exact ⟨t.cons, rfl⟩
  | cons id rest ih =>
    unfold markRedundant
    dsimp only
    split_ifs
    · exact ⟨_, rfl⟩
    · obtain ⟨cons, same⟩ := ih (t := t.modifyCon id ({ · with activeState := .inactiveRedundant })) (inactives - 1)
      exact ⟨cons, same⟩
    · exact ih inactives

theorem lookup_markRedundant {keep : Option Nat} (nodup : ids.Nodup) {inactives : Nat} (some : 2 ≤ inactives)
    (j : Nat) : (markRedundant keep ids inactives t).cons.lookup j = (t.cons.lookup j).map fun con =>
      if j ∈ (t.redundant keep ids).take (inactives - 1) then { con with activeState := .inactiveRedundant } else con := by
  induction ids generalizing inactives t with
  | nil => simp [markRedundant, redundant]
  | cons id rest ih =>
    obtain ⟨elsewhere, nodup⟩ := List.nodup_cons.mp nodup
    unfold markRedundant
    dsimp only
    split
    · rename_i inactive
      have list : t.redundant keep (id :: rest) = id :: t.redundant keep rest := by
        unfold redundant
        rw [List.filter_cons_of_pos (by simpa using inactive)]
      obtain ⟨more, rfl⟩ : ∃ more, inactives = more + 2 := ⟨inactives - 2, by omega⟩
      rw [list]
      change (if more + 1 = 1 then _ else _ : Table).cons.lookup j = (t.cons.lookup j).map fun con =>
        if j ∈ id :: (t.redundant keep rest).take more then _ else _
      split
      · rename_i last
        obtain rfl : more = 0 := by omega
        unfold modifyCon
        rw [Slots.lookup_modify]
        by_cases here : id = j
        · simp [here]
        · simp [here, Ne.symm here]
      · rename_i further
        have same : (t.modifyCon id ({ · with activeState := .inactiveRedundant })).redundant keep rest = t.redundant keep rest := by
          unfold redundant modifyCon
          refine List.filter_congr fun other member => ?_
          rw [Slots.lookup_modify, if_neg]
          rintro rfl
          exact elsewhere member
        change (markRedundant keep rest (more + 1) _).cons.lookup j = _
        rw [ih nodup (by omega), same]
        unfold modifyCon
        rw [Slots.lookup_modify]
        change Option.map (fun con => if j ∈ (t.redundant keep rest).take more then _ else _) _ = _
        by_cases here : id = j
        · subst here
          cases t.cons.lookup id <;> simp
        · simp [here, Ne.symm here]
    · rename_i kept
      have list : t.redundant keep (id :: rest) = t.redundant keep rest := by
        unfold redundant
        rw [List.filter_cons_of_neg (by simpa using kept)]
      rw [list]
      exact ih nodup some

theorem mem_take_spare {list : List Nat} (nodup : list.Nodup) {keep : Option Nat} (member : ∀ id, keep = some id → id ∈ list)
    (j : Nat) : j ∈ (list.filter fun id => decide (some id ≠ keep)).take (list.length - 1) ↔
      j ∈ list ∧ keep.or list.getLast? ≠ some j := by
  cases keep with
  | none =>
    rw [Option.none_or, List.filter_eq_self.mpr (by simp), ← List.dropLast_eq_take]
    cases list using List.reverseRecOn with
    | nil => simp
    | append_singleton list last =>
      have apart : last ∉ list := fun here =>
        (List.nodup_append.mp nodup).2.2 last here last (List.mem_singleton.mpr rfl) rfl
      rw [List.dropLast_concat, List.getLast?_concat, List.mem_append, List.mem_singleton]
      constructor
      · intro here
        refine ⟨.inl here, ?_⟩
        rintro ⟨⟩
        exact apart here
      · rintro ⟨here | rfl, other⟩
        · exact here
        · exact absurd rfl other
  | some id =>
    have here := member id rfl
    have rest : (list.filter fun id' => decide (some id' ≠ some id)) = list.erase id := by
      rw [nodup.erase_eq_filter]
      exact List.filter_congr fun other _ => by by_cases same : other = id <;> simp [same]
    rw [rest, List.take_of_length_le (List.length_erase_of_mem here).le, nodup.mem_erase_iff, Option.some_or, and_comm]
    simp [eq_comm]

def Table.markOf (t : Table) (j : Nat) (con : Con) : ActiveState :=
  if j ∈ t.successfulConList then
    if t.isTop con then .active else if t.spare = some j then .inactive else .inactiveRedundant
  else con.activeState

def Table.marked (t : Table) : Table :=
  let sorted := t.successfulConList.foldl (sortCon t.topSpeed (t.maxConnectedWiredSpeed != 0)) { table := t }
  if sorted.inactives > 1 then
    markRedundant (sorted.fastestWiredInactive.or sorted.fastestInactive) sorted.table.successfulConList sorted.inactives
      sorted.table
  else sorted.table

theorem sorted_all : Sorted t t.successfulConList
    (t.successfulConList.foldl (sortCon t.topSpeed (t.maxConnectedWiredSpeed != 0)) { table := t }) := by
  have none : Sorted t [] { table := t } := ⟨rfl, rfl, ⟨rfl, rfl⟩, ⟨rfl, rfl⟩⟩
  exact sorted_foldl none

theorem marked_eq : ∃ cons, t.marked = { t with cons } := by
  have sorted := sorted_all (t := t)
  unfold marked
  dsimp only
  rw [sorted.table]
  obtain ⟨cons, same⟩ := judged_eq (t := t) t.successfulConList
  split
  · obtain ⟨cons', marked⟩ := markRedundant_eq (t := t.judged t.successfulConList) _ _ _
    rw [marked, same]
    exact ⟨cons', rfl⟩
  · exact ⟨cons, same⟩

theorem lookup_marked (nodup : t.successfulConList.Nodup) (j : Nat) :
    t.marked.cons.lookup j = (t.cons.lookup j).map fun con => { con with activeState := t.markOf j con } := by
  have sorted := sorted_all (t := t)
  unfold marked
  dsimp only
  generalize t.successfulConList.foldl (sortCon t.topSpeed (t.maxConnectedWiredSpeed != 0)) { table := t } = s at sorted ⊢
  generalize isKeep : s.fastestWiredInactive.or s.fastestInactive = keep
  have spare : t.spare = keep.or (t.successfulConList.filter t.isSlow).getLast? := by
    unfold spare
    rw [← isKeep, sorted.wired.1, sorted.fastest.1]
  have slow : ∀ id, keep = some id → id ∈ t.successfulConList.filter t.isSlow := by
    intro id isKept
    have one : s.fastestWiredInactive = some id ∨ s.fastestInactive = some id := by
      rw [isKept, Option.or_eq_some_iff] at isKeep
      exact isKeep.imp_right And.right
    have member {p : Con → Bool} (fastest : t.fastestSpare p t.successfulConList = some id) :
        id ∈ t.successfulConList.filter t.isSlow := by
      obtain ⟨listed, slow, -⟩ := mem_spares (List.argmax_mem fastest)
      exact List.mem_filter.mpr ⟨listed, slow⟩
    rcases one with wired | fastest
    · exact member (sorted.wired.1.symm.trans wired)
    · exact member (sorted.fastest.1.symm.trans fastest)
  have redundant : (t.judged t.successfulConList).redundant keep t.successfulConList =
      (t.successfulConList.filter t.isSlow).filter fun id => decide (some id ≠ keep) := by
    unfold redundant
    rw [List.filter_filter]
    refine List.filter_congr fun id listed => ?_
    rw [lookup_judged]
    unfold isSlow
    cases t.cons.lookup id with
    | none => simp
    | some con => cases isTop : t.isTop con <;> simp [listed, isTop]
  have list : s.table.successfulConList = t.successfulConList := by
    obtain ⟨cons, same⟩ := judged_eq (t := t) t.successfulConList
    rw [sorted.table, same]
  have isSlow {con : Con} (found : t.cons.lookup j = some con) : t.isSlow j = !t.isTop con := by
    unfold isSlow
    rw [found, Option.any_some]
  rw [list, sorted.table, sorted.inactives]
  generalize isRest : t.judged t.successfulConList = rest at redundant ⊢
  -- nothing is marked where at most one connection is slow
  have marks : (if (t.successfulConList.filter t.isSlow).length > 1 then markRedundant keep t.successfulConList
      (t.successfulConList.filter t.isSlow).length rest else rest).cons.lookup j = (rest.cons.lookup j).map fun con =>
        if j ∈ (rest.redundant keep t.successfulConList).take ((t.successfulConList.filter t.isSlow).length - 1) then
          { con with activeState := .inactiveRedundant } else con := by
    split
    · exact lookup_markRedundant nodup (by omega) j
    · rw [Nat.sub_eq_zero_of_le (by omega)]
      simp
  rw [marks, redundant, ← isRest, lookup_judged]
  cases found : t.cons.lookup j with
  | none => rfl
  | some con =>
    simp only [Option.map_some, mem_take_spare (nodup.filter _) slow, ← spare, List.mem_filter, isSlow found]
    unfold markOf
    by_cases listed : j ∈ t.successfulConList
    · cases isTop : t.isTop con
      · by_cases isSpare : t.spare = some j <;> simp [listed, isSpare]
      · simp [listed]
    · simp [listed]

end

/-! ## Counting -/

section
variable {t : Table}

def Table.counted (t : Table) (ids : List Nat) (mark : ActiveState) : Nat :=
  ids.countP fun id => (t.cons.lookup id).any fun con => con.state == .connected && con.activeState == mark

theorem counted_tally (stats : Stats) (id : Nat) :
    (t.tally stats id).activeCnt = stats.activeCnt + t.counted [id] .active ∧
      (t.tally stats id).inactiveCnt = stats.inactiveCnt + t.counted [id] .inactive := by
  unfold tally counted
  cases found : t.cons.lookup id with
  | none => simp [found]
  | some con =>
    dsimp only
    by_cases connected : con.state = .connected
    · cases mark : con.activeState with
      | active => simp [found, connected, mark]
      | inactive =>
        simp only [connected, if_true]
        split_ifs <;> simp [found, connected, mark]
      | inactiveRedundant => simp [found, connected, mark]
    · simp only [connected, if_false]
      split_ifs <;> simp [found, connected]

theorem counted_foldl (ids : List Nat) (stats : Stats) :
    (ids.foldl t.tally stats).activeCnt = stats.activeCnt + t.counted ids .active ∧
      (ids.foldl t.tally stats).inactiveCnt = stats.inactiveCnt + t.counted ids .inactive := by
  induction ids generalizing stats with
  | nil => exact ⟨rfl, rfl⟩
  | cons id rest ih =>
    obtain ⟨active, inactive⟩ := ih (t.tally stats id)
    obtain ⟨active', inactive'⟩ := counted_tally (t := t) stats id
    have split (mark : ActiveState) : t.counted (id :: rest) mark = t.counted [id] mark + t.counted rest mark := by
      unfold counted
      rw [← List.singleton_append, List.countP_append]
    rw [List.foldl_cons, active, inactive, active', inactive', split, split]
    omega

theorem counted_countConnectionStats :
    t.smb2McCountConnectionStats.2.activeCnt = t.sped.counted t.sped.cons.inUse .active ∧
      t.smb2McCountConnectionStats.2.inactiveCnt = t.sped.counted t.sped.cons.inUse .inactive := by
  have counted := counted_foldl (t := t.sped) t.sped.cons.inUse {}
  simp only [Nat.zero_add] at counted
  unfold smb2McCountConnectionStats
  dsimp only
  generalize mapped : (t.mapCons fun con => if t.idlePotential con then { con with speed := t.conSpeed con } else con) = sped
  change t.sped = sped at mapped
  rw [mapped] at counted ⊢
  generalize sped.cons.inUse.foldl sped.tally {} = stats at counted ⊢
  generalize (if sped.preferWired then stats.potentialWiredConWithMaxSpeed else stats.potentialConWithMaxSpeed) = best
  split
  · split <;> exact counted
  · exact counted

/-! ## Removal -/

structure Table.Retires (t : Table) (ids out : List Nat) (next : Table) : Prop where
  lookup : ∀ j, next.cons.lookup j = (t.cons.lookup j).map fun con => if j ∈ out then { con with state := .inRemoval } else con
  listed : ∀ j ∈ out, j ∈ ids
  nodup : out.Nodup
  due : ∀ j ∈ out, ∃ con, t.cons.lookup j = some con ∧ con.state ≠ .inRemoval ∧ con.activeState ≠ .inactive

variable {id : Nat} {ids : List Nat} {con : Con} {maxOutLen : Int}

theorem not_inactive_of_due {p : Prop} (due : p ∧ con.activeState = .active ∨ con.activeState = .inactiveRedundant) :
    con.activeState ≠ .inactive := by
  rcases due with ⟨-, active⟩ | redundant
  · simp [active]
  · simp [redundant]

abbrev Table.retire (t : Table) (id : Nat) : Table := t.modifyCon id ({ · with state := .inRemoval })

theorem lookup_retire (j : Nat) : (t.retire id).cons.lookup j =
    if id = j then (t.cons.lookup j).map ({ · with state := .inRemoval }) else t.cons.lookup j :=
  Slots.lookup_modify _ _ _ _

theorem of_lookup_retire {j : Nat} {now : Con} (found : (t.retire id).cons.lookup j = some now) :
    ∃ con, t.cons.lookup j = some con ∧ (now = con ∨ now.state = .inRemoval) := by
  rw [lookup_retire] at found
  split at found
  · obtain ⟨con, before, rfl⟩ := Option.map_eq_some_iff.mp found
    exact ⟨con, before, .inr rfl⟩
  · exact ⟨now, found, .inl rfl⟩

theorem Table.Retires.cons {out : List Nat} {next : Table} (found : t.cons.lookup id = some con)
    (state : con.state ≠ .inRemoval) (mark : con.activeState ≠ .inactive)
    (later : (t.retire id).Retires ids out next) :
    t.Retires (id :: ids) (id :: out) next := by
  have apart : id ∉ out := by
    intro here
    obtain ⟨con', found', state', -⟩ := later.due id here
    rw [lookup_retire, if_pos rfl, found, Option.map_some, Option.some.injEq] at found'
    subst found'
    exact state' rfl
  refine ⟨?_, ?_, List.nodup_cons.mpr ⟨apart, later.nodup⟩, ?_⟩
  · intro j
    rw [later.lookup, lookup_retire]
    by_cases here : id = j
    · subst here
      simp [apart, found]
    · simp [here, Ne.symm here]
  · intro j member
    rcases List.mem_cons.mp member with rfl | member
    · exact List.mem_cons_self
    · exact List.mem_cons_of_mem _ (later.listed j member)
  · intro j member
    rcases List.mem_cons.mp member with rfl | member
    · exact ⟨con, found, state, mark⟩
    · obtain ⟨con', found', due⟩ := later.due j member
      rw [lookup_retire, if_neg] at found'
      · exact ⟨con', found', due⟩
      · rintro rfl
        exact apart member

theorem Table.Retires.skip {out : List Nat} {next : Table} (later : t.Retires ids out next) :
    t.Retires (id :: ids) out next where
  lookup := later.lookup
  listed j member := List.mem_cons_of_mem _ (later.listed j member)
  nodup := later.nodup
  due := later.due

theorem Table.Retires.none (ids : List Nat) : t.Retires ids [] t where
  lookup j := by simp
  listed := nofun
  nodup := List.nodup_nil
  due := nofun

theorem retires_removeExcess (inactiveCnt : Nat) (ids : List Nat) (activeCnt : Nat) (positive : 0 < maxOutLen) :
    t.Retires ids (removeExcess inactiveCnt ids activeCnt maxOutLen t).2
        (removeExcess inactiveCnt ids activeCnt maxOutLen t).1 ∧
      ((removeExcess inactiveCnt ids activeCnt maxOutLen t).2.length : Int) ≤ maxOutLen := by
  induction ids generalizing activeCnt maxOutLen t with
  | nil => exact ⟨.none [], by simpa [removeExcess] using positive.le⟩
  | cons id rest ih =>
    unfold removeExcess
    split
    · obtain ⟨retires, few⟩ := ih (t := t) activeCnt positive
      exact ⟨retires.skip, few⟩
    · rename_i con found
      dsimp only
      split
      · rename_i due
        have mark := not_inactive_of_due due.2
        split
        · rename_i last
          exact ⟨.cons found due.1 mark (.none rest), by simp; omega⟩
        · rename_i further
          have less : 0 < maxOutLen - 1 := by omega
          obtain ⟨retires, few⟩ := ih (t := t.retire id)
            (if (inactiveCnt + activeCnt) % 2 ^ 32 > t.maxChannels ∧ con.activeState = .active then decrement32 activeCnt
              else activeCnt) less
          exact ⟨.cons found due.1 mark retires, Int.add_le_of_le_sub_right few⟩
      · obtain ⟨retires, few⟩ := ih (t := t) activeCnt positive
        exact ⟨retires.skip, few⟩

theorem countP_update {list : List Nat} (nodup : list.Nodup) (member : id ∈ list) {p q : Nat → Bool} (was : p id = true)
    (is : q id = false) (others : ∀ j, j ≠ id → q j = p j) : list.countP p = list.countP q + 1 := by
  induction list with
  | nil => cases member
  | cons first rest ih =>
    obtain ⟨apart, nodup⟩ := List.nodup_cons.mp nodup
    rcases List.mem_cons.mp member with rfl | member
    · have same : rest.countP q = rest.countP p := by
        refine List.countP_congr fun j later => ?_
        rw [others j fun here => apart (here ▸ later)]
      rw [List.countP_cons_of_pos was, List.countP_cons_of_neg (by simp [is]), same]
    · have different : first ≠ id := fun here => apart (here ▸ member)
      rw [List.countP_cons, List.countP_cons, ih nodup member, others first different]
      omega

theorem counted_retire_active {all : List Nat} (nodup : all.Nodup) (member : id ∈ all)
    (found : t.cons.lookup id = some con) (connected : con.state = .connected) (active : con.activeState = .active) :
    t.counted all .active = (t.retire id).counted all .active + 1 := by
  unfold counted
  apply countP_update nodup member
  · simp [found, connected, active]
  · rw [lookup_retire, if_pos rfl, found]
    simp
  · intro j different
    rw [lookup_retire, if_neg different.symm]

theorem counted_retire (all : List Nat) {mark : ActiveState} (found : t.cons.lookup id = some con)
    (other : con.activeState ≠ mark) :
    (t.retire id).counted all mark = t.counted all mark := by
  unfold counted
  refine List.countP_congr fun j _ => ?_
  rw [lookup_retire]
  split
  · rename_i here
    rw [← here, found]
    simp [other]
  · rfl

theorem removeExcess_leaves {all : List Nat} (nodup : all.Nodup) (ids : List Nat) {inactiveCnt activeCnt : Nat}
    (live : ∀ id con, t.cons.lookup id = some con → id ∈ all)
    (established : ∀ id ∈ ids, ∀ con, t.cons.lookup id = some con → con.Established)
    (limit : 0 < t.maxChannels) (inactives : inactiveCnt = t.counted all .inactive)
    (actives : activeCnt % 2 ^ 32 = t.counted all .active % 2 ^ 32)
    (left : 0 < t.counted all .inactive + t.counted all .active) :
    0 < (removeExcess inactiveCnt ids activeCnt maxOutLen t).1.counted all .inactive +
      (removeExcess inactiveCnt ids activeCnt maxOutLen t).1.counted all .active := by
  induction ids generalizing activeCnt maxOutLen t with
  | nil => exact left
  | cons id rest ih =>
    rw [List.forall_mem_cons] at established
    unfold removeExcess
    split
    · exact ih live established.2 limit inactives actives left
    · rename_i con found
      dsimp only
      split
      · rename_i due
        have connected : con.state = .connected := (established.1 con found).resolve_right due.1
        have live' : ∀ j con, (t.retire id).cons.lookup j = some con → j ∈ all := by
          intro j now found'
          obtain ⟨old, before, -⟩ := of_lookup_retire found'
          exact live j old before
        have established' : ∀ j ∈ rest, ∀ con, (t.retire id).cons.lookup j = some con → con.Established := by
          intro j member now found'
          obtain ⟨old, before, rfl | removed⟩ := of_lookup_retire found'
          · exact established.2 j member now before
          · exact .inr removed
        have inactives' := counted_retire (t := t) all found (not_inactive_of_due due.2)
        by_cases excess : (inactiveCnt + activeCnt) % 2 ^ 32 > t.maxChannels ∧ con.activeState = .active
        · have one := counted_retire_active nodup (live id con found) found connected excess.2
          have several := excess.1
          have enough : 0 < (t.retire id).counted all .inactive +
              (t.retire id).counted all .active := by omega
          have actives' : decrement32 activeCnt % 2 ^ 32 =
              (t.retire id).counted all .active % 2 ^ 32 := by
            unfold decrement32
            split <;> omega
          rw [if_pos excess]
          split
          · exact enough
          · exact ih live' established' limit (inactives.trans inactives'.symm) actives' enough
        · have redundant : con.activeState ≠ .active := by
            intro active
            rcases due.2 with more | redundant
            · exact excess more
            · cases active.symm.trans redundant
          have actives' := counted_retire (t := t) all found redundant
          have enough : 0 < (t.retire id).counted all .inactive +
              (t.retire id).counted all .active := by omega
          rw [if_neg excess]
          split
          · exact enough
          · exact ih live' established' limit (inactives.trans inactives'.symm) (actives.trans (by rw [actives'])) enough
      · exact ih live established.2 limit inactives actives left

theorem removeExcess_complete (inactiveCnt : Nat) (nodup : ids.Nodup) (activeCnt : Nat)
    (redundant : ∀ id ∈ ids, ∀ con, t.cons.lookup id = some con → con.state ≠ .inRemoval → con.activeState = .inactiveRedundant)
    (room : ((ids.countP fun id => (t.cons.lookup id).any (·.state != .inRemoval) : Nat) : Int) ≤ maxOutLen) :
    ∀ id ∈ ids, ∀ con, t.cons.lookup id = some con → con.state ≠ .inRemoval →
      id ∈ (removeExcess inactiveCnt ids activeCnt maxOutLen t).2 := by
  induction ids generalizing activeCnt maxOutLen t with
  | nil =>
    intro id member
    cases member
  | cons id rest ih =>
    obtain ⟨apart, nodup⟩ := List.nodup_cons.mp nodup
    rw [List.forall_mem_cons] at redundant ⊢
    rw [List.countP_cons] at room
    unfold removeExcess
    cases found : t.cons.lookup id with
    | none =>
      simp only [found, Option.any_none, Bool.false_eq_true, if_false, Nat.add_zero] at room
      refine ⟨fun con none => ?_, ih nodup activeCnt redundant.2 room⟩
      cases none
    | some con =>
      dsimp only
      by_cases waits : con.state = .inRemoval
      · rw [if_neg fun due => due.1 waits]
        simp only [found, Option.any_some, waits, bne_self_eq_false, Bool.false_eq_true, if_false, Nat.add_zero] at room
        refine ⟨?_, ih nodup activeCnt redundant.2 room⟩
        rintro _ ⟨⟩ state
        exact absurd waits state
      · have mark := redundant.1 con found waits
        have counts : (t.cons.lookup id).any (·.state != .inRemoval) = true := by simp [found, waits]
        rw [if_pos counts] at room
        rw [if_pos ⟨waits, .inr mark⟩]
        split
        · rename_i last
          refine ⟨fun _ _ _ => List.mem_singleton.mpr rfl, fun j member other found' state => ?_⟩
          have one : 0 < rest.countP fun id => (t.cons.lookup id).any (·.state != .inRemoval) :=
            List.countP_pos_iff.mpr ⟨j, member, by simp [found', state]⟩
          omega
        · have lookup (j : Nat) (member : j ∈ rest) :
              (t.retire id).cons.lookup j = t.cons.lookup j := by
            rw [lookup_retire, if_neg]
            rintro rfl
            exact apart member
          refine ⟨fun _ _ _ => List.mem_cons_self, fun j member other found' state => List.mem_cons_of_mem _ ?_⟩
          refine ih nodup _ ?_ ?_ j member other ((lookup j member).trans found') state
          · intro j member con found
            rw [lookup j member] at found
            exact redundant.2 j member con found
          · have same : (rest.countP fun id' =>
                ((t.retire id).cons.lookup id').any (·.state != .inRemoval)) =
                rest.countP fun id => (t.cons.lookup id).any (·.state != .inRemoval) :=
              List.countP_congr fun j member => by rw [lookup j member]
            rw [same]
            omega

end

/-! ## Whether one stays connected -/

def Table.Connected (t : Table) (id : Nat) : Prop := ∃ con, t.cons.lookup id = some con ∧ con.state = .connected

def Table.isConnected (t : Table) (id : Nat) : Bool := (t.cons.lookup id).any (·.state == .connected)

theorem isConnected_iff {t : Table} {id : Nat} : t.isConnected id = true ↔ t.Connected id := by
  unfold isConnected Connected
  rw [Option.any_eq_true]
  simp

/-- What is expected of the connections that are put out. -/
structure Table.ReturnsExcess (t : Table) (maxOutLen : Int) : Prop where
  length : ((t.smb2McReturnExcessConnections maxOutLen).2.length : Int) ≤ maxOutLen
  nodup : (t.smb2McReturnExcessConnections maxOutLen).2.Nodup
  removed : ∀ id ∈ (t.smb2McReturnExcessConnections maxOutLen).2, t.Connected id ∧
    ∃ con, (t.smb2McReturnExcessConnections maxOutLen).1.cons.lookup id = some con ∧ con.state = .inRemoval
  survivor : (∃ id, t.Connected id) → ∃ id, (t.smb2McReturnExcessConnections maxOutLen).1.Connected id

/-- Some connected one is to stay, or there are too many of them to be put out at once. -/
def Table.LeavesConnected (t : Table) (maxOutLen : Int) : Prop :=
  (∀ id, ¬t.Connected id) ∨
    (∃ id con, t.cons.lookup id = some con ∧ con.state = .connected ∧
      (id ∉ t.successfulConList ∨ t.isTop con = true ∨ t.spare = some id)) ∨
    maxOutLen < (t.successfulConList.filter t.isConnected).length

section
variable {t : Table} {id : Nat}

theorem Table.Resped.counted {next : Table} (resped : t.Resped next) (ids : List Nat) (mark : ActiveState) :
    next.counted ids mark = t.counted ids mark := by
  obtain ⟨cons, rfl, related⟩ := resped
  unfold Table.counted
  refine List.countP_congr fun id _ => ?_
  have stands := related id
  generalize t.cons.lookup id = before, cons.lookup id = after at stands ⊢
  cases stands with
  | none => rfl
  | @some a b stands =>
    have connected : b.state = .connected ↔ a.state = .connected := stands.settled (by decide)
    have activeState : b.activeState = a.activeState := by rw [stands.same]
    simp [activeState, connected]

def Table.prepared (t : Table) : Table := t.marked.smb2McCountConnectionStats.1

section
variable (nodup : t.successfulConList.Nodup)
include nodup

theorem prepared_eq : ∃ cons, t.prepared = { t with cons } ∧
    ∀ j, Option.Rel (fun con now => Con.Resped { con with activeState := t.markOf j con } now) (t.cons.lookup j)
      (cons.lookup j) := by
  obtain ⟨cons, same⟩ := marked_eq (t := t)
  obtain ⟨cons', counted, related⟩ := resped_countConnectionStats t.marked
  refine ⟨cons', ?_, fun j => ?_⟩
  · rw [prepared, counted, same]
  · have stands := related j
    rw [lookup_marked nodup] at stands
    generalize cons'.lookup j = now at stands
    cases found : t.cons.lookup j with
    | none =>
      rw [found] at stands
      cases stands
      exact .none
    | some con =>
      rw [found] at stands
      cases stands with
      | some stands => exact .some stands

theorem returnExcessConnections_prepared (maxOutLen : Int) :
    t.smb2McReturnExcessConnections maxOutLen =
      removeExcess t.marked.smb2McCountConnectionStats.2.inactiveCnt t.successfulConList
        t.marked.smb2McCountConnectionStats.2.activeCnt maxOutLen t.prepared := by
  have list : t.prepared.successfulConList = t.successfulConList := by
    obtain ⟨cons, same, -⟩ := prepared_eq nodup
    rw [same]
  rw [← list]
  rfl

theorem prepared_of_lookup {con : Con} (found : t.cons.lookup id = some con) :
    ∃ now, t.prepared.cons.lookup id = some now ∧ now.activeState = t.markOf id con ∧
      (now.state = .connected ↔ con.state = .connected) ∧ (now.state = .inRemoval ↔ con.state = .inRemoval) := by
  obtain ⟨cons, same, stands⟩ := prepared_eq nodup
  have stands := stands id
  rw [found] at stands
  rw [same]
  dsimp only
  generalize cons.lookup id = after at stands ⊢
  cases stands with
  | @some _ now stands =>
    refine ⟨now, rfl, ?_, stands.settled (by decide), stands.settled (by decide)⟩
    rw [stands.same]

theorem of_lookup_prepared {now : Con}
    (found : t.prepared.cons.lookup id = some now) :
    ∃ con, t.cons.lookup id = some con ∧ now.activeState = t.markOf id con ∧
      (now.state = .connected ↔ con.state = .connected) ∧ (now.state = .inRemoval ↔ con.state = .inRemoval) := by
  cases before : t.cons.lookup id with
  | none =>
    obtain ⟨cons, same, stands⟩ := prepared_eq nodup
    have stands := stands id
    rw [same] at found
    rw [found, before] at stands
    cases stands
  | some con =>
    obtain ⟨now', found', rest⟩ := prepared_of_lookup nodup before
    obtain rfl := Option.some.inj (found.symm.trans found')
    exact ⟨con, rfl, rest⟩

theorem connected_retired {ids out : List Nat} {next : Table}
    (retires : t.prepared.Retires ids out next) : next.Connected id ↔ t.Connected id ∧ id ∉ out := by
  unfold Connected
  rw [retires.lookup]
  constructor
  · rintro ⟨_, last, state⟩
    obtain ⟨now, found, rfl⟩ := Option.map_eq_some_iff.mp last
    obtain ⟨con, before, -, connected, -⟩ := of_lookup_prepared nodup found
    split at state
    · cases state
    · rename_i stays
      exact ⟨⟨con, before, connected.mp state⟩, stays⟩
  · rintro ⟨⟨con, before, state⟩, stays⟩
    obtain ⟨now, found, -, connected, -⟩ := prepared_of_lookup nodup before
    refine ⟨now, ?_, connected.mpr state⟩
    rw [found, Option.map_some, if_neg stays]

end

theorem returnExcessConnections_top (nodup : t.successfulConList.Nodup)
    (established : ∀ id ∈ t.successfulConList, ∀ con, t.cons.lookup id = some con → con.Established)
    (limit : 0 < t.maxChannels) (maxOutLen : Int) {con : Con} (found : t.cons.lookup id = some con)
    (connected : con.state = .connected) (listed : id ∈ t.successfulConList) (top : t.isTop con = true) :
    ∃ id, (t.smb2McReturnExcessConnections maxOutLen).1.Connected id := by
  have counts := counted_countConnectionStats (t := t.marked)
  generalize isAll : t.marked.sped.cons.inUse = all at counts
  have allNodup : all.Nodup := isAll ▸ List.nodup_range.filter _
  have stands : t.marked.Resped t.prepared := resped_countConnectionStats _
  have counted (mark : ActiveState) : t.prepared.counted all mark = t.marked.sped.counted all mark :=
    (stands.counted all mark).trans ((resped_sped _).counted all mark).symm
  have live : ∀ id con, t.prepared.cons.lookup id = some con → id ∈ all := by
    intro id now found
    obtain ⟨con, before, -⟩ := of_lookup_prepared nodup found
    rw [← isAll, Slots.mem_inUse, lookup_sped, lookup_marked nodup, before]
    exact ⟨_, rfl⟩
  obtain ⟨now, isNow, mark, state, -⟩ := prepared_of_lookup nodup found
  have one : 0 < t.prepared.counted all .active := by
    refine List.countP_pos_iff.mpr ⟨id, live id now isNow, ?_⟩
    have active : t.markOf id con = .active := by simp [markOf, listed, top]
    simp [isNow, state.mpr connected, mark, active]
  have settled : ∀ id ∈ t.successfulConList, ∀ con, t.prepared.cons.lookup id = some con → con.Established := by
    intro id listed now found
    obtain ⟨con, before, -, connected, inRemoval⟩ := of_lookup_prepared nodup found
    exact (established id listed con before).imp connected.mpr inRemoval.mpr
  have room : 0 < t.prepared.maxChannels := by
    obtain ⟨cons, same, -⟩ := prepared_eq nodup
    rwa [same]
  have inactives : t.marked.smb2McCountConnectionStats.2.inactiveCnt = t.prepared.counted all .inactive := by
    rw [counts.2, counted]
  have actives : t.marked.smb2McCountConnectionStats.2.activeCnt = t.prepared.counted all .active := by
    rw [counts.1, counted]
  have left : 0 < (t.smb2McReturnExcessConnections maxOutLen).1.counted all .inactive +
      (t.smb2McReturnExcessConnections maxOutLen).1.counted all .active := by
    rw [returnExcessConnections_prepared nodup]
    apply removeExcess_leaves allNodup _ live settled room inactives
    · rw [actives]
    · exact Nat.add_pos_right _ one
  have some (mark : ActiveState) (positive : 0 < (t.smb2McReturnExcessConnections maxOutLen).1.counted all mark) :
      ∃ id, (t.smb2McReturnExcessConnections maxOutLen).1.Connected id := by
    obtain ⟨id, -, holds⟩ := List.countP_pos_iff.mp positive
    rw [Option.any_eq_true] at holds
    obtain ⟨con, found, both⟩ := holds
    rw [Bool.and_eq_true, beq_iff_eq] at both
    exact ⟨id, con, found, both.1⟩
  rcases Nat.add_pos_iff_pos_or_pos.mp left with inactive | active
  · exact some _ inactive
  · exact some _ active

/-- What is put out is as expected, and one connection stays connected where one was, just if a connected one is to
stay. -/
theorem returnExcessConnections_iff (nodup : t.successfulConList.Nodup)
    (established : ∀ id ∈ t.successfulConList, ∀ con, t.cons.lookup id = some con → con.Established)
    (limit : 0 < t.maxChannels) {maxOutLen : Int} (positive : 0 < maxOutLen) :
    t.ReturnsExcess maxOutLen ↔ t.LeavesConnected maxOutLen := by
  have result := returnExcessConnections_prepared nodup maxOutLen
  obtain ⟨retires, few⟩ := retires_removeExcess (t := t.prepared) t.marked.smb2McCountConnectionStats.2.inactiveCnt
    t.successfulConList t.marked.smb2McCountConnectionStats.2.activeCnt positive
  rw [← result] at retires few
  have after {id : Nat} : (t.smb2McReturnExcessConnections maxOutLen).1.Connected id ↔
      t.Connected id ∧ id ∉ (t.smb2McReturnExcessConnections maxOutLen).2 := connected_retired nodup retires
  constructor
  · intro returns
    by_contra none
    unfold LeavesConnected at none
    simp only [not_or, not_forall, not_not, not_exists, not_and, not_lt] at none
    obtain ⟨⟨first, connected⟩, others, room⟩ := none
    have mark {id : Nat} (listed : id ∈ t.successfulConList) {con : Con} (found : t.cons.lookup id = some con)
        (connected : con.state = .connected) : t.markOf id con = .inactiveRedundant := by
      obtain ⟨-, slow, other⟩ := others id con found connected
      simp [markOf, listed, slow, other]
    obtain ⟨id, left⟩ := returns.survivor ⟨first, connected⟩
    obtain ⟨⟨con, found, connected⟩, stays⟩ := after.mp left
    obtain ⟨now, isNow, -, state, -⟩ := prepared_of_lookup nodup found
    apply stays
    rw [result]
    refine removeExcess_complete _ nodup _ ?_ ?_ id (others id con found connected).1 now isNow ?_
    · intro id listed now isNow waits
      obtain ⟨con, before, isMark, -, inRemoval⟩ := of_lookup_prepared nodup isNow
      rw [isMark]
      exact mark listed before ((established id listed con before).resolve_right fun state => waits (inRemoval.mpr state))
    · refine le_trans (Int.ofNat_le.mpr ?_) room
      rw [← List.countP_eq_length_filter]
      refine List.countP_mono_left fun id listed waits => ?_
      rw [Option.any_eq_true] at waits
      obtain ⟨now, isNow, waits⟩ := waits
      obtain ⟨con, before, -, -, inRemoval⟩ := of_lookup_prepared nodup isNow
      have state := (established id listed con before).resolve_right fun state => by simp [inRemoval.mpr state] at waits
      exact isConnected_iff.mpr ⟨con, before, state⟩
    · rw [state.mpr connected]
      exact nofun
  · intro leaves
    refine ⟨few, retires.nodup, ?_, ?_⟩
    · intro id member
      obtain ⟨now, found, waits, -⟩ := retires.due id member
      obtain ⟨con, before, -, -, inRemoval⟩ := of_lookup_prepared nodup found
      have state := (established id (retires.listed id member) con before).resolve_right fun state => waits (inRemoval.mpr state)
      refine ⟨⟨con, before, state⟩, { now with state := .inRemoval }, ?_, rfl⟩
      rw [retires.lookup, found, Option.map_some, if_pos member]
    · rintro ⟨first, connected⟩
      rcases leaves with none | ⟨id, con, found, connected, stays⟩ | many
      · exact absurd connected (none first)
      · by_cases listed : id ∈ t.successfulConList
        · rcases stays with off | top | spare
          · exact absurd listed off
          · exact returnExcessConnections_top nodup established limit maxOutLen found connected listed top
          · by_cases top : t.isTop con = true
            · exact returnExcessConnections_top nodup established limit maxOutLen found connected listed top
            · refine ⟨id, after.mpr ⟨⟨con, found, connected⟩, fun member => ?_⟩⟩
              -- the spare connection is inactive, and no inactive one is put out
              obtain ⟨now, isNow, -, mark⟩ := retires.due id member
              obtain ⟨now', isNow', isMark, -⟩ := prepared_of_lookup nodup found
              obtain rfl := Option.some.inj (isNow.symm.trans isNow')
              apply mark
              rw [isMark]
              simp [markOf, listed, top, spare]
        · exact ⟨id, after.mpr ⟨⟨con, found, connected⟩, fun member => listed (retires.listed id member)⟩⟩
      · by_contra gone
        have all : ∀ id ∈ t.successfulConList.filter t.isConnected, id ∈ (t.smb2McReturnExcessConnections maxOutLen).2 := by
          intro id member
          by_contra stays
          exact gone ⟨id, after.mpr ⟨isConnected_iff.mp (List.mem_filter.mp member).2, stays⟩⟩
        have fits := (List.subperm_of_subset (nodup.filter t.isConnected) all).length_le
        omega

end

def twoConnected : Table where
  clientNicList := [0]
  serverNicList := [1, 2]
  nics := [some { nicIndex := 1, linkSpeed := 100 }, some { nicIndex := 1, linkSpeed := 100 }, some { nicIndex := 2, linkSpeed := 50 }]
  cons := [some { state := .connected, speed := 100, clientNic := 0, serverNic := 1 },
    some { state := .connected, activeState := .inactive, speed := 50, clientNic := 0, serverNic := 2 }]
  successfulConList := [0, 1]
  maxChannels := 9
  srvrRssChannels := 4
  clntRssChannels := 4

theorem returnExcessConnections_twoConnected : twoConnected.ReturnsExcess 8 := by
  have listed : ∀ id ∈ twoConnected.successfulConList, (twoConnected.cons.lookup id).all (·.Established) = true := by decide
  refine (returnExcessConnections_iff (by decide) ?_ (by decide) (by decide)).mpr ?_
  · intro id member con found
    have settled := listed id member
    rw [found] at settled
    simpa using settled
  · exact .inr (.inl ⟨0, _, rfl, rfl, .inr (.inl (by decide))⟩)

def clientNics (speed : Nat) : List NetworkNicInfo :=
  [{ nicIndex := 1, linkSpeed := 100, addr := address 1 }, { nicIndex := 2, linkSpeed := 50, addr := address 2 },
    { nicIndex := 3, linkSpeed := 50, addr := address 3 }, { nicIndex := 4, linkSpeed := speed, addr := address 4 }]

def serverNics : List NetworkNicInfo :=
  [{ nicIndex := 1, linkSpeed := 1000, addr := address 11 }, { nicIndex := 2, linkSpeed := 1000, addr := address 12 },
    { nicIndex := 3, linkSpeed := 1000, addr := address 13 }, { nicIndex := 4, linkSpeed := 1000, addr := address 14 }]

def lostSpare : List Table.Event :=
  [.parseClientInterfaceArray ((clientNics 50).map (·, .whole)) false, .queryInfoResponseEvent serverNics,
    .updateMainChannel (address 1) (address 11) 7,
    .askForNewConnectionTrial 1, .askForNewConnectionTrial 1, .askForNewConnectionTrial 1,
    .attach 5 8, .attach 10 9, .attach 15 10,
    .reportConnectionTrialResults true 5, .reportConnectionTrialResults true 10, .reportConnectionTrialResults true 15,
    .returnExcessConnections 8, .informConnectionDisconnected 15, .notifierEvent (clientNics 1000) 0 false]

/-- The main channel is put out as redundant, and the connection that stays instead is waiting for its removal. -/
theorem returnExcessConnections_lostSpare :
    ∃ last, run Table.step (smb2McInit 0 0 0 [] false) lostSpare = some last ∧ last.Connected 0 ∧
      ∀ id, ¬(last.smb2McReturnExcessConnections 8).1.Connected id := by
  have result : (run Table.step (smb2McInit 0 0 0 [] false) lostSpare).map (fun last => (last.isConnected 0,
      (last.smb2McReturnExcessConnections 8).1.cons.inUse.all fun id => !(last.smb2McReturnExcessConnections 8).1.isConnected id)) =
      some (true, true) := by decide +kernel
  obtain ⟨last, reached, states⟩ := Option.map_eq_some_iff.mp result
  rw [Prod.mk.injEq, List.all_eq_true] at states
  refine ⟨last, reached, isConnected_iff.mp states.1, fun id connected => ?_⟩
  have live : ∃ con, (last.smb2McReturnExcessConnections 8).1.cons.lookup id = some con := connected.imp fun _ both => both.1
  have none := states.2 id (Slots.mem_inUse.mpr live)
  rw [isConnected_iff.mpr connected] at none
  cases none

end SmbClient.Multichannel
