import SmbClient.Multichannel.Trials

/-! A request for trials, turn by turn: it comes to an end, and what it hands out. -/

namespace SmbClient.Multichannel
open SmbClient.Lib Table

/-! ## One turn -/

inductive Table.Turn
  | again (next : Table)
  | stop (next : Table)
  | start (id : Nat) (inactive : Bool) (next : Table)

def Table.trialTurn (inactiveAdded : Bool) (t : Table) : Turn :=
  let (t, stats) := t.smb2McCountConnectionStats
  let lost := stats.activeCnt = 0 ∧ stats.inactiveCnt ≠ 0
  let revived := if lost then
    stats.fastestInactive.filter fun id => (t.cons.lookup id).any (·.iod.isSome) else none
  match revived with
  | some id => .again (t.modifyCon id ({ · with activeState := .active }))
  | none =>
    if stats.inactiveCnt + stats.activeCnt ≥ t.maxChannels ∧
        stats.maxActiveSpeed ≥ stats.maxPotentialSpeed ∧ stats.maxActiveSpeed > stats.maxInactiveSpeed then
      .stop t
    else
      let (potentialCon, speed, dontTestForActive) := t.candidate stats
      match potentialCon, t.trialState stats inactiveAdded speed dontTestForActive with
      | some id, some activeState => .start id (activeState == .inactive) (t.startTrial id activeState)
      | _, _ => .stop t

theorem trialLoop_turn (fuel n : Nat) (added : Bool) (t : Table) :
    trialLoop (fuel + 1) (n + 1) added t =
      match t.trialTurn added with
      | .again next => trialLoop fuel (n + 1) added next
      | .stop next => (next, [])
      | .start id inactive next =>
        ((trialLoop fuel n (added || inactive) next).1, id :: (trialLoop fuel n (added || inactive) next).2) := by
  unfold trialTurn
  rw [trialLoop]
  dsimp only
  generalize t.smb2McCountConnectionStats = counted
  generalize (if counted.2.activeCnt = 0 ∧ counted.2.inactiveCnt ≠ 0 then
    counted.2.fastestInactive.filter fun id => (counted.1.cons.lookup id).any (·.iod.isSome) else none) = revived
  cases revived with
  | some id => rfl
  | none =>
    dsimp only
    split_ifs
    · rfl
    · generalize counted.1.trialState counted.2 added (counted.1.candidate counted.2).2.1
        (counted.1.candidate counted.2).2.2 = state
      cases (counted.1.candidate counted.2).1 <;> cases state <;> rfl

inductive TrialRun : Nat → Bool → Table → Table × List Nat → Prop
  | full {added : Bool} {t : Table} : TrialRun 0 added t (t, [])
  | again {n : Nat} {added : Bool} {t next : Table} {r : Table × List Nat} (turn : t.trialTurn added = .again next)
      (rest : TrialRun (n + 1) added next r) : TrialRun (n + 1) added t r
  | stop {n : Nat} {added : Bool} {t next : Table} (turn : t.trialTurn added = .stop next) :
      TrialRun (n + 1) added t (next, [])
  | start {n id : Nat} {added inactive : Bool} {t next : Table} {r : Table × List Nat}
      (turn : t.trialTurn added = .start id inactive next) (rest : TrialRun n (added || inactive) next r) :
      TrialRun (n + 1) added t (r.1, id :: r.2)

/-! ## Active connections -/

def Con.Carrying (con : Con) : Prop := con.state = .connected ∧ con.activeState = .active

def Table.Carries (t : Table) : Prop := ∃ id con, t.cons.lookup id = some con ∧ con.Carrying

variable {t next : Table} {ids : List Nat} {id n : Nat} {added : Bool}

theorem Table.Carries.related (carries : t.Carries)
    (related : t.cons.Related (fun a b => a.Carrying → b.Carrying) next.cons) : next.Carries := by
  obtain ⟨id, con, found, carrying⟩ := carries
  obtain ⟨now, found', keeps⟩ := related.after found
  exact ⟨id, now, found', keeps carrying⟩

theorem not_carrying_of_waiting {con : Con} (waiting : con.Waiting) : ¬con.Carrying := by
  rintro ⟨connected, _⟩
  rcases waiting with state | state <;> cases state.symm.trans connected

theorem Table.Resped.carries (resped : t.Resped next) (carries : t.Carries) : next.Carries := by
  obtain ⟨cons, rfl, related⟩ := resped
  refine carries.related (related.imp fun {_ now} resped carrying => ⟨?_, ?_⟩)
  · exact (resped.settled (by decide)).mpr carrying.1
  · rw [resped.same]
    exact carrying.2

structure Table.Tallied (t : Table) (ids : List Nat) (stats : Stats) : Prop where
  actives : stats.activeCnt = 0 → ∀ id ∈ ids, ∀ con, t.cons.lookup id = some con → ¬con.Carrying
  spare : ∀ id, stats.fastestInactive = some id → ∃ con, t.cons.lookup id = some con ∧ con.state = .connected

theorem tallied_tally {stats : Stats} (tallied : t.Tallied ids stats) (id : Nat) :
    t.Tallied (ids ++ [id]) (t.tally stats id) := by
  have last {con : Con} (found : t.cons.lookup id = some con) (idle : ¬con.Carrying) (none : stats.activeCnt = 0) :
      ∀ j ∈ ids ++ [id], ∀ con, t.cons.lookup j = some con → ¬con.Carrying := by
    intro j member other found'
    rcases List.mem_append.mp member with before | here
    · exact tallied.actives none j before other found'
    · obtain rfl := List.mem_singleton.mp here
      exact Option.some.inj (found.symm.trans found') ▸ idle
  unfold tally
  split
  · rename_i absent
    refine ⟨fun none j member other found => ?_, tallied.spare⟩
    rcases List.mem_append.mp member with before | here
    · exact tallied.actives none j before other found
    · obtain rfl := List.mem_singleton.mp here
      cases absent.symm.trans found
  · rename_i con found
    by_cases connected : con.state = .connected
    · rw [if_pos connected]
      split
      · exact ⟨fun none => absurd none (Nat.succ_ne_zero _), tallied.spare⟩
      · rename_i inactive
        have idle : ¬con.Carrying := fun carrying => by cases inactive.symm.trans carrying.2
        dsimp only
        split
        · refine ⟨last found idle, fun j best => ?_⟩
          exact ⟨con, Option.some.inj best ▸ found, connected⟩
        · exact ⟨last found idle, tallied.spare⟩
      · rename_i redundant
        have idle : ¬con.Carrying := fun carrying => by cases redundant.symm.trans carrying.2
        exact ⟨last found idle, tallied.spare⟩
    · have idle : ¬con.Carrying := fun carrying => connected carrying.1
      rw [if_neg connected]
      dsimp only
      split_ifs
      all_goals exact ⟨last found idle, tallied.spare⟩

theorem tallied_foldl {rest : List Nat} {stats : Stats} (tallied : t.Tallied ids stats) :
    t.Tallied (ids ++ rest) (rest.foldl t.tally stats) := by
  induction rest generalizing ids stats with
  | nil => simpa using tallied
  | cons id rest ih =>
    have later := ih (tallied_tally tallied id)
    rwa [List.append_assoc] at later

theorem carries_startTrial (carries : t.Carries) (eligible : t.Eligible id)
    (activeState : ActiveState) : (t.startTrial id activeState).Carries := by
  obtain ⟨con, found, potential, -⟩ := eligible
  unfold startTrial
  rw [found]
  refine carries.related (.modify (fun _ carrying => carrying) fun con' found' carrying => absurd carrying ?_)
  obtain rfl := Option.some.inj (found.symm.trans found')
  exact not_carrying_of_waiting (.inl potential)

/-! ## What a turn does -/

theorem trialTurn_again (turn : t.trialTurn added = .again next) :
    ¬t.Carries ∧ next.Carries ∧
      ∃ id, next = t.smb2McCountConnectionStats.1.modifyCon id ({ · with activeState := .active }) := by
  have counted := countConnectionStats_cases t
  unfold trialTurn at turn
  dsimp only at turn
  split at turn
  · rename_i id revived
    cases turn
    split at revived
    · rename_i lost
      have same := counted.resolve_right fun some => absurd some.1 (lost.1 ▸ Nat.lt_irrefl 0)
      obtain ⟨spare, -⟩ := Option.filter_eq_some_iff.mp revived
      have none : t.sped.Tallied [] {} := ⟨fun _ _ member => absurd member List.not_mem_nil, nofun⟩
      have tallied : t.sped.Tallied t.sped.cons.inUse (t.sped.cons.inUse.foldl t.sped.tally {}) := tallied_foldl none
      rw [same] at spare lost ⊢
      obtain ⟨con, found, connected⟩ := tallied.spare id spare
      refine ⟨fun carries => ?_, ?_, id, rfl⟩
      · obtain ⟨j, other, lookup, carrying⟩ := (resped_sped t).carries carries
        exact tallied.actives lost.1 j (Slots.mem_inUse.mpr ⟨other, lookup⟩) other lookup carrying
      · refine ⟨id, { con with activeState := .active }, ?_, connected, rfl⟩
        unfold modifyCon
        rw [Slots.lookup_modify, if_pos rfl, found]
        rfl
    · cases revived
  · split at turn
    · cases turn
    · split at turn <;> cases turn

theorem trialTurn_stop (turn : t.trialTurn added = .stop next) :
    next = t.smb2McCountConnectionStats.1 := by
  unfold trialTurn at turn
  dsimp only at turn
  split at turn
  · cases turn
  · split at turn
    · cases turn
      rfl
    · split at turn <;> cases turn
      rfl

theorem trialTurn_start {inactive : Bool} (turn : t.trialTurn added = .start id inactive next) :
    t.smb2McCountConnectionStats.1.Eligible id ∧
      ∃ activeState, next = t.smb2McCountConnectionStats.1.startTrial id activeState := by
  have proposing := proposing_countConnectionStats t
  unfold trialTurn at turn
  dsimp only at turn
  split at turn
  · cases turn
  · split at turn
    · cases turn
    · split at turn
      · rename_i best _
        cases turn
        exact ⟨eligible_candidate proposing best, _, rfl⟩
      · cases turn

/-! ## The loop ends -/

theorem trialRun_trialLoop {fuel : Nat} (enough : n ≤ fuel)
    (more : t.Carries ∨ n < fuel) : TrialRun n added t (trialLoop fuel n added t) := by
  induction fuel generalizing n added t with
  | zero =>
    obtain rfl : n = 0 := Nat.le_zero.mp enough
    exact .full
  | succ fuel ih =>
    cases n with
    | zero => exact .full
    | succ n =>
      rw [trialLoop_turn]
      cases turn : t.trialTurn added with
      | again next =>
        obtain ⟨idle, carries, -⟩ := trialTurn_again turn
        exact .again turn (ih (Nat.le_of_lt_succ (more.resolve_left idle)) (.inl carries))
      | stop next => exact .stop turn
      | start id inactive next =>
        refine .start turn (ih (Nat.le_of_succ_le_succ enough) ?_)
        obtain ⟨eligible, activeState, rfl⟩ := trialTurn_start turn
        refine more.imp (fun carries => ?_) Nat.lt_of_succ_lt_succ
        exact carries_startTrial ((resped_countConnectionStats t).carries carries) eligible activeState

/-! ## What is handed out -/

structure Con.Onward (before after : Con) : Prop where
  nics : before.SameNics after
  waiting : after.Waiting → before.Waiting
  inTrial : before.state = .inTrial → after.state = .inTrial

structure Table.Onward (t next : Table) : Prop where
  con : t.cons.Related Con.Onward next.cons
  onTrial : ∀ id, (t.nic id).state = .onTrial → (next.nic id).state = .onTrial
  live : ∀ id, (t.nics.lookup id).isSome → (next.nics.lookup id).isSome

theorem Con.Onward.refl (con : Con) : con.Onward con := ⟨⟨rfl, rfl⟩, id, id⟩

theorem Con.Onward.trans {a b c : Con} (first : a.Onward b) (second : b.Onward c) : a.Onward c where
  nics := ⟨second.nics.1.trans first.nics.1, second.nics.2.trans first.nics.2⟩
  waiting waits := first.waiting (second.waiting waits)
  inTrial tries := second.inTrial (first.inTrial tries)

namespace Table.Onward

theorem refl (t : Table) : t.Onward t := ⟨.refl Con.Onward.refl _, fun _ => id, fun _ => id⟩

theorem trans {a b c : Table} (first : a.Onward b) (second : b.Onward c) : a.Onward c where
  con := first.con.trans Con.Onward.trans second.con
  onTrial id on := second.onTrial id (first.onTrial id on)
  live id live := second.live id (first.live id live)

theorem modifyCon {t : Table} {j : Nat} {f : Con → Con} (changes : ∀ con, t.cons.lookup j = some con → con.Onward (f con)) :
    t.Onward (t.modifyCon j f) :=
  ⟨.modify Con.Onward.refl changes, fun _ => id, fun _ => id⟩

end Table.Onward

theorem onward_countConnectionStats (t : Table) : t.Onward t.smb2McCountConnectionStats.1 := by
  obtain ⟨cons, same, related⟩ := resped_countConnectionStats t
  rw [same]
  refine ⟨related.imp fun resped => ⟨?_, resped.waiting, (resped.settled (by decide)).mpr⟩, fun _ => id, fun _ => id⟩
  rw [resped.same]
  exact ⟨rfl, rfl⟩

theorem onward_startTrial (eligible : t.Eligible id) (activeState : ActiveState) :
    t.Onward (t.startTrial id activeState) := by
  obtain ⟨con, found, potential, -⟩ := eligible
  have started : t.Onward (t.modifyCon id fun con => { con with state := .inTrial, activeState, speed := t.conSpeed con }) := by
    refine .modifyCon fun con' found' => ?_
    obtain rfl := Option.some.inj (found.symm.trans found')
    refine ⟨⟨rfl, rfl⟩, fun _ => .inl potential, fun _ => rfl⟩
  unfold startTrial
  rw [found]
  refine ⟨started.con, fun j on => ?_, fun j live => ?_⟩
  · change ((t.setNicStates con .onTrial).nic j).state = .onTrial
    unfold nic at on ⊢
    rw [lookup_setNicStates]
    split
    · cases slot : t.nics.lookup j with
      | none => simp [slot] at on
      | some nic => rfl
    · exact on
  · change ((t.setNicStates con .onTrial).nics.lookup j).isSome
    rw [lookup_setNicStates]
    split
    · rw [Option.isSome_map]
      exact live
    · exact live

structure Table.HandedOut (t next : Table) (ids : List Nat) : Prop where
  trials : ∀ id ∈ ids, ∃ before after, t.cons.lookup id = some before ∧ before.Waiting ∧
    next.cons.lookup id = some after ∧ after.state = .inTrial
  apart : ids.Pairwise fun i j => ∀ a b, t.cons.lookup i = some a → t.cons.lookup j = some b →
    ∀ side, a.nic side ≠ b.nic side
  free : ∀ id ∈ ids, ∀ con, t.cons.lookup id = some con → ∀ side, (t.nic (con.nic side)).state ≠ .onTrial

/-- Of at most `n` that were asked for, and all of them are counted. -/
structure Table.Requested (t : Table) (n : Nat) (next : Table) (ids : List Nat) : Prop extends t.HandedOut next ids where
  length : ids.length ≤ n
  counter : next.activeOnTrialConnections = (t.activeOnTrialConnections + ids.length) % 2 ^ 32

theorem Table.HandedOut.after {s : Table} (handedOut : s.HandedOut next ids) (onward : t.Onward s) :
    t.HandedOut next ids where
  trials id member := by
    obtain ⟨before, after, found, waits, tries⟩ := handedOut.trials id member
    obtain ⟨old, was, changes⟩ := onward.con.before found
    exact ⟨old, after, was, changes.waiting waits, tries⟩
  apart := by
    refine handedOut.apart.imp fun {i j} apart a b wasA wasB side => ?_
    obtain ⟨a', nowA, changesA⟩ := onward.con.after wasA
    obtain ⟨b', nowB, changesB⟩ := onward.con.after wasB
    rw [← changesA.nics.nic side, ← changesB.nics.nic side]
    exact apart a' b' nowA nowB side
  free id member con was side on := by
    obtain ⟨con', now, changes⟩ := onward.con.after was
    refine handedOut.free id member con' now side ?_
    rw [changes.nics.nic side]
    exact onward.onTrial _ on

theorem Table.Requested.after {s : Table} (requested : s.Requested n next ids)
    (onward : t.Onward s) (counter : s.activeOnTrialConnections = t.activeOnTrialConnections) :
    t.Requested n next ids :=
  ⟨requested.toHandedOut.after onward, requested.length, counter ▸ requested.counter⟩

def Table.NicsLive (t : Table) : Prop :=
  ∀ {id con}, t.cons.lookup id = some con → ∀ side, (t.nics.lookup (con.nic side)).isSome

theorem Table.NicsLive.onward (live : t.NicsLive) (onward : t.Onward next) : next.NicsLive := by
  intro id con found side
  obtain ⟨old, was, changes⟩ := onward.con.before found
  rw [changes.nics.nic side]
  exact onward.live _ (live was side)

theorem counter_countConnectionStats (t : Table) :
    t.smb2McCountConnectionStats.1.activeOnTrialConnections = t.activeOnTrialConnections := by
  obtain ⟨cons, same, -⟩ := resped_countConnectionStats t
  rw [same]

theorem Table.Requested.none (n : Nat) (counter : next.activeOnTrialConnections = t.activeOnTrialConnections)
    (small : t.activeOnTrialConnections < 2 ^ 32) : t.Requested n next [] where
  length := Nat.zero_le n
  trials _ member := absurd member List.not_mem_nil
  apart := .nil
  free _ member := absurd member List.not_mem_nil
  counter := counter.trans (Nat.mod_eq_of_lt small).symm

theorem Table.Requested.start {activeState : ActiveState} (live : t.NicsLive)
    (eligible : t.Eligible id) (onward : (t.startTrial id activeState).Onward next)
    (requested : (t.startTrial id activeState).Requested n next ids) : t.Requested (n + 1) next (id :: ids) := by
  have started := onward_startTrial eligible activeState
  obtain ⟨con, found, potential, free⟩ := eligible
  have now : (t.startTrial id activeState).cons.lookup id =
      Option.some { con with state := .inTrial, activeState, speed := t.conSpeed con } := by
    unfold startTrial
    rw [found]
    change (t.cons.modify id _).lookup id = _
    rw [Slots.lookup_modify, if_pos rfl, found]
    rfl
  have marked (side : Side) : ((t.startTrial id activeState).nic (con.nic side)).state = .onTrial := by
    unfold startTrial
    rw [found]
    exact state_setNicStates (fun side => Option.isSome_iff_exists.mp (live found side)) side
  have count : (t.startTrial id activeState).activeOnTrialConnections = (t.activeOnTrialConnections + 1) % 2 ^ 32 := by
    unfold startTrial
    rw [found]
    rfl
  have rest := requested.toHandedOut.after started
  refine ⟨⟨?_, ?_, ?_⟩, Nat.succ_le_succ requested.length, ?_⟩
  · intro j member
    rcases List.mem_cons.mp member with rfl | later
    · obtain ⟨after, last, changes⟩ := onward.con.after now
      exact ⟨con, after, found, .inl potential, last, changes.inTrial rfl⟩
    · exact rest.trials j later
  · refine .cons (fun j later a b wasA wasB side same => ?_) rest.apart
    obtain rfl := Option.some.inj (found.symm.trans wasA)
    obtain ⟨b', nowB, changes⟩ := started.con.after wasB
    refine requested.free j later b' nowB side ?_
    rw [changes.nics.nic side, ← same]
    exact marked side
  · intro j member con' was side
    rcases List.mem_cons.mp member with rfl | later
    · obtain rfl := Option.some.inj (found.symm.trans was)
      exact free side
    · exact rest.free j later con' was side
  · rw [requested.counter, count, Nat.mod_add_mod, List.length_cons, Nat.add_assoc, Nat.add_comm 1]

theorem requested_trialRun {r : Table × List Nat} (ran : TrialRun n added t r)
    (live : t.NicsLive) (small : t.activeOnTrialConnections < 2 ^ 32) : t.Onward r.1 ∧ t.Requested n r.1 r.2 := by
  induction ran with
  | full => exact ⟨.refl _, .none 0 rfl small⟩
  | @again n added t next r turn rest ih =>
    obtain ⟨-, -, id, rfl⟩ := trialTurn_again turn
    have counted := onward_countConnectionStats t
    have revived : t.Onward (t.smb2McCountConnectionStats.1.modifyCon id ({ · with activeState := .active })) :=
      counted.trans (.modifyCon fun con _ => ⟨⟨rfl, rfl⟩, fun waits => waits, fun tries => tries⟩)
    have same := counter_countConnectionStats t
    obtain ⟨onward, requested⟩ := ih (live.onward revived) (same.symm ▸ small)
    exact ⟨revived.trans onward, requested.after revived same⟩
  | @stop n added t next turn =>
    obtain rfl := trialTurn_stop turn
    have counted := onward_countConnectionStats t
    exact ⟨counted, .none _ (counter_countConnectionStats t) small⟩
  | @start n id added inactive t next r turn rest ih =>
    obtain ⟨eligible, activeState, rfl⟩ := trialTurn_start turn
    have counted := onward_countConnectionStats t
    have started := onward_startTrial eligible activeState
    have count : (t.smb2McCountConnectionStats.1.startTrial id activeState).activeOnTrialConnections < 2 ^ 32 := by
      obtain ⟨con, found, -⟩ := eligible
      unfold startTrial
      rw [found]
      exact Nat.mod_lt _ (by decide)
    obtain ⟨onward, requested⟩ := ih (live.onward (counted.trans started)) count
    refine ⟨counted.trans (started.trans onward), ?_⟩
    exact (Requested.start (live.onward counted) eligible onward requested).after counted
      (counter_countConnectionStats t)

/-- How a request for trials ends: at once, or when the loop does. -/
def Table.Asked (t : Table) (maxOutLen : Nat) (r : Table × List Nat) : Prop :=
  if t.pauseTrials ≠ 0 ∨ t.activeOnTrialConnections > t.maxChannels then r = (t, [])
  else TrialRun maxOutLen false t r

/-- A request for trials ends, and hands out connections with interfaces of their own. -/
theorem askForNewConnectionTrial_hands_out {t : Table} (linked : Linked t) (small : t.activeOnTrialConnections < 2 ^ 32)
    (maxOutLen : Nat) :
    t.Asked maxOutLen (t.smb2McAskForNewConnectionTrial maxOutLen) ∧
      t.Requested maxOutLen (t.smb2McAskForNewConnectionTrial maxOutLen).1 (t.smb2McAskForNewConnectionTrial maxOutLen).2 ∧
      (t.smb2McAskForNewConnectionTrial maxOutLen).2.Nodup := by
  have live : t.NicsLive := fun found side => Option.isSome_iff_exists.mpr (linked.live (linked.listed found side))
  have requested : t.Requested maxOutLen (t.smb2McAskForNewConnectionTrial maxOutLen).1
      (t.smb2McAskForNewConnectionTrial maxOutLen).2 := by
    unfold smb2McAskForNewConnectionTrial
    split
    · exact .none maxOutLen rfl small
    · exact (requested_trialRun (trialRun_trialLoop (Nat.le_succ _) (.inr (Nat.lt_succ_self _))) live small).2
  refine ⟨?_, requested, ?_⟩
  · unfold Asked smb2McAskForNewConnectionTrial
    split
    · rfl
    · exact trialRun_trialLoop (Nat.le_succ _) (.inr (Nat.lt_succ_self _))
  · refine List.Pairwise.imp_of_mem ?_ requested.apart
    intro i j member _ apart same
    subst same
    obtain ⟨con, -, found, -⟩ := requested.trials i member
    exact apart con con found found .client rfl

theorem askForNewConnectionTrial_hands_out_two :
    ∃ t, run Table.step (smb2McInit 0 0 0 [] false) slowMainChannel = some t ∧
      (t.smb2McAskForNewConnectionTrial 2).2 = [0, 4] ∧
      t.Requested 2 (t.smb2McAskForNewConnectionTrial 2).1 (t.smb2McAskForNewConnectionTrial 2).2 := by
  have result : (run Table.step (smb2McInit 0 0 0 [] false) slowMainChannel).map
      (fun t => (t.activeOnTrialConnections, (t.smb2McAskForNewConnectionTrial 2).2)) = some (0, [0, 4]) := by
    decide +kernel
  obtain ⟨t, reached, both⟩ := Option.map_eq_some_iff.mp result
  obtain ⟨count, ids⟩ := Prod.mk.inj both
  have linked : Linked t := run_invariant Table.step (fun _ _ _ linked spares taken => linked_step linked spares taken)
    (linked_init _ _ _ _ _) (by decide +kernel) reached
  exact ⟨t, reached, ids, (askForNewConnectionTrial_hands_out linked (count ▸ by decide) 2).2.1⟩

end SmbClient.Multichannel
