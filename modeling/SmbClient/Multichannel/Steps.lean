import SmbClient.Multichannel.Moves

namespace SmbClient.Multichannel
open SmbClient.Lib Table

/-! ## Statistics -/

structure Con.Resped (before after : Con) : Prop where
  same : after = { before with speed := after.speed, state := after.state }
  settled : ∀ {state}, state ≠ .potential ∧ state ≠ .surplus → (after.state = state ↔ before.state = state)

theorem Con.Resped.refl (con : Con) : con.Resped con := ⟨rfl, fun _ => Iff.rfl⟩

theorem Con.Resped.trans {a b c : Con} (first : a.Resped b) (second : b.Resped c) : a.Resped c where
  same := second.same.trans (by rw [first.same])
  settled busy := (second.settled busy).trans (first.settled busy)

theorem Con.Resped.of_waiting {before after : Con} (same : after = { before with speed := after.speed, state := after.state })
    (waited : before.Waiting) (waits : after.Waiting) : before.Resped after := by
  refine ⟨same, fun {state} busy => iff_of_false ?_ ?_⟩
  · rintro rfl
    exact waits.elim busy.1 busy.2
  · rintro rfl
    exact waited.elim busy.1 busy.2

theorem Con.Resped.waiting {before after : Con} (resped : before.Resped after) (waits : after.Waiting) : before.Waiting := by
  by_contra idle
  have same : after.state = before.state := (resped.settled (not_or.mp idle)).mpr rfl
  unfold Con.Waiting at waits
  rw [same] at waits
  exact idle waits

def Table.Resped (t next : Table) : Prop := ∃ cons, next = { t with cons } ∧ t.cons.Related Con.Resped cons

theorem Table.Resped.trans {a b c : Table} (first : a.Resped b) (second : b.Resped c) : a.Resped c := by
  obtain ⟨cons, rfl, related⟩ := first
  obtain ⟨cons', rfl, related'⟩ := second
  exact ⟨cons', rfl, related.trans Con.Resped.trans related'⟩

namespace Table

theorem lookup_setNicStates (t : Table) (con : Con) (state : NicState) (j : Nat) :
    (t.setNicStates con state).nics.lookup j =
      if con.clientNic = j ∨ con.serverNic = j then (t.nics.lookup j).map ({ · with state }) else t.nics.lookup j := by
  unfold setNicStates modifyNic
  rw [Slots.lookup_modify, Slots.lookup_modify]
  by_cases client : con.clientNic = j <;> by_cases server : con.serverNic = j <;> simp [client, server]
  cases t.nics.lookup j <;> rfl

theorem nicIndex_setNicStates (t : Table) (con : Con) (state : NicState) (j : Nat) :
    ((t.setNicStates con state).nic j).nicIndex = (t.nic j).nicIndex := by
  unfold nic
  rw [lookup_setNicStates]
  split
  · cases t.nics.lookup j <;> rfl
  · rfl

end Table

variable {t : Table} {id : Nat}

theorem resped_modifyCon {f : Con → Con}
    (changes : ∀ con, t.cons.lookup id = some con → con.Resped (f con)) : t.Resped (t.modifyCon id f) :=
  ⟨_, rfl, .modify Con.Resped.refl changes⟩

theorem resped_fasterThanActive (activeSpeed : Nat) (ids : List Nat) (t : Table) :
    t.Resped (fasterThanActive activeSpeed ids t).1 := by
  induction ids generalizing t with
  | nil => exact ⟨t.cons, rfl, .refl Con.Resped.refl _⟩
  | cons first rest ih =>
    unfold fasterThanActive
    have quicker (speed : Nat) : t.Resped (t.modifyCon first ({ · with speed })) :=
      resped_modifyCon fun _ _ => ⟨rfl, fun _ => Iff.rfl⟩
    split
    · exact ih t
    · rename_i con found
      dsimp only
      split_ifs with half wireless faster
      · exact (quicker _).trans (ih _)
      · refine (quicker _).trans (resped_modifyCon fun con' found' => .of_waiting rfl ?_ (.inl rfl))
        unfold modifyCon at found'
        rw [Slots.lookup_modify, found, if_pos rfl, Option.map_some, Option.some.injEq] at found'
        rw [← found']
        exact half.1.symm
      · exact (quicker _).trans (ih _)
      · exact ih t

def Table.sped (t : Table) : Table :=
  t.mapCons fun con => if t.idlePotential con then { con with speed := t.conSpeed con } else con

theorem lookup_sped (t : Table) (id : Nat) : t.sped.cons.lookup id =
    (t.cons.lookup id).map fun con => if t.idlePotential con then { con with speed := t.conSpeed con } else con :=
  Slots.lookup_mapAll _ _ _

theorem resped_sped (t : Table) : t.Resped t.sped := by
  refine ⟨_, rfl, .of_lookup (lookup_sped t) fun _ con _ => ?_⟩
  split <;> exact ⟨rfl, fun _ => Iff.rfl⟩

theorem countConnectionStats_cases (t : Table) :
    (t.smb2McCountConnectionStats = (t.sped, t.sped.cons.inUse.foldl t.sped.tally {})) ∨
      0 < t.smb2McCountConnectionStats.2.activeCnt ∧ ∃ speed,
        t.smb2McCountConnectionStats.1 = (fasterThanActive speed t.sped.cons.inUse t.sped).1 := by
  unfold smb2McCountConnectionStats
  dsimp only
  generalize mapped : (t.mapCons fun con => if t.idlePotential con then { con with speed := t.conSpeed con } else con) =
    counted
  change t.sped = counted at mapped
  rw [mapped]
  generalize counted.cons.inUse.foldl counted.tally {} = stats
  generalize (if counted.preferWired then stats.potentialWiredConWithMaxSpeed else stats.potentialConWithMaxSpeed) = best
  split
  · rename_i actives
    refine .inr ?_
    split
    · rename_i searched
      exact ⟨actives.1, stats.maxActiveSpeed, by rw [searched]⟩
    · rename_i searched
      exact ⟨actives.1, stats.maxActiveSpeed, by rw [searched]⟩
  · exact .inl rfl

theorem resped_countConnectionStats (t : Table) : t.Resped t.smb2McCountConnectionStats.1 := by
  rcases countConnectionStats_cases t with counted | ⟨_, speed, searched⟩
  · rw [counted]
    exact resped_sped t
  · rw [searched]
    exact (resped_sped t).trans (resped_fasterThanActive speed _ _)

section
variable {rules : Rules} (lenient : rules.Lenient) {t : Table}
include lenient

theorem moves_modifyCon (id : Nat) {f : Con → Con} (nics : ∀ con : Con, con.SameNics (f con))
    (state : ∀ con, (f con).state = con.state) : Moves rules t (t.modifyCon id f) :=
  .single (.con fun con _ => lenient.con ⟨nics con, .inl (state con)⟩)

theorem moves_fasterThanActive (activeSpeed : Nat) (ids : List Nat) :
    Moves rules t (fasterThanActive activeSpeed ids t).1 := by
  induction ids generalizing t with
  | nil => exact .refl
  | cons first rest ih =>
    unfold fasterThanActive
    have quicker (speed : Nat) : Moves rules t (t.modifyCon first ({ · with speed })) :=
      moves_modifyCon lenient first (fun _ => ⟨rfl, rfl⟩) fun _ => rfl
    split
    · exact ih
    · rename_i con found
      dsimp only
      split_ifs with half wireless faster
      · exact (quicker _).trans ih
      · refine (quicker _).tail (.con fun con' found' => lenient.con ⟨⟨rfl, rfl⟩, .inr ⟨?_, .inl rfl⟩⟩)
        unfold modifyCon at found'
        rw [Slots.lookup_modify, found, if_pos rfl, Option.map_some, Option.some.injEq] at found'
        rw [← found']
        exact half.1.symm
      · exact (quicker _).trans ih
      · exact ih

theorem moves_countConnectionStats : Moves rules t t.smb2McCountConnectionStats.1 := by
  have sped : Moves rules t t.sped := by
    refine .single (.cons fun _ con _ => lenient.con ⟨?_, ?_⟩)
    · split <;> exact ⟨rfl, rfl⟩
    · split <;> exact .inl rfl
  rcases countConnectionStats_cases t with counted | ⟨_, speed, searched⟩
  · rw [counted]
    exact sped
  · rw [searched]
    exact sped.trans (moves_fasterThanActive lenient speed _)

end

def Table.Eligible (t : Table) (id : Nat) : Prop :=
  ∃ con, t.cons.lookup id = some con ∧ con.state = .potential ∧ ∀ side, (t.nic (con.nic side)).state ≠ .onTrial

theorem eligible_modifyCon {j : Nat} {f : Con → Con} (eligible : t.Eligible id)
    (nics : ∀ con : Con, con.SameNics (f con)) (keeps : ∀ con, con.state = .potential → (f con).state = .potential) :
    (t.modifyCon j f).Eligible id := by
  obtain ⟨con, found, state, free⟩ := eligible
  unfold Eligible modifyCon
  rw [Slots.lookup_modify, found]
  split
  · refine ⟨f con, rfl, keeps con state, fun side => ?_⟩
    rw [(nics con).nic side]
    exact free side
  · exact ⟨con, rfl, state, free⟩

theorem free_of_halfUsed {con : Con} (half : t.halfUsed con = true) (side : Side) :
    (t.nic (con.nic side)).state ≠ .onTrial := by
  simp only [halfUsed, Bool.or_eq_true, Bool.and_eq_true, beq_iff_eq] at half
  cases side <;> rcases half with ⟨client, server⟩ | ⟨client, server⟩ <;> simp [Con.nic, client, server]

theorem eligible_fasterThanActive (activeSpeed : Nat) (ids : List Nat) :
    (∀ id, t.Eligible id → (fasterThanActive activeSpeed ids t).1.Eligible id) ∧
      ∀ id speed, (fasterThanActive activeSpeed ids t).2 = some (id, speed) →
        (fasterThanActive activeSpeed ids t).1.Eligible id := by
  induction ids generalizing t with
  | nil =>
    refine ⟨fun _ eligible => eligible, fun _ _ found => ?_⟩
    cases found
  | cons first rest ih =>
    unfold fasterThanActive
    have quicker (speed id : Nat) (eligible : t.Eligible id) : (t.modifyCon first ({ · with speed })).Eligible id :=
      eligible_modifyCon eligible (fun _ => ⟨rfl, rfl⟩) fun _ state => state
    split
    · exact ih
    · rename_i con found
      dsimp only
      split_ifs with half wireless faster
      · exact ⟨fun id eligible => ih.1 id (quicker _ id eligible), ih.2⟩
      · refine ⟨fun id eligible => ?_, fun id speed same => ?_⟩
        · exact eligible_modifyCon (quicker _ id eligible) (fun _ => ⟨rfl, rfl⟩) fun _ _ => rfl
        · cases same
          refine ⟨{ con with speed := t.conSpeed con, state := .potential }, ?_, rfl, free_of_halfUsed half.2⟩
          unfold modifyCon
          rw [Slots.lookup_modify, if_pos rfl, Slots.lookup_modify, if_pos rfl, found]
          rfl
      · exact ⟨fun id eligible => ih.1 id (quicker _ id eligible), ih.2⟩
      · exact ih

structure Table.Proposing (t : Table) (stats : Stats) : Prop where
  potential : ∀ id, stats.potentialConWithMaxSpeed = some id → t.Eligible id
  wired : ∀ id, stats.potentialWiredConWithMaxSpeed = some id → t.Eligible id

theorem proposing_tally {stats : Stats} (proposing : t.Proposing stats) (id : Nat) :
    t.Proposing (t.tally stats id) := by
  unfold tally
  split
  · exact proposing
  · rename_i con found
    dsimp only
    split
    · split
      · exact ⟨proposing.1, proposing.2⟩
      · split <;> exact ⟨proposing.1, proposing.2⟩
      · exact proposing
    · split
      · rename_i idle
        have self (j : Nat) (same : some id = some j) : t.Eligible j := by
          simp only [idlePotential, Bool.and_eq_true, beq_iff_eq] at idle
          refine ⟨con, Option.some.inj same ▸ found, idle.1.1, fun side => ?_⟩
          cases side
          · simp [Con.nic, idle.1.2]
          · simp [Con.nic, idle.2]
        split_ifs
        · exact ⟨self, self⟩
        · exact ⟨self, proposing.2⟩
        · exact ⟨proposing.1, self⟩
        · exact proposing
      · exact proposing

theorem proposing_countConnectionStats (t : Table) :
    t.smb2McCountConnectionStats.1.Proposing t.smb2McCountConnectionStats.2 := by
  unfold smb2McCountConnectionStats
  dsimp only
  generalize (t.mapCons fun con => if t.idlePotential con then { con with speed := t.conSpeed con } else con) = counted
  have proposing : counted.Proposing (counted.cons.inUse.foldl counted.tally {}) := by
    refine List.foldlRecOn (motive := counted.Proposing) _ _ ?_ fun stats proposing id _ => proposing_tally proposing id
    constructor <;> intro id nothing <;> cases nothing
  generalize counted.cons.inUse.foldl counted.tally {} = stats at proposing
  generalize (if counted.preferWired then stats.potentialWiredConWithMaxSpeed else stats.potentialConWithMaxSpeed) = best
  split
  · have searched := eligible_fasterThanActive stats.maxActiveSpeed counted.cons.inUse (t := counted)
    split
    · rename_i unfound
      rw [unfound] at searched
      exact ⟨fun id best => searched.1 id (proposing.1 id best), fun id best => searched.1 id (proposing.2 id best)⟩
    · rename_i last id speed found
      rw [found] at searched
      have self (j : Nat) (same : some id = some j) : last.Eligible j :=
        Option.some.inj same ▸ searched.2 id speed rfl
      exact ⟨self, self⟩
  · exact proposing

theorem eligible_candidate {stats : Stats} (proposing : t.Proposing stats)
    (best : (t.candidate stats).1 = some id) : t.Eligible id := by
  unfold candidate at best
  split at best
  · split at best
    · exact proposing.wired id best
    · split at best
      · exact proposing.potential id best
      · cases best
  · exact proposing.potential id best

/-! ## Trials -/

theorem trialLoop_invariant (inv : Nat → Table → Prop) (counts : ∀ n t, inv n t → inv n t.smb2McCountConnectionStats.1)
    (revives : ∀ n t id, inv n t → inv n (t.modifyCon id ({ · with activeState := .active })))
    (starts : ∀ n t id activeState, inv (n + 1) t → t.Eligible id → inv n (t.startTrial id activeState))
    (fuel n : Nat) (inactiveAdded : Bool) (start : inv n t) :
    ∃ left, inv left (trialLoop fuel n inactiveAdded t).1 := by
  induction fuel generalizing n inactiveAdded t with
  | zero => exact ⟨n, start⟩
  | succ fuel ih =>
    cases n with
    | zero => exact ⟨0, start⟩
    | succ n =>
      have counted := counts (n + 1) t start
      have proposing := proposing_countConnectionStats t
      unfold trialLoop
      dsimp only
      generalize t.smb2McCountConnectionStats = result at counted proposing
      split
      · exact ih _ _ (revives _ _ _ counted)
      · split
        · exact ⟨n + 1, counted⟩
        · split
          · rename_i id activeState best _
            exact ih _ _ (starts _ _ _ _ counted (eligible_candidate proposing best))
          · exact ⟨n + 1, counted⟩

theorem ask_invariant (inv : Table → Prop) (counts : ∀ t, inv t → inv t.smb2McCountConnectionStats.1)
    (revives : ∀ t id, inv t → inv (t.modifyCon id ({ · with activeState := .active })))
    (starts : ∀ t id activeState, inv t → t.Eligible id → inv (t.startTrial id activeState))
    (maxOutLen : Nat) (start : inv t) : inv (t.smb2McAskForNewConnectionTrial maxOutLen).1 := by
  unfold smb2McAskForNewConnectionTrial
  split
  · exact start
  · obtain ⟨_, holds⟩ := trialLoop_invariant (fun _ => inv) (fun _ => counts) (fun _ => revives) (fun _ => starts)
      (maxOutLen + 1) maxOutLen false start
    exact holds

section
variable {rules : Rules} {t : Table}

variable {id : Nat}

theorem moves_startTrial (tries : ∀ con, t.cons.lookup id = some con → con.state = .potential →
      ∀ activeState speed, rules.con (t.setNicStates con .onTrial) con { con with state := .inTrial, activeState, speed })
    (marks : ∀ nic : Nic, rules.nic nic { nic with state := .onTrial }) (counter : rules.counter)
    (eligible : t.Eligible id) (activeState : ActiveState) : Moves rules t (t.startTrial id activeState) := by
  obtain ⟨con, found, state, -⟩ := eligible
  unfold startTrial
  rw [found]
  have marked : Moves rules t (t.setNicStates con .onTrial) := Moves.setNicStates con marks
  have started : Move rules (t.setNicStates con .onTrial) ((t.setNicStates con .onTrial).modifyCon id fun con =>
      { con with state := .inTrial, activeState, speed := t.conSpeed con }) := by
    refine .con fun con' found' => ?_
    have same : con = con' := Option.some.inj (found.symm.trans found')
    exact same ▸ tries con found state _ _
  exact (marked.tail started).tail (.counter counter _)

theorem moves_refreshNicStates (uses : ∀ nic : Nic, rules.nic nic { nic with state := .used })
    (tries : ∀ nic : Nic, rules.nic nic { nic with state := .onTrial }) : Moves rules t t.refreshNicStates := by
  apply Moves.foldl
  intro s _ id _
  split
  · exact .refl
  · split
    · exact Moves.setNicStates _ uses
    · exact Moves.setNicStates _ tries
    · exact .refl

variable (lenient : rules.Lenient)
include lenient

theorem moves_askForNewConnectionTrial
    (tries : ∀ s, Moves rules t s → ∀ id con, s.cons.lookup id = some con → con.state = .potential →
      ∀ activeState speed, rules.con (s.setNicStates con .onTrial) con { con with state := .inTrial, activeState, speed })
    (marks : ∀ nic : Nic, rules.nic nic { nic with state := .onTrial }) (counter : rules.counter) (maxOutLen : Nat) :
    Moves rules t (t.smb2McAskForNewConnectionTrial maxOutLen).1 := by
  refine ask_invariant (Moves rules t) ?_ ?_ ?_ maxOutLen .refl
  · intro s reached
    exact reached.trans (moves_countConnectionStats lenient)
  · intro s id reached
    exact reached.trans (moves_modifyCon lenient id (fun _ => ⟨rfl, rfl⟩) fun _ => rfl)
  · intro s id activeState reached eligible
    exact reached.trans (moves_startTrial (tries s reached id) marks counter eligible activeState)

theorem moves_setAside {con : Con} (found : t.cons.lookup id = some con) (potential : con.state = .potential) :
    Moves rules t (t.modifyCon id ({ · with state := .surplus })) := by
  refine .single (.con fun con' found' => lenient.con ⟨⟨rfl, rfl⟩, .inr ⟨.inl ?_, .inr rfl⟩⟩)
  rw [found, Option.some.injEq] at found'
  exact found' ▸ potential

theorem moves_connectPossible (uses : ∀ nic : Nic, rules.nic nic { nic with state := .used }) (listing : rules.listing)
    {serverIdx : Nat} (iod : Option Nat)
    (connects : ∀ con, t.cons.lookup id = some con → (t.nic con.serverNic).nicIndex = serverIdx → ∀ iod speed,
      rules.con (t.setNicStates con .used) con { con with iod, state := .connected, speed }) :
    Moves rules t (connectPossible serverIdx iod t id) := by
  unfold connectPossible
  split
  · exact .refl
  · rename_i con found
    split
    · rename_i same
      have marked : Moves rules t (t.setNicStates con .used) := Moves.setNicStates con uses
      have connected : Move rules (t.setNicStates con .used) ((t.setNicStates con .used).modifyCon id fun con =>
          { con with iod := iod.or con.iod, state := .connected, speed := t.conSpeed con }) := by
        refine .con fun con' found' => ?_
        have same' : con = con' := Option.some.inj (found.symm.trans found')
        exact same' ▸ connects con found same _ _
      exact (marked.tail connected).tail (.listing listing _)
    · split
      · rename_i potential
        exact moves_setAside lenient found potential
      · exact .refl

theorem moves_updateNewConnection {next : Table} (uses : ∀ nic : Nic, rules.nic nic { nic with state := .used })
    (listing : rules.listing) {clientIdx serverIdx : Nat} {iod : Option Nat}
    (connects : ∀ s, Moves rules t s → ∀ client ∈ t.smb2McGetNicByIndex .client clientIdx,
      ∀ id ∈ (t.nic client).possibleConnections, ∀ con, s.cons.lookup id = some con →
        (s.nic con.serverNic).nicIndex = serverIdx → ∀ iod speed,
          rules.con (s.setNicStates con .used) con { con with iod, state := .connected, speed })
    (taken : t.smb2McUpdateNewConnection clientIdx serverIdx iod = some next) : Moves rules t next := by
  unfold smb2McUpdateNewConnection at taken
  split at taken
  · rename_i client _ byIndex _
    cases taken
    have connected : Moves rules t
        ((t.nic client).possibleConnections.foldl (connectPossible serverIdx iod) t) := by
      apply Moves.foldl
      intro s reached id member
      exact moves_connectPossible lenient uses listing iod (connects s reached client byIndex id member)
    refine connected.tail (.cons fun _ con _ => lenient.con ⟨?_, ?_⟩)
    · split <;> exact ⟨rfl, rfl⟩
    · split
      · rename_i potential
        exact .inr ⟨.inl potential.2, .inr rfl⟩
      · exact .inl rfl
  · cases taken

theorem moves_failTrial (idles : ∀ nic : Nic, rules.nic nic { nic with state := .idle })
    (fails : ∀ {s : Table} (con : Con), rules.con s con { con with state := .failedToConnect }) (id : Nat) (entry : Con) :
    Moves rules t (t.failTrial id entry) := by
  have idle : Moves rules t ((t.setNicStates entry .idle).modifyCon id ({ · with iod := none })) :=
    (Moves.setNicStates entry idles).trans (moves_modifyCon lenient id (fun _ => ⟨rfl, rfl⟩) fun _ => rfl)
  unfold failTrial
  dsimp only
  refine idle.tail (.cons fun _ con _ => ?_)
  have hopes (con : Con) (surplus : con.state = .surplus) {s : Table} : rules.con s con { con with state := .potential } :=
    lenient.con ⟨⟨rfl, rfl⟩, .inr ⟨.inr surplus, .inl rfl⟩⟩
  have same (con : Con) {s : Table} : rules.con s con con := lenient.con ⟨⟨rfl, rfl⟩, .inl rfl⟩
  split_ifs with _ _ surplus surplus
  · exact fails con
  · exact hopes con surplus
  · exact same con
  · exact hopes con surplus.2
  · exact same con

theorem moves_markDisconnected (listing : rules.listing) {entry : Con} (found : t.cons.lookup id = some entry)
    (ends : ¬entry.Hopeless → rules.con t entry { entry with state := .potential, iod := none }) :
    Moves rules t (t.markDisconnected id entry) := by
  have ended (hopeful : ¬entry.Hopeless) : Moves rules t (t.modifyCon id ({ · with state := .potential, iod := none })) := by
    refine .single (.con fun con found' => ?_)
    have same : entry = con := Option.some.inj (found.symm.trans found')
    exact same ▸ ends hopeful
  unfold markDisconnected
  split_ifs with established hopeful
  · refine (ended ?_).tail (.listing listing (t.successfulConList.erase id))
    rintro (state | state) <;> simp [Con.Established, state] at established
  · refine ended ?_
    rintro (state | state) <;> simp [state] at hopeful
  · exact moves_modifyCon lenient id (fun _ => ⟨rfl, rfl⟩) fun _ => rfl

/-! ## Excess connections -/

theorem moves_sortCon (maxSpeed : Nat) (wiredOnly : Bool) (s : Sorting) (id : Nat) :
    Moves rules s.table (sortCon maxSpeed wiredOnly s id).table := by
  unfold sortCon
  split
  · exact .refl
  · have sorted (activeState : ActiveState) : Moves rules s.table (s.table.modifyCon id ({ · with activeState })) :=
      moves_modifyCon lenient id (fun _ => ⟨rfl, rfl⟩) fun _ => rfl
    dsimp only
    split_ifs <;> exact sorted _

theorem moves_markRedundant (keep : Option Nat) (ids : List Nat) (inactives : Nat) :
    Moves rules t (markRedundant keep ids inactives t) := by
  induction ids generalizing inactives t with
  | nil => exact .refl
  | cons id rest ih =>
    have marked : Moves rules t (t.modifyCon id ({ · with activeState := .inactiveRedundant })) :=
      moves_modifyCon lenient id (fun _ => ⟨rfl, rfl⟩) fun _ => rfl
    unfold markRedundant
    dsimp only
    split_ifs
    · exact marked
    · exact marked.trans (ih _)
    · exact ih _

def quietly : Rules := ⟨fun _ => Con.Quiet, Nic.Kept, fun _ _ => False, fun _ _ _ => False, False, False⟩

omit lenient in
theorem quietly_lenient : quietly.Lenient := ⟨Con.Quiet.nics, id, id⟩

omit lenient in
theorem returnExcessConnections_eq (t : Table) (maxOutLen : Int) : ∃ sorted inactiveCnt activeCnt,
    (∀ rules : Rules, rules.Lenient → Moves rules t sorted) ∧
      t.smb2McReturnExcessConnections maxOutLen =
        removeExcess inactiveCnt t.successfulConList activeCnt maxOutLen sorted := by
  have prepared : ∃ sorted inactiveCnt activeCnt, (∀ rules : Rules, rules.Lenient → Moves rules t sorted) ∧
      t.smb2McReturnExcessConnections maxOutLen =
        removeExcess inactiveCnt sorted.successfulConList activeCnt maxOutLen sorted := by
    refine ⟨_, _, _, fun rules lenient => ?_, rfl⟩
    refine Relation.ReflTransGen.trans ?_ (moves_countConnectionStats lenient)
    have sorted (maxSpeed : Nat) (wiredOnly : Bool) (ids : List Nat) :
        Moves rules t (ids.foldl (sortCon maxSpeed wiredOnly) { table := t }).table :=
      List.foldlRecOn (motive := fun s : Sorting => Moves rules t s.table) _ _ .refl
        fun s reached id _ => reached.trans (moves_sortCon lenient maxSpeed wiredOnly s id)
    have marked (s : Sorting) (reached : Moves rules t s.table) : Moves rules t
        (if s.inactives > 1 then
          markRedundant (s.fastestWiredInactive.or s.fastestInactive) s.table.successfulConList s.inactives s.table
        else s.table) := by
      split
      · exact reached.trans (moves_markRedundant lenient _ _ _)
      · exact reached
    exact marked _ (sorted _ _ _)
  obtain ⟨sorted, inactiveCnt, activeCnt, moves, same⟩ := prepared
  rw [(moves quietly quietly_lenient).successfulConList id] at same
  exact ⟨sorted, inactiveCnt, activeCnt, moves, same⟩

omit lenient in
theorem moves_removeExcess (inactiveCnt : Nat) (ids : List Nat) (activeCnt : Nat) (maxOutLen : Int)
    (retires : ∀ s, Moves rules t s → ∀ id ∈ ids, ∀ con, s.cons.lookup id = some con →
      rules.con s con { con with state := .inRemoval }) :
    Moves rules t (removeExcess inactiveCnt ids activeCnt maxOutLen t).1 := by
  induction ids generalizing activeCnt maxOutLen t with
  | nil => exact .refl
  | cons id rest ih =>
    have removed : Moves rules t (t.modifyCon id ({ · with state := .inRemoval })) :=
      .single (.con (retires t .refl id List.mem_cons_self))
    have later (activeCnt : Nat) (maxOutLen : Int) : Moves rules t (removeExcess inactiveCnt rest activeCnt maxOutLen t).1 :=
      ih _ _ fun s reached j member => retires s reached j (List.mem_cons_of_mem _ member)
    have after (activeCnt : Nat) (maxOutLen : Int) := removed.trans (ih activeCnt maxOutLen
      fun s reached j member => retires s (removed.trans reached) j (List.mem_cons_of_mem _ member))
    unfold removeExcess
    split
    · exact later _ _
    · dsimp only
      split_ifs
      · exact removed
      · exact after _ _
      · exact after _ _
      · exact later _ _

end

/-! ## Whole operations -/

structure Rules.Permissive (rules : Rules) : Prop extends rules.Lenient where
  marks : ∀ state (nic : Nic), rules.nic nic { nic with state }
  inserts : ∀ side nic, rules.insert side nic
  resets : ∀ t side id, rules.reset t side id
  connects : ∀ {t} (con : Con) iod speed, rules.con t con { con with iod, state := .connected, speed }
  fails : ∀ {t} (con : Con), rules.con t con { con with state := .failedToConnect }
  ends : ∀ {t} (con : Con), rules.con t con { con with state := .potential, iod := none }
  retires : ∀ {t} (con : Con), rules.con t con { con with state := .inRemoval }
  listing : rules.listing
  counter : rules.counter

def steady : Rules where
  con _ before after := before.SameNics after
  nic before after := after.nicIndex = before.nicIndex ∧ after.possibleConnections = before.possibleConnections
  insert _ _ := True
  reset _ _ _ := True
  listing := True
  counter := True

theorem steady_permissive : steady.Permissive where
  nics same := same
  con quiet := quiet.nics
  nic kept := ⟨kept.nicIndex, kept.possibleConnections⟩
  marks _ _ := ⟨rfl, rfl⟩
  inserts _ _ := trivial
  resets _ _ _ := trivial
  connects _ _ _ := ⟨rfl, rfl⟩
  fails _ := ⟨rfl, rfl⟩
  ends _ := ⟨rfl, rfl⟩
  retires _ := ⟨rfl, rfl⟩
  listing := trivial
  counter := trivial

theorem steady_lenient : steady.Lenient := steady_permissive.toLenient

section
variable {rules : Rules} (permissive : rules.Permissive) {t next : Table}
include permissive

theorem moves_reported {passed : Bool} {id : Nat} {result : Table × Bool} (taken : t.reported passed id = some result) :
    Moves rules t result.1 := by
  obtain ⟨entry, found, rfl⟩ := Option.map_eq_some_iff.mp taken
  dsimp only
  have counted : Moves rules t { t with activeOnTrialConnections := decrement32 t.activeOnTrialConnections } :=
    .single (.counter permissive.counter _)
  generalize { t with activeOnTrialConnections := decrement32 t.activeOnTrialConnections } = s at counted
  have refreshed {u : Table} (reached : Moves rules t u) : Moves rules t u.refreshNicStates :=
    reached.trans (moves_refreshNicStates (permissive.marks _) (permissive.marks _))
  split
  · split
    · exact refreshed counted
    · rename_i connected
      refine refreshed (counted.trans ?_)
      exact moves_updateNewConnection permissive.toLenient (permissive.marks _) permissive.listing
        (fun _ _ _ _ _ _ con _ _ _ _ => permissive.connects con _ _) connected
  · refine refreshed (counted.trans ?_)
    exact moves_failTrial permissive.toLenient (permissive.marks _) permissive.fails id entry

theorem moves_updateMainChannel {clientIp serverIp : SockAddr} {iod : Nat}
    (taken : t.smb2McUpdateMainChannel clientIp serverIp iod = some next) : Moves rules t next := by
  unfold smb2McUpdateMainChannel at taken
  split at taken
  · exact moves_updateNewConnection permissive.toLenient (permissive.marks _) permissive.listing
      (fun _ _ _ _ _ _ con _ _ _ _ => permissive.connects con _ _) taken
  · cases taken

theorem moves_disconnected {id : Nat} (taken : t.disconnected id = some next) : Moves rules t next := by
  obtain ⟨entry, found, rfl⟩ := Option.map_eq_some_iff.mp taken
  refine Relation.ReflTransGen.trans ?_ (moves_refreshNicStates (permissive.marks _) (permissive.marks _))
  refine Relation.ReflTransGen.trans ?_ (Moves.setNicStates entry (permissive.marks _))
  exact moves_markDisconnected permissive.toLenient permissive.listing found fun _ => permissive.ends entry

theorem moves_returnExcessConnections (maxOutLen : Int) :
    Moves rules t (t.smb2McReturnExcessConnections maxOutLen).1 := by
  obtain ⟨sorted, inactiveCnt, activeCnt, moves, same⟩ := returnExcessConnections_eq t maxOutLen
  rw [same]
  refine (moves rules permissive.toLenient).trans (moves_removeExcess _ _ _ _ fun _ _ _ _ con _ => ?_)
  exact permissive.retires con

end

section
variable {rules : Rules} {t next : Table} {event : Table.Event} (inv : Table → Prop)

/-- A step is a sequence of moves, one of the five operations that change the state of a connection, or a report that
fails and releases the list it has been entered in. -/
theorem step_invariant (lenient : rules.Lenient) (inserts : ∀ side nic, rules.insert side nic)
    (resets : ∀ s side id, rules.reset s side id) (linked : Linked t) (spares : t.Spares event)
    (keeps : ∀ {s u}, Linked s → inv s → Moves rules s u → inv u) (holds : inv t)
    (released : ∀ {s}, Linked s → inv s → s.cons.inUse = [] → inv s.releaseClientNics)
    (asks : ∀ maxOutLen, event = .askForNewConnectionTrial maxOutLen → inv (t.smb2McAskForNewConnectionTrial maxOutLen).1)
    (reports : ∀ passed id turns, event = .reportConnectionTrialResults passed id turns →
      ∀ result, t.reported passed id = some result → inv result.1)
    (connects : ∀ clientIp serverIp iod, event = .updateMainChannel clientIp serverIp iod →
      ∀ s, t.smb2McUpdateMainChannel clientIp serverIp iod = some s → inv s)
    (ends : ∀ id turns, event = .informConnectionDisconnected id turns → ∀ s, t.disconnected id = some s → inv s)
    (returns : ∀ maxOutLen, event = .returnExcessConnections maxOutLen → inv (t.smb2McReturnExcessConnections maxOutLen).1)
    (taken : t.step event = some next) : inv next := by
  have moved {s : Table} (moves : Moves rules t s) : inv s := keeps linked holds moves
  cases event with
  | parseClientInterfaceArray entries rssForceOn =>
    cases taken
    obtain ⟨s, moves, same, result⟩ :=
      parseClientInterfaces_eq lenient rssForceOn entries (t := t) fun _ _ nic _ => inserts _ nic
    rw [result]
    split
    · rename_i fails
      exact released (moves.linked lenient linked) (moved moves) (same ▸ spares fails)
    · exact moved moves
  | notifierEvent clientInfo clntRssChannels rssForceOn turns =>
    cases taken
    exact moved (moves_notifierEvent lenient linked _ _ _ (fun nic _ => inserts _ nic) (fun s => resets s _) turns)
  | queryInfoResponseEvent serverInfo turns =>
    cases taken
    exact moved (moves_queryInfoResponseEvent lenient linked _ (fun nic _ => inserts _ nic) (fun s => resets s _) turns)
  | resetNicList =>
    cases taken
    exact moved (moves_resetNicList fun s => resets s _)
  | askForNewConnectionTrial maxOutLen =>
    cases taken
    exact asks maxOutLen rfl
  | attach id iod =>
    cases taken
    exact moved (moves_modifyCon lenient id (fun _ => ⟨rfl, rfl⟩) fun _ => rfl)
  | reportConnectionTrialResults passed id turns =>
    obtain ⟨result, reported, rfl⟩ := Option.map_eq_some_iff.mp taken
    have after := reports passed id turns rfl result reported
    split
    · exact keeps ((moves_reported steady_permissive reported).linked steady_lenient linked) after
        (moves_updateConList lenient turns)
    · exact after
  | updateMainChannel clientIp serverIp iod =>
    cases taken
    cases updated : t.smb2McUpdateMainChannel clientIp serverIp iod with
    | none => exact holds
    | some next => exact connects clientIp serverIp iod rfl next updated
  | informConnectionDisconnected id turns =>
    obtain ⟨s, disconnected, rfl⟩ := Option.map_eq_some_iff.mp taken
    exact keeps ((moves_disconnected steady_permissive disconnected).linked steady_lenient linked)
      (ends id turns rfl s disconnected) (moves_updateConList lenient turns)
  | informConnectionActiveStateChange id active =>
    obtain ⟨entry, _, rfl⟩ := Option.map_eq_some_iff.mp taken
    exact moved (moves_modifyCon lenient id (fun _ => ⟨rfl, rfl⟩) fun _ => rfl)
  | returnExcessConnections maxOutLen =>
    cases taken
    exact returns maxOutLen rfl
  | pauseTrials =>
    cases taken
    exact moved (.single (.pause _))
  | resumeTrials =>
    cases taken
    exact moved (.single (.pause _))

/-- Where nothing that happens to a connection is forbidden, only the request for trials is left to look at. -/
theorem permissive_invariant (permissive : rules.Permissive) (linked : Linked t) (spares : t.Spares event)
    (keeps : ∀ {s u}, Linked s → inv s → Moves rules s u → inv u) (holds : inv t)
    (released : ∀ {s}, Linked s → inv s → s.cons.inUse = [] → inv s.releaseClientNics)
    (asks : ∀ maxOutLen, event = .askForNewConnectionTrial maxOutLen → inv (t.smb2McAskForNewConnectionTrial maxOutLen).1)
    (taken : t.step event = some next) : inv next := by
  refine step_invariant inv permissive.toLenient permissive.inserts permissive.resets linked spares keeps holds released
    asks ?_ ?_ ?_ ?_ taken
  · exact fun _ _ _ _ _ reported => keeps linked holds (moves_reported permissive reported)
  · exact fun _ _ _ _ _ updated => keeps linked holds (moves_updateMainChannel permissive updated)
  · exact fun _ _ _ _ disconnected => keeps linked holds (moves_disconnected permissive disconnected)
  · exact fun maxOutLen _ => keeps linked holds (moves_returnExcessConnections permissive maxOutLen)

theorem steady_step (linked : Linked t) (spares : t.Spares event)
    (keeps : ∀ {s u}, Linked s → inv s → Moves steady s u → inv u) (holds : inv t)
    (released : ∀ {s}, Linked s → inv s → s.cons.inUse = [] → inv s.releaseClientNics)
    (taken : t.step event = some next) : inv next :=
  permissive_invariant inv steady_permissive linked spares keeps holds released
    (fun maxOutLen _ => keeps linked holds (moves_askForNewConnectionTrial steady_lenient
      (fun _ _ _ _ _ _ _ _ => ⟨rfl, rfl⟩) (fun _ => ⟨rfl, rfl⟩) trivial maxOutLen)) taken

end

theorem lookup_foldl_free {ids : List Nat} (slots : Slots Nic) (j : Nat) :
    (ids.foldl Slots.free slots).lookup j = if j ∈ ids then none else slots.lookup j := by
  induction ids generalizing slots with
  | nil => simp
  | cons id rest ih =>
    rw [List.foldl_cons, ih, Slots.lookup_free]
    by_cases same : id = j
    · simp [same]
    · simp [same, Ne.symm same]

theorem Linked.releaseClientNics {t : Table} (linked : Linked t) (empty : t.cons.inUse = []) :
    Linked t.releaseClientNics := by
  have absent {id : Nat} {con : Con} (found : t.cons.lookup id = some con) : False := by
    have member : id ∈ t.cons.inUse := Slots.mem_inUse.mpr ⟨con, found⟩
    rw [empty] at member
    exact absurd member List.not_mem_nil
  refine ⟨?_, ?_, fun member => absurd member List.not_mem_nil, fun found => (absent found).elim,
    fun found => (absent found).elim⟩
  · intro side id member
    cases side with
    | client => exact absurd member List.not_mem_nil
    | server =>
      change ∃ nic, (t.clientNicList.foldl Slots.free t.nics).lookup id = some nic
      have listed : id ∈ t.nicList .server := member
      have other : id ∉ t.clientNicList := fun there => linked.apart there member
      rw [lookup_foldl_free, if_neg other]
      exact linked.live listed
  · intro side
    cases side with
    | client => exact List.nodup_nil
    | server => exact linked.nodup .server

theorem linked_init (maxChannels srvrRssChannels clntRssChannels : Nat) (ignorelist : List Nat) (preferWired : Bool) :
    Linked (smb2McInit maxChannels srvrRssChannels clntRssChannels ignorelist preferWired) where
  live {side id} member := by cases side <;> exact absurd member List.not_mem_nil
  nodup side := by cases side <;> exact List.nodup_nil
  apart member := absurd member List.not_mem_nil
  listed found := absurd (Slots.lookup_lt found) (Nat.not_lt_zero _)
  unique found := absurd (Slots.lookup_lt found) (Nat.not_lt_zero _)

theorem linked_step {t next : Table} {event : Table.Event} (linked : Linked t) (spares : t.Spares event)
    (taken : t.step event = some next) : Linked next :=
  steady_step Linked linked spares (fun linked _ moves => moves.linked steady_lenient linked) linked
    (fun linked _ empty => linked.releaseClientNics empty) taken

theorem spares_of_listed {t next : Table} {event : Table.Event} (taken : t.step event = some next)
    (listed : ∀ {id con}, next.cons.lookup id = some con → ∀ side, con.nic side ∈ next.nicList side) :
    t.Spares event := by
  cases event with
  | parseClientInterfaceArray entries rssForceOn =>
    cases taken
    intro fails
    obtain ⟨s, -, same, result⟩ :=
      parseClientInterfaces_eq steady_lenient rssForceOn entries (t := t) fun _ _ _ _ => trivial
    rw [if_pos fails] at result
    rw [result] at listed
    rw [List.eq_nil_iff_forall_not_mem]
    intro id member
    obtain ⟨con, found⟩ := Slots.mem_inUse.mp member
    exact absurd (listed (same.symm ▸ found) .client) List.not_mem_nil
  | _ => trivial

theorem spares_of_refused {t : Table} {event : Table.Event} (refused : t.step event = none) : t.Spares event := by
  cases event with
  | parseClientInterfaceArray entries rssForceOn => cases refused
  | _ => trivial

end SmbClient.Multichannel
