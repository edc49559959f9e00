import SmbClient.Multichannel.Steps

namespace SmbClient.Multichannel
open SmbClient.Lib Table

def Con.Busy (con : Con) : Prop := con.state = .connected ∨ con.state = .inTrial

instance (con : Con) : Decidable con.Busy := inferInstanceAs (Decidable (_ ∨ _))

def Table.Occupied (t : Table) : Prop :=
  ∀ id con, t.cons.lookup id = some con → con.Busy → ∀ side, (t.nic (con.nic side)).state ≠ .idle

def occupying : Rules where
  con t before after :=
    before.SameNics after ∧ (after.Busy → before.Busy ∨ ∀ side, (t.nic (before.nic side)).state ≠ .idle)
  nic before after := before.state ≠ .idle → after.state ≠ .idle
  insert _ _ := True
  reset _ _ _ := True
  listing := True
  counter := True

theorem Con.Quiet.busy {before after : Con} (quiet : before.Quiet after) (busy : after.Busy) : before.Busy := by
  rcases quiet.state with same | ⟨_, waits⟩
  · unfold Con.Busy at busy ⊢
    rwa [same] at busy
  · unfold Con.Busy at busy
    rcases waits with waits | waits <;> simp [waits] at busy

theorem occupying_lenient : occupying.Lenient :=
  ⟨And.left, fun quiet => ⟨quiet.nics, fun busy => .inl (quiet.busy busy)⟩, fun kept => by
    unfold occupying
    dsimp only
    rw [kept.state]
    exact id⟩

/-! ## States of interfaces -/

namespace Table

variable {t : Table}

theorem lookup_of_not_idle {j : Nat} (busy : (t.nic j).state ≠ .idle) :
    ∃ nic, t.nics.lookup j = some nic := by
  unfold nic at busy
  cases found : t.nics.lookup j with
  | none => simp [found] at busy
  | some nic => exact ⟨nic, rfl⟩

theorem setNicStates_not_idle {con : Con} {state : NicState} (taken : state ≠ .idle) {j : Nat}
    (busy : (t.nic j).state ≠ .idle) : ((t.setNicStates con state).nic j).state ≠ .idle := by
  obtain ⟨nic, found⟩ := lookup_of_not_idle busy
  unfold Table.nic at busy ⊢
  rw [lookup_setNicStates, found]
  split
  · exact taken
  · rwa [found] at busy

theorem state_setNicStates {con : Con} {state : NicState}
    (live : ∀ side, ∃ nic, t.nics.lookup (con.nic side) = some nic) (side : Side) :
    ((t.setNicStates con state).nic (con.nic side)).state = state := by
  obtain ⟨nic, found⟩ := live side
  have mine : con.clientNic = con.nic side ∨ con.serverNic = con.nic side := by
    cases side
    · exact .inl rfl
    · exact .inr rfl
  rw [Table.nic, lookup_setNicStates, if_pos mine, found]
  rfl

end Table

/-! ## One move -/

variable {t next : Table} {id : Nat}

theorem not_idle_move (move : Move occupying t next) (linked : Linked t) {con : Con}
    (found : t.cons.lookup id = some con) {side : Side} (busy : (t.nic (con.nic side)).state ≠ .idle) :
    (next.nic (con.nic side)).state ≠ .idle := by
  unfold nic at busy ⊢
  have change := move.nic_cases (con.nic side)
  generalize t.nics.lookup (con.nic side) = old at busy change
  generalize next.nics.lookup (con.nic side) = new at change
  cases change with
  | same => exact busy
  | changed allowed => exact allowed busy
  | joined => exact busy
  | entered => exact absurd rfl busy
  | @released _ a listed unused =>
    have here : a = side := linked.side_eq listed (linked.listed found side)
    exact absurd rfl (here ▸ unused id con found)

theorem occupied_move (move : Move occupying t next) (linked : Linked t) (occupied : t.Occupied) :
    next.Occupied := by
  intro id con found busy side
  have change := move.con_cases occupying_lenient id
  rw [found] at change
  generalize was : t.cons.lookup id = old at change
  cases change with
  | same => exact not_idle_move move linked was (occupied id con was busy side)
  | changed allowed =>
    rw [allowed.1.nic side]
    refine not_idle_move move linked was ?_
    rcases allowed.2 busy with before | free
    · exact occupied id _ was before side
    · exact free side
  | reset _ _ potential _ _ => simp [Con.Busy, potential] at busy
  | joined _ state _ => rcases state with (state | state) | state <;> simp [Con.Busy, state] at busy

theorem Moves.occupied (moves : Moves occupying t next) (linked : Linked t) (occupied : t.Occupied) :
    next.Occupied := by
  have both : Linked next ∧ next.Occupied := moves.invariant (fun s => Linked s ∧ s.Occupied)
    (fun _ _ move both => ⟨linked_move occupying_lenient.nics move both.1, occupied_move move both.1 both.2⟩)
    ⟨linked, occupied⟩
  exact both.2

/-! ## The repair -/

/-- What `refreshNicStates` does for one entry. -/
def Table.refreshNic (t : Table) (id : Nat) : Table :=
  match t.cons.lookup id with
  | none => t
  | some con =>
    match con.state with
    | .connected => t.setNicStates con .used
    | .inTrial => t.setNicStates con .onTrial
    | _ => t

theorem Table.refreshNic_cases (t : Table) (id : Nat) :
    t.refreshNic id = t ∨ ∃ con state, state ≠ .idle ∧ t.refreshNic id = t.setNicStates con state := by
  unfold refreshNic
  split
  · exact .inl rfl
  · split
    · exact .inr ⟨_, .used, by decide, rfl⟩
    · exact .inr ⟨_, .onTrial, by decide, rfl⟩
    · exact .inl rfl

theorem cons_refreshNic (t : Table) (id : Nat) : (t.refreshNic id).cons = t.cons := by
  rcases t.refreshNic_cases id with same | ⟨_, _, _, same⟩ <;> rw [same]
  rfl

theorem linked_refreshNic (linked : Linked t) (id : Nat) : Linked (t.refreshNic id) := by
  rcases t.refreshNic_cases id with same | ⟨_, _, _, same⟩ <;> rw [same]
  · exact linked
  · exact (linked.modifyNic _ _).modifyNic _ _

theorem refreshNic_not_idle {j : Nat} (busy : (t.nic j).state ≠ .idle) (id : Nat) :
    ((t.refreshNic id).nic j).state ≠ .idle := by
  rcases t.refreshNic_cases id with same | ⟨_, _, marks, same⟩ <;> rw [same]
  · exact busy
  · exact setNicStates_not_idle marks busy

theorem refreshNic_marks (linked : Linked t) {id : Nat} {con : Con} (found : t.cons.lookup id = some con)
    (busy : con.Busy) (side : Side) : ((t.refreshNic id).nic (con.nic side)).state ≠ .idle := by
  have live (side : Side) := linked.live (linked.listed found side)
  unfold refreshNic
  rw [found]
  rcases busy with state | state <;> simp only [state]
  all_goals
    rw [state_setNicStates live]
    decide

theorem refreshNics_marks (ids : List Nat) (linked : Linked t) : (ids.foldl refreshNic t).cons = t.cons ∧
    ∀ id ∈ ids, ∀ con, t.cons.lookup id = some con → con.Busy →
      ∀ side, ((ids.foldl refreshNic t).nic (con.nic side)).state ≠ .idle := by
  induction ids generalizing t with
  | nil => exact ⟨rfl, fun _ member => absurd member List.not_mem_nil⟩
  | cons first rest ih =>
    obtain ⟨same, later⟩ := ih (linked_refreshNic linked first)
    rw [List.foldl_cons]
    refine ⟨same.trans (cons_refreshNic t first), fun id member con found busy side => ?_⟩
    rcases List.mem_cons.mp member with rfl | member
    · exact List.foldlRecOn (motive := fun t : Table => (t.nic (con.nic side)).state ≠ .idle) rest refreshNic
        (refreshNic_marks linked found busy side) fun _ busy id _ => refreshNic_not_idle busy id
    · exact later id member con (by rw [cons_refreshNic]; exact found) busy side

theorem occupied_refreshNicStates (linked : Linked t) : t.refreshNicStates.Occupied := by
  intro id con found busy side
  obtain ⟨same, all⟩ := refreshNics_marks t.cons.inUse linked
  have found' : t.cons.lookup id = some con := by
    rw [← same]
    exact found
  exact all id (Slots.mem_inUse.mpr ⟨con, found'⟩) con found' busy side

/-! ## Whole operations -/

theorem occupied_reported (linked : Linked t) {passed : Bool} {result : Table × Bool}
    (taken : t.reported passed id = some result) : result.1.Occupied := by
  obtain ⟨entry, found, rfl⟩ := Option.map_eq_some_iff.mp taken
  dsimp only
  have counted : Linked { t with activeOnTrialConnections := decrement32 t.activeOnTrialConnections } :=
    ⟨linked.live, linked.nodup, linked.apart, linked.listed, linked.unique⟩
  generalize { t with activeOnTrialConnections := decrement32 t.activeOnTrialConnections } = s at counted
  split
  · split
    · exact occupied_refreshNicStates counted
    · rename_i connected
      apply occupied_refreshNicStates
      refine Moves.linked steady_lenient ?_ counted
      exact moves_updateNewConnection steady_lenient (fun _ => ⟨rfl, rfl⟩) trivial
        (fun _ _ _ _ _ _ _ _ _ _ _ => ⟨rfl, rfl⟩) connected
  · apply occupied_refreshNicStates
    refine Moves.linked steady_lenient ?_ counted
    exact moves_failTrial steady_lenient (fun _ => ⟨rfl, rfl⟩) (fun _ => ⟨rfl, rfl⟩) id entry

theorem occupied_disconnected (linked : Linked t) (taken : t.disconnected id = some next) : next.Occupied := by
  obtain ⟨entry, found, rfl⟩ := Option.map_eq_some_iff.mp taken
  apply occupied_refreshNicStates
  refine Moves.linked steady_lenient ?_ linked
  refine Relation.ReflTransGen.trans ?_ (Moves.setNicStates entry fun _ => ⟨rfl, rfl⟩)
  exact moves_markDisconnected steady_lenient trivial found fun _ => ⟨rfl, rfl⟩

theorem occupied_updateMainChannel (linked : Linked t) (occupied : t.Occupied)
    {clientIp serverIp : SockAddr} {iod : Nat}
    (taken : t.smb2McUpdateMainChannel clientIp serverIp iod = some next) : next.Occupied := by
  unfold smb2McUpdateMainChannel at taken
  split at taken
  · refine Moves.occupied ?_ linked occupied
    refine moves_updateNewConnection occupying_lenient (fun _ _ => by simp) trivial ?_ taken
    -- the interfaces of a new connection are marked with it
    intro s reached client _ id _ con found _ iod speed
    have linked : Linked s := reached.linked occupying_lenient linked
    refine ⟨⟨rfl, rfl⟩, fun _ => .inr fun side => ?_⟩
    rw [state_setNicStates fun side => linked.live (linked.listed found side)]
    decide
  · cases taken

theorem occupied_askForNewConnectionTrial (linked : Linked t) (occupied : t.Occupied) (maxOutLen : Nat) :
    (t.smb2McAskForNewConnectionTrial maxOutLen).1.Occupied := by
  refine Moves.occupied ?_ linked occupied
  refine moves_askForNewConnectionTrial occupying_lenient ?_ (fun _ _ => by simp) trivial maxOutLen
  intro s reached id con found _ activeState speed
  have linked : Linked s := reached.linked occupying_lenient linked
  refine ⟨⟨rfl, rfl⟩, fun _ => .inr fun side => ?_⟩
  rw [state_setNicStates fun side => linked.live (linked.listed found side)]
  decide

theorem occupied_step {event : Table.Event} (linked : Linked t) (spares : t.Spares event) (occupied : t.Occupied)
    (taken : t.step event = some next) : next.Occupied := by
  refine step_invariant Occupied occupying_lenient (fun _ _ => trivial) (fun _ _ _ => trivial) linked spares
    (fun linked occupied moves => moves.occupied linked occupied) occupied ?_ ?_ ?_ ?_ ?_ ?_ taken
  · intro s _ _ empty id con found
    have member : id ∈ s.cons.inUse := Slots.mem_inUse.mpr ⟨con, found⟩
    rw [empty] at member
    exact absurd member List.not_mem_nil
  · exact fun maxOutLen _ => occupied_askForNewConnectionTrial linked occupied maxOutLen
  · exact fun _ _ _ _ _ => occupied_reported linked
  · exact fun _ _ _ _ _ => occupied_updateMainChannel linked occupied
  · exact fun _ _ _ _ => occupied_disconnected linked
  · intro maxOutLen _
    obtain ⟨sorted, inactiveCnt, activeCnt, moves, same⟩ := returnExcessConnections_eq t maxOutLen
    rw [same]
    refine Moves.occupied ((moves occupying occupying_lenient).trans ?_) linked occupied
    refine moves_removeExcess _ _ _ _ fun _ _ _ _ _ _ => ?_
    exact ⟨⟨rfl, rfl⟩, fun busy => by simp [Con.Busy] at busy⟩

/-- In every run in which no report releases interfaces that have entries, a connection that is connected or in trial
refers to interfaces that are there and not idle. -/
theorem busy_nics_not_idle (maxChannels srvrRssChannels clntRssChannels : Nat) (ignorelist : List Nat)
    (preferWired : Bool) (events : List Table.Event) (last : Table) (spares : AllSteps Table.step Table.Spares
      (smb2McInit maxChannels srvrRssChannels clntRssChannels ignorelist preferWired) events)
    (reached : run Table.step (smb2McInit maxChannels srvrRssChannels clntRssChannels ignorelist preferWired) events =
      some last) (id : Nat) (con : Con) (found : last.cons.lookup id = some con)
    (busy : con.state = .connected ∨ con.state = .inTrial) (side : Side) :
    ∃ nic, last.nics.lookup (con.nic side) = some nic ∧ nic.state ≠ .idle := by
  let sound (t : Table) : Prop := Linked t ∧ t.Occupied
  have keeps (t : Table) (event : Table.Event) (next : Table) (both : sound t) (spares : t.Spares event)
      (taken : t.step event = some next) : sound next :=
    ⟨linked_step both.1 spares taken, occupied_step both.1 spares both.2 taken⟩
  have both : sound last := by
    refine run_invariant Table.step keeps ⟨linked_init _ _ _ _ _, ?_⟩ spares reached
    exact fun _ _ found => absurd (Slots.lookup_lt found) (Nat.not_lt_zero _)
  have marked := both.2 id con found busy side
  obtain ⟨nic, there⟩ := lookup_of_not_idle marked
  rw [nic_of_lookup there] at marked
  exact ⟨nic, there, marked⟩

/-! ## A client with two interfaces and a server with three, of which the first is slow -/

def address (n : UInt8) : SockAddr := ⟨.inet, [10, 0, 0, n]⟩

def slowMainChannel : List Table.Event :=
  [.parseClientInterfaceArray
      [({ nicIndex := 1, linkSpeed := 1000, addr := address 1 }, .whole),
        ({ nicIndex := 2, linkSpeed := 1000, addr := address 2 }, .whole)] false,
    .queryInfoResponseEvent
      [{ nicIndex := 1, linkSpeed := 100, addr := address 11 }, { nicIndex := 2, linkSpeed := 1000, addr := address 12 },
        { nicIndex := 3, linkSpeed := 1000, addr := address 13 }],
    .updateMainChannel (address 1) (address 11) 7]

def twoTrials : List Table.Event := slowMainChannel ++ [.askForNewConnectionTrial 2]

/-- The trial that shares an interface with the main channel fails. -/
theorem busy_nics_not_idle_mainChannel :
    ∃ last con, run Table.step (smb2McInit 0 0 0 [] false) (twoTrials ++ [.reportConnectionTrialResults false 4]) =
        some last ∧ last.cons.lookup 5 = some con ∧
      ∀ side, ∃ nic, last.nics.lookup (con.nic side) = some nic ∧ nic.state ≠ .idle := by
  have result : (run Table.step (smb2McInit 0 0 0 [] false)
      (twoTrials ++ [.reportConnectionTrialResults false 4])).map (fun last => (last.cons.lookup 5).map (·.state)) =
      some (some .connected) := by decide +kernel
  obtain ⟨last, reached, state⟩ := Option.map_eq_some_iff.mp result
  obtain ⟨con, found, connected⟩ := Option.map_eq_some_iff.mp state
  refine ⟨last, con, reached, found, busy_nics_not_idle 0 0 0 [] false _ last ?_ reached 5 con found (.inl connected)⟩
  decide +kernel

/-- The main channel stays connected while its client interface is released. -/
theorem busy_nic_released :
    ∃ last con, run Table.step (smb2McInit 0 0 0 [] false) (slowMainChannel ++
        [.parseClientInterfaceArray [({ nicIndex := 3, linkSpeed := 1000, addr := address 3 }, .nothing)] false]) =
        some last ∧ last.cons.lookup 5 = some con ∧ con.state = .connected ∧
      ¬∃ nic, last.nics.lookup (con.nic .client) = some nic ∧ nic.state ≠ .idle := by
  have result : (run Table.step (smb2McInit 0 0 0 [] false) (slowMainChannel ++
      [.parseClientInterfaceArray [({ nicIndex := 3, linkSpeed := 1000, addr := address 3 }, .nothing)] false])).map
        (fun last => (last.cons.lookup 5).map fun con => (con.state, last.nics.lookup (con.nic .client))) =
      some (some (.connected, none)) := by decide +kernel
  obtain ⟨last, reached, there⟩ := Option.map_eq_some_iff.mp result
  obtain ⟨con, found, both⟩ := Option.map_eq_some_iff.mp there
  obtain ⟨connected, gone⟩ := Prod.mk.inj both
  refine ⟨last, con, reached, found, connected, fun ⟨nic, lookup, _⟩ => ?_⟩
  cases gone.symm.trans lookup

end SmbClient.Multichannel
