import SmbClient.Multichannel.Indexed
import SmbClient.Multichannel.Trials

namespace SmbClient.Multichannel
open SmbClient.Lib Table

def Table.trials (t : Table) : List Nat :=
  t.cons.inUse.filter fun id => (t.cons.lookup id).any fun con => con.state == .inTrial

variable {t next s : Table} {id : Nat}

theorem mem_trials : id ∈ t.trials ↔ ∃ con, t.Trying id con := by
  unfold trials Trying
  rw [List.mem_filter, Slots.mem_inUse]
  constructor
  · rintro ⟨⟨con, found⟩, state⟩
    rw [found] at state
    exact ⟨con, found, by simpa using state⟩
  · rintro ⟨con, found, state⟩
    exact ⟨⟨con, found⟩, by simp [found, state]⟩

theorem nodup_trials (t : Table) : t.trials.Nodup := by
  unfold trials Slots.inUse
  exact (List.nodup_range.filter _).filter _

theorem length_trials_congr (same : ∀ id, id ∈ next.trials ↔ id ∈ t.trials) :
    next.trials.length = t.trials.length :=
  ((List.perm_ext_iff_of_nodup (nodup_trials next) (nodup_trials t)).mpr same).length_eq

theorem length_trials_insert (new : id ∉ t.trials)
    (mem : ∀ j, j ∈ next.trials ↔ j = id ∨ j ∈ t.trials) : next.trials.length = t.trials.length + 1 := by
  have perm : next.trials.Perm (id :: t.trials) := by
    rw [List.perm_ext_iff_of_nodup (nodup_trials next) (List.nodup_cons.mpr ⟨new, nodup_trials t⟩)]
    exact fun j => (mem j).trans List.mem_cons.symm
  exact perm.length_eq

/-- The counter says how many connections are in trial. -/
def Table.Counted (t : Table) : Prop := t.activeOnTrialConnections = t.trials.length

def counting : Rules where
  con _ before after := before.SameNics after ∧ (after.state = .inTrial ↔ before.state = .inTrial)
  nic _ _ := True
  insert _ _ := True
  reset _ _ _ := True
  listing := True
  counter := False

theorem counting_lenient : counting.Lenient :=
  ⟨And.left, fun quiet => ⟨quiet.nics, quiet.inTrial_iff⟩, fun _ => trivial⟩

theorem mem_trials_move (move : Move counting t next) (id : Nat) : id ∈ next.trials ↔ id ∈ t.trials := by
  have change := move.con_cases counting_lenient id
  rw [mem_trials, mem_trials]
  unfold Trying
  generalize t.cons.lookup id = old at change
  generalize next.cons.lookup id = new at change
  cases change with
  | same => rfl
  | changed allowed => simp [allowed.2]
  | reset _ hopeless potential _ _ => rcases hopeless with hopeless | hopeless <;> simp [hopeless, potential]
  | joined _ waits _ => rcases waits with (waits | waits) | waits <;> simp [waits]
  | parted hopeless => rcases hopeless with hopeless | hopeless <;> simp [hopeless]

theorem Moves.mem_trials (moves : Moves counting t next) (id : Nat) : id ∈ next.trials ↔ id ∈ t.trials :=
  moves.invariant (fun s => id ∈ s.trials ↔ id ∈ t.trials) (fun _ _ move same => (mem_trials_move move id).trans same) Iff.rfl

theorem Moves.counted (moves : Moves counting t next) (counted : t.Counted) : next.Counted := by
  unfold Counted
  rw [moves.activeOnTrialConnections id, length_trials_congr moves.mem_trials]
  exact counted

/-! ## Trials are started -/

theorem mem_trials_startTrial (eligible : t.Eligible id) (activeState : ActiveState) :
    id ∉ t.trials ∧ (∀ j, j ∈ (t.startTrial id activeState).trials ↔ j = id ∨ j ∈ t.trials) ∧
      (t.startTrial id activeState).activeOnTrialConnections = (t.activeOnTrialConnections + 1) % 2 ^ 32 := by
  obtain ⟨con, found, potential, -⟩ := eligible
  unfold startTrial
  rw [found]
  refine ⟨fun member => ?_, fun j => ?_, rfl⟩
  · obtain ⟨other, found', state⟩ := mem_trials.mp member
    rw [found, Option.some.injEq] at found'
    simp [← found', potential] at state
  · rw [mem_trials, mem_trials]
    unfold Trying
    change (∃ other, (t.cons.modify id _).lookup j = some other ∧ other.state = .inTrial) ↔ _
    rw [Slots.lookup_modify]
    split
    · rename_i same
      simp [← same, found]
    · rename_i other
      simp [Ne.symm other]

theorem counted_askForNewConnectionTrial {maxOutLen : Nat} (counted : t.Counted)
    (room : t.trials.length + maxOutLen < 2 ^ 32) : (t.smb2McAskForNewConnectionTrial maxOutLen).1.Counted := by
  unfold smb2McAskForNewConnectionTrial
  split
  · exact counted
  · let inv (n : Nat) (s : Table) : Prop := s.Counted ∧ s.trials.length + n < 2 ^ 32
    have moved (n : Nat) {s s' : Table} (holds : inv n s) (moves : Moves counting s s') : inv n s' :=
      ⟨moves.counted holds.1, by rw [length_trials_congr moves.mem_trials]; exact holds.2⟩
    have starts (n : Nat) (s : Table) (id : Nat) (activeState : ActiveState) (holds : inv (n + 1) s)
        (eligible : s.Eligible id) : inv n (s.startTrial id activeState) := by
      obtain ⟨new, mem, counter⟩ := mem_trials_startTrial eligible activeState
      have more := length_trials_insert new mem
      obtain ⟨counted, room⟩ := holds
      unfold Counted at counted
      refine ⟨?_, by omega⟩
      unfold Counted
      rw [counter, counted, more]
      exact Nat.mod_eq_of_lt (by omega)
    obtain ⟨_, result, -⟩ := trialLoop_invariant inv
      (fun n s holds => moved n holds (moves_countConnectionStats counting_lenient))
      (fun n s id holds => moved n holds (moves_modifyCon counting_lenient id (fun _ => ⟨rfl, rfl⟩) fun _ => rfl))
      starts (maxOutLen + 1) maxOutLen false ⟨counted, room⟩
    exact result

/-! ## Connections are made -/

def Table.Between (t : Table) (client server id : Nat) : Prop :=
  ∃ con, t.cons.lookup id = some con ∧ con.clientNic = client ∧ con.serverNic = server

/-- Interfaces and entries are those of `t`, whatever their states. -/
structure Matches (t s : Table) : Prop where
  index : ∀ id, (s.nic id).nicIndex = (t.nic id).nicIndex
  nics : ∀ {id con}, s.cons.lookup id = some con → ∃ old, t.cons.lookup id = some old ∧ old.SameNics con

theorem Matches.modifyCon (same : Matches t s) (id : Nat) {f : Con → Con} (nics : ∀ con : Con, con.SameNics (f con)) :
    Matches t (s.modifyCon id f) where
  index := same.index
  nics {j con} found := by
    change (s.cons.modify id f).lookup j = some con at found
    rw [Slots.lookup_modify] at found
    split at found
    · obtain ⟨old, lookup, rfl⟩ := Option.map_eq_some_iff.mp found
      obtain ⟨first, lookup, client, server⟩ := same.nics lookup
      exact ⟨first, lookup, (nics old).1.trans client, (nics old).2.trans server⟩
    · exact same.nics found

theorem matches_connectPossible (same : Matches t s) (serverIdx : Nat) (iod : Option Nat) (id : Nat) :
    Matches t (connectPossible serverIdx iod s id) := by
  unfold connectPossible
  split
  · exact same
  · rename_i con _
    split
    · have changed := same.modifyCon id (f := fun con =>
        { con with iod := iod.or con.iod, state := .connected, speed := s.conSpeed con }) fun _ => ⟨rfl, rfl⟩
      refine ⟨fun j => ?_, changed.nics⟩
      exact (nicIndex_setNicStates _ con .used j).trans (changed.index j)
    · split
      · exact same.modifyCon id fun _ => ⟨rfl, rfl⟩
      · exact same

theorem mem_trials_modifyCon {con : Con} (found : s.cons.lookup id = some con) {f : Con → Con}
    (ended : (f con).state ≠ .inTrial) (j : Nat) : j ∈ (s.modifyCon id f).trials ↔ j ∈ s.trials ∧ j ≠ id := by
  rw [mem_trials, mem_trials]
  unfold Trying
  change (∃ other, (s.cons.modify id f).lookup j = some other ∧ other.state = .inTrial) ↔ _
  rw [Slots.lookup_modify]
  split
  · rename_i same
    simp [← same, found, ended]
  · rename_i other
    simp [Ne.symm other]

section
variable {t : Table} (ordered : Ordered t) {client server : Nat} (inClient : client ∈ t.nicList .client)
  (inServer : server ∈ t.nicList .server)
include ordered inClient inServer

theorem mem_trials_connectPossible {s : Table} (same : Matches t s) (iod : Option Nat) {id : Nat}
    (possible : id ∈ (t.nic client).possibleConnections) (j : Nat) :
    j ∈ (connectPossible (t.nic server).nicIndex iod s id).trials ↔
      j ∈ s.trials ∧ ¬(j = id ∧ t.Between client server j) := by
  unfold connectPossible
  split
  · rename_i absent
    refine ⟨fun member => ⟨member, ?_⟩, And.left⟩
    rintro ⟨rfl, -⟩
    obtain ⟨con, found, -⟩ := mem_trials.mp member
    rw [absent] at found
    cases found
  · rename_i con found
    obtain ⟨old, lookup, nics⟩ := same.nics found
    have mine : old.clientNic = client := by
      obtain ⟨old', lookup', mine⟩ := (ordered.indexed.possible inClient id).mp possible
      rw [lookup, Option.some.injEq] at lookup'
      exact lookup' ▸ mine
    have between : (s.nic con.serverNic).nicIndex = (t.nic server).nicIndex ↔ t.Between client server id := by
      rw [same.index, nics.2]
      constructor
      · intro index
        exact ⟨old, lookup, mine, ordered.indexed.index (ordered.linked.listed lookup .server) inServer index⟩
      · rintro ⟨old', lookup', -, here⟩
        rw [lookup, Option.some.injEq] at lookup'
        rw [lookup', here]
    split
    · rename_i index
      have ended : j ∈ (s.modifyCon id fun con =>
          { con with iod := iod.or con.iod, state := .connected, speed := s.conSpeed con }).trials ↔
          j ∈ s.trials ∧ j ≠ id := mem_trials_modifyCon found (by simp) j
      refine ended.trans (and_congr_right fun _ => not_congr ⟨?_, And.left⟩)
      rintro rfl
      exact ⟨rfl, between.mp index⟩
    · rename_i index
      have kept : j ∈ s.trials ↔ j ∈ s.trials ∧ ¬(j = id ∧ t.Between client server j) := by
        refine (and_iff_left ?_).symm
        rintro ⟨rfl, here⟩
        exact index (between.mpr here)
      split
      · rename_i potential
        rw [← kept, mem_trials_modifyCon found (by simp)]
        refine and_iff_left_of_imp ?_
        rintro member rfl
        obtain ⟨con', found', state⟩ := mem_trials.mp member
        rw [found, Option.some.injEq] at found'
        simp [← found', potential] at state
      · exact kept

theorem mem_trials_connectAll (iod : Option Nat) (ids : List Nat)
    (possible : ∀ id ∈ ids, id ∈ (t.nic client).possibleConnections) {s : Table} (same : Matches t s) (j : Nat) :
    j ∈ (ids.foldl (connectPossible (t.nic server).nicIndex iod) s).trials ↔
      j ∈ s.trials ∧ ¬(j ∈ ids ∧ t.Between client server j) := by
  induction ids generalizing s with
  | nil => simp
  | cons id rest ih =>
    have first := mem_trials_connectPossible ordered inClient inServer same iod (possible id List.mem_cons_self) j
    rw [List.foldl_cons, ih (fun id member => possible id (List.mem_cons_of_mem _ member))
      (matches_connectPossible same _ iod id), first, List.mem_cons]
    tauto

theorem updateNewConnection_trials (iod : Option Nat) :
    ∃ next, t.smb2McUpdateNewConnection (t.nic client).nicIndex (t.nic server).nicIndex iod = some next ∧
      next.activeOnTrialConnections = t.activeOnTrialConnections ∧
      ∀ j, j ∈ next.trials ↔ j ∈ t.trials ∧ ¬t.Between client server j := by
  unfold smb2McUpdateNewConnection
  rw [getNicByIndex_nicIndex ordered.indexed inClient, getNicByIndex_nicIndex ordered.indexed inServer]
  refine ⟨_, rfl, ?_, fun j => ?_⟩
  · have counter (s : Table) (id : Nat) :
        (connectPossible (t.nic server).nicIndex iod s id).activeOnTrialConnections = s.activeOnTrialConnections := by
      unfold connectPossible
      split
      · rfl
      · split
        · rfl
        · split <;> rfl
    exact List.foldlRecOn (motive := fun s : Table => s.activeOnTrialConnections = t.activeOnTrialConnections) _ _ rfl
      fun s same id _ => (counter s id).trans same
  · have connected := mem_trials_connectAll ordered inClient inServer iod (t.nic client).possibleConnections
      (fun _ member => member) (s := t) ⟨fun _ => rfl, fun {_ con} found => ⟨con, found, rfl, rfl⟩⟩ j
    have all : j ∈ (t.nic client).possibleConnections ∧ t.Between client server j ↔ t.Between client server j := by
      refine and_iff_right_of_imp ?_
      rintro ⟨con, found, mine, -⟩
      exact (ordered.indexed.possible inClient j).mpr ⟨con, found, mine⟩
    rw [all] at connected
    rw [← connected]
    generalize (t.nic client).possibleConnections.foldl
      (connectPossible (t.nic server).nicIndex iod) t = s
    refine mem_trials_move (.cons fun _ con _ => counting_lenient.con ⟨?_, ?_⟩) j
    · split <;> exact ⟨rfl, rfl⟩
    · split
      · rename_i potential
        exact .inr ⟨.inl potential.2, .inr rfl⟩
      · exact .inl rfl

end

/-! ## Trials end -/

def Table.OnlyTrial (t : Table) (id : Nat) (entry : Con) : Prop :=
  ∀ j ∈ t.cons.inUse, ∀ con ∈ t.cons.lookup j, con.state = .inTrial →
    (t.nic con.clientNic).baseIndex = (t.nic entry.clientNic).baseIndex →
    (t.nic con.serverNic).baseIndex = (t.nic entry.serverNic).baseIndex → j = id

/-- What is asked of an operation so that the counter stays right. -/
def Table.Accountable (t : Table) : Table.Event → Prop
  | .askForNewConnectionTrial maxOutLen => t.trials.length + maxOutLen < 2 ^ 32
  | .reportConnectionTrialResults passed id _ => ∀ entry ∈ t.cons.lookup id,
      entry.state = .inTrial ∧ (passed = false → t.OnlyTrial id entry)
  | .updateMainChannel clientIp serverIp _ =>
    ∀ client ∈ t.smb2McGetNicByIp .client clientIp, ∀ server ∈ t.smb2McGetNicByIp .server serverIp,
      ∀ id ∈ t.cons.inUse, ∀ con ∈ t.cons.lookup id,
        con.clientNic = client → con.serverNic = server → con.state ≠ .inTrial
  | .informConnectionDisconnected id _ => ∀ entry ∈ t.cons.lookup id, entry.state ≠ .inTrial
  | .returnExcessConnections _ => ∀ id ∈ t.successfulConList, ∀ con ∈ t.cons.lookup id, con.state ≠ .inTrial
  | _ => True

instance (t : Table) (id : Nat) (entry : Con) : Decidable (t.OnlyTrial id entry) := by
  unfold OnlyTrial
  infer_instance

instance (t : Table) (e : Table.Event) : Decidable (t.Accountable e) :=
  match e with
  | .askForNewConnectionTrial _ => inferInstanceAs (Decidable (_ < _))
  | .reportConnectionTrialResults _ id _ => inferInstanceAs (Decidable (∀ entry ∈ t.cons.lookup id, _ ∧ _))
  | .updateMainChannel clientIp serverIp _ =>
    inferInstanceAs (Decidable (∀ client ∈ t.smb2McGetNicByIp .client clientIp,
      ∀ server ∈ t.smb2McGetNicByIp .server serverIp, ∀ id ∈ t.cons.inUse, ∀ con ∈ t.cons.lookup id, _ → _ → _))
  | .informConnectionDisconnected id _ => inferInstanceAs (Decidable (∀ entry ∈ t.cons.lookup id, _))
  | .returnExcessConnections _ =>
    inferInstanceAs (Decidable (∀ id ∈ t.successfulConList, ∀ con ∈ t.cons.lookup id, _))
  | .parseClientInterfaceArray .. | .notifierEvent .. | .queryInfoResponseEvent .. | .resetNicList | .attach ..
  | .informConnectionActiveStateChange .. | .pauseTrials | .resumeTrials => .isTrue trivial

theorem mem_trials_failTrial {entry : Con} (found : t.cons.lookup id = some entry)
    (only : t.OnlyTrial id entry) (j : Nat) : j ∈ (t.failTrial id entry).trials ↔ j ∈ t.trials ∧ j ≠ id := by
  have index (k : Nat) : (((t.setNicStates entry .idle).modifyCon id ({ · with iod := none })).nic k).baseIndex =
      (t.nic k).baseIndex :=
    congrArg (· % smb2IfIndexMask) (nicIndex_setNicStates t entry .idle k)
  rw [mem_trials, mem_trials]
  unfold Trying failTrial
  dsimp only
  change (∃ con, ((t.cons.modify id _).mapAll _).lookup j = some con ∧ _) ↔ _
  rw [Slots.lookup_mapAll, Slots.lookup_modify]
  by_cases same : id = j
  · subst same
    rw [if_pos rfl, found]
    simp [index]
  · rw [if_neg same]
    cases lookup : t.cons.lookup j with
    | none => simp
    | some con =>
      have other : j ≠ id := Ne.symm same
      -- a sibling of the failed connection is not in trial
      have sibling (state : con.state = .inTrial) :
          ¬((t.nic con.clientNic).baseIndex = (t.nic entry.clientNic).baseIndex ∧
            (t.nic con.serverNic).baseIndex = (t.nic entry.serverNic).baseIndex) := fun both =>
        other (only j (Slots.mem_inUse.mpr ⟨con, lookup⟩) con lookup state both.1 both.2)
      simp only [Option.map_some, Option.some.injEq, exists_eq_left', index, other, ne_eq, not_false_eq_true, and_true]
      split_ifs with sameClient sameServer surplus surplus
      · exact ⟨fun state => (by cases state), fun state => absurd ⟨sameClient, sameServer⟩ (sibling state)⟩
      · simp [surplus]
      · rfl
      · simp [surplus.2]
      · rfl

theorem counted_decrement (counted : t.Counted) (trying : id ∈ t.trials)
    (mem : ∀ j, j ∈ next.trials ↔ j ∈ t.trials ∧ j ≠ id)
    (counter : next.activeOnTrialConnections = decrement32 t.activeOnTrialConnections) : next.Counted := by
  have less : t.trials.length = next.trials.length + 1 := by
    refine length_trials_insert (fun member => ((mem id).mp member).2 rfl) fun j => ?_
    rw [mem]
    by_cases same : j = id
    · simp [same, trying]
    · simp [same]
  unfold Counted at counted ⊢
  rw [counter, counted, less, decrement32, if_neg (Nat.succ_ne_zero _), Nat.add_sub_cancel]

theorem repaired : Moves counting s s.refreshNicStates := moves_refreshNicStates (fun _ => trivial) fun _ => trivial

theorem counted_reported (ordered : Ordered t) (counted : t.Counted) {passed : Bool} {turns : Option Nat}
    (accountable : t.Accountable (.reportConnectionTrialResults passed id turns)) {reported : Table × Bool}
    (taken : t.reported passed id = some reported) : reported.1.Counted := by
  obtain ⟨entry, found, rfl⟩ := Option.map_eq_some_iff.mp taken
  obtain ⟨state, alone⟩ := accountable entry found
  have trying : id ∈ t.trials := mem_trials.mpr ⟨entry, found, state⟩
  dsimp only
  cases passed with
  | true =>
    have ordered' : Ordered { t with activeOnTrialConnections := decrement32 t.activeOnTrialConnections } :=
      Moves.ordered (.single (.counter trivial _)) ordered
    obtain ⟨connected, result, counter, mem⟩ := updateNewConnection_trials ordered'
      (ordered'.linked.listed found .client) (ordered'.linked.listed found .server) none
    rw [if_pos rfl]
    split
    · rename_i none
      cases result.symm.trans none
    rename_i same
    obtain rfl := Option.some.inj (result.symm.trans same)
    refine repaired.counted (counted_decrement counted trying (fun j => (mem j).trans ?_) counter)
    refine and_congr_right fun _ => not_congr ⟨?_, ?_⟩
    · rintro ⟨con, lookup, client, server⟩
      exact ordered.linked.unique lookup found ⟨client.symm, server.symm⟩
    · rintro rfl
      exact ⟨entry, found, rfl, rfl⟩
  | false =>
    rw [if_neg Bool.false_ne_true]
    refine repaired.counted (counted_decrement counted trying ?_ rfl)
    exact fun j => mem_trials_failTrial (t := { t with activeOnTrialConnections := _ }) found (alone rfl) j

theorem counted_updateMainChannel (ordered : Ordered t) (counted : t.Counted)
    {clientIp serverIp : SockAddr} {iod : Nat} (accountable : t.Accountable (.updateMainChannel clientIp serverIp iod))
    (taken : t.smb2McUpdateMainChannel clientIp serverIp iod = some next) : next.Counted := by
  unfold smb2McUpdateMainChannel at taken
  split at taken
  · rename_i client server byClient byServer
    obtain ⟨connected, result, counter, mem⟩ := updateNewConnection_trials ordered
      (List.mem_of_find?_eq_some byClient) (List.mem_of_find?_eq_some byServer) (some iod)
    rw [result, Option.some.injEq] at taken
    subst taken
    unfold Counted at counted ⊢
    rw [counter, counted]
    refine (length_trials_congr fun j => (mem j).trans (and_iff_left_of_imp ?_)).symm
    rintro member ⟨con, found, here, there⟩
    obtain ⟨con', found', state⟩ := mem_trials.mp member
    rw [found, Option.some.injEq] at found'
    subst found'
    exact accountable client byClient server byServer j (Slots.mem_inUse.mpr ⟨con, found⟩) con found here there state
  · cases taken

theorem counted_disconnected (counted : t.Counted) {turns : Option Nat}
    (accountable : t.Accountable (.informConnectionDisconnected id turns)) (taken : t.disconnected id = some next) :
    next.Counted := by
  obtain ⟨entry, found, rfl⟩ := Option.map_eq_some_iff.mp taken
  have idle := accountable entry found
  refine Moves.counted (Relation.ReflTransGen.trans ?_ repaired) counted
  refine Relation.ReflTransGen.trans ?_ (Moves.setNicStates entry fun _ => trivial)
  refine moves_markDisconnected counting_lenient trivial found fun _ => ⟨⟨rfl, rfl⟩, ?_⟩
  simp [idle]

theorem counted_returnExcessConnections (counted : t.Counted) {maxOutLen : Int}
    (accountable : t.Accountable (.returnExcessConnections maxOutLen)) :
    (t.smb2McReturnExcessConnections maxOutLen).1.Counted := by
  obtain ⟨sorted, inactiveCnt, activeCnt, moves, same⟩ := returnExcessConnections_eq t maxOutLen
  have sorted' := moves counting counting_lenient
  rw [same]
  refine Moves.counted ?_ (sorted'.counted counted)
  refine moves_removeExcess _ _ _ _ fun s reached id member con found => ⟨⟨rfl, rfl⟩, ?_⟩
  have idle : con.state ≠ .inTrial := by
    intro state
    have before : id ∈ t.trials :=
      (sorted'.mem_trials id).mp ((reached.mem_trials id).mp (mem_trials.mpr ⟨con, found, state⟩))
    obtain ⟨con', found', state'⟩ := mem_trials.mp before
    exact accountable id member con' found' state'
  simp [idle]

theorem counted_step {event : Table.Event} (ordered : Ordered t) (counted : t.Counted) (spares : t.Spares event)
    (accountable : t.Accountable event) (taken : t.step event = some next) : next.Counted := by
  refine step_invariant Counted counting_lenient (fun _ _ => trivial) (fun _ _ _ => trivial) ordered.linked spares
    (fun _ counted moves => moves.counted counted) counted (fun _ counted _ => counted) ?_ ?_ ?_ ?_ ?_ taken
  · rintro maxOutLen rfl
    exact counted_askForNewConnectionTrial counted accountable
  · rintro passed id turns rfl result
    exact counted_reported ordered counted accountable
  · rintro clientIp serverIp iod rfl s
    exact counted_updateMainChannel ordered counted accountable
  · rintro id turns rfl s
    exact counted_disconnected counted accountable
  · rintro maxOutLen rfl
    exact counted_returnExcessConnections counted accountable

/-- In every run whose operations end one trial each, and that of the connection they are about, and in which no report
releases interfaces that have entries, the counter of the active trials is the number of connections in trial. -/
theorem activeOnTrialConnections_eq (maxChannels srvrRssChannels clntRssChannels : Nat) (ignorelist : List Nat)
    (preferWired : Bool) (events : List Table.Event) (last : Table)
    (accountable : AllSteps Table.step (fun t event => t.Spares event ∧ t.Accountable event)
      (smb2McInit maxChannels srvrRssChannels clntRssChannels ignorelist preferWired) events)
    (reached : run Table.step (smb2McInit maxChannels srvrRssChannels clntRssChannels ignorelist preferWired) events =
      some last) :
    last.activeOnTrialConnections = last.trials.length := by
  let sound (t : Table) : Prop := Ordered t ∧ t.Counted
  have keeps (t : Table) (event : Table.Event) (next : Table) (both : sound t)
      (allowed : t.Spares event ∧ t.Accountable event) (taken : t.step event = some next) : sound next :=
    ⟨ordered_step both.1 allowed.1 taken, counted_step both.1 both.2 allowed.1 allowed.2 taken⟩
  have both : sound last :=
    run_invariant Table.step keeps ⟨ordered_init _ _ _ _ _, rfl⟩ accountable reached
  exact both.2

theorem activeOnTrialConnections_eq_twoTrials :
    ∃ last, run Table.step (smb2McInit 0 0 0 [] false)
        (twoTrials ++ [.reportConnectionTrialResults true 0, .returnExcessConnections 2]) = some last ∧
      last.activeOnTrialConnections = last.trials.length ∧ last.trials = [4] := by
  have result : (run Table.step (smb2McInit 0 0 0 [] false)
      (twoTrials ++ [.reportConnectionTrialResults true 0, .returnExcessConnections 2])).map (·.trials) = some [4] := by
    decide +kernel
  obtain ⟨last, reached, trials⟩ := Option.map_eq_some_iff.mp result
  refine ⟨last, reached, activeOnTrialConnections_eq 0 0 0 [] false _ last ?_ reached, trials⟩
  decide +kernel

/-! ## A client and a server with one interface each, both with two RSS channels -/

def rssTrials : List Table.Event :=
  [.parseClientInterfaceArray [({ nicIndex := 1, linkSpeed := 1000, rssCapable := true, addr := address 1 }, .whole)] false,
    .queryInfoResponseEvent [{ nicIndex := 1, linkSpeed := 1000, rssCapable := true, addr := address 11 }],
    .askForNewConnectionTrial 2,
    .reportConnectionTrialResults false 0]

/-- Both channels are tried, and the first one fails: no connection is in trial any more, and the counter
stays at one. -/
theorem activeOnTrialConnections_stuck :
    ∃ last, run Table.step (smb2McInit 0 2 2 [] false) rssTrials = some last ∧
      last.activeOnTrialConnections = 1 ∧ last.trials = [] := by
  have result : (run Table.step (smb2McInit 0 2 2 [] false) rssTrials).map
      (fun last => (last.activeOnTrialConnections, last.trials)) = some (1, []) := by decide +kernel
  obtain ⟨last, reached, both⟩ := Option.map_eq_some_iff.mp result
  exact ⟨last, reached, congrArg Prod.fst both, congrArg Prod.snd both⟩

end SmbClient.Multichannel
