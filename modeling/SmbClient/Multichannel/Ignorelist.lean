import SmbClient.Multichannel.NicRemoval
import SmbClient.Multichannel.TrialRequest

/-! Client interfaces on the ignore list. -/

namespace SmbClient.Multichannel
open SmbClient.Lib Table

def Table.Ignored (t : Table) (client : Nat) : Prop := (t.nic client).baseIndex ∈ t.clientIfIgnorelist

structure Ignoring (t : Table) : Prop where
  linked : Linked t
  marked : ∀ {id}, id ∈ t.nicList .client → t.Ignored id → (t.nic id).inIgnorelist = true
  hopeless : ∀ {j con}, t.cons.lookup j = some con → t.Ignored con.clientNic → con.Hopeless
  unlisted : ∀ {id}, id ∈ t.successfulConList →
    id < t.cons.length ∧ ∀ con, t.cons.lookup id = some con → ¬t.Ignored con.clientNic

def heeding (ignorelist : List Nat) : Rules where
  con t before after := before.SameNics after ∧ (t.Ignored before.clientNic → before.Hopeless → after.Hopeless)
  nic before after := after.nicIndex = before.nicIndex ∧ (before.inIgnorelist = true → after.inIgnorelist = true)
  insert side nic := side = .client → nic.baseIndex ∈ ignorelist → nic.inIgnorelist = true
  reset t side id := side = .server → ∀ j con, t.cons.lookup j = some con → con.serverNic = id → ¬t.Ignored con.clientNic
  listing := False
  counter := True

theorem heeding_lenient (ignorelist : List Nat) : (heeding ignorelist).Lenient where
  nics allowed := allowed.1
  con {_ before after} quiet := by
    refine ⟨quiet.nics, fun _ hopeless => ?_⟩
    rcases quiet.state with same | ⟨waits, -⟩
    · unfold Con.Hopeless
      rw [same]
      exact hopeless
    · rcases hopeless with state | state <;> rcases waits with state' | state' <;> cases state.symm.trans state'
  nic kept := ⟨kept.nicIndex, kept.inIgnorelist⟩

section
variable {t next : Table}

theorem Move.listed {rules : Rules} (linked : Linked t) (move : Move rules t next) {side : Side} {id : Nat}
    (listed : id ∈ next.nicList side) : id ∈ t.nicList side ∨
      next.cons = t.cons ∧ ∃ nic, next.nic id = nic ∧ rules.insert side nic := by
  cases move with
  | @insert a nic _ _ allowed =>
    rcases (mem_insertNic t a side nic id).mp listed with ⟨rfl, rfl⟩ | before
    · exact .inr ⟨t.cons_insertNic a nic, nic, t.nic_insertNic_new a nic, allowed⟩
    · exact .inl before
  | part _ => exact .inl (nicList_removeCons side [_] ▸ listed)
  | release member _ => exact .inl ((linked.mem_dropNic member).mp listed).1
  | _ => exact .inl listed

theorem Move.length_cons {rules : Rules} (move : Move rules t next) : t.cons.length ≤ next.cons.length := by
  cases move with
  | insert _ _ _ => rw [cons_insertNic]
  | release _ _ => rw [cons_dropNic]
  | part _ =>
    unfold removeCon
    split <;> simp [modifyNic]
  | _ => simp [modifyNic, modifyCon, mapCons, smb2McResetConStatus]

variable {side : Side} {id : Nat} {ignorelist : List Nat}

theorem ignoring_move (ignoring : Ignoring t) (move : Move (heeding t.clientIfIgnorelist) t next) : Ignoring next := by
  have linked := ignoring.linked
  have linked' : Linked next := linked_move (heeding_lenient _).nics move linked
  -- an interface that stays keeps its index and its mark
  have kept {id : Nat} (before : id ∈ t.nicList .client) (after : id ∈ next.nicList .client) :
      (next.Ignored id → t.Ignored id) ∧ ((t.nic id).inIgnorelist = true → (next.nic id).inIgnorelist = true) := by
    obtain ⟨old, found⟩ := linked.live before
    obtain ⟨new, found'⟩ := linked'.live after
    have change := move.nic_cases id
    rw [found, found'] at change
    unfold Ignored Nic.baseIndex
    rw [nic_of_lookup found, nic_of_lookup found', move.rest.1]
    cases change with
    | same => exact ⟨fun ignored => ignored, fun marked => marked⟩
    | changed allowed =>
      rw [allowed.1]
      exact ⟨fun ignored => ignored, allowed.2⟩
    | joined => exact ⟨fun ignored => ignored, fun marked => marked⟩
  have client {j : Nat} {old new : Con} (was : t.cons.lookup j = some old) (found : next.cons.lookup j = some new)
      (nics : old.SameNics new) (ignored : next.Ignored new.clientNic) : t.Ignored old.clientNic := by
    have after := linked'.listed found .client
    rw [nics.nic] at after
    rw [nics.1] at ignored
    exact (kept (linked.listed was .client) after).1 ignored
  refine ⟨linked', ?_, ?_, ?_⟩
  · intro id listed ignored
    rcases move.listed linked listed with before | ⟨-, nic, same, allowed⟩
    · exact (kept before listed).2 (ignoring.marked before ((kept before listed).1 ignored))
    · unfold Ignored at ignored
      rw [same, move.rest.1] at ignored
      rw [same]
      exact allowed rfl ignored
  · intro j con found ignored
    have change := move.con_cases (heeding_lenient _) j
    rw [found] at change
    generalize was : t.cons.lookup j = old at change
    cases change with
    | same => exact ignoring.hopeless was (client was found ⟨rfl, rfl⟩ ignored)
    | changed allowed =>
      have before := client was found allowed.1 ignored
      exact allowed.2 before (ignoring.hopeless was before)
    | @reset old _ side nics _ _ allowed unmarked =>
      have before := client was found nics ignored
      cases side with
      | client =>
        have marked := ignoring.marked (linked.listed was .client) before
        rw [unmarked] at marked
        cases marked
      | server => exact absurd before (allowed rfl j old was rfl)
    | joined _ _ marked =>
      have after := linked'.listed found .client
      rcases move.listed linked after with before | ⟨same, -⟩
      · exact .inl (marked (ignoring.marked before ((kept before after).1 ignored)))
      · rw [same, was] at found
        cases found
  · intro id member
    rw [move.rest.2.1 fun none => none] at member
    obtain ⟨inside, others⟩ := ignoring.unlisted member
    refine ⟨inside.trans_le move.length_cons, fun con found ignored => ?_⟩
    have change := move.con_cases (heeding_lenient _) id
    rw [found] at change
    generalize was : t.cons.lookup id = old at change
    cases change with
    | same => exact others con was (client was found ⟨rfl, rfl⟩ ignored)
    | changed allowed => exact others _ was (client was found allowed.1 ignored)
    | reset nics _ _ _ _ => exact others _ was (client was found nics ignored)
    | joined last _ _ => exact absurd inside (last ▸ Nat.lt_irrefl _)

theorem ignoring_moves (ignoring : Ignoring t) (moves : Moves (heeding t.clientIfIgnorelist) t next) : Ignoring next := by
  have kept := moves.invariant (fun s => Ignoring s ∧ s.clientIfIgnorelist = t.clientIfIgnorelist) ?_ ⟨ignoring, rfl⟩
  · exact kept.1
  · rintro s s' move ⟨ignoring, same⟩
    refine ⟨?_, move.rest.1.trans same⟩
    rw [← same] at move
    exact ignoring_move ignoring move

/-! ## Reports -/

theorem isSome_getNicByIndex_updateNic {updated : Nic} (ordered : Ordered t) (fresh : updated.Fresh)
    (needUpdate : Bool) {index : Nat} (listed : (t.smb2McGetNicByIndex side index).isSome) :
    ((updateNic side (t, needUpdate) updated).1.smb2McGetNicByIndex side index).isSome := by
  by_cases here : updated.nicIndex = index
  · subst here
    have placed : t.Placed side updated (updateNic side (t, needUpdate) updated).1 := updateNic_placed ordered fresh needUpdate
    cases placed with
    | new id _ found _ _ => exact Option.isSome_of_eq_some found
    | merged id _ found _ _ _ => exact Option.isSome_of_eq_some found
  · rw [(updateNic_sameAt ordered fresh needUpdate here).listed]
    exact listed

theorem moves_updateNics_client {nics : List Nic} (ordered : Ordered t) (fresh : ∀ nic ∈ nics, nic.Fresh)
    (known : ∀ nic ∈ nics, nic.baseIndex ∈ ignorelist → (t.smb2McGetNicByIndex .client nic.nicIndex).isSome)
    (needUpdate : Bool) : Moves (heeding ignorelist) t (nics.foldl (updateNic .client) (t, needUpdate)).1 := by
  induction nics generalizing t needUpdate with
  | nil => exact .refl
  | cons nic rest ih =>
    rw [List.forall_mem_cons] at fresh known
    have first : Moves (heeding ignorelist) t (updateNic .client (t, needUpdate) nic).1 := by
      apply moves_updateNic (heeding_lenient ignorelist) fresh.1
      · intro absent _ ignored
        have listed := known.1 ignored
        rw [absent] at listed
        cases listed
      · intro s id _ _ _ _ _ server
        cases server
    refine first.trans (ih (updateNic_ordered ordered fresh.1 needUpdate) fresh.2 (fun other member ignored => ?_) _)
    exact isSome_getNicByIndex_updateNic ordered fresh.1 needUpdate (known.2 other member ignored)

def Table.SparesIgnored (t : Table) (updated : Nic) : Prop :=
  ∀ id, t.smb2McGetNicByIndex .server updated.nicIndex = some id → (t.nic id).changedBy updated = true →
    ∀ o, t.JoinedAt .server id o → ¬t.Ignored o

theorem joinedAt_of_lookup {j : Nat} {con : Con} (found : t.cons.lookup j = some con) (side : Side) :
    t.JoinedAt side (con.nic side) (con.nic side.other) := joinedAt_iff.mpr ⟨con, ⟨⟨j, found⟩, rfl⟩, rfl⟩

theorem listed_of_joinedAt (linked : Linked t) {o : Nat} (joined : t.JoinedAt side id o) :
    o ∈ t.nicList side.other := by
  obtain ⟨con, ⟨⟨j, found⟩, -⟩, rfl⟩ := joinedAt_iff.mp joined
  exact linked.listed found side.other

theorem Table.SparesIgnored.updateNic {updated other : Nic} (ordered : Ordered t) (fresh : updated.Fresh) (needUpdate : Bool)
    (ignorelist : (updateNic .server (t, needUpdate) updated).1.clientIfIgnorelist = t.clientIfIgnorelist)
    (different : updated.nicIndex ≠ other.nicIndex) (spares : t.SparesIgnored other) :
    (updateNic .server (t, needUpdate) updated).1.SparesIgnored other := by
  intro id found changed o joined ignored
  have same : t.SameAt .server other.nicIndex (Table.updateNic .server (t, needUpdate) updated).1 :=
    updateNic_sameAt ordered fresh needUpdate different
  have others : t.SameOther .server (Table.updateNic .server (t, needUpdate) updated).1 :=
    updateNic_sameOther ordered.linked needUpdate
  rw [same.listed] at found
  rw [same.nic found] at changed
  rw [same.joined found] at joined
  unfold Ignored at ignored
  rw [others.nics o (listed_of_joinedAt ordered.linked joined), ignorelist] at ignored
  exact spares id found changed o joined ignored

theorem moves_updateNics_server {nics : List Nic} (ordered : Ordered t)
    (list : t.clientIfIgnorelist = ignorelist) (fresh : ∀ nic ∈ nics, nic.Fresh) (distinct : (nics.map Nic.nicIndex).Nodup)
    (spares : ∀ nic ∈ nics, t.SparesIgnored nic) (needUpdate : Bool) :
    Moves (heeding ignorelist) t (nics.foldl (updateNic .server) (t, needUpdate)).1 := by
  induction nics generalizing t needUpdate with
  | nil => exact .refl
  | cons nic rest ih =>
    rw [List.forall_mem_cons] at fresh spares
    rw [List.map_cons, List.nodup_cons, List.mem_map] at distinct
    have first : Moves (heeding ignorelist) t (updateNic .server (t, needUpdate) nic).1 := by
      apply moves_updateNic (heeding_lenient ignorelist) fresh.1
      · intro _ client
        cases client
      · intro s id found entries same others either _ j con lookup here ignored
        rw [entries] at lookup
        have joined : t.JoinedAt .server id con.clientNic := here ▸ joinedAt_of_lookup lookup .server
        have apart : con.clientNic ≠ id := by
          intro both
          apply ordered.linked.apart (listed_of_joinedAt ordered.linked joined)
          rw [both]
          exact (mem_of_getNicByIndex found).1
        unfold Ignored at ignored
        rw [others _ apart, same] at ignored
        exact spares.1 id found (either.resolve_left nofun) _ joined ignored
    refine first.trans (ih (updateNic_ordered ordered fresh.1 needUpdate) (first.clientIfIgnorelist.trans list) fresh.2
      distinct.2 (fun other member => ?_) _)
    exact (spares.2 other member).updateNic ordered fresh.1 needUpdate first.clientIfIgnorelist
      fun same => distinct.1 ⟨other, member, same.symm⟩

/-! ## Connections -/

theorem Ignoring.listing (ignoring : Ignoring t) {list : List Nat} (listed : ∀ id ∈ list, id ∈ t.successfulConList ∨
    ∃ con, t.cons.lookup id = some con ∧ ¬t.Ignored con.clientNic) : Ignoring { t with successfulConList := list } where
  linked := by
    obtain ⟨live, nodup, apart, listed, unique⟩ := ignoring.linked
    exact ⟨live, nodup, apart, listed, unique⟩
  marked := ignoring.marked
  hopeless := ignoring.hopeless
  unlisted {id} member := by
    rcases listed id member with earlier | ⟨con, found, unignored⟩
    · exact ignoring.unlisted earlier
    · refine ⟨Slots.lookup_lt found, fun con' found' => ?_⟩
      obtain rfl := Option.some.inj (found.symm.trans found')
      exact unignored

theorem moves_setNicStates (con : Con) (state : NicState) :
    Moves (heeding ignorelist) t (t.setNicStates con state) :=
  Moves.setNicStates con fun _ => ⟨rfl, fun marked => marked⟩

theorem ignored_setNicStates (con : Con) (state : NicState) (id : Nat) :
    (t.setNicStates con state).Ignored id ↔ t.Ignored id := by
  unfold Ignored Nic.baseIndex
  rw [nicIndex_setNicStates]
  rfl

structure Connecting (client : Nat) (ids : List Nat) (t : Table) : Prop where
  ignoring : Ignoring t
  unignored : ¬t.Ignored client
  mine : ∀ id ∈ ids, ∀ con, t.cons.lookup id = some con → con.clientNic = client

theorem Connecting.modifyCon {client : Nat} {ids : List Nat} (connecting : Connecting client ids t) (member : id ∈ ids)
    {f : Con → Con} (same : ∀ con : Con, con.SameNics (f con)) : Connecting client ids (t.modifyCon id f) := by
  have move : Move (heeding t.clientIfIgnorelist) t (t.modifyCon id f) := by
    refine .con fun con found => ⟨same con, fun ignored => absurd ignored ?_⟩
    rw [connecting.mine id member con found]
    exact connecting.unignored
  refine ⟨ignoring_move connecting.ignoring move, connecting.unignored, ?_⟩
  intro j member' con found
  unfold Table.modifyCon at found
  rw [Slots.lookup_modify] at found
  split at found
  · obtain ⟨old, before, rfl⟩ := Option.map_eq_some_iff.mp found
    exact (same old).1.trans (connecting.mine j member' old before)
  · exact connecting.mine j member' con found

theorem connecting_connectPossible {client : Nat} {ids : List Nat} (connecting : Connecting client ids t)
    (serverIdx : Nat) (iod : Option Nat) (member : id ∈ ids) :
    Connecting client ids (connectPossible serverIdx iod t id) := by
  unfold connectPossible
  split
  · exact connecting
  · rename_i con found
    split
    · have connected : Connecting client ids (t.modifyCon id fun con =>
          { con with iod := iod.or con.iod, state := .connected, speed := t.conSpeed con }) :=
        connecting.modifyCon member fun _ => ⟨rfl, rfl⟩
      have live : ∃ now, (t.modifyCon id fun con =>
          { con with iod := iod.or con.iod, state := .connected, speed := t.conSpeed con }).cons.lookup id = some now := by
        unfold modifyCon
        rw [Slots.lookup_modify, if_pos rfl, found]
        exact ⟨_, rfl⟩
      dsimp only
      generalize (t.modifyCon id fun con =>
        { con with iod := iod.or con.iod, state := .connected, speed := t.conSpeed con }) = s at connected live ⊢
      have moves : Moves (heeding s.clientIfIgnorelist) s (s.setNicStates con .used) := moves_setNicStates con .used
      have unignored : ¬(s.setNicStates con .used).Ignored client := by
        rw [ignored_setNicStates]
        exact connected.unignored
      refine ⟨?_, unignored, connected.mine⟩
      refine (ignoring_moves connected.ignoring moves).listing fun j member' => ?_
      rcases List.mem_append.mp member' with earlier | here
      · exact .inl earlier
      · obtain rfl := List.mem_singleton.mp here
        obtain ⟨now, found⟩ := live
        refine .inr ⟨now, found, ?_⟩
        rw [connected.mine j member now found]
        exact unignored
    · split
      · exact connecting.modifyCon member fun _ => ⟨rfl, rfl⟩
      · exact connecting

theorem ignoring_updateNewConnection (ordered : Ordered t) (ignoring : Ignoring t) {clientIdx serverIdx : Nat} {iod : Option Nat}
    (unignored : ∀ client, t.smb2McGetNicByIndex .client clientIdx = some client → ¬t.Ignored client)
    (taken : t.smb2McUpdateNewConnection clientIdx serverIdx iod = some next) : Ignoring next := by
  unfold smb2McUpdateNewConnection at taken
  split at taken
  · rename_i client _ byIndex _
    cases taken
    have start : Connecting client (t.nic client).possibleConnections t := by
      refine ⟨ignoring, unignored client byIndex, fun id member con found => ?_⟩
      obtain ⟨con', found', mine⟩ := (ordered.indexed.possible (mem_of_getNicByIndex byIndex).1 id).mp member
      obtain rfl := Option.some.inj (found.symm.trans found')
      exact mine
    have connected := List.foldlRecOn (motive := Connecting client (t.nic client).possibleConnections) _
      (connectPossible serverIdx iod) start fun s connecting id member =>
        connecting_connectPossible connecting serverIdx iod member
    generalize (t.nic client).possibleConnections.foldl (connectPossible serverIdx iod) t = s at connected ⊢
    have last : Move (heeding s.clientIfIgnorelist) s (s.mapCons fun con =>
        if (s.nic con.serverNic).nicIndex = serverIdx ∧ con.state = .potential then { con with state := .surplus } else con) := by
      refine .cons fun _ con _ => (heeding_lenient _).con ⟨?_, ?_⟩
      · split <;> exact ⟨rfl, rfl⟩
      · split
        · rename_i potential
          exact .inr ⟨.inl potential.2, .inr rfl⟩
        · exact .inl rfl
    exact ignoring_move connected.ignoring last
  · cases taken

theorem ignoring_markDisconnected (ignoring : Ignoring t) {entry : Con} (found : t.cons.lookup id = some entry) :
    Ignoring (t.markDisconnected id entry) := by
  have ended (hopeful : ¬entry.Hopeless) :
      Move (heeding t.clientIfIgnorelist) t (t.modifyCon id ({ · with state := .potential, iod := none })) := by
    refine .con fun con found' => ⟨⟨rfl, rfl⟩, fun _ hopeless => absurd hopeless ?_⟩
    obtain rfl := Option.some.inj (found.symm.trans found')
    exact hopeful
  unfold markDisconnected
  split_ifs with established hopeful
  · have kept := ignoring_move ignoring (ended (by
      rintro (state | state) <;> simp [Con.Established, state] at established))
    exact kept.listing fun j member => .inl (List.mem_of_mem_erase member)
  · exact ignoring_move ignoring (ended (by rintro (state | state) <;> simp [state] at hopeful))
  · exact ignoring_move ignoring (.con fun con _ => (heeding_lenient _).con ⟨⟨rfl, rfl⟩, .inl rfl⟩)

end

/-! ## Runs -/

/-- The event does not bring an interface of the ignore list into play: it is not first seen in a notification, is not
the main channel's and is not reported as connected, and no server interface changes that it has a connection with. -/
def Table.Heeds (t : Table) : Table.Event → Prop
  | .parseClientInterfaceArray entries _ => ∀ entry ∈ entries, entry.1.nicIndex < 2 ^ 32
  | .notifierEvent clientInfo clntRssChannels rssForceOn _ =>
    ∀ u ∈ (notifierTable clientInfo clntRssChannels rssForceOn).nicList .client,
      ((notifierTable clientInfo clntRssChannels rssForceOn).nic u).baseIndex ∈ t.clientIfIgnorelist →
      (t.smb2McGetNicByIndex .client ((notifierTable clientInfo clntRssChannels rssForceOn).nic u).nicIndex).isSome
  | .queryInfoResponseEvent serverInfo _ =>
    ∀ u ∈ (responseTable serverInfo t.srvrRssChannels).nicList .server,
      t.SparesIgnored ((responseTable serverInfo t.srvrRssChannels).nic u)
  | .reportConnectionTrialResults passed id _ =>
    passed = true → ∀ con, t.cons.lookup id = some con → ¬t.Ignored con.clientNic
  | .updateMainChannel clientIp _ _ => ∀ client, t.smb2McGetNicByIp .client clientIp = some client → ¬t.Ignored client
  | _ => True

section
variable {t next : Table}

theorem ignoring_reported (ordered : Ordered t) (ignoring : Ignoring t) {passed : Bool} {id : Nat} {result : Table × Bool}
    (heeds : passed = true → ∀ con, t.cons.lookup id = some con → ¬t.Ignored con.clientNic)
    (taken : t.reported passed id = some result) : Ignoring result.1 := by
  obtain ⟨entry, found, rfl⟩ := Option.map_eq_some_iff.mp taken
  dsimp only
  have counted : Moves steady t { t with activeOnTrialConnections := decrement32 t.activeOnTrialConnections } :=
    .single (.counter trivial _)
  have counted' : Ignoring { t with activeOnTrialConnections := decrement32 t.activeOnTrialConnections } :=
    ignoring_move ignoring (.counter trivial _)
  have ordered' := counted.ordered ordered
  have heeds' : passed = true → ¬Ignored { t with activeOnTrialConnections := decrement32 t.activeOnTrialConnections }
      entry.clientNic := fun isPassed => heeds isPassed entry found
  have listed : entry.clientNic ∈ nicList { t with activeOnTrialConnections := decrement32 t.activeOnTrialConnections }
      .client := ordered.linked.listed found .client
  generalize { t with activeOnTrialConnections := decrement32 t.activeOnTrialConnections } = s at counted' ordered' heeds' listed
  have refreshed {u : Table} (ignoring : Ignoring u) : Ignoring u.refreshNicStates :=
    ignoring_moves ignoring (moves_refreshNicStates (fun _ => ⟨rfl, fun marked => marked⟩) fun _ => ⟨rfl, fun marked => marked⟩)
  split
  · rename_i isPassed
    split
    · exact refreshed counted'
    · rename_i connected
      refine refreshed (ignoring_updateNewConnection ordered' counted' (fun client byIndex => ?_) connected)
      rw [getNicByIndex_nicIndex ordered'.indexed listed] at byIndex
      cases byIndex
      exact heeds' isPassed
  · have failed : Moves (heeding s.clientIfIgnorelist) s (s.failTrial id entry) :=
      moves_failTrial (heeding_lenient _) (fun _ => ⟨rfl, fun marked => marked⟩)
        (fun _ => ⟨⟨rfl, rfl⟩, fun _ _ => .inr rfl⟩) id entry
    exact refreshed (ignoring_moves counted' failed)

theorem Ignoring.releaseClientNics (ignoring : Ignoring t) (empty : t.cons.inUse = []) :
    Ignoring t.releaseClientNics := by
  have absent {id : Nat} {con : Con} (found : t.cons.lookup id = some con) : False := by
    have member : id ∈ t.cons.inUse := Slots.mem_inUse.mpr ⟨con, found⟩
    rw [empty] at member
    exact absurd member List.not_mem_nil
  exact ⟨ignoring.linked.releaseClientNics empty, fun member => absurd member List.not_mem_nil,
    fun found => (absent found).elim, fun listed => ⟨(ignoring.unlisted listed).1, fun _ found => (absent found).elim⟩⟩

theorem ignoring_step {event : Table.Event} (ordered : Ordered t) (ignoring : Ignoring t) (spares : t.Spares event)
    (heeds : t.Heeds event) (taken : t.step event = some next) : Ignoring next := by
  have lenient := heeding_lenient t.clientIfIgnorelist
  have moved {s : Table} (moves : Moves (heeding t.clientIfIgnorelist) t s) : Ignoring s := ignoring_moves ignoring moves
  have joined {s : Table} (turns : Option Nat) (ignoring : Ignoring s) : Ignoring (s.smb2McUpdateConList turns) :=
    ignoring_moves ignoring (moves_updateConList (heeding_lenient _) turns)
  cases event with
  | parseClientInterfaceArray entries rssForceOn =>
    cases taken
    have allowed (entry : NetworkNicInfo × Added) (member : entry ∈ entries) (nic : Nic)
        (entered : nic.Entered entry.1 (t.clientIfIgnorelist.contains entry.1.nicIndex)) :
        (heeding t.clientIfIgnorelist).insert .client nic := by
      intro _ ignored
      rw [entered.baseIndex, Nat.mod_eq_of_lt (heeds entry member)] at ignored
      rw [entered.inIgnorelist, List.contains_iff_mem]
      exact ignored
    obtain ⟨s, moves, same, result⟩ := parseClientInterfaces_eq lenient rssForceOn entries allowed
    rw [result]
    split
    · rename_i fails
      exact (moved moves).releaseClientNics (same ▸ spares fails)
    · exact moved moves
  | notifierEvent clientInfo clntRssChannels rssForceOn turns =>
    cases taken
    apply moved
    refine moves_updateNicListFromNotifier lenient ordered.linked ?_ turns
    apply moves_updateNics_client ordered (reports_notifierTable clientInfo clntRssChannels rssForceOn .client).fresh
    intro nic member
    obtain ⟨u, listed, rfl⟩ := List.mem_map.mp member
    exact heeds u listed
  | queryInfoResponseEvent serverInfo turns =>
    cases taken
    have reports := reports_responseTable serverInfo t.srvrRssChannels .server
    apply moved
    refine moves_updateNicListFromNotifier lenient ordered.linked ?_ turns
    apply moves_updateNics_server ordered rfl reports.fresh reports.distinct
    intro nic member
    obtain ⟨u, listed, rfl⟩ := List.mem_map.mp member
    exact heeds u listed
  | resetNicList =>
    cases taken
    apply moved
    apply moves_resetNicList
    intro s id server
    cases server
  | askForNewConnectionTrial maxOutLen =>
    cases taken
    apply moved
    apply moves_askForNewConnectionTrial lenient
    · intro s _ id con _ potential activeState speed
      refine ⟨⟨rfl, rfl⟩, fun _ hopeless => ?_⟩
      rcases hopeless with state | state <;> cases potential.symm.trans state
    · exact fun _ => ⟨rfl, fun marked => marked⟩
    · trivial
  | attach id iod =>
    cases taken
    exact moved (moves_modifyCon lenient id (fun _ => ⟨rfl, rfl⟩) fun _ => rfl)
  | reportConnectionTrialResults passed id turns =>
    obtain ⟨result, reported, rfl⟩ := Option.map_eq_some_iff.mp taken
    have kept := ignoring_reported ordered ignoring heeds reported
    split
    · exact joined turns kept
    · exact kept
  | updateMainChannel clientIp serverIp iod =>
    cases taken
    cases updated : t.smb2McUpdateMainChannel clientIp serverIp iod with
    | none => exact ignoring
    | some next =>
      unfold smb2McUpdateMainChannel at updated
      split at updated
      · rename_i client _ byIp _
        refine ignoring_updateNewConnection ordered ignoring (fun other byIndex => ?_) updated
        have listed : client ∈ t.nicList .client := List.mem_of_find?_eq_some byIp
        rw [getNicByIndex_nicIndex ordered.indexed listed] at byIndex
        cases byIndex
        exact heeds client byIp
      · cases updated
  | informConnectionDisconnected id turns =>
    obtain ⟨s, disconnected, rfl⟩ := Option.map_eq_some_iff.mp taken
    obtain ⟨entry, found, rfl⟩ := Option.map_eq_some_iff.mp disconnected
    apply joined turns
    have idle : Moves (heeding (t.markDisconnected id entry).clientIfIgnorelist) (t.markDisconnected id entry)
        ((t.markDisconnected id entry).setNicStates entry .idle).refreshNicStates :=
      (moves_setNicStates entry .idle).trans
        (moves_refreshNicStates (fun _ => ⟨rfl, fun marked => marked⟩) fun _ => ⟨rfl, fun marked => marked⟩)
    exact ignoring_moves (ignoring_markDisconnected ignoring found) idle
  | informConnectionActiveStateChange id active =>
    obtain ⟨entry, _, rfl⟩ := Option.map_eq_some_iff.mp taken
    exact moved (moves_modifyCon lenient id (fun _ => ⟨rfl, rfl⟩) fun _ => rfl)
  | returnExcessConnections maxOutLen =>
    cases taken
    obtain ⟨sorted, inactiveCnt, activeCnt, moves, same⟩ := returnExcessConnections_eq t maxOutLen
    rw [same]
    have prepared := moves _ lenient
    apply moved
    refine prepared.trans (moves_removeExcess _ _ _ _ fun s reached id member con found => ⟨⟨rfl, rfl⟩, fun ignored => ?_⟩)
    -- only connections of the successful list are put out
    have whole : Moves (heeding t.clientIfIgnorelist) t s := prepared.trans reached
    have list := whole.successfulConList fun none => none
    exact absurd ignored (((moved whole).unlisted (list ▸ member)).2 con found)
  | pauseTrials =>
    cases taken
    exact moved (.single (.pause _))
  | resumeTrials =>
    cases taken
    exact moved (.single (.pause _))

theorem waiting_trialRun {n : Nat} {added : Bool} {r : Table × List Nat} (ran : TrialRun n added t r) :
    ∀ id ∈ r.2, ∃ con, t.cons.lookup id = some con ∧ con.Waiting := by
  have back {t s : Table} (onward : t.Onward s) {id : Nat} (waits : ∃ con, s.cons.lookup id = some con ∧ con.Waiting) :
      ∃ con, t.cons.lookup id = some con ∧ con.Waiting := by
    obtain ⟨con, found, waiting⟩ := waits
    obtain ⟨old, before, change⟩ := onward.con.before found
    exact ⟨old, before, change.waiting waiting⟩
  induction ran with
  | full => exact nofun
  | @again n added t next r turn rest ih =>
    obtain ⟨-, -, id, rfl⟩ := trialTurn_again turn
    have revived : t.Onward (t.smb2McCountConnectionStats.1.modifyCon id ({ · with activeState := .active })) :=
      (onward_countConnectionStats t).trans (.modifyCon fun con _ => ⟨⟨rfl, rfl⟩, fun waits => waits, fun tries => tries⟩)
    exact fun id member => back revived (ih id member)
  | stop _ => exact nofun
  | @start n first added inactive t next r turn rest ih =>
    obtain ⟨eligible, activeState, rfl⟩ := trialTurn_start turn
    have counted := onward_countConnectionStats t
    rw [List.forall_mem_cons]
    constructor
    · obtain ⟨con, found, potential, -⟩ := eligible
      exact back counted ⟨con, found, .inl potential⟩
    · exact fun id member => back (counted.trans (onward_startTrial eligible activeState)) (ih id member)

theorem waiting_askForNewConnectionTrial (maxOutLen : Nat) : ∀ id ∈ (t.smb2McAskForNewConnectionTrial maxOutLen).2,
    ∃ con, t.cons.lookup id = some con ∧ con.Waiting := by
  unfold smb2McAskForNewConnectionTrial
  split
  · exact nofun
  · exact waiting_trialRun (trialRun_trialLoop (Nat.le_succ _) (.inr (Nat.lt_succ_self _)))

end

theorem ignoring_init (maxChannels srvrRssChannels clntRssChannels : Nat) (ignorelist : List Nat) (preferWired : Bool) :
    Ignoring (smb2McInit maxChannels srvrRssChannels clntRssChannels ignorelist preferWired) where
  linked := linked_init _ _ _ _ _
  marked member := absurd member List.not_mem_nil
  hopeless found := absurd (Slots.lookup_lt found) (Nat.not_lt_zero _)
  unlisted member := absurd member List.not_mem_nil

theorem clientIfIgnorelist_step {t next : Table} {event : Table.Event} (linked : Linked t) (spares : t.Spares event)
    (taken : t.step event = some next) : next.clientIfIgnorelist = t.clientIfIgnorelist :=
  steady_step (·.clientIfIgnorelist = t.clientIfIgnorelist) linked spares
    (fun _ same moves => moves.clientIfIgnorelist.trans same) rfl (fun _ same _ => same) taken

/-- No connection of an interface on the ignore list is handed out in a run that heeds it and in which no report releases
interfaces that have entries. -/
theorem askForNewConnectionTrial_heeds (maxChannels srvrRssChannels clntRssChannels : Nat) (ignorelist : List Nat)
    (preferWired : Bool) (short : ignorelist.length ≤ kClientIfIgnorelistMaxLen) (events : List Table.Event)
    (heeds : AllSteps Table.step (fun t event => t.Spares event ∧ t.Heeds event)
      (smb2McInit maxChannels srvrRssChannels clntRssChannels ignorelist preferWired) events) (t : Table)
    (reached : run Table.step (smb2McInit maxChannels srvrRssChannels clntRssChannels ignorelist preferWired) events = some t)
    (maxOutLen : Nat) : ∀ id ∈ (t.smb2McAskForNewConnectionTrial maxOutLen).2,
      ∃ con, t.cons.lookup id = some con ∧ (t.nic con.clientNic).baseIndex ∉ ignorelist := by
  have start : (smb2McInit maxChannels srvrRssChannels clntRssChannels ignorelist preferWired).clientIfIgnorelist = ignorelist :=
    if_neg (Nat.not_lt.mpr short)
  have keeps (s : Table) (event : Table.Event) (next : Table)
      (holds : Ordered s ∧ Ignoring s ∧ s.clientIfIgnorelist = ignorelist) (allowed : s.Spares event ∧ s.Heeds event)
      (taken : s.step event = some next) : Ordered next ∧ Ignoring next ∧ next.clientIfIgnorelist = ignorelist := by
    obtain ⟨ordered, ignoring, same⟩ := holds
    exact ⟨ordered_step ordered allowed.1 taken, ignoring_step ordered ignoring allowed.1 allowed.2 taken,
      (clientIfIgnorelist_step ordered.linked allowed.1 taken).trans same⟩
  have kept := run_invariant Table.step keeps ⟨ordered_init _ _ _ _ _, ignoring_init _ _ _ _ _, start⟩ heeds reached
  intro id member
  obtain ⟨con, found, waiting⟩ := waiting_askForNewConnectionTrial maxOutLen id member
  refine ⟨con, found, fun ignored => ?_⟩
  have hopeless := kept.2.1.hopeless found (by unfold Ignored; rw [kept.2.2]; exact ignored)
  rcases hopeless with state | state <;> rcases waiting with state' | state' <;> cases state.symm.trans state'

/-- The interface with index 2 is on the ignore list and is reported from the start. -/
theorem askForNewConnectionTrial_heeds_reported : ∃ t,
    run Table.step (smb2McInit 0 0 0 [2] false) (slowMainChannel.take 2) = some t ∧
      (t.smb2McAskForNewConnectionTrial 2).2 = [3] ∧
      ∀ id ∈ (t.smb2McAskForNewConnectionTrial 2).2,
        ∃ con, t.cons.lookup id = some con ∧ (t.nic con.clientNic).baseIndex ∉ [2] := by
  have result : (run Table.step (smb2McInit 0 0 0 [2] false) (slowMainChannel.take 2)).map
      (fun t => (t.smb2McAskForNewConnectionTrial 2).2) = some [3] := by decide +kernel
  obtain ⟨t, reached, ids⟩ := Option.map_eq_some_iff.mp result
  refine ⟨t, reached, ids, askForNewConnectionTrial_heeds 0 0 0 [2] false (by decide) _ ?_ t reached 2⟩
  refine ⟨⟨by decide, ?_⟩, fun parsed taken => ⟨⟨trivial, fun u _ id found => ?_⟩, fun _ _ => trivial⟩⟩
  · unfold Heeds
    decide
  · cases taken
    cases found

def notified : List Table.Event :=
  [.parseClientInterfaceArray [({ nicIndex := 1, linkSpeed := 1000, addr := address 1 }, .whole)] false,
    .queryInfoResponseEvent
      [{ nicIndex := 1, linkSpeed := 1000, addr := address 11 }, { nicIndex := 2, linkSpeed := 1000, addr := address 12 }],
    .updateMainChannel (address 1) (address 11) 7,
    .notifierEvent
      [{ nicIndex := 1, linkSpeed := 1000, addr := address 1 }, { nicIndex := 2, linkSpeed := 1000, addr := address 2 }] 0 false]

/-- Its connection is handed out, though it is on the ignore list. -/
theorem askForNewConnectionTrial_notified : ∃ t,
    run Table.step (smb2McInit 0 0 0 [2] false) notified = some t ∧
      ∃ id ∈ (t.smb2McAskForNewConnectionTrial 2).2,
        ∃ con, t.cons.lookup id = some con ∧ (t.nic con.clientNic).baseIndex ∈ [2] := by
  have result : (run Table.step (smb2McInit 0 0 0 [2] false) notified).map (fun t =>
      (t.smb2McAskForNewConnectionTrial 2).2.any fun id =>
        (t.cons.lookup id).any fun con => (t.nic con.clientNic).baseIndex == 2) = some true := by decide +kernel
  obtain ⟨t, reached, handed⟩ := Option.map_eq_some_iff.mp result
  obtain ⟨id, member, there⟩ := List.any_eq_true.mp handed
  rw [Option.any_eq_true] at there
  obtain ⟨con, found, index⟩ := there
  exact ⟨t, reached, id, member, con, found, List.mem_singleton.mpr (beq_iff_eq.mp index)⟩

end SmbClient.Multichannel
