import SmbClient.Multichannel.Steps

/-! The connection list over histories. -/

namespace SmbClient.Multichannel
open SmbClient.Lib Table

/-- At most one entry for each pair, and only for listed interfaces. -/
structure Tidy (t : Table) : Prop where
  unique : ∀ i j a b, t.cons.lookup i = some a → t.cons.lookup j = some b →
    a.clientNic = b.clientNic → a.serverNic = b.serverNic → i = j
  listed : ∀ id con, t.cons.lookup id = some con → con.clientNic ∈ t.clientNicList ∧ con.serverNic ∈ t.serverNicList

def Complete (t : Table) : Prop :=
  ∀ client ∈ t.clientNicList, ∀ server ∈ t.serverNicList,
    ∃! id, ∃ con, t.cons.lookup id = some con ∧ con.clientNic = client ∧ con.serverNic = server

def Table.Updates (t : Table) : Table.Event → Prop
  | .notifierEvent clientInfo clntRssChannels rssForceOn turns => turns = none ∧
      ((((notifierTable clientInfo clntRssChannels rssForceOn).nicList .client).map
        (notifierTable clientInfo clntRssChannels rssForceOn).nic).foldl (updateNic .client) (t, false)).2 = true
  | .queryInfoResponseEvent serverInfo turns => turns = none ∧
      ((((responseTable serverInfo t.srvrRssChannels).nicList .server).map
        (responseTable serverInfo t.srvrRssChannels).nic).foldl (updateNic .server) (t, false)).2 = true
  | .reportConnectionTrialResults passed id turns => turns = none ∧ ∀ result ∈ t.reported passed id, result.2 = true
  | .informConnectionDisconnected _ turns => turns = none
  | _ => False

/-- The call leaves the list complete if it updates it. -/
def Table.Completes (t : Table) (event : Table.Event) : Prop :=
  t.Updates event → ∀ next, t.step event = some next → Complete next

section
variable {t next : Table}

theorem Linked.tidy (linked : Linked t) : Tidy t where
  unique _ _ _ _ foundA foundB client server := linked.unique foundA foundB ⟨client.symm, server.symm⟩
  listed _ _ found := ⟨linked.listed found .client, linked.listed found .server⟩

theorem Tidy.nics (tidy : Tidy t) {id : Nat} {con : Con} (found : t.cons.lookup id = some con) (side : Side) :
    con.nic side ∈ t.nicList side := by
  cases side
  · exact (tidy.listed id con found).1
  · exact (tidy.listed id con found).2

variable {event : Table.Event} {client server : Nat}

/-! ## `smb2_mc_update_con_list` completes the list -/

def Table.Joined (t : Table) (client server : Nat) : Prop :=
  ∃ id con, t.cons.lookup id = some con ∧ con.clientNic = client ∧ con.serverNic = server

def Table.Spanning (t : Table) : Prop :=
  ∀ client ∈ t.nicList .client, ∀ server ∈ t.nicList .server, t.Joined client server

theorem Linked.complete (linked : Linked t) (spanning : t.Spanning) : Complete t := by
  intro client hereClient server hereServer
  obtain ⟨id, con, found, ofClient, ofServer⟩ := spanning client hereClient server hereServer
  refine ⟨id, ⟨con, found, ofClient, ofServer⟩, ?_⟩
  rintro other ⟨con', found', ofClient', ofServer'⟩
  exact linked.tidy.unique other id con' con found' found (ofClient'.trans ofClient.symm) (ofServer'.trans ofServer.symm)

theorem Table.Joined.modifyCon (joined : t.Joined client server) (id : Nat) {f : Con → Con}
    (nics : ∀ con : Con, con.SameNics (f con)) : (t.modifyCon id f).Joined client server := by
  obtain ⟨j, con, found, ofClient, ofServer⟩ := joined
  by_cases same : id = j
  · refine ⟨j, f con, ?_, (nics con).1.trans ofClient, (nics con).2.trans ofServer⟩
    rw [Table.modifyCon, Slots.lookup_modify, if_pos same, found]
    rfl
  · refine ⟨j, con, ?_, ofClient, ofServer⟩
    rw [Table.modifyCon, Slots.lookup_modify, if_neg same, found]

theorem updateCon_cases (t : Table) (pair : Nat × Nat) :
    (∃ con f, t.updateCon pair = ({ t with cons := t.cons.alloc con } : Table).modifyNic pair.1 f ∧
        con.clientNic = pair.1 ∧ con.serverNic = pair.2) ∨
      ∃ id f, t.updateCon pair = t.modifyCon id f ∧ t.Joined pair.1 pair.2 ∧ ∀ con : Con, con.SameNics (f con) := by
  unfold updateCon
  dsimp only
  split
  · exact .inl ⟨_, _, rfl, rfl, rfl⟩
  · rename_i id found
    have here := List.find?_some found
    rw [Option.any_eq_true] at here
    obtain ⟨con, found, both⟩ := here
    rw [Bool.and_eq_true, beq_iff_eq, beq_iff_eq] at both
    refine .inr ⟨id, _, rfl, ⟨id, con, found, both⟩, fun con => ?_⟩
    split <;> exact ⟨rfl, rfl⟩

theorem joined_updateCon (t : Table) (pair : Nat × Nat) : (t.updateCon pair).Joined pair.1 pair.2 := by
  rcases updateCon_cases t pair with ⟨con, f, same, ofClient, ofServer⟩ | ⟨id, f, same, joined, nics⟩
  · refine ⟨t.cons.length, con, ?_, ofClient, ofServer⟩
    rw [same]
    exact (Slots.lookup_alloc t.cons con t.cons.length).trans (if_pos rfl)
  · rw [same]
    exact joined.modifyCon id nics

theorem Table.Joined.updateCon (joined : t.Joined client server) (pair : Nat × Nat) :
    (t.updateCon pair).Joined client server := by
  rcases updateCon_cases t pair with ⟨con, f, same, -⟩ | ⟨id, f, same, -, nics⟩
  · obtain ⟨j, old, found, nics⟩ := joined
    refine ⟨j, old, ?_, nics⟩
    rw [same]
    exact (Slots.lookup_alloc t.cons con j).trans ((if_neg (Slots.lookup_lt found).ne').trans found)
  · rw [same]
    exact joined.modifyCon id nics

theorem joined_updateCon_iff (pair : Nat × Nat) (client server : Nat) :
    (t.updateCon pair).Joined client server ↔ t.Joined client server ∨ pair = (client, server) := by
  constructor
  · rintro ⟨j, con, found, ofClient, ofServer⟩
    rcases updateCon_cases t pair with ⟨new, f, same, isClient, isServer⟩ | ⟨id, f, same, -, nics⟩
    · rw [same] at found
      change (t.cons.alloc new).lookup j = some con at found
      rw [Slots.lookup_alloc] at found
      split at found
      · cases found
        exact .inr (Prod.ext (isClient.symm.trans ofClient) (isServer.symm.trans ofServer))
      · exact .inl ⟨j, con, found, ofClient, ofServer⟩
    · rw [same] at found
      unfold modifyCon at found
      rw [Slots.lookup_modify] at found
      split at found
      · obtain ⟨old, before, rfl⟩ := Option.map_eq_some_iff.mp found
        exact .inl ⟨j, old, before, (nics old).1.symm.trans ofClient, (nics old).2.symm.trans ofServer⟩
      · exact .inl ⟨j, con, found, ofClient, ofServer⟩
  · rintro (joined | rfl)
    · exact joined.updateCon pair
    · exact joined_updateCon t (client, server)

theorem joined_updateCons_iff (pairs : List (Nat × Nat)) (client server : Nat) :
    (pairs.foldl updateCon t).Joined client server ↔ t.Joined client server ∨ (client, server) ∈ pairs := by
  induction pairs generalizing t with
  | nil => simp
  | cons pair rest ih =>
    rw [List.foldl_cons, ih, joined_updateCon_iff, List.mem_cons, or_assoc, eq_comm (a := pair)]

theorem nicList_updateCons (side : Side) (pairs : List (Nat × Nat)) (t : Table) :
    (pairs.foldl updateCon t).nicList side = t.nicList side := by
  induction pairs generalizing t with
  | nil => rfl
  | cons pair rest ih => exact (ih _).trans (nicList_updateCon side pair)

theorem spanning_updateConList (t : Table) : t.smb2McUpdateConList.Spanning := by
  intro client hereClient server hereServer
  rw [updateConList_none] at hereClient hereServer ⊢
  rw [nicList_updateCons] at hereClient hereServer
  refine (joined_updateCons_iff _ _ _).mpr (.inr ?_)
  exact List.mem_flatMap.mpr ⟨client, hereClient, List.mem_map.mpr ⟨server, hereServer, rfl⟩⟩

theorem Table.Spanning.removeNicIfUnused (spanning : t.Spanning) (linked : Linked t) (side : Side) (nicId : Nat) :
    (t.smb2McRemoveNicIfUnused side nicId).Spanning := by
  unfold smb2McRemoveNicIfUnused
  dsimp only
  generalize mine : (t.cons.inUse.filter fun id => (t.cons.lookup id).any fun con => con.nic side == nicId) = ids
  split
  · intro client hereClient server hereServer
    have before {a : Side} {id : Nat}
        (here : id ∈ (((ids.foldl removeCon t).withNicList side
          (((ids.foldl removeCon t).nicList side).erase nicId)).nicList a)) :
        id ∈ t.nicList a ∧ (a = side → id ≠ nicId) := by
      rw [nicList_withNicList, nicList_removeCons] at here
      split at here
      · rename_i same
        subst same
        rw [(linked.nodup _).mem_erase_iff] at here
        exact ⟨here.2, fun _ => here.1⟩
      · rename_i other
        rw [nicList_removeCons] at here
        exact ⟨here, fun same => absurd same.symm other⟩
    rw [nicList_with] at hereClient hereServer
    have ofClient := before hereClient
    have ofServer := before hereServer
    obtain ⟨id, con, found, isClient, isServer⟩ := spanning client ofClient.1 server ofServer.1
    have elsewhere : con.nic side ≠ nicId := by
      cases side with
      | client => exact fun same => ofClient.2 rfl (isClient.symm.trans same)
      | server => exact fun same => ofServer.2 rfl (isServer.symm.trans same)
    refine ⟨id, con, ?_, isClient, isServer⟩
    change ((ids.foldl removeCon t).withNicList side _).cons.lookup id = some con
    rw [cons_withNicList, lookup_removeCons, if_neg, found]
    rw [← mine, List.mem_filter, found]
    simp [elsewhere]
  · exact spanning

theorem spanning_removeUnused (spanning : t.Spanning) (linked : Linked t) (side : Side) (ids : List Nat) :
    (ids.foldl (fun t id => t.smb2McRemoveNicIfUnused side id) t).Spanning := by
  induction ids generalizing t with
  | nil => exact spanning
  | cons id rest ih =>
    have moves : Moves steady t (t.smb2McRemoveNicIfUnused side id) := moves_removeNicIfUnused linked side id
    exact ih (spanning.removeNicIfUnused linked side id) (moves.linked steady_lenient linked)

theorem spanning_updateNicListFromNotifier {infos : List NetworkNicInfo} {updated : Table} (linked : Linked t)
    (side : Side) (reported : updated.nics.All (Nic.ReportedIn infos))
    (needed : (((updated.nicList side).map updated.nic).foldl (updateNic side) (t, false)).2 = true) :
    (t.smb2McUpdateNicListFromNotifier updated side).Spanning := by
  have first : Moves steady t (((updated.nicList side).map updated.nic).foldl (updateNic side) (t, false)).1 :=
    moves_updateNics steady_lenient (fresh_nicList reported side) (fun _ _ => trivial) (fun _ _ => trivial) false
  unfold smb2McUpdateNicListFromNotifier
  dsimp only
  rw [if_pos needed]
  have updated := Moves.linked steady_lenient (first.trans (moves_updateConList steady_lenient none)) linked
  exact spanning_removeUnused (spanning_updateConList _) updated side _

theorem completes_step (linked : Linked t) (spares : t.Spares event) : t.Completes event := by
  intro updates next taken
  refine (linked_step linked spares taken).complete ?_
  cases event with
  | notifierEvent clientInfo clntRssChannels rssForceOn turns =>
    cases taken
    obtain ⟨rfl, needed⟩ := updates
    exact spanning_updateNicListFromNotifier linked _ (reported_notifierTable _ _ _) needed
  | queryInfoResponseEvent serverInfo turns =>
    cases taken
    obtain ⟨rfl, needed⟩ := updates
    exact spanning_updateNicListFromNotifier linked _ (reported_responseTable _ _) needed
  | reportConnectionTrialResults passed id turns =>
    obtain ⟨result, reported, rfl⟩ := Option.map_eq_some_iff.mp taken
    obtain ⟨rfl, reached⟩ := updates
    rw [if_pos (reached result reported)]
    exact spanning_updateConList _
  | informConnectionDisconnected id turns =>
    obtain ⟨s, disconnected, rfl⟩ := Option.map_eq_some_iff.mp taken
    cases updates
    exact spanning_updateConList s
  | _ => exact updates.elim

end

/-- In every history the connection list is as it should be just if no report releases interfaces that have
entries. -/
theorem conList_tidy_iff (maxChannels srvrRssChannels clntRssChannels : Nat) (ignorelist : List Nat) (preferWired : Bool)
    (events : List Table.Event) :
    (let start := smb2McInit maxChannels srvrRssChannels clntRssChannels ignorelist preferWired
     Throughout Table.step Tidy start events ∧ AllSteps Table.step Completes start events) ↔
      AllSteps Table.step Spares
        (smb2McInit maxChannels srvrRssChannels clntRssChannels ignorelist preferWired) events := by
  have start := linked_init maxChannels srvrRssChannels clntRssChannels ignorelist preferWired
  have tidy := throughout_iff Table.step (fun _ => Linked.tidy)
    (fun _ _ _ linked spares taken => linked_step linked spares taken)
    (fun _ _ _ _ taken tidy => spares_of_listed taken tidy.nics) (fun _ _ => spares_of_refused) start events
  refine ⟨fun both => tidy.mp both.1, fun spares => ⟨tidy.mpr spares, ?_⟩⟩
  exact AllSteps.of_invariant Table.step (fun _ _ _ linked spares taken => linked_step linked spares taken)
    (fun _ _ linked spares => completes_step linked spares) start spares

def reportFails : List Table.Event :=
  [.parseClientInterfaceArray [({ nicIndex := 1, linkSpeed := 1000, addr := ⟨.inet, [10, 0, 0, 1]⟩ }, .whole)] false,
    .queryInfoResponseEvent [{ nicIndex := 1, linkSpeed := 1000, addr := ⟨.inet, [10, 0, 0, 11]⟩ }],
    .parseClientInterfaceArray [({ nicIndex := 2, linkSpeed := 1000, addr := ⟨.inet, [10, 0, 0, 2]⟩ }, .nothing)] false]

/-- The entry stays, and the interface that it is for is gone. -/
theorem conList_dangling : ∃ last con, run Table.step (smb2McInit 0 1 1 [] false) reportFails = some last ∧
    last.cons.lookup 0 = some con ∧ con.clientNic ∉ last.clientNicList ∧ last.nics.lookup con.clientNic = none := by
  have result : (run Table.step (smb2McInit 0 1 1 [] false) reportFails).map
      (fun last => (last.cons.lookup 0, last.clientNicList, last.nics.lookup 0)) =
        some (some { state := .potential, clientNic := 0, serverNic := 1 }, [], none) := by decide +kernel
  obtain ⟨last, reached, same⟩ := Option.map_eq_some_iff.mp result
  simp only [Prod.mk.injEq] at same
  obtain ⟨found, list, gone⟩ := same
  exact ⟨last, _, reached, found, list ▸ List.not_mem_nil, gone⟩

end SmbClient.Multichannel
