import SmbClient.Multichannel.Indexed

namespace SmbClient.Multichannel
open SmbClient.Lib Table

def Table.Unconnected (t : Table) (clientIdx serverIdx : Nat) : Prop :=
  ∀ client ∈ t.smb2McGetNicByIndex .client clientIdx, ∀ id ∈ (t.nic client).possibleConnections,
    ∀ con ∈ t.cons.lookup id, (t.nic con.serverNic).nicIndex = serverIdx → ¬con.Established

def Table.NoSibling (t : Table) (entry : Con) : Prop :=
  ∀ id ∈ t.cons.inUse, ∀ con ∈ t.cons.lookup id,
    (t.nic con.clientNic).baseIndex = (t.nic entry.clientNic).baseIndex →
    (t.nic con.serverNic).baseIndex = (t.nic entry.serverNic).baseIndex → ¬con.Established

/-- What is asked of an operation before it is carried out. -/
def Table.Careful (t : Table) : Table.Event → Prop
  | .reportConnectionTrialResults passed id _ => ∀ entry ∈ t.cons.lookup id,
      if passed then t.Unconnected (t.nic entry.clientNic).nicIndex (t.nic entry.serverNic).nicIndex
      else t.NoSibling entry
  | .updateMainChannel clientIp serverIp _ =>
    ∀ client ∈ t.smb2McGetNicByIp .client clientIp, ∀ server ∈ t.smb2McGetNicByIp .server serverIp,
      t.Unconnected (t.nic client).nicIndex (t.nic server).nicIndex
  | _ => True

instance (t : Table) (clientIdx serverIdx : Nat) : Decidable (t.Unconnected clientIdx serverIdx) := by
  unfold Unconnected
  infer_instance

instance (t : Table) (entry : Con) : Decidable (t.NoSibling entry) := by
  unfold NoSibling
  infer_instance

instance (t : Table) (e : Table.Event) : Decidable (t.Careful e) := by
  unfold Careful
  split <;> infer_instance

def Exact (t : Table) : Prop := Listing Con.Established t.cons t.successfulConList

/-! ## Operations that leave the list alone -/

def settled : Rules where
  con _ before after := before.SameNics after ∧ (after.Established ↔ before.Established)
  nic _ _ := True
  insert _ _ := True
  reset _ _ _ := True
  listing := False
  counter := True

theorem not_established_of_waiting {con : Con} (waiting : con.Waiting) : ¬con.Established := by
  unfold Con.Established
  rcases waiting with state | state <;> simp [state]

theorem not_established_of_hopeless {con : Con} (hopeless : con.Hopeless) : ¬con.Established := by
  unfold Con.Established
  rcases hopeless with state | state <;> simp [state]

theorem settled_lenient : settled.Lenient where
  nics allowed := allowed.1
  con quiet := by
    refine ⟨quiet.nics, ?_⟩
    rcases quiet.state with same | ⟨before, after⟩
    · unfold Con.Established
      rw [same]
    · exact iff_of_false (not_established_of_waiting after) (not_established_of_waiting before)
  nic _ := trivial

section
variable {t next : Table}

theorem exact_move (move : Move settled t next) (exact : Exact t) : Exact next := by
  unfold Exact
  rw [move.rest.2.1 id]
  refine Listing.congr exact fun id => ?_
  have change := move.con_cases settled_lenient id
  generalize t.cons.lookup id = before at change
  generalize next.cons.lookup id = after at change
  cases change with
  | same => rfl
  | changed allowed => simp [allowed.2]
  | reset _ hopeless state _ _ => simp [not_established_of_hopeless hopeless, not_established_of_waiting (.inl state)]
  | joined _ state _ =>
    rcases state with waiting | state
    · simp [not_established_of_waiting waiting]
    · simp [Con.Established, state]
  | parted hopeless => simp [not_established_of_hopeless hopeless]

theorem Moves.exact (moves : Moves settled t next) (exact : Exact t) : Exact next :=
  moves.invariant Exact (fun _ _ => exact_move) exact

theorem settled_askForNewConnectionTrial (maxOutLen : Nat) :
    Moves settled t (t.smb2McAskForNewConnectionTrial maxOutLen).1 := by
  refine moves_askForNewConnectionTrial settled_lenient ?_ (fun _ => trivial) trivial maxOutLen
  intro s _ id con _ state _ _
  refine ⟨⟨rfl, rfl⟩, ?_⟩
  simp [Con.Established, state]

theorem settled_returnExcessConnections (exact : Exact t) (maxOutLen : Int) :
    Moves settled t (t.smb2McReturnExcessConnections maxOutLen).1 := by
  obtain ⟨sorted, inactiveCnt, activeCnt, moves, same⟩ := returnExcessConnections_eq t maxOutLen
  rw [same]
  refine (moves settled settled_lenient).trans (moves_removeExcess _ _ _ _ fun s reached id listed con found => ?_)
  -- only connections on the list are marked
  have whole : Moves settled t s := (moves settled settled_lenient).trans reached
  rw [← whole.successfulConList not_false] at listed
  have established := (whole.exact exact).holds listed found
  exact ⟨⟨rfl, rfl⟩, fun _ => established, fun _ => .inr rfl⟩

theorem settled_refreshNicStates : Moves settled t t.refreshNicStates :=
  moves_refreshNicStates (fun _ => trivial) fun _ => trivial

end

/-! ## Established connections -/

def Table.Pending (t : Table) (serverIdx : Nat) (ids : List Nat) : Prop :=
  ∀ id ∈ ids, ∀ con ∈ t.cons.lookup id, (t.nic con.serverNic).nicIndex = serverIdx → ¬con.Established

variable {t next : Table} {serverIdx id : Nat}

theorem exact_connectPossible (exact : Exact t) (iod : Option Nat)
    {rest : List Nat} (pending : t.Pending serverIdx (id :: rest)) :
    Exact (connectPossible serverIdx iod t id) := by
  unfold connectPossible
  split
  · exact exact
  · rename_i con found
    split
    · rename_i same
      exact Listing.insert exact found (pending id List.mem_cons_self con found same) (.inl rfl)
    · split
      · rename_i potential
        exact (moves_setAside settled_lenient found potential).exact exact
      · exact exact

theorem pending_connectPossible (iod : Option Nat) {rest : List Nat}
    (new : id ∉ rest) (pending : t.Pending serverIdx rest) :
    (connectPossible serverIdx iod t id).Pending serverIdx rest := by
  have kept (f : Con → Con) : (t.modifyCon id f).Pending serverIdx rest := by
    intro j member con found
    unfold modifyCon at found
    rw [Slots.lookup_modify, if_neg (by rintro rfl; exact new member)] at found
    exact pending j member con found
  unfold connectPossible
  split
  · exact pending
  · rename_i con _
    split
    · intro j member other found
      have still := kept (fun con => { con with
        iod := iod.or con.iod, state := .connected, speed := t.conSpeed con }) j member other found
      intro same
      apply still
      rw [← same]
      exact (nicIndex_setNicStates _ con .used other.serverNic).symm
    · split
      · exact kept _
      · exact pending

theorem exact_connectAll (iod : Option Nat) (ids : List Nat) (nodup : ids.Nodup)
    (exact : Exact t) (pending : t.Pending serverIdx ids) :
    Exact (ids.foldl (connectPossible serverIdx iod) t) := by
  induction ids generalizing t with
  | nil => exact exact
  | cons id rest ih =>
    obtain ⟨new, nodup⟩ := List.nodup_cons.mp nodup
    apply ih nodup
    · exact exact_connectPossible exact iod pending
    · exact pending_connectPossible iod new fun j member => pending j (List.mem_cons_of_mem _ member)

theorem exact_updateNewConnection (ordered : Ordered t) (exact : Exact t) {clientIdx : Nat}
    {iod : Option Nat} (unconnected : t.Unconnected clientIdx serverIdx)
    (taken : t.smb2McUpdateNewConnection clientIdx serverIdx iod = some next) : Exact next := by
  unfold smb2McUpdateNewConnection at taken
  split at taken
  · rename_i clientNic _ byIndex _
    cases taken
    have nodup := ordered.indexed.nodup (mem_of_getNicByIndex byIndex).1
    refine Listing.mapAll (exact_connectAll iod _ nodup exact (unconnected clientNic byIndex)) fun _ con _ => ?_
    split
    · rename_i potential
      simp [Con.Established, potential.2]
    · rfl
  · cases taken

theorem exact_failTrial (exact : Exact t) (id : Nat) {entry : Con} (alone : t.NoSibling entry) :
    Exact (t.failTrial id entry) := by
  have index (j : Nat) :
      (((t.setNicStates entry .idle).modifyCon id ({ · with iod := none })).nic j).nicIndex = (t.nic j).nicIndex :=
    nicIndex_setNicStates t entry .idle j
  -- an entry is for the same interfaces and in the same state as before
  have before {j : Nat} {con : Con}
      (found : ((t.setNicStates entry .idle).modifyCon id ({ · with iod := none })).cons.lookup j = some con) :
      ∃ old, t.cons.lookup j = some old ∧ old.state = con.state ∧ old.clientNic = con.clientNic ∧
        old.serverNic = con.serverNic := by
    change (t.cons.modify id ({ · with iod := none })).lookup j = some con at found
    rw [Slots.lookup_modify] at found
    split at found
    · obtain ⟨old, lookup, rfl⟩ := Option.map_eq_some_iff.mp found
      exact ⟨old, lookup, rfl, rfl, rfl⟩
    · exact ⟨con, found, rfl, rfl, rfl⟩
  have idle : Exact ((t.setNicStates entry .idle).modifyCon id ({ · with iod := none })) :=
    Listing.modify exact fun _ _ => Iff.rfl
  unfold failTrial
  dsimp only
  refine Listing.mapAll idle fun j con found => ?_
  obtain ⟨old, lookup, state, client, server⟩ := before found
  unfold Con.Established
  split_ifs with sameClient sameServer surplus surplus
  · -- the siblings of the failed connection
    unfold Nic.baseIndex at sameClient sameServer
    rw [index, ← client] at sameClient
    rw [index, ← server] at sameServer
    have none := alone j (Slots.mem_inUse.mpr ⟨old, lookup⟩) old lookup sameClient sameServer
    unfold Con.Established at none
    rw [state] at none
    simp [none]
  · simp [surplus]
  · rfl
  · simp [surplus.2]
  · rfl

theorem exact_reported (ordered : Ordered t) (exact : Exact t) {passed : Bool} {turns : Option Nat}
    (careful : t.Careful (.reportConnectionTrialResults passed id turns)) {result : Table × Bool}
    (taken : t.reported passed id = some result) : Exact result.1 := by
  obtain ⟨entry, found, rfl⟩ := Option.map_eq_some_iff.mp taken
  have allowed := careful entry found
  dsimp only
  have counted : Moves steady t { t with activeOnTrialConnections := decrement32 t.activeOnTrialConnections } :=
    .single (.counter trivial _)
  cases passed with
  | true =>
    rw [if_pos rfl] at allowed ⊢
    split
    · exact settled_refreshNicStates.exact exact
    · rename_i connected
      exact settled_refreshNicStates.exact (exact_updateNewConnection (counted.ordered ordered) exact allowed connected)
  | false =>
    rw [if_neg Bool.false_ne_true] at allowed ⊢
    exact settled_refreshNicStates.exact (exact_failTrial exact id allowed)

theorem exact_updateMainChannel (ordered : Ordered t) (exact : Exact t) {clientIp serverIp : SockAddr} {iod : Nat}
    (careful : t.Careful (.updateMainChannel clientIp serverIp iod))
    (taken : t.smb2McUpdateMainChannel clientIp serverIp iod = some next) : Exact next := by
  unfold smb2McUpdateMainChannel at taken
  split at taken
  · rename_i client server byClient byServer
    exact exact_updateNewConnection ordered exact (careful client byClient server byServer) taken
  · cases taken

theorem exact_markDisconnected (exact : Exact t) {entry : Con}
    (found : t.cons.lookup id = some entry) : Exact (t.markDisconnected id entry) := by
  unfold markDisconnected
  split_ifs with established
  · exact Listing.erase exact fun con _ => by simp [Con.Established]
  · refine Listing.modify exact fun con found' => ?_
    rw [found, Option.some.injEq] at found'
    subst found'
    unfold Con.Established at established ⊢
    simp [established]
  · exact Listing.modify exact fun _ _ => Iff.rfl

theorem exact_disconnected (exact : Exact t) (taken : t.disconnected id = some next) : Exact next := by
  obtain ⟨entry, found, rfl⟩ := Option.map_eq_some_iff.mp taken
  have marked := exact_markDisconnected exact found
  exact settled_refreshNicStates.exact ((Moves.setNicStates entry fun _ => trivial).exact marked)

theorem exact_step {event : Table.Event} (ordered : Ordered t) (spares : t.Spares event) (careful : t.Careful event)
    (exact : Exact t) (taken : t.step event = some next) : Exact next := by
  refine step_invariant Exact settled_lenient (fun _ _ => trivial) (fun _ _ _ => trivial) ordered.linked spares
    (fun _ exact moves => moves.exact exact) exact (fun _ exact _ => exact) ?_ ?_ ?_ ?_ ?_ taken
  · exact fun maxOutLen _ => (settled_askForNewConnectionTrial maxOutLen).exact exact
  · rintro passed id turns rfl result
    exact exact_reported ordered exact careful
  · rintro clientIp serverIp iod rfl s
    exact exact_updateMainChannel ordered exact careful
  · exact fun _ _ _ _ => exact_disconnected exact
  · exact fun maxOutLen _ => (settled_returnExcessConnections exact maxOutLen).exact exact

/-- Whatever sequence of careful operations the session table goes through, its list of successful connections
holds the connected ones and those in removal, each once. -/
theorem successfulConList_exact (maxChannels srvrRssChannels clntRssChannels : Nat) (ignorelist : List Nat)
    (preferWired : Bool) (events : List Table.Event) (last : Table)
    (careful : AllSteps Table.step (fun t event => t.Spares event ∧ t.Careful event)
      (smb2McInit maxChannels srvrRssChannels clntRssChannels ignorelist preferWired) events)
    (reached : run Table.step (smb2McInit maxChannels srvrRssChannels clntRssChannels ignorelist preferWired) events =
      some last) :
    Listing Con.Established last.cons last.successfulConList := by
  have keeps (t : Table) (event : Table.Event) (next : Table) (holds : Ordered t ∧ Exact t)
      (allowed : t.Spares event ∧ t.Careful event) (taken : t.step event = some next) : Ordered next ∧ Exact next :=
    ⟨ordered_step holds.1 allowed.1 taken, exact_step holds.1 allowed.1 allowed.2 holds.2 taken⟩
  exact (run_invariant Table.step keeps ⟨ordered_init _ _ _ _ _, .nil⟩ careful reached).2

/-! ## A client and a server with one interface each, both with two RSS channels -/

def clientAddr : SockAddr := ⟨.inet, [10, 0, 0, 1]⟩
def serverAddr : SockAddr := ⟨.inet, [10, 0, 0, 2]⟩

def secondTrial : List Table.Event :=
  [.parseClientInterfaceArray [({ nicIndex := 1, linkSpeed := 1000, rssCapable := true, addr := clientAddr }, .whole)] false,
    .queryInfoResponseEvent [{ nicIndex := 1, linkSpeed := 1000, rssCapable := true, addr := serverAddr }],
    .updateMainChannel clientAddr serverAddr 7,
    .askForNewConnectionTrial 1,
    .attach 1 8]

theorem successfulConList_exact_secondTrial :
    ∃ last, run Table.step (smb2McInit 0 2 2 [] false)
        (secondTrial ++ [.reportConnectionTrialResults true 1, .returnExcessConnections 1]) = some last ∧
      Listing Con.Established last.cons last.successfulConList ∧ last.successfulConList = [2, 1] := by
  have result : (run Table.step (smb2McInit 0 2 2 [] false)
      (secondTrial ++ [.reportConnectionTrialResults true 1, .returnExcessConnections 1])).map
        (·.successfulConList) = some [2, 1] := by decide +kernel
  obtain ⟨last, reached, list⟩ := Option.map_eq_some_iff.mp result
  refine ⟨last, reached, ?_, list⟩
  apply successfulConList_exact 0 2 2 [] false _ last ?_ reached
  decide +kernel

/-- The trial fails: the main channel is marked as failed too and stays on the list. -/
theorem failedTrial_marks_mainChannel :
    ∃ last, run Table.step (smb2McInit 0 2 2 [] false)
        (secondTrial ++ [.reportConnectionTrialResults false 1]) = some last ∧
      ¬Listing Con.Established last.cons last.successfulConList := by
  have result : (run Table.step (smb2McInit 0 2 2 [] false)
      (secondTrial ++ [.reportConnectionTrialResults false 1])).map
        (fun last => (last.successfulConList, (last.cons.lookup 2).map (·.state))) =
      some ([2], some .failedToConnect) := by decide +kernel
  obtain ⟨last, reached, state⟩ := Option.map_eq_some_iff.mp result
  refine ⟨last, reached, fun listing => ?_⟩
  obtain ⟨list, failed⟩ := Prod.mk.inj state
  obtain ⟨con, found, failed⟩ := Option.map_eq_some_iff.mp failed
  have established : con.Established := listing.holds (list ▸ List.mem_singleton_self 2) found
  unfold Con.Established at established
  simp [failed] at established

end SmbClient.Multichannel
