import SmbClient.Multichannel.Steps

namespace SmbClient.Multichannel
open SmbClient.Lib Table

structure Indexed (t : Table) : Prop where
  index : ∀ {side i j}, i ∈ t.nicList side → j ∈ t.nicList side → (t.nic i).nicIndex = (t.nic j).nicIndex → i = j
  nodup : ∀ {client}, client ∈ t.nicList .client → (t.nic client).possibleConnections.Nodup
  possible : ∀ {client}, client ∈ t.nicList .client → ∀ j, j ∈ (t.nic client).possibleConnections ↔
    ∃ con, t.cons.lookup j = some con ∧ con.clientNic = client

theorem Table.getNicByIndex_nicIndex {t : Table} (indexed : Indexed t) {side : Side} {id : Nat}
    (listed : id ∈ t.nicList side) : t.smb2McGetNicByIndex side (t.nic id).nicIndex = some id := by
  cases found : t.smb2McGetNicByIndex side (t.nic id).nicIndex with
  | none =>
    have missing := List.find?_eq_none.mp found id listed
    simp at missing
  | some other =>
    obtain ⟨there, same⟩ := mem_of_getNicByIndex found
    rw [indexed.index there listed same]

section
variable {t next : Table}

theorem Indexed.change (indexed : Indexed t) (lists : ∀ side, next.nicList side = t.nicList side)
    (nics : ∀ id, (next.nic id).nicIndex = (t.nic id).nicIndex ∧
      (next.nic id).possibleConnections = (t.nic id).possibleConnections)
    (entries : ∀ j client, (∃ con, next.cons.lookup j = some con ∧ con.clientNic = client) ↔
      ∃ con, t.cons.lookup j = some con ∧ con.clientNic = client) : Indexed next where
  index := by
    intro side i j
    rw [lists, (nics i).1, (nics j).1]
    exact indexed.index
  nodup := by
    intro client
    rw [lists, (nics client).2]
    exact indexed.nodup
  possible := by
    intro client
    rw [lists, (nics client).2]
    intro listed j
    rw [entries]
    exact indexed.possible listed j

theorem entries_mapCons {f : Con → Con} (same : ∀ id con, t.cons.lookup id = some con → con.SameNics (f con))
    (j client : Nat) : (∃ con, (t.mapCons f).cons.lookup j = some con ∧ con.clientNic = client) ↔
      ∃ con, t.cons.lookup j = some con ∧ con.clientNic = client := by
  change (∃ con, (t.cons.mapAll f).lookup j = some con ∧ con.clientNic = client) ↔ _
  rw [Slots.lookup_mapAll]
  cases found : t.cons.lookup j with
  | none => rfl
  | some con => simp [(same j con found).1]

section
variable (linked : Linked t) (indexed : Indexed t)
include linked indexed

theorem Indexed.insert {side : Side} {nic : Nic} (fresh : nic.Fresh)
    (unlisted : t.smb2McGetNicByIndex side nic.nicIndex = none) : Indexed (t.smb2McInsertNewNicBySpeed side nic) := by
  have new := t.nic_insertNic_new side nic
  have old {a : Side} {id : Nat} (member : id ∈ t.nicList a) := linked.nic_insertNic member side nic
  -- the new interface is of an index that none on the list has
  have other {id : Nat} (member : id ∈ t.nicList side) : (t.nic id).nicIndex ≠ nic.nicIndex := by
    have missing := List.find?_eq_none.mp unlisted id member
    simpa using missing
  refine ⟨?_, ?_, ?_⟩
  · intro a i j
    rw [mem_insertNic, mem_insertNic]
    rintro (⟨rfl, rfl⟩ | memberI) (⟨here, rfl⟩ | memberJ)
    · exact fun _ => rfl
    · rw [new, old memberJ]
      exact fun same => absurd same.symm (other memberJ)
    · rw [new, old memberI]
      exact fun same => absurd same (other (here ▸ memberI))
    · rw [old memberI, old memberJ]
      exact indexed.index memberI memberJ
  · intro client
    rw [mem_insertNic]
    rintro (⟨-, rfl⟩ | member)
    · rw [new, fresh.possibleConnections]
      exact List.nodup_nil
    · rw [old member]
      exact indexed.nodup member
  · intro client
    rw [mem_insertNic, cons_insertNic]
    rintro (⟨-, rfl⟩ | member) j
    · rw [new, fresh.possibleConnections]
      refine ⟨fun listed => absurd listed List.not_mem_nil, ?_⟩
      rintro ⟨con, found, here⟩
      have listed := linked.listed found .client
      rw [Con.nic, here] at listed
      exact absurd (linked.inside listed) (Nat.lt_irrefl _)
    · rw [old member]
      exact indexed.possible member j

def Table.relist (t : Table) (cons : Slots Con) (client : Nat) (edit : List Nat → List Nat) : Table :=
  modifyNic { t with cons } client fun nic => { nic with possibleConnections := edit nic.possibleConnections }

theorem Indexed.relist {cons : Slots Con} {client : Nat} {edit : List Nat → List Nat}
    (nodup : client ∈ t.nicList .client → (edit (t.nic client).possibleConnections).Nodup)
    (mine : client ∈ t.nicList .client → ∀ j, j ∈ edit (t.nic client).possibleConnections ↔
      ∃ con, cons.lookup j = some con ∧ con.clientNic = client)
    (others : ∀ j other, other ≠ client → ((∃ con, cons.lookup j = some con ∧ con.clientNic = other) ↔
      ∃ con, t.cons.lookup j = some con ∧ con.clientNic = other)) :
    Indexed (t.relist cons client edit) := by
  have lists (side : Side) : (t.relist cons client edit).nicList side = t.nicList side := by cases side <;> rfl
  have nics {side : Side} {id : Nat} (member : id ∈ t.nicList side) : (t.relist cons client edit).nic id =
      if client = id then { t.nic id with possibleConnections := edit (t.nic id).possibleConnections } else t.nic id := by
    obtain ⟨nic, found⟩ := linked.live member
    rw [nic_of_lookup found]
    unfold Table.nic Table.relist Table.modifyNic
    dsimp only
    rw [Slots.lookup_modify, found]
    split <;> rfl
  refine ⟨?_, ?_, ?_⟩
  · intro side i j
    rw [lists]
    intro memberI memberJ
    have same {id : Nat} (member : id ∈ t.nicList side) :
        ((t.relist cons client edit).nic id).nicIndex = (t.nic id).nicIndex := by
      rw [nics member]
      split <;> rfl
    rw [same memberI, same memberJ]
    exact indexed.index memberI memberJ
  · intro other
    rw [lists]
    intro member
    rw [nics member]
    split
    · rename_i here
      subst here
      exact nodup member
    · exact indexed.nodup member
  · intro other
    rw [lists]
    intro member j
    rw [nics member]
    split
    · rename_i here
      subst here
      exact mine member j
    · rename_i elsewhere
      rw [indexed.possible member j]
      exact (others j other (Ne.symm elsewhere)).symm

theorem Indexed.join (con : Con) : Indexed (t.relist (t.cons.alloc con) con.clientNic (· ++ [t.cons.length])) := by
  have inside {client j : Nat} (member : client ∈ t.nicList .client) (possible : j ∈ (t.nic client).possibleConnections) :
      j < t.cons.length := by
    obtain ⟨con, found, -⟩ := (indexed.possible member j).mp possible
    exact Slots.lookup_lt found
  apply indexed.relist linked
  · intro member
    refine List.nodup_append.mpr ⟨indexed.nodup member, by simp, fun a old b new => ?_⟩
    rw [List.mem_singleton.mp new]
    exact Nat.ne_of_lt (inside member old)
  · intro member j
    rw [List.mem_append, List.mem_singleton, indexed.possible member, Slots.lookup_alloc]
    by_cases last : t.cons.length = j
    · simp [last]
    · simp [last, Ne.symm last]
  · intro j other elsewhere
    rw [Slots.lookup_alloc]
    split
    · rename_i last
      rw [← last, Slots.lookup_length]
      simp [Ne.symm elsewhere]
    · rfl

theorem Indexed.part (id : Nat) : Indexed (t.removeCon id) := by
  unfold removeCon
  split
  · exact indexed
  · rename_i con found
    change Indexed (t.relist (t.cons.free id) con.clientNic (·.erase id))
    apply indexed.relist linked
    · exact fun member => (indexed.nodup member).erase id
    · intro member j
      rw [(indexed.nodup member).mem_erase_iff, indexed.possible member, Slots.lookup_free]
      split
      · rename_i same
        simp [same]
      · rename_i other
        exact and_iff_right (Ne.symm other)
    · intro j other elsewhere
      rw [Slots.lookup_free]
      split
      · rename_i same
        rw [← same, found]
        simp [Ne.symm elsewhere]
      · rfl

theorem Indexed.release {side : Side} {id : Nat} (member : id ∈ t.nicList side) : Indexed (t.dropNic side id) := by
  have listed {a : Side} {j : Nat} (there : j ∈ (t.dropNic side id).nicList a) := (linked.mem_dropNic member).mp there
  refine ⟨?_, ?_, ?_⟩
  · intro a i j memberI memberJ
    rw [nic_dropNic (listed memberI).2, nic_dropNic (listed memberJ).2]
    exact indexed.index (listed memberI).1 (listed memberJ).1
  · intro client there
    rw [nic_dropNic (listed there).2]
    exact indexed.nodup (listed there).1
  · intro client there j
    rw [nic_dropNic (listed there).2, cons_dropNic]
    exact indexed.possible (listed there).1 j

end

theorem indexed_move {rules : Rules} (lenient : rules.Lenient) (same : ∀ {before after : Nic}, rules.nic before after →
      after.nicIndex = before.nicIndex ∧ after.possibleConnections = before.possibleConnections)
    (move : Move rules t next) (linked : Linked t) (indexed : Indexed t) : Indexed next := by
  cases move with
  | @nic id f allowed =>
    refine indexed.change (fun side => by cases side <;> rfl) (fun j => ?_) fun _ _ => Iff.rfl
    unfold nic modifyNic
    dsimp only
    rw [Slots.lookup_modify]
    split
    · rename_i here
      cases found : t.nics.lookup j with
      | none => exact ⟨rfl, rfl⟩
      | some nic => exact same (allowed nic (here ▸ found))
    · exact ⟨rfl, rfl⟩
  | @con id f allowed =>
    refine indexed.change (fun side => by cases side <;> rfl) (fun _ => ⟨rfl, rfl⟩) fun j client => ?_
    change (∃ con, (t.cons.modify id f).lookup j = some con ∧ con.clientNic = client) ↔ _
    rw [Slots.lookup_modify]
    split
    · rename_i here
      cases found : t.cons.lookup j with
      | none => rfl
      | some con => simp [(lenient.nics (allowed con (here ▸ found))).1]
    · rfl
  | cons allowed =>
    refine indexed.change (fun side => by cases side <;> rfl) (fun _ => ⟨rfl, rfl⟩) ?_
    exact entries_mapCons fun id con found => lenient.nics (allowed id con found)
  | insert fresh unlisted _ => exact indexed.insert linked fresh unlisted
  | reset _ =>
    refine indexed.change (fun side => by cases side <;> rfl) (fun _ => ⟨rfl, rfl⟩) (entries_mapCons fun _ con _ => ?_)
    split_ifs <;> exact ⟨rfl, rfl⟩
  | join _ _ _ _ => exact indexed.join linked _
  | part _ => exact indexed.part linked _
  | release member _ => exact indexed.release linked member
  | listing _ _ => exact indexed.change (fun side => by cases side <;> rfl) (fun _ => ⟨rfl, rfl⟩) fun _ _ => Iff.rfl
  | counter _ _ => exact indexed.change (fun side => by cases side <;> rfl) (fun _ => ⟨rfl, rfl⟩) fun _ _ => Iff.rfl
  | pause _ => exact indexed.change (fun side => by cases side <;> rfl) (fun _ => ⟨rfl, rfl⟩) fun _ _ => Iff.rfl

end

structure Ordered (t : Table) : Prop where
  linked : Linked t
  indexed : Indexed t

theorem Moves.ordered {t next : Table} (moves : Moves steady t next) (ordered : Ordered t) : Ordered next :=
  moves.invariant Ordered (fun _ _ move ordered => ⟨linked_move steady_lenient.nics move ordered.linked,
    indexed_move steady_lenient (fun same => same) move ordered.linked ordered.indexed⟩) ordered

theorem ordered_init (maxChannels srvrRssChannels clntRssChannels : Nat) (ignorelist : List Nat) (preferWired : Bool) :
    Ordered (smb2McInit maxChannels srvrRssChannels clntRssChannels ignorelist preferWired) where
  linked := linked_init _ _ _ _ _
  indexed := by
    refine ⟨fun {side _ _} member => ?_, fun member => absurd member List.not_mem_nil,
      fun member => absurd member List.not_mem_nil⟩
    cases side <;> exact absurd member List.not_mem_nil

theorem Ordered.releaseClientNics {t : Table} (ordered : Ordered t) (empty : t.cons.inUse = []) :
    Ordered t.releaseClientNics where
  linked := ordered.linked.releaseClientNics empty
  indexed := by
    refine ⟨fun {side i j} here there same => ?_, fun member => absurd member List.not_mem_nil, fun member =>
      absurd member List.not_mem_nil⟩
    cases side with
    | client => exact absurd here List.not_mem_nil
    | server =>
      have kept {id : Nat} (member : id ∈ t.nicList .server) : t.releaseClientNics.nic id = t.nic id := by
        have other : id ∉ t.clientNicList := fun there => ordered.linked.apart there member
        unfold Table.nic Table.releaseClientNics
        rw [lookup_foldl_free, if_neg other]
      change i ∈ t.nicList .server at here
      rw [kept here, kept there] at same
      exact ordered.indexed.index here there same

theorem ordered_step {t next : Table} {event : Table.Event} (ordered : Ordered t) (spares : t.Spares event)
    (taken : t.step event = some next) : Ordered next :=
  steady_step Ordered ordered.linked spares (fun _ ordered moves => moves.ordered ordered) ordered
    (fun _ ordered empty => ordered.releaseClientNics empty) taken

/-- The two lists, the connections and what the interfaces know of them agree in every state of a run, just if no report
releases interfaces that have entries. -/
theorem ordered_throughout_iff (maxChannels srvrRssChannels clntRssChannels : Nat) (ignorelist : List Nat)
    (preferWired : Bool) (events : List Table.Event) :
    Throughout Table.step Ordered
        (smb2McInit maxChannels srvrRssChannels clntRssChannels ignorelist preferWired) events ↔
      AllSteps Table.step Table.Spares
        (smb2McInit maxChannels srvrRssChannels clntRssChannels ignorelist preferWired) events :=
  throughout_iff Table.step (fun _ ordered => ordered) (fun _ _ _ ordered spares taken => ordered_step ordered spares taken)
    (fun _ _ _ _ taken ordered => spares_of_listed taken ordered.linked.listed) (fun _ _ => spares_of_refused)
    (ordered_init _ _ _ _ _) events

end SmbClient.Multichannel
