import Mathlib.Data.List.Nodup
import SmbClient.Multichannel.ConList
import SmbClient.Multichannel.Indexed
import SmbClient.Multichannel.IpTypes

/-! Which interfaces an update of one side's list removes. -/

namespace SmbClient.Multichannel
open SmbClient.Lib Table

/-! ## Removal -/

def Table.EntryOf (t : Table) (side : Side) (id : Nat) (con : Con) : Prop :=
  (∃ j, t.cons.lookup j = some con) ∧ con.nic side = id

/-- The interface is not to be remembered, and it has connections, but nothing is expected of any of them. -/
structure Table.Unused (t : Table) (side : Side) (id : Nat) : Prop where
  unmarked : (t.nic id).inIgnorelist = false
  some : ∃ con, t.EntryOf side id con
  hopeless : ∀ con, t.EntryOf side id con → con.Hopeless

def Nic.bare (nic : Nic) : Nic := { nic with possibleConnections := [] }

structure Table.Released (t : Table) (side : Side) (id : Nat) (next : Table) : Prop where
  list : next.nicList side = (t.nicList side).erase id
  entries : ∀ con, (∃ j, next.cons.lookup j = some con) ↔ (∃ j, t.cons.lookup j = some con) ∧ con.nic side ≠ id
  nics : ∀ other, other ≠ id → (next.nic other).bare = (t.nic other).bare

section
variable {t : Table}

theorem bare_relist (cons : Slots Con) (client other : Nat) (edit : List Nat → List Nat) :
    ((t.relist cons client edit).nic other).bare = (t.nic other).bare := by
  unfold relist nic modifyNic
  rw [Slots.lookup_modify]
  split
  · cases t.nics.lookup other <;> rfl
  · rfl

theorem bare_removeCons (ids : List Nat) (other : Nat) :
    ((ids.foldl removeCon t).nic other).bare = (t.nic other).bare := by
  induction ids generalizing t with
  | nil => rfl
  | cons id rest ih =>
    rw [List.foldl_cons, ih]
    unfold removeCon
    split
    · rfl
    · exact bare_relist _ _ _ (·.erase id)

theorem removeNicIfUnused_cases (side : Side) (id : Nat) :
    t.Unused side id ∧ t.Released side id (t.smb2McRemoveNicIfUnused side id) ∨
      ¬t.Unused side id ∧ t.smb2McRemoveNicIfUnused side id = t := by
  unfold smb2McRemoveNicIfUnused
  dsimp only
  generalize isMine : (t.cons.inUse.filter fun j => (t.cons.lookup j).any fun con => con.nic side == id) = mine
  have mem_mine (j : Nat) : j ∈ mine ↔ ∃ con, t.cons.lookup j = some con ∧ con.nic side = id := by
    rw [← isMine, List.mem_filter, Slots.mem_inUse]
    constructor
    · rintro ⟨⟨con, found⟩, here⟩
      exact ⟨con, found, by simpa [found] using here⟩
    · rintro ⟨con, found, here⟩
      exact ⟨⟨con, found⟩, by simp [found, here]⟩
  split
  · rename_i unused
    rw [Bool.and_eq_true, List.all_eq_true] at unused
    obtain ⟨nonempty, canRemove⟩ := unused
    have idle {j : Nat} {con : Con} (found : t.cons.lookup j = some con) (here : con.nic side = id) :
        (t.nic id).inIgnorelist = false ∧ con.Hopeless := by
      have can := canRemove j ((mem_mine j).mpr ⟨con, found, here⟩)
      simp only [found, Option.all_some, Bool.and_eq_true, Bool.not_eq_true', Bool.or_eq_true, beq_iff_eq] at can
      exact ⟨can.1, can.2.symm⟩
    obtain ⟨first, member⟩ := List.exists_mem_of_ne_nil mine (by simpa using nonempty)
    obtain ⟨con, found, here⟩ := (mem_mine first).mp member
    refine .inl ⟨⟨(idle found here).1, ⟨con, ⟨first, found⟩, here⟩, ?_⟩, ?_, ?_, ?_⟩
    · rintro con ⟨⟨j, found⟩, here⟩
      exact (idle found here).2
    · rw [nicList_with, nicList_withNicList, if_pos rfl, nicList_removeCons]
    · intro con
      change (∃ j, ((mine.foldl removeCon t).withNicList side _).cons.lookup j = some con) ↔ _
      rw [cons_withNicList]
      constructor
      · rintro ⟨j, found⟩
        rw [lookup_removeCons] at found
        split at found
        · cases found
        · rename_i other
          exact ⟨⟨j, found⟩, fun here => other ((mem_mine j).mpr ⟨con, found, here⟩)⟩
      · rintro ⟨⟨j, found⟩, elsewhere⟩
        refine ⟨j, ?_⟩
        rw [lookup_removeCons, if_neg, found]
        rintro member
        obtain ⟨con', found', here⟩ := (mem_mine j).mp member
        exact elsewhere (Option.some.inj (found.symm.trans found') ▸ here)
    · intro other different
      refine Eq.trans ?_ (bare_removeCons mine other)
      unfold nic
      rw [Slots.lookup_free, if_neg (Ne.symm different)]
  · rename_i used
    refine .inr ⟨fun unused => used ?_, rfl⟩
    rw [Bool.and_eq_true, List.all_eq_true]
    constructor
    · obtain ⟨con, ⟨j, found⟩, here⟩ := unused.some
      have member := (mem_mine j).mpr ⟨con, found, here⟩
      simpa using List.ne_nil_of_mem member
    · intro j member
      obtain ⟨con, found, here⟩ := (mem_mine j).mp member
      have hopeless := unused.hopeless con ⟨⟨j, found⟩, here⟩
      simp only [found, Option.all_some, unused.unmarked, Bool.not_false, Bool.true_and, Bool.or_eq_true, beq_iff_eq]
      exact hopeless.symm

variable {id : Nat}

def Table.HopefulAt (t : Table) (side : Side) (id : Nat) : Prop := ∃ con, t.EntryOf side id con ∧ ¬con.Hopeless

theorem unused_iff {side : Side} : t.Unused side id ↔
    (t.nic id).inIgnorelist = false ∧ (∃ con, t.EntryOf side id con) ∧ ¬t.HopefulAt side id := by
  constructor
  · rintro ⟨unmarked, some, hopeless⟩
    exact ⟨unmarked, some, fun ⟨con, entry, hopeful⟩ => hopeful (hopeless con entry)⟩
  · rintro ⟨unmarked, some, hopeless⟩
    exact ⟨unmarked, some, fun con entry => not_not.mp fun hopeful => hopeless ⟨con, entry, hopeful⟩⟩

theorem unused_released {side : Side} {other : Nat} {next : Table} (released : t.Released side id next)
    (different : other ≠ id) : next.Unused side other ↔ t.Unused side other := by
  have marks : (next.nic other).bare.inIgnorelist = (t.nic other).bare.inIgnorelist := by
    rw [released.nics other different]
  change (next.nic other).inIgnorelist = (t.nic other).inIgnorelist at marks
  have entries (con : Con) : next.EntryOf side other con ↔ t.EntryOf side other con := by
    unfold EntryOf
    rw [released.entries, and_assoc]
    exact and_congr_right fun _ => and_iff_right_of_imp fun here => here ▸ different
  rw [unused_iff, unused_iff, marks]
  unfold HopefulAt
  simp only [entries]

theorem mem_removeUnused (side : Side) (ids : List Nat) (nodup : ids.Nodup) (listed : (t.nicList side).Nodup) (id : Nat) :
    (id ∈ (ids.foldl (fun t id => t.smb2McRemoveNicIfUnused side id) t).nicList side ↔
      id ∈ t.nicList side ∧ ¬(id ∈ ids ∧ t.Unused side id)) ∧
    (id ∈ (ids.foldl (fun t id => t.smb2McRemoveNicIfUnused side id) t).nicList side →
      ((ids.foldl (fun t id => t.smb2McRemoveNicIfUnused side id) t).nic id).bare = (t.nic id).bare) := by
  induction ids generalizing t with
  | nil => simp
  | cons first rest ih =>
    obtain ⟨notLater, nodup⟩ := List.nodup_cons.mp nodup
    rw [List.foldl_cons]
    rcases removeNicIfUnused_cases side first with ⟨unused, released⟩ | ⟨used, same⟩
    · obtain ⟨left, bare⟩ := ih nodup (released.list ▸ listed.erase first)
      rw [released.list, listed.mem_erase_iff] at left
      refine ⟨left.trans ?_, fun member => (bare member).trans (released.nics id (left.mp member).1.1)⟩
      rw [List.mem_cons]
      by_cases here : id = first
      · subst here
        simp [unused]
      · rw [unused_released released here]
        simp [here]
    · obtain ⟨left, bare⟩ := ih nodup listed
      rw [same]
      refine ⟨left.trans ?_, bare⟩
      rw [List.mem_cons]
      by_cases here : id = first
      · subst here
        simp [used]
      · simp [here]

/-! ## New entries -/

def Table.Hopeful (t : Table) (client server : Nat) : Prop :=
  ∃ j con, t.cons.lookup j = some con ∧ con.clientNic = client ∧ con.serverNic = server ∧ ¬con.Hopeless

def Nic.Usable (client server : Nic) : Prop := client.SharesVersion server = true ∧ client.inIgnorelist = false

theorem usable_bare {client server : Nic} : client.bare.Usable server.bare ↔ client.Usable server := Iff.rfl

theorem hopeful_modifyCon {client server : Nat} {f : Con → Con} (same : ∀ con : Con, con.SameNics (f con))
    (keeps : ∀ con, t.cons.lookup id = some con → ((f con).Hopeless ↔ con.Hopeless)) :
    (t.modifyCon id f).Hopeful client server ↔ t.Hopeful client server := by
  unfold Hopeful modifyCon
  refine exists_congr fun j => ?_
  rw [Slots.lookup_modify]
  split
  · rename_i here
    subst here
    cases found : t.cons.lookup id with
    | none => simp
    | some con => simp [(same con).1, (same con).2, keeps con found]
  · rfl

theorem hopeful_updateCon (pair : Nat × Nat) (client server : Nat) :
    (t.updateCon pair).Hopeful client server ↔ t.Hopeful client server ∨
      pair = (client, server) ∧ ¬t.Joined client server ∧ (t.nic client).Usable (t.nic server) := by
  unfold updateCon
  dsimp only
  split
  · rename_i absent
    have apart : ¬t.Joined pair.1 pair.2 := by
      rintro ⟨j, con, found, both⟩
      exact findConByNics_eq_none absent found both
    generalize newState : (if !((t.nic pair.1).ipv4 && (t.nic pair.2).ipv4) && !((t.nic pair.1).ipv6 && (t.nic pair.2).ipv6) ||
      (t.nic pair.1).inIgnorelist then ConState.noPotential else if (t.nic pair.2).state = .used then .surplus else .potential) =
      state
    have hopeless : Con.Hopeless { state, clientNic := pair.1, serverNic := pair.2 } ↔
        ¬(t.nic pair.1).Usable (t.nic pair.2) := by
      unfold Con.Hopeless Nic.Usable Nic.SharesVersion
      rw [← newState]
      cases (t.nic pair.1).ipv4 <;> cases (t.nic pair.2).ipv4 <;> cases (t.nic pair.1).ipv6 <;>
        cases (t.nic pair.2).ipv6 <;> cases (t.nic pair.1).inIgnorelist <;> simp <;> split <;> simp
    unfold Hopeful
    change (∃ j con, (t.cons.alloc { state, clientNic := pair.1, serverNic := pair.2 }).lookup j = some con ∧ _) ↔ _
    constructor
    · rintro ⟨j, con, found, ofClient, ofServer, hopeful⟩
      rw [Slots.lookup_alloc] at found
      split at found
      · cases found
        rw [hopeless, not_not] at hopeful
        change pair.1 = client at ofClient
        change pair.2 = server at ofServer
        subst ofClient ofServer
        exact .inr ⟨rfl, apart, hopeful⟩
      · exact .inl ⟨j, con, found, ofClient, ofServer, hopeful⟩
    · rintro (⟨j, con, found, rest⟩ | ⟨rfl, -, usable⟩)
      · refine ⟨j, con, ?_, rest⟩
        rw [Slots.lookup_alloc, if_neg (Slots.lookup_lt found).ne', found]
      · refine ⟨t.cons.length, _, ?_, rfl, rfl, fun none => hopeless.mp none usable⟩
        rw [Slots.lookup_alloc, if_pos rfl]
  · rename_i id found
    have joined : t.Joined pair.1 pair.2 := by
      have here := List.find?_some found
      rw [Option.any_eq_true] at here
      obtain ⟨con, found, both⟩ := here
      rw [Bool.and_eq_true, beq_iff_eq, beq_iff_eq] at both
      exact ⟨id, con, found, both⟩
    rw [hopeful_modifyCon]
    · refine ⟨.inl, fun either => either.resolve_right ?_⟩
      rintro ⟨rfl, apart, -⟩
      exact apart joined
    · intro con
      split <;> exact ⟨rfl, rfl⟩
    · intro con _
      split
      · rename_i surplus
        simp [Con.Hopeless, surplus.2.2]
      · rfl

theorem bare_updateCon (pair : Nat × Nat) (id : Nat) : ((t.updateCon pair).nic id).bare = (t.nic id).bare := by
  unfold updateCon
  dsimp only
  split
  · exact bare_relist _ _ _ (· ++ [t.cons.length])
  · rfl

theorem hopeful_updateCons (pairs : List (Nat × Nat)) (client server : Nat) :
    (pairs.foldl updateCon t).Hopeful client server ↔ t.Hopeful client server ∨
      (client, server) ∈ pairs ∧ ¬t.Joined client server ∧ (t.nic client).Usable (t.nic server) := by
  induction pairs generalizing t with
  | nil => simp
  | cons pair rest ih =>
    have usable : ((t.updateCon pair).nic client).Usable ((t.updateCon pair).nic server) ↔
        (t.nic client).Usable (t.nic server) := by
      rw [← usable_bare, bare_updateCon, bare_updateCon, usable_bare]
    rw [List.foldl_cons, ih, hopeful_updateCon, joined_updateCon_iff, usable, List.mem_cons, eq_comm (a := pair)]
    by_cases first : (client, server) = pair <;> by_cases later : (client, server) ∈ rest <;> simp [first, later]

theorem bare_updateCons (pairs : List (Nat × Nat)) (id : Nat) :
    ((pairs.foldl updateCon t).nic id).bare = (t.nic id).bare := by
  induction pairs generalizing t with
  | nil => rfl
  | cons pair rest ih => rw [List.foldl_cons, ih, bare_updateCon]

end

/-! ## Seen from one side -/

def Side.other : Side → Side
  | .client => .server
  | .server => .client

def Side.pair (side : Side) (id o : Nat) : Nat × Nat :=
  match side with
  | .client => (id, o)
  | .server => (o, id)

def Table.JoinedAt (t : Table) (side : Side) (id o : Nat) : Prop := t.Joined (side.pair id o).1 (side.pair id o).2

def Nic.UsableWith (side : Side) (nic o : Nic) : Prop :=
  match side with
  | .client => nic.Usable o
  | .server => o.Usable nic

section
variable {t : Table} {side : Side} {id : Nat}

theorem of_pair_iff {con : Con} {o : Nat} : con.clientNic = (side.pair id o).1 ∧ con.serverNic = (side.pair id o).2 ↔
    con.nic side = id ∧ con.nic side.other = o := by
  cases side with
  | client => rfl
  | server => exact and_comm

theorem joinedAt_iff {o : Nat} : t.JoinedAt side id o ↔ ∃ con, t.EntryOf side id con ∧ con.nic side.other = o := by
  unfold JoinedAt Table.Joined EntryOf
  simp only [of_pair_iff]
  constructor
  · rintro ⟨j, con, found, here, there⟩
    exact ⟨con, ⟨⟨j, found⟩, here⟩, there⟩
  · rintro ⟨con, ⟨⟨j, found⟩, here⟩, there⟩
    exact ⟨j, con, found, here, there⟩

theorem exists_entryOf_iff : (∃ con, t.EntryOf side id con) ↔ ∃ o, t.JoinedAt side id o := by
  simp only [joinedAt_iff]
  constructor
  · rintro ⟨con, entry⟩
    exact ⟨_, con, entry, rfl⟩
  · rintro ⟨_, con, entry, -⟩
    exact ⟨con, entry⟩

theorem hopefulAt_iff : t.HopefulAt side id ↔ ∃ o, t.Hopeful (side.pair id o).1 (side.pair id o).2 := by
  unfold HopefulAt Hopeful EntryOf
  simp only [← and_assoc (a := Con.clientNic _ = _), of_pair_iff]
  constructor
  · rintro ⟨con, ⟨⟨j, found⟩, here⟩, hopeful⟩
    exact ⟨_, j, con, found, ⟨here, rfl⟩, hopeful⟩
  · rintro ⟨_, j, con, found, ⟨here, -⟩, hopeful⟩
    exact ⟨con, ⟨⟨j, found⟩, here⟩, hopeful⟩

theorem mem_pairs (listed : id ∈ t.nicList side) (o : Nat) :
    side.pair id o ∈ (t.clientNicList.flatMap fun client => t.serverNicList.map fun server => (client, server)) ↔
      o ∈ t.nicList side.other := by
  cases side with
  | client =>
    change id ∈ t.clientNicList at listed
    simp [Side.pair, Side.other, nicList, listed]
  | server =>
    change id ∈ t.serverNicList at listed
    simp [Side.pair, Side.other, nicList, listed]

theorem usableWith_pair {o : Nat} : (t.nic (side.pair id o).1).Usable (t.nic (side.pair id o).2) ↔
    Nic.UsableWith side (t.nic id) (t.nic o) := by
  cases side <;> rfl

theorem hopefulAt_updateConList (listed : id ∈ t.nicList side) :
    t.smb2McUpdateConList.HopefulAt side id ↔ t.HopefulAt side id ∨
      ∃ o ∈ t.nicList side.other, ¬t.JoinedAt side id o ∧ Nic.UsableWith side (t.nic id) (t.nic o) := by
  unfold JoinedAt
  rw [updateConList_none]
  rw [hopefulAt_iff, hopefulAt_iff]
  simp only [hopeful_updateCons, Prod.mk.eta, mem_pairs listed, usableWith_pair, exists_or]

theorem exists_entryOf_updateConList (listed : id ∈ t.nicList side) :
    (∃ con, t.smb2McUpdateConList.EntryOf side id con) ↔
      (∃ con, t.EntryOf side id con) ∨ t.nicList side.other ≠ [] := by
  rw [updateConList_none]
  rw [exists_entryOf_iff, exists_entryOf_iff]
  unfold JoinedAt
  simp only [joined_updateCons_iff, Prod.mk.eta, mem_pairs listed, exists_or]
  exact or_congr_right (by rw [ne_eq, List.eq_nil_iff_forall_not_mem, not_forall_not])

end

/-! ## Merging -/

def Nic.merged (existing updated : Nic) : Nic :=
  let listed := (smb2McUpdateIpList existing updated).1
  if existing.changedBy updated then { listed with linkSpeed := updated.linkSpeed, nicType := updated.nicType } else listed

theorem inIgnorelist_merged (existing updated : Nic) : (existing.merged updated).inIgnorelist = existing.inIgnorelist := by
  have listed : (smb2McUpdateIpList existing updated).1.inIgnorelist = existing.inIgnorelist := by
    unfold smb2McUpdateIpList
    refine List.foldlRecOn (motive := fun s : Nic × Bool => s.1.inIgnorelist = existing.inIgnorelist) _ _ rfl ?_
    intro s same addr _
    refine Eq.trans ?_ same
    dsimp only
    unfold smb2McUpdateInfoWithIp
    split <;> rfl
  unfold Nic.merged
  dsimp only
  split <;> exact listed

theorem nicIndex_merged (existing updated : Nic) : (existing.merged updated).nicIndex = existing.nicIndex := by
  unfold Nic.merged
  dsimp only
  split <;> exact (kept_updateIpList existing updated).nicIndex

theorem getNicByIndex_iff {t : Table} (indexed : Indexed t) {side : Side} {index id : Nat} :
    t.smb2McGetNicByIndex side index = some id ↔ id ∈ t.nicList side ∧ (t.nic id).nicIndex = index := by
  constructor
  · exact mem_of_getNicByIndex
  · rintro ⟨listed, rfl⟩
    exact getNicByIndex_nicIndex indexed listed

structure Table.Merges (t : Table) (side : Side) (id : Nat) (updated : Nic) (next : Table) : Prop where
  lists : ∀ a, next.nicList a = t.nicList a
  nic : next.nic id = (t.nic id).merged updated
  nics : ∀ other, other ≠ id → next.nic other = t.nic other
  joined : ∀ client server, next.Joined client server ↔ t.Joined client server
  hopeful : ∀ other, other ≠ id → (next.HopefulAt side other ↔ t.HopefulAt side other)
  reset : next.HopefulAt side id ↔
    if (side = .client ∨ (t.nic id).changedBy updated = true) ∧ (t.nic id).inIgnorelist = false then
      ∃ con, t.EntryOf side id con
    else t.HopefulAt side id

section
variable {t : Table} {side : Side}

theorem joined_mapCons {f : Con → Con} (same : ∀ con : Con, con.SameNics (f con)) (client server : Nat) :
    (t.mapCons f).Joined client server ↔ t.Joined client server := by
  unfold Table.Joined
  change (∃ j con, (t.cons.mapAll f).lookup j = some con ∧ _) ↔ _
  refine exists_congr fun j => ?_
  rw [Slots.lookup_mapAll]
  cases t.cons.lookup j with
  | none => simp
  | some con => simp [(same con).1, (same con).2]

theorem hopefulAt_mapCons {f : Con → Con} (same : ∀ con : Con, con.SameNics (f con)) (id : Nat) :
    (t.mapCons f).HopefulAt side id ↔ ∃ con, t.EntryOf side id con ∧ ¬(f con).Hopeless := by
  unfold HopefulAt EntryOf
  change (∃ con, ((∃ j, (t.cons.mapAll f).lookup j = some con) ∧ _) ∧ _) ↔ _
  simp only [Slots.lookup_mapAll, Option.map_eq_some_iff]
  constructor
  · rintro ⟨_, ⟨⟨j, con, found, rfl⟩, here⟩, hopeful⟩
    exact ⟨con, ⟨⟨j, found⟩, ((same con).nic side).symm.trans here⟩, hopeful⟩
  · rintro ⟨con, ⟨⟨j, found⟩, here⟩, hopeful⟩
    exact ⟨f con, ⟨⟨j, con, found, rfl⟩, ((same con).nic side).trans here⟩, hopeful⟩

theorem hopefulAt_resetConStatus (id other : Nat) : (t.smb2McResetConStatus id side).HopefulAt side other ↔
    if other = id ∧ (t.nic id).inIgnorelist = false then ∃ con, t.EntryOf side id con else t.HopefulAt side other := by
  unfold smb2McResetConStatus
  rw [hopefulAt_mapCons]
  · split
    · rename_i here
      obtain ⟨rfl, unmarked⟩ := here
      refine exists_congr fun con => and_iff_left_of_imp fun entry => ?_
      rw [if_pos ⟨entry.2, by simp [unmarked]⟩]
      split
      · simp [Con.Hopeless]
      · rename_i hopeful
        exact fun hopeless => hopeful hopeless.symm
    · rename_i elsewhere
      refine exists_congr fun con => and_congr_right fun entry => ?_
      rw [if_neg]
      rintro ⟨here, unmarked⟩
      exact elsewhere ⟨entry.2.symm.trans here, by simpa using unmarked⟩
  · intro con
    split_ifs <;> exact ⟨rfl, rfl⟩

theorem joined_resetConStatus (id client server : Nat) :
    (t.smb2McResetConStatus id side).Joined client server ↔ t.Joined client server := by
  apply joined_mapCons
  intro con
  split_ifs <;> exact ⟨rfl, rfl⟩

theorem Table.Merges.resetConStatus {next : Table} {id : Nat} {updated : Nic}
    (lists : ∀ a, next.nicList a = t.nicList a) (nic : next.nic id = (t.nic id).merged updated)
    (nics : ∀ other, other ≠ id → next.nic other = t.nic other) (cons : next.cons = t.cons)
    (reset : side = .client ∨ (t.nic id).changedBy updated = true) :
    t.Merges side id updated (next.smb2McResetConStatus id side) := by
  have entries (other : Nat) (con : Con) : next.EntryOf side other con ↔ t.EntryOf side other con := by
    unfold EntryOf
    rw [cons]
  have hopeful (other : Nat) : next.HopefulAt side other ↔ t.HopefulAt side other := by
    unfold HopefulAt
    simp only [entries]
  have mark : (next.nic id).inIgnorelist = (t.nic id).inIgnorelist := by rw [nic, inIgnorelist_merged]
  refine ⟨?_, nic, nics, ?_, ?_, ?_⟩
  · intro a
    rw [← lists a]
    cases a <;> rfl
  · intro client server
    rw [joined_resetConStatus]
    unfold Table.Joined
    rw [cons]
  · intro other different
    rw [hopefulAt_resetConStatus, if_neg fun here => different here.1, hopeful]
  · rw [hopefulAt_resetConStatus, mark]
    simp only [true_and, reset, entries, hopeful]

theorem updateNic_merges (linked : Linked t) {id : Nat} {updated : Nic} (needUpdate : Bool)
    (found : t.smb2McGetNicByIndex side updated.nicIndex = some id) :
    t.Merges side id updated (updateNic side (t, needUpdate) updated).1 := by
  obtain ⟨nic, live⟩ := linked.live (mem_of_getNicByIndex found).1
  have nicAt {f : Nic → Nic} : (t.modifyNic id f).nic id = f (t.nic id) := by
    unfold Table.modifyNic Table.nic
    dsimp only
    rw [Slots.lookup_modify, if_pos rfl, live]
    rfl
  have twice (f g : Nic → Nic) : ((t.modifyNic id f).modifyNic id g).nic id = g (f (t.nic id)) := by
    unfold Table.modifyNic Table.nic
    dsimp only
    rw [Slots.lookup_modify, if_pos rfl, Slots.lookup_modify, if_pos rfl, live]
    rfl
  unfold updateNic
  simp only [found]
  split
  · rename_i changed
    apply Merges.resetConStatus
    · intro a
      cases a <;> rfl
    · rw [twice]
      unfold Nic.merged
      rw [if_pos (show (t.nic id).changedBy updated = true from changed)]
    · intro other different
      rw [nic_modifyNic_of_ne different, nic_modifyNic_of_ne different]
    · rfl
    · exact .inr changed
  · rename_i same
    have merged : (smb2McUpdateIpList (t.nic id) updated).1 = (t.nic id).merged updated := by
      unfold Nic.merged
      rw [if_neg (show ¬(t.nic id).changedBy updated = true from same)]
    split
    · rename_i client
      apply Merges.resetConStatus
      · intro a
        cases a <;> rfl
      · rw [nicAt, merged]
      · exact fun _ different => nic_modifyNic_of_ne different _
      · rfl
      · exact .inl client
    · rename_i server
      refine ⟨?_, nicAt.trans merged, fun _ different => nic_modifyNic_of_ne different _, fun _ _ => Iff.rfl, fun _ _ => Iff.rfl, ?_⟩
      · intro a
        cases a <;> rfl
      · rw [if_neg]
        · rfl
        · rintro ⟨client | changed, -⟩
          · exact server client
          · exact same changed

end

/-! ## The reported interfaces, one after the other -/

structure Table.SameAt (t : Table) (side : Side) (index : Nat) (next : Table) : Prop where
  listed : next.smb2McGetNicByIndex side index = t.smb2McGetNicByIndex side index
  nic : ∀ {id}, t.smb2McGetNicByIndex side index = some id → next.nic id = t.nic id
  joined : ∀ {id}, t.smb2McGetNicByIndex side index = some id → ∀ o, next.JoinedAt side id o ↔ t.JoinedAt side id o
  hopeful : ∀ {id}, t.smb2McGetNicByIndex side index = some id → (next.HopefulAt side id ↔ t.HopefulAt side id)

structure Table.SameOther (t : Table) (side : Side) (next : Table) : Prop where
  list : next.nicList side.other = t.nicList side.other
  nics : ∀ o ∈ t.nicList side.other, next.nic o = t.nic o

inductive Table.Placed (t : Table) (side : Side) (updated : Nic) (next : Table) : Prop
  | new (id : Nat) (absent : t.smb2McGetNicByIndex side updated.nicIndex = none)
      (listed : next.smb2McGetNicByIndex side updated.nicIndex = some id) (nic : next.nic id = updated)
      (alone : ∀ o, ¬next.JoinedAt side id o)
  | merged (id : Nat) (before : t.smb2McGetNicByIndex side updated.nicIndex = some id)
      (listed : next.smb2McGetNicByIndex side updated.nicIndex = some id) (nic : next.nic id = (t.nic id).merged updated)
      (joined : ∀ o, next.JoinedAt side id o ↔ t.JoinedAt side id o)
      (reset : next.HopefulAt side id ↔
        if (side = .client ∨ (t.nic id).changedBy updated = true) ∧ (t.nic id).inIgnorelist = false then
          ∃ con, t.EntryOf side id con
        else t.HopefulAt side id)

section
variable {t s next : Table} {side : Side} {updated : Nic}

theorem Table.SameAt.refl (t : Table) (side : Side) (index : Nat) : t.SameAt side index t :=
  ⟨rfl, fun _ => rfl, fun _ _ => Iff.rfl, fun _ => Iff.rfl⟩

theorem Table.SameAt.trans {index : Nat} (first : t.SameAt side index s) (second : s.SameAt side index next) :
    t.SameAt side index next where
  listed := second.listed.trans first.listed
  nic found := (second.nic (first.listed.trans found)).trans (first.nic found)
  joined found o := (second.joined (first.listed.trans found) o).trans (first.joined found o)
  hopeful found := (second.hopeful (first.listed.trans found)).trans (first.hopeful found)

theorem Table.SameOther.trans (first : t.SameOther side s) (second : s.SameOther side next) : t.SameOther side next where
  list := second.list.trans first.list
  nics o member := (second.nics o (first.list ▸ member)).trans (first.nics o member)

theorem Table.SameAt.placed (same : t.SameAt side updated.nicIndex s) (placed : s.Placed side updated next) :
    t.Placed side updated next := by
  cases placed with
  | new id absent listed nic alone => exact .new id (same.listed ▸ absent) listed nic alone
  | merged id before listed nic joined reset =>
    have found := same.listed.symm.trans before
    have entries : (∃ con, s.EntryOf side id con) ↔ ∃ con, t.EntryOf side id con := by
      simp only [exists_entryOf_iff, same.joined found]
    rw [same.nic found] at nic
    rw [same.nic found, entries, same.hopeful found] at reset
    exact .merged id found listed nic (fun o => (joined o).trans (same.joined found o)) reset

theorem Table.Placed.sameAt (placed : t.Placed side updated s) (same : s.SameAt side updated.nicIndex next) :
    t.Placed side updated next := by
  cases placed with
  | new id absent listed nic alone =>
    exact .new id absent (same.listed.trans listed) ((same.nic listed).trans nic)
      fun o joined => alone o ((same.joined listed o).mp joined)
  | merged id before listed nic joined reset =>
    exact .merged id before (same.listed.trans listed) ((same.nic listed).trans nic)
      (fun o => (same.joined listed o).trans (joined o)) ((same.hopeful listed).trans reset)

theorem updateNic_ordered (ordered : Ordered t) (fresh : updated.Fresh) (needUpdate : Bool) :
    Ordered (updateNic side (t, needUpdate) updated).1 :=
  (moves_updateNic steady_lenient fresh (fun _ => trivial) (fun _ _ _ _ _ _ _ => trivial) needUpdate).ordered ordered

theorem updateNic_absent (needUpdate : Bool) (absent : t.smb2McGetNicByIndex side updated.nicIndex = none) :
    updateNic side (t, needUpdate) updated = (t.smb2McInsertNewNicBySpeed side updated, true) := by
  unfold updateNic
  simp only [absent]

theorem updateNic_placed (ordered : Ordered t) (fresh : updated.Fresh) (needUpdate : Bool) :
    t.Placed side updated (updateNic side (t, needUpdate) updated).1 := by
  have next : Ordered (updateNic side (t, needUpdate) updated).1 := updateNic_ordered ordered fresh needUpdate
  cases found : t.smb2McGetNicByIndex side updated.nicIndex with
  | none =>
    rw [updateNic_absent needUpdate found] at next ⊢
    refine .new t.nics.length found ((getNicByIndex_iff next.indexed).mpr ⟨?_, ?_⟩) (t.nic_insertNic_new side updated) ?_
    · exact (mem_insertNic t side side updated _).mpr (.inl ⟨rfl, rfl⟩)
    · rw [nic_insertNic_new]
    · intro o joined
      obtain ⟨con, ⟨⟨j, found⟩, here⟩, -⟩ := joinedAt_iff.mp joined
      rw [cons_insertNic] at found
      obtain ⟨nic, live⟩ := ordered.linked.live (ordered.linked.listed found side)
      rw [here] at live
      exact Nat.lt_irrefl _ (Slots.lookup_lt live)
  | some id =>
    have merges := updateNic_merges ordered.linked needUpdate found
    obtain ⟨listed, index⟩ := mem_of_getNicByIndex found
    refine .merged id found ((getNicByIndex_iff next.indexed).mpr ⟨?_, ?_⟩) merges.nic ?_ merges.reset
    · rw [merges.lists]
      exact listed
    · rw [merges.nic, nicIndex_merged, index]
    · intro o
      exact merges.joined _ _

theorem updateNic_sameAt (ordered : Ordered t) (fresh : updated.Fresh) (needUpdate : Bool) {index : Nat}
    (other : updated.nicIndex ≠ index) : t.SameAt side index (updateNic side (t, needUpdate) updated).1 := by
  have next : Ordered (updateNic side (t, needUpdate) updated).1 := updateNic_ordered ordered fresh needUpdate
  cases found : t.smb2McGetNicByIndex side updated.nicIndex with
  | none =>
    rw [updateNic_absent needUpdate found] at next ⊢
    refine ⟨Option.ext fun id => ?_, ?_, ?_, ?_⟩
    · rw [getNicByIndex_iff next.indexed, getNicByIndex_iff ordered.indexed, mem_insertNic]
      constructor
      · rintro ⟨⟨-, rfl⟩ | listed, here⟩
        · rw [nic_insertNic_new] at here
          exact absurd here other
        · rw [ordered.linked.nic_insertNic listed] at here
          exact ⟨listed, here⟩
      · rintro ⟨listed, here⟩
        rw [ordered.linked.nic_insertNic listed]
        exact ⟨.inr listed, here⟩
    · intro id here
      exact ordered.linked.nic_insertNic (mem_of_getNicByIndex here).1 side updated
    · intro id _ o
      unfold JoinedAt Table.Joined
      rw [cons_insertNic]
    · intro id _
      unfold HopefulAt EntryOf
      rw [cons_insertNic]
  | some merged =>
    have merges := updateNic_merges ordered.linked needUpdate found
    obtain ⟨-, isIndex⟩ := mem_of_getNicByIndex found
    have apart {id : Nat} (here : (t.nic id).nicIndex = index) : id ≠ merged := by
      rintro rfl
      exact other (isIndex.symm.trans here)
    have indexes (id : Nat) : ((updateNic side (t, needUpdate) updated).1.nic id).nicIndex = (t.nic id).nicIndex := by
      by_cases here : id = merged
      · rw [here, merges.nic, nicIndex_merged]
      · rw [merges.nics id here]
    refine ⟨Option.ext fun id => ?_, ?_, ?_, ?_⟩
    · rw [getNicByIndex_iff next.indexed, getNicByIndex_iff ordered.indexed, merges.lists, indexes]
    · intro id here
      exact merges.nics id (apart (mem_of_getNicByIndex here).2)
    · intro id _ o
      exact merges.joined _ _
    · intro id here
      exact merges.hopeful id (apart (mem_of_getNicByIndex here).2)

theorem updateNic_sameOther (linked : Linked t) (needUpdate : Bool) :
    t.SameOther side (updateNic side (t, needUpdate) updated).1 := by
  cases found : t.smb2McGetNicByIndex side updated.nicIndex with
  | none =>
    rw [updateNic_absent needUpdate found]
    refine ⟨?_, fun o listed => linked.nic_insertNic listed side updated⟩
    cases side <;> rfl
  | some id =>
    have merges := updateNic_merges linked needUpdate found
    refine ⟨merges.lists _, fun o listed => merges.nics o ?_⟩
    rintro rfl
    have both := linked.side_eq listed (mem_of_getNicByIndex found).1
    cases side <;> cases both

end

section
variable {t : Table} (side : Side)

theorem updateNic_flag (needUpdate : Bool) (updated : Nic) : (updateNic side (t, needUpdate) updated).2 =
    (needUpdate || (t.smb2McGetNicByIndex side updated.nicIndex).isNone) := by
  cases found : t.smb2McGetNicByIndex side updated.nicIndex with
  | none => simp [updateNic_absent needUpdate found]
  | some id =>
    unfold updateNic
    simp only [found, Option.isNone_some, Bool.or_false]
    split_ifs <;> rfl

variable {nics : List Nic}

section
variable (ordered : Ordered t) (fresh : ∀ nic ∈ nics, nic.Fresh)
include ordered fresh

theorem updateNics_ordered (needUpdate : Bool) : Ordered (nics.foldl (updateNic side) (t, needUpdate)).1 :=
  (moves_updateNics steady_lenient fresh (fun _ _ => trivial) (fun _ _ => trivial) needUpdate).ordered ordered

theorem updateNics_sameAt {index : Nat} (others : ∀ nic ∈ nics, nic.nicIndex ≠ index) (needUpdate : Bool) :
    t.SameAt side index (nics.foldl (updateNic side) (t, needUpdate)).1 := by
  induction nics generalizing t needUpdate with
  | nil => exact .refl t side index
  | cons nic rest ih =>
    rw [List.forall_mem_cons] at fresh others
    have first : t.SameAt side index (updateNic side (t, needUpdate) nic).1 :=
      updateNic_sameAt ordered fresh.1 needUpdate others.1
    exact first.trans (ih (updateNic_ordered ordered fresh.1 needUpdate) fresh.2 others.2 _)

theorem updateNics_sameOther (needUpdate : Bool) :
    t.SameOther side (nics.foldl (updateNic side) (t, needUpdate)).1 := by
  induction nics generalizing t needUpdate with
  | nil => exact ⟨rfl, fun _ _ => rfl⟩
  | cons nic rest ih =>
    rw [List.forall_mem_cons] at fresh
    have first : t.SameOther side (updateNic side (t, needUpdate) nic).1 :=
      updateNic_sameOther ordered.linked needUpdate
    exact first.trans (ih (updateNic_ordered ordered fresh.1 needUpdate) fresh.2 _)

theorem updateNics_placed (distinct : (nics.map Nic.nicIndex).Nodup) (needUpdate : Bool) :
    ∀ nic ∈ nics, t.Placed side nic (nics.foldl (updateNic side) (t, needUpdate)).1 := by
  induction nics generalizing t needUpdate with
  | nil => exact fun nic member => absurd member List.not_mem_nil
  | cons nic rest ih =>
    rw [List.forall_mem_cons] at fresh
    rw [List.map_cons, List.nodup_cons, List.mem_map] at distinct
    obtain ⟨apart, distinct⟩ := distinct
    have next : Ordered (updateNic side (t, needUpdate) nic).1 := updateNic_ordered ordered fresh.1 needUpdate
    rw [List.forall_mem_cons]
    constructor
    · apply (updateNic_placed ordered fresh.1 needUpdate).sameAt
      exact updateNics_sameAt side next fresh.2 (fun other member same => apart ⟨other, member, same⟩) _
    · intro other member
      have before : t.SameAt side other.nicIndex (updateNic side (t, needUpdate) nic).1 :=
        updateNic_sameAt ordered fresh.1 needUpdate fun same => apart ⟨other, member, same.symm⟩
      exact before.placed (ih next fresh.2 distinct _ other member)

theorem updateNics_flag (distinct : (nics.map Nic.nicIndex).Nodup) (needUpdate : Bool) :
    (nics.foldl (updateNic side) (t, needUpdate)).2 = true ↔
      needUpdate = true ∨ ∃ nic ∈ nics, t.smb2McGetNicByIndex side nic.nicIndex = none := by
  induction nics generalizing t needUpdate with
  | nil => simp
  | cons nic rest ih =>
    rw [List.forall_mem_cons] at fresh
    rw [List.map_cons, List.nodup_cons, List.mem_map] at distinct
    obtain ⟨apart, distinct⟩ := distinct
    rw [List.foldl_cons, ih (updateNic_ordered ordered fresh.1 needUpdate) fresh.2 distinct, updateNic_flag]
    have later : (∃ other ∈ rest, (updateNic side (t, needUpdate) nic).1.smb2McGetNicByIndex side other.nicIndex = none) ↔
        ∃ other ∈ rest, t.smb2McGetNicByIndex side other.nicIndex = none := by
      refine exists_congr fun other => and_congr_right fun member => ?_
      rw [(updateNic_sameAt ordered fresh.1 needUpdate fun same => apart ⟨other, member, same.symm⟩).listed]
    rw [later, Bool.or_eq_true, Option.isNone_iff_eq_none, List.exists_mem_cons_iff, or_assoc]

end

end

/-! ## What is removed -/

/-- A list of interfaces as it has been read from a notification or a reply. -/
structure Table.Reports (updated : Table) (side : Side) : Prop where
  fresh : ∀ nic ∈ (updated.nicList side).map updated.nic, nic.Fresh
  distinct : (((updated.nicList side).map updated.nic).map Nic.nicIndex).Nodup

def Table.Extends (t : Table) (side : Side) (nics : List Nic) : Prop :=
  ∃ nic ∈ nics, t.smb2McGetNicByIndex side nic.nicIndex = none

/-- The reported interface is not taken for one that nothing is expected of. -/
def Table.Spared (t : Table) (side : Side) (nics : List Nic) (updated : Nic) : Prop :=
  match t.smb2McGetNicByIndex side updated.nicIndex with
  | none =>
    updated.inIgnorelist = true ∨ t.nicList side.other = [] ∨
      ∃ o ∈ t.nicList side.other, Nic.UsableWith side updated (t.nic o)
  | some id =>
    (t.nic id).inIgnorelist = true ∨ t.HopefulAt side id ∨
    (∃ o, t.JoinedAt side id o) ∧ (side = .client ∨ (t.nic id).changedBy updated = true) ∨
    (¬∃ o, t.JoinedAt side id o) ∧ (¬t.Extends side nics ∨ t.nicList side.other = []) ∨
    t.Extends side nics ∧
      ∃ o ∈ t.nicList side.other, ¬t.JoinedAt side id o ∧ Nic.UsableWith side ((t.nic id).merged updated) (t.nic o)

section
variable {t s : Table} {side : Side}

def Table.extended (t : Table) (needUpdate : Bool) : Table := if needUpdate then t.smb2McUpdateConList else t

theorem nicList_extended (needUpdate : Bool) : (t.extended needUpdate).nicList side = t.nicList side := by
  unfold extended
  split
  · exact nicList_updateCons _ _ _
  · rfl

theorem bare_extended (needUpdate : Bool) (id : Nat) : ((t.extended needUpdate).nic id).bare = (t.nic id).bare := by
  unfold extended
  split
  · exact bare_updateCons _ _
  · rfl

theorem unused_extended {id : Nat} (listed : id ∈ t.nicList side) (needUpdate : Bool) :
    (t.extended needUpdate).Unused side id ↔ (t.nic id).inIgnorelist = false ∧
      ((∃ o, t.JoinedAt side id o) ∨ needUpdate = true ∧ t.nicList side.other ≠ []) ∧
      ¬(t.HopefulAt side id ∨ needUpdate = true ∧
        ∃ o ∈ t.nicList side.other, ¬t.JoinedAt side id o ∧ Nic.UsableWith side (t.nic id) (t.nic o)) := by
  have mark : ((t.extended needUpdate).nic id).bare.inIgnorelist = (t.nic id).bare.inIgnorelist := by rw [bare_extended]
  change ((t.extended needUpdate).nic id).inIgnorelist = (t.nic id).inIgnorelist at mark
  rw [unused_iff, mark, ← exists_entryOf_iff]
  unfold extended
  cases needUpdate with
  | false => simp
  | true => simp only [if_true, hopefulAt_updateConList listed, exists_entryOf_updateConList listed, true_and]

theorem Table.Placed.spared_iff {nics : List Nic} {updated : Nic} (member : updated ∈ nics) (placed : t.Placed side updated s)
    (others : t.SameOther side s) {needUpdate : Bool} (flag : needUpdate = true ↔ t.Extends side nics) :
    ∃ id, s.smb2McGetNicByIndex side updated.nicIndex = some id ∧
      (¬(s.extended needUpdate).Unused side id ↔ t.Spared side nics updated) := by
  have usable (nic : Nic) (p : Nat → Prop) : (∃ o ∈ s.nicList side.other, p o ∧ Nic.UsableWith side nic (s.nic o)) ↔
      ∃ o ∈ t.nicList side.other, p o ∧ Nic.UsableWith side nic (t.nic o) := by
    rw [others.list]
    refine exists_congr fun o => and_congr_right fun member => ?_
    rw [others.nics o member]
  cases placed with
  | new id absent listed nic alone =>
    refine ⟨id, listed, ?_⟩
    have further : t.Extends side nics := ⟨updated, member, absent⟩
    have hopeless : ¬s.HopefulAt side id := by
      rintro ⟨con, entry, -⟩
      exact alone _ (joinedAt_iff.mpr ⟨con, entry, rfl⟩)
    rw [unused_extended (mem_of_getNicByIndex listed).1, nic, flag, usable]
    unfold Spared
    rw [absent, others.list]
    simp only [alone, exists_false, further, hopeless, true_and, false_or, not_false_iff]
    rw [not_and_or, not_and_or, not_not, not_not, Bool.not_eq_false]
  | merged id before listed nic joined reset =>
    refine ⟨id, listed, ?_⟩
    rw [unused_extended (mem_of_getNicByIndex listed).1, nic, flag, usable, reset, inIgnorelist_merged]
    unfold Spared
    rw [before, others.list, exists_entryOf_iff]
    simp only [joined]
    have hopeful : t.HopefulAt side id → ∃ o, t.JoinedAt side id o := by
      rintro ⟨con, entry, -⟩
      exact ⟨_, joinedAt_iff.mpr ⟨con, entry, rfl⟩⟩
    -- what is left is a matter of these facts alone
    generalize (∃ o, t.JoinedAt side id o) = entries at hopeful ⊢
    generalize (∃ o ∈ t.nicList side.other, ¬t.JoinedAt side id o ∧
      Nic.UsableWith side ((t.nic id).merged updated) (t.nic o)) = usable
    generalize t.HopefulAt side id = hope at hopeful ⊢
    generalize t.Extends side nics = further
    cases (t.nic id).inIgnorelist with
    | true => simp
    | false =>
      by_cases some : entries
      · by_cases again : side = .client ∨ (t.nic id).changedBy updated = true
        · simp [some, again]
        · simp [some, again, or_iff_not_imp_left]
      · have none : ¬hope := fun hope => some (hopeful hope)
        by_cases more : further <;> simp [some, none, more, or_iff_not_imp_left]

end

section
variable {t updated : Table} {side : Side}

theorem updateNicListFromNotifier_left (ordered : Ordered t) (reports : updated.Reports side) {first : Table} {needUpdate : Bool}
    (loop : ((updated.nicList side).map updated.nic).foldl (updateNic side) (t, false) = (first, needUpdate)) (id : Nat) :
    (id ∈ (t.smb2McUpdateNicListFromNotifier updated side).nicList side ↔
      id ∈ first.nicList side ∧ ¬(first.extended needUpdate).Unused side id) ∧
    (id ∈ (t.smb2McUpdateNicListFromNotifier updated side).nicList side →
      ((t.smb2McUpdateNicListFromNotifier updated side).nic id).nicIndex = (first.nic id).nicIndex) := by
  have next := updateNics_ordered side ordered reports.fresh false
  rw [loop] at next
  have nodup : ((first.extended needUpdate).nicList side).Nodup := by
    rw [nicList_extended]
    exact next.linked.nodup side
  unfold smb2McUpdateNicListFromNotifier
  simp only [loop]
  constructor
  · change id ∈ (((first.extended needUpdate).nicList side).foldl _ (first.extended needUpdate)).nicList side ↔ _
    rw [(mem_removeUnused side _ nodup nodup id).1, nicList_extended]
    tauto
  · intro left
    have bare := (mem_removeUnused side ((first.extended needUpdate).nicList side) nodup nodup id).2 left
    rw [bare_extended] at bare
    have same : (_ : Nic).bare.nicIndex = (first.nic id).bare.nicIndex := congrArg Nic.nicIndex bare
    exact same

/-- A reported interface stays, and one that goes was not reported and nothing was expected of its connections: just when
none of the reported ones is taken for one that nothing is expected of. -/
theorem updateNicListFromNotifier_keeps_iff (ordered : Ordered t) (reports : updated.Reports side) :
    ((∀ u ∈ updated.nicList side, ∃ id ∈ (t.smb2McUpdateNicListFromNotifier updated side).nicList side,
        ((t.smb2McUpdateNicListFromNotifier updated side).nic id).nicIndex = (updated.nic u).nicIndex) ∧
      ∀ id ∈ t.nicList side, id ∉ (t.smb2McUpdateNicListFromNotifier updated side).nicList side →
        (∀ u ∈ updated.nicList side, (updated.nic u).nicIndex ≠ (t.nic id).nicIndex) ∧
        ∀ con, t.EntryOf side id con → con.Hopeless) ↔
      ∀ u ∈ updated.nicList side, t.Spared side ((updated.nicList side).map updated.nic) (updated.nic u) := by
  generalize loop : ((updated.nicList side).map updated.nic).foldl (updateNic side) (t, false) = result
  obtain ⟨first, needUpdate⟩ := result
  have next := updateNics_ordered side ordered reports.fresh false
  have others := updateNics_sameOther side ordered reports.fresh false
  have flag := updateNics_flag side ordered reports.fresh reports.distinct false
  rw [loop] at next others flag
  simp only [Bool.false_eq_true, false_or] at flag
  have result := updateNicListFromNotifier_left ordered reports loop
  have spared (u : Nat) (member : u ∈ updated.nicList side) :
      (∃ id ∈ (t.smb2McUpdateNicListFromNotifier updated side).nicList side,
        ((t.smb2McUpdateNicListFromNotifier updated side).nic id).nicIndex = (updated.nic u).nicIndex) ↔
        t.Spared side ((updated.nicList side).map updated.nic) (updated.nic u) := by
    have reported := List.mem_map_of_mem (f := updated.nic) member
    have placed := updateNics_placed side ordered reports.fresh reports.distinct false _ reported
    rw [loop] at placed
    obtain ⟨id, found, unused⟩ := placed.spared_iff reported others flag
    obtain ⟨listed, index⟩ := mem_of_getNicByIndex found
    rw [← unused]
    constructor
    · rintro ⟨other, left, same⟩
      rw [(result other).2 left, ← index] at same
      obtain ⟨there, used⟩ := (result other).1.mp left
      rw [next.indexed.index there listed same] at used
      exact used
    · intro used
      have left := (result id).1.mpr ⟨listed, used⟩
      exact ⟨id, left, ((result id).2 left).trans index⟩
  constructor
  · rintro ⟨kept, -⟩ u member
    exact (spared u member).mp (kept u member)
  · intro all
    have kept (u : Nat) (member : u ∈ updated.nicList side) := (spared u member).mpr (all u member)
    refine ⟨kept, ?_⟩
    intro id listed gone
    have before := getNicByIndex_nicIndex ordered.indexed listed
    have absent : ∀ u ∈ updated.nicList side, (updated.nic u).nicIndex ≠ (t.nic id).nicIndex := by
      intro u member same
      obtain ⟨other, left, index⟩ := kept u member
      rw [(result other).2 left] at index
      have there := (result other).1.mp left
      have found := (getNicByIndex_iff next.indexed).mpr ⟨there.1, index⟩
      have placed := updateNics_placed side ordered reports.fresh reports.distinct false _
        (List.mem_map_of_mem member)
      rw [loop] at placed
      cases placed with
      | new _ absent _ _ _ =>
        rw [same, before] at absent
        cases absent
      | merged merged before' now _ _ _ =>
        rw [same, before] at before'
        cases before'
        rw [now] at found
        cases found
        exact gone left
    refine ⟨absent, ?_⟩
    have alone : t.SameAt side (t.nic id).nicIndex first := by
      have elsewhere : ∀ nic ∈ (updated.nicList side).map updated.nic, nic.nicIndex ≠ (t.nic id).nicIndex := by
        simpa using absent
      have same := updateNics_sameAt side ordered reports.fresh elsewhere false
      rw [loop] at same
      exact same
    have there := (mem_of_getNicByIndex (alone.listed.trans before)).1
    have unused : (first.extended needUpdate).Unused side id := by
      by_contra used
      exact gone ((result id).1.mpr ⟨there, used⟩)
    rw [unused_extended there, alone.hopeful before] at unused
    intro con entry
    by_contra hopeful
    exact unused.2.2 (.inl ⟨con, entry, hopeful⟩)

theorem reports_of_ordered {infos : List NetworkNicInfo} (ordered : Ordered updated)
    (reported : updated.nics.All (Nic.ReportedIn infos)) (side : Side) : updated.Reports side where
  fresh := fresh_nicList reported side
  distinct := by
    rw [List.map_map]
    exact List.Nodup.map_on (fun i memberI j memberJ same => ordered.indexed.index memberI memberJ same) (ordered.linked.nodup side)

theorem reports_notifierTable (clientInfo : List NetworkNicInfo) (clntRssChannels : Nat) (rssForceOn : Bool) (side : Side) :
    (notifierTable clientInfo clntRssChannels rssForceOn).Reports side := by
  refine reports_of_ordered ?_ (reported_notifierTable _ _ _) side
  have moves : Moves steady (smb2McInit 0 0 clntRssChannels [] false) (notifierTable clientInfo clntRssChannels rssForceOn) :=
    moves_parseClientInterfaceArray steady_lenient _ _ fun _ _ _ _ => trivial
  exact moves.ordered (ordered_init _ _ _ _ _)

theorem reports_responseTable (serverInfo : List NetworkNicInfo) (srvrRssChannels : Nat) (side : Side) :
    (responseTable serverInfo srvrRssChannels).Reports side := by
  refine reports_of_ordered ?_ (reported_responseTable _ _) side
  have moves : Moves steady (smb2McInit 0 0 0 [] false) (responseTable serverInfo srvrRssChannels) := by
    apply Moves.foldl
    intro s _ info _
    exact moves_addWithRss steady_lenient (fun _ _ => trivial) srvrRssChannels
  exact moves.ordered (ordered_init _ _ _ _ _)

end

def linkLocal (n : UInt8) : List UInt8 := [254, 128, 0, 0, 0, 0, 0, 0, 0, 0, 0, 0, 0, 0, 0, n]

def en0 : NetworkNicInfo := { nicIndex := 4, linkSpeed := 1000, addr := ⟨.inet6, linkLocal 4⟩ }
def en1 : NetworkNicInfo := { nicIndex := 5, linkSpeed := 1000, addr := ⟨.inet, [10, 0, 0, 5]⟩ }
def eth0 : NetworkNicInfo := { nicIndex := 1, linkSpeed := 1000, addr := ⟨.inet6, linkLocal 1⟩ }

def oneEach : Table := ((smb2McInit 2 1 1 [] false).smb2McParseClientInterfaceArray [en0] false).smb2McQueryInfoResponseEvent [eth0]

theorem ordered_oneEach : Ordered oneEach := by
  have reached : run Table.step (smb2McInit 2 1 1 [] false)
      [.parseClientInterfaceArray [(en0, .whole)] false, .queryInfoResponseEvent [eth0]] = some oneEach := rfl
  exact run_invariant Table.step (fun _ _ _ ordered spares taken => ordered_step ordered spares taken)
    (ordered_init _ _ _ _ _) (by decide +kernel) reached

theorem updateNicListFromNotifier_keeps_en0 :
    (notifierTable [en0] 1 false).nicList .client ≠ [] ∧
    ∀ u ∈ (notifierTable [en0] 1 false).nicList .client,
      oneEach.Spared .client (((notifierTable [en0] 1 false).nicList .client).map (notifierTable [en0] 1 false).nic)
        ((notifierTable [en0] 1 false).nic u) := by
  refine ⟨by decide +kernel, ?_⟩
  apply (updateNicListFromNotifier_keeps_iff ordered_oneEach (reports_notifierTable [en0] 1 false .client)).mp
  refine ⟨by decide +kernel, fun id listed gone => absurd ?_ gone⟩
  have stays : ∀ id ∈ oneEach.nicList .client,
      id ∈ (oneEach.smb2McUpdateNicListFromNotifier (notifierTable [en0] 1 false) .client).nicList .client := by decide +kernel
  exact stays id listed

/-- The second interface has no version of IP in common with the server's one: it is added and removed again. -/
theorem updateNicListFromNotifier_drops_en1 :
    (∃ u ∈ (notifierTable [en0, en1] 1 false).nicList .client, ((notifierTable [en0, en1] 1 false).nic u).nicIndex = 5) ∧
    ∀ id ∈ (oneEach.smb2McUpdateNicListFromNotifier (notifierTable [en0, en1] 1 false) .client).nicList .client,
      ((oneEach.smb2McUpdateNicListFromNotifier (notifierTable [en0, en1] 1 false) .client).nic id).nicIndex ≠ 5 := by
  decide +kernel

end SmbClient.Multichannel
