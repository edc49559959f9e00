import SmbClient.Multichannel.Table

/-! Every operation on the session table is a sequence of a few elementary changes. Which connections and
interfaces the changes may touch, and how, is a parameter: an invariant names the changes that it stands and
is then shown for each of them alone. -/

namespace SmbClient.Multichannel
open SmbClient.Lib Table

/-- Nothing is expected of the connection. -/
def Con.Hopeless (con : Con) : Prop := con.state = .noPotential ∨ con.state = .failedToConnect

def Con.Waiting (con : Con) : Prop := con.state = .potential ∨ con.state = .surplus

instance (con : Con) : Decidable con.Hopeless := inferInstanceAs (Decidable (_ ∨ _))
instance (con : Con) : Decidable con.Waiting := inferInstanceAs (Decidable (_ ∨ _))

def Con.SameNics (before after : Con) : Prop :=
  after.clientNic = before.clientNic ∧ after.serverNic = before.serverNic

theorem Con.SameNics.nic {before after : Con} (same : before.SameNics after) (side : Side) :
    after.nic side = before.nic side := by
  cases side
  · exact same.1
  · exact same.2

structure Con.Quiet (before after : Con) : Prop where
  nics : before.SameNics after
  state : after.state = before.state ∨ before.Waiting ∧ after.Waiting

/-- What becomes of an interface that is reported again. -/
structure Nic.Kept (before after : Nic) : Prop where
  nicIndex : after.nicIndex = before.nicIndex
  state : after.state = before.state
  possibleConnections : after.possibleConnections = before.possibleConnections
  inIgnorelist : before.inIgnorelist = true → after.inIgnorelist = true

theorem Nic.Kept.trans {a b c : Nic} (first : a.Kept b) (second : b.Kept c) : a.Kept c where
  nicIndex := second.nicIndex.trans first.nicIndex
  state := second.state.trans first.state
  possibleConnections := second.possibleConnections.trans first.possibleConnections
  inIgnorelist marked := second.inIgnorelist (first.inIgnorelist marked)

structure Nic.Fresh (nic : Nic) : Prop where
  state : nic.state = .idle
  possibleConnections : nic.possibleConnections = []

structure Rules where
  con : Table → Con → Con → Prop
  nic : Nic → Nic → Prop
  insert : Side → Nic → Prop
  reset : Table → Side → Nat → Prop
  listing : Prop
  counter : Prop

structure Rules.Lenient (rules : Rules) : Prop where
  nics : ∀ {t before after}, rules.con t before after → Con.SameNics before after
  con : ∀ {t before after}, Con.Quiet before after → rules.con t before after
  nic : ∀ {before after}, Nic.Kept before after → rules.nic before after

inductive Move (rules : Rules) : Table → Table → Prop
  | nic {t : Table} {id : Nat} {f : Nic → Nic} (allowed : ∀ nic, t.nics.lookup id = some nic → rules.nic nic (f nic)) :
      Move rules t (t.modifyNic id f)
  | con {t : Table} {id : Nat} {f : Con → Con} (allowed : ∀ con, t.cons.lookup id = some con → rules.con t con (f con)) :
      Move rules t (t.modifyCon id f)
  | cons {t : Table} {f : Con → Con} (allowed : ∀ id con, t.cons.lookup id = some con → rules.con t con (f con)) :
      Move rules t (t.mapCons f)
  | insert {t : Table} {side : Side} {nic : Nic} (fresh : nic.Fresh)
      (unlisted : t.smb2McGetNicByIndex side nic.nicIndex = none) (allowed : rules.insert side nic) :
      Move rules t (t.smb2McInsertNewNicBySpeed side nic)
  | reset {t : Table} {id : Nat} {side : Side} (allowed : rules.reset t side id) :
      Move rules t (t.smb2McResetConStatus id side)
  | join {t : Table} {con : Con} (absent : t.findConByNics con.clientNic con.serverNic = none)
      (listed : ∀ side, con.nic side ∈ t.nicList side) (state : con.Waiting ∨ con.state = .noPotential)
      (ignored : (t.nic con.clientNic).inIgnorelist = true → con.state = .noPotential) :
      Move rules t (modifyNic { t with cons := t.cons.alloc con } con.clientNic
        fun nic => { nic with possibleConnections := nic.possibleConnections ++ [t.cons.length] })
  | part {t : Table} {id : Nat} (hopeless : ∀ con, t.cons.lookup id = some con → con.Hopeless) :
      Move rules t (t.removeCon id)
  | release {t : Table} {side : Side} {id : Nat} (listed : id ∈ t.nicList side)
      (unused : ∀ j con, t.cons.lookup j = some con → con.nic side ≠ id) :
      Move rules t { t.withNicList side ((t.nicList side).erase id) with nics := t.nics.free id }
  | listing {t : Table} (allowed : rules.listing) (successfulConList : List Nat) :
      Move rules t { t with successfulConList }
  | counter {t : Table} (allowed : rules.counter) (activeOnTrialConnections : Nat) :
      Move rules t { t with activeOnTrialConnections }
  | pause {t : Table} (pauseTrials : Nat) : Move rules t { t with pauseTrials }

abbrev Moves (rules : Rules) : Table → Table → Prop := Relation.ReflTransGen (Move rules)

namespace Moves
variable {rules : Rules} {t : Table}

theorem invariant (inv : Table → Prop) (keeps : ∀ s s', Move rules s s' → inv s → inv s') {t next : Table}
    (moves : Moves rules t next) (start : inv t) : inv next := by
  induction moves with
  | refl => exact start
  | tail _ move ih => exact keeps _ _ move ih

theorem foldl {ι : Type} {f : Table → ι → Table} (list : List ι)
    (each : ∀ s, Moves rules t s → ∀ x ∈ list, Moves rules s (f s x)) : Moves rules t (list.foldl f t) :=
  List.foldlRecOn (motive := Moves rules t) list f .refl fun s reached x member => reached.trans (each s reached x member)

theorem setNicStates (con : Con) {state : NicState} (allowed : ∀ nic : Nic, rules.nic nic { nic with state }) :
    Moves rules t (t.setNicStates con state) :=
  .tail (.single (.nic fun nic _ => allowed nic)) (.nic fun nic _ => allowed nic)

end Moves

/-! ## Lists and entries -/

/-- The entries are for interfaces on the two lists, and there is at most one for a pair of them. -/
structure Linked (t : Table) : Prop where
  live : ∀ {side id}, id ∈ t.nicList side → ∃ nic, t.nics.lookup id = some nic
  nodup : ∀ side, (t.nicList side).Nodup
  apart : ∀ {id}, id ∈ t.nicList .client → id ∉ t.nicList .server
  listed : ∀ {id con}, t.cons.lookup id = some con → ∀ side, con.nic side ∈ t.nicList side
  unique : ∀ {i j a b}, t.cons.lookup i = some a → t.cons.lookup j = some b → a.SameNics b → i = j

variable {t next : Table} {id : Nat} {con : Con} {rules : Rules}

theorem Linked.side_eq (linked : Linked t) {a b : Side} (here : id ∈ t.nicList a)
    (there : id ∈ t.nicList b) : a = b := by
  cases a <;> cases b
  · rfl
  · exact absurd there (linked.apart here)
  · exact absurd here (linked.apart there)
  · rfl

theorem Linked.change (linked : Linked t) {cons : Slots Con}
    (same : ∀ {id con}, cons.lookup id = some con → ∃ old, t.cons.lookup id = some old ∧ old.SameNics con) :
    Linked { t with cons } where
  live := linked.live
  nodup := linked.nodup
  apart := linked.apart
  listed found side := by
    obtain ⟨old, lookup, nics⟩ := same found
    rw [nics.nic side]
    exact linked.listed lookup side
  unique := by
    intro i j a b foundA foundB nics
    obtain ⟨oldA, lookupA, nicsA⟩ := same foundA
    obtain ⟨oldB, lookupB, nicsB⟩ := same foundB
    refine linked.unique lookupA lookupB ⟨?_, ?_⟩
    · rw [← nicsA.1, ← nicsB.1, nics.1]
    · rw [← nicsA.2, ← nicsB.2, nics.2]

theorem Linked.mapCons (linked : Linked t) {f : Con → Con}
    (same : ∀ id con, t.cons.lookup id = some con → con.SameNics (f con)) : Linked (t.mapCons f) := by
  refine linked.change fun {id con} found => ?_
  rw [Slots.lookup_mapAll] at found
  obtain ⟨old, lookup, rfl⟩ := Option.map_eq_some_iff.mp found
  exact ⟨old, lookup, same id old lookup⟩

theorem Linked.modifyNic (linked : Linked t) (id : Nat) (f : Nic → Nic) : Linked (t.modifyNic id f) where
  live := by
    intro side j member
    obtain ⟨nic, found⟩ := linked.live member
    unfold Table.modifyNic
    rw [Slots.lookup_modify, found]
    split
    · exact ⟨f nic, rfl⟩
    · exact ⟨nic, rfl⟩
  nodup := linked.nodup
  apart := linked.apart
  listed := linked.listed
  unique := linked.unique

namespace Table

variable (t : Table) (side : Side)

@[simp] theorem nicList_withNicList (other : Side) (list : List Nat) :
    (t.withNicList side list).nicList other = if side = other then list else t.nicList other := by
  cases side <;> cases other <;> rfl

@[simp] theorem cons_withNicList (list : List Nat) : (t.withNicList side list).cons = t.cons := by
  cases side <;> rfl

theorem rest_withNicList (list : List Nat) : (t.withNicList side list).clientIfIgnorelist = t.clientIfIgnorelist ∧
      (t.withNicList side list).successfulConList = t.successfulConList ∧
      (t.withNicList side list).activeOnTrialConnections = t.activeOnTrialConnections := by
  cases side <;> exact ⟨rfl, rfl, rfl⟩

theorem nicList_with (nics : Slots Nic) (side : Side) : { t with nics }.nicList side = t.nicList side := by
  cases side <;> rfl

theorem perm_insertBySpeed (id speed : Nat) (list : List Nat) :
    (t.insertBySpeed id speed list).Perm (id :: list) := by
  induction list with
  | nil => exact .refl _
  | cons info rest ih =>
    unfold insertBySpeed
    split
    · exact .refl _
    · exact (ih.cons info).trans (.swap id info rest)

theorem mem_insertNic (a : Side) (nic : Nic) (id : Nat) :
    id ∈ (t.smb2McInsertNewNicBySpeed side nic).nicList a ↔ side = a ∧ id = t.nics.length ∨ id ∈ t.nicList a := by
  unfold smb2McInsertNewNicBySpeed
  rw [nicList_with, nicList_withNicList]
  split
  · rename_i same
    rw [(t.perm_insertBySpeed _ _ _).mem_iff, List.mem_cons, same]
    simp
  · rename_i other
    simp [other]

theorem cons_insertNic (nic : Nic) : (t.smb2McInsertNewNicBySpeed side nic).cons = t.cons :=
  cons_withNicList _ _ _

theorem nic_insertNic_new (nic : Nic) : (t.smb2McInsertNewNicBySpeed side nic).nic t.nics.length = nic := by
  change ((t.nics.alloc nic).lookup _).getD {} = _
  rw [Slots.lookup_alloc, if_pos rfl]
  rfl

theorem nic_modifyNic_of_ne {t : Table} {id other : Nat} (different : other ≠ id) (f : Nic → Nic) :
    (t.modifyNic id f).nic other = t.nic other := by
  unfold modifyNic nic
  dsimp only
  rw [Slots.lookup_modify, if_neg different.symm]

abbrev dropNic (t : Table) (side : Side) (id : Nat) : Table :=
  { t.withNicList side ((t.nicList side).erase id) with nics := t.nics.free id }

theorem cons_dropNic (id : Nat) : (t.dropNic side id).cons = t.cons := cons_withNicList _ _ _

theorem nic_dropNic {t : Table} {side : Side} {id j : Nat} (other : j ≠ id) : (t.dropNic side id).nic j = t.nic j := by
  change ((t.nics.free id).lookup j).getD {} = _
  rw [Slots.lookup_free, if_neg (Ne.symm other)]
  rfl

end Table

theorem Linked.inside (linked : Linked t) {side : Side} (listed : id ∈ t.nicList side) : id < t.nics.length := by
  obtain ⟨nic, found⟩ := linked.live listed
  exact Slots.lookup_lt found

theorem Linked.nic_insertNic (linked : Linked t) {a : Side} (listed : id ∈ t.nicList a) (side : Side) (nic : Nic) :
    (t.smb2McInsertNewNicBySpeed side nic).nic id = t.nic id := by
  change ((t.nics.alloc nic).lookup id).getD {} = _
  rw [Slots.lookup_alloc, if_neg (linked.inside listed).ne']
  rfl

theorem Linked.insert (linked : Linked t) (side : Side) (nic : Nic) :
    Linked (t.smb2McInsertNewNicBySpeed side nic) := by
  -- the number of the new interface is on neither list
  have mem {a : Side} {id : Nat} := mem_insertNic t side a nic id
  refine ⟨?_, ?_, ?_, ?_, ?_⟩
  · intro a id member
    change ∃ found, (t.nics.alloc nic).lookup id = some found
    rw [Slots.lookup_alloc]
    rcases mem.mp member with ⟨_, new⟩ | old
    · exact ⟨nic, if_pos new.symm⟩
    · rw [if_neg (linked.inside old).ne']
      exact linked.live old
  · intro a
    unfold smb2McInsertNewNicBySpeed
    rw [nicList_with, nicList_withNicList]
    split
    · rw [(t.perm_insertBySpeed _ _ _).nodup_iff, List.nodup_cons]
      exact ⟨fun member => Nat.lt_irrefl _ (linked.inside member), linked.nodup side⟩
    · exact linked.nodup a
  · intro id client server
    rcases mem.mp client with ⟨rfl, rfl⟩ | client <;> rcases mem.mp server with ⟨other, new⟩ | server
    · cases other
    · exact Nat.lt_irrefl _ (linked.inside server)
    · exact Nat.lt_irrefl _ (new ▸ linked.inside client)
    · exact linked.apart client server
  · intro id con found a
    rw [cons_insertNic] at found
    exact mem.mpr (.inr (linked.listed found a))
  · intro i j a b foundA foundB
    rw [cons_insertNic] at foundA foundB
    exact linked.unique foundA foundB

theorem findConByNics_eq_none {client server : Nat} (absent : t.findConByNics client server = none)
    (found : t.cons.lookup id = some con) : ¬(con.clientNic = client ∧ con.serverNic = server) := by
  have missing := List.find?_eq_none.mp absent id (Slots.mem_inUse.mpr ⟨con, found⟩)
  simpa [found] using missing

theorem Linked.join (linked : Linked t)
    (absent : t.findConByNics con.clientNic con.serverNic = none) (listed : ∀ side, con.nic side ∈ t.nicList side) :
    Linked { t with cons := t.cons.alloc con } where
  live := linked.live
  nodup := linked.nodup
  apart := linked.apart
  listed := by
    intro id other found
    change (t.cons.alloc con).lookup id = some other at found
    rw [Slots.lookup_alloc] at found
    split at found
    · cases found
      exact listed
    · exact linked.listed found
  unique := by
    intro i j a b foundA foundB nics
    change (t.cons.alloc con).lookup i = some a at foundA
    change (t.cons.alloc con).lookup j = some b at foundB
    rw [Slots.lookup_alloc] at foundA foundB
    split at foundA <;> split at foundB
    · rename_i new new'
      exact new.symm.trans new'
    · cases foundA
      exact absurd nics (findConByNics_eq_none absent foundB)
    · cases foundB
      exact absurd ⟨nics.1.symm, nics.2.symm⟩ (findConByNics_eq_none absent foundA)
    · exact linked.unique foundA foundB nics

theorem Table.lookup_removeCon (t : Table) (id j : Nat) :
    (t.removeCon id).cons.lookup j = if id = j then none else t.cons.lookup j := by
  unfold removeCon
  split
  · rename_i absent
    split
    · rename_i same
      exact same ▸ absent
    · rfl
  · exact Slots.lookup_free _ _ _

theorem Table.lookup_removeCons (t : Table) (ids : List Nat) (j : Nat) :
    (ids.foldl removeCon t).cons.lookup j = if j ∈ ids then none else t.cons.lookup j := by
  induction ids generalizing t with
  | nil => simp
  | cons id rest ih =>
    rw [List.foldl_cons, ih, lookup_removeCon]
    by_cases same : id = j
    · simp [same]
    · simp [same, Ne.symm same]

theorem Linked.part (linked : Linked t) (id : Nat) : Linked (t.removeCon id) := by
  have kept : Linked { t with cons := t.cons.free id } := by
    refine linked.change fun {j con} found => ?_
    exact ⟨con, (Slots.lookup_free_eq_some.mp found).2, rfl, rfl⟩
  unfold removeCon
  split
  · exact linked
  · exact kept.modifyNic _ _

-- the interface that goes is on no list any more
theorem Linked.mem_dropNic (linked : Linked t) {side a : Side} (member : id ∈ t.nicList side) {j : Nat} :
    j ∈ (t.dropNic side id).nicList a ↔ j ∈ t.nicList a ∧ j ≠ id := by
  rw [nicList_with, nicList_withNicList]
  split
  · rename_i same
    rw [(linked.nodup side).mem_erase_iff, same]
    exact and_comm
  · rename_i other
    refine ⟨fun there => ⟨there, ?_⟩, And.left⟩
    rintro rfl
    exact other (linked.side_eq member there)

theorem Linked.release (linked : Linked t) {side : Side} (member : id ∈ t.nicList side)
    (unused : ∀ j con, t.cons.lookup j = some con → con.nic side ≠ id) : Linked (t.dropNic side id) := by
  refine ⟨?_, ?_, ?_, ?_, ?_⟩
  · intro a j there
    obtain ⟨there, ne⟩ := (linked.mem_dropNic member).mp there
    change ∃ nic, (t.nics.free id).lookup j = some nic
    rw [Slots.lookup_free, if_neg (Ne.symm ne)]
    exact linked.live there
  · intro a
    rw [nicList_with, nicList_withNicList]
    split
    · exact (linked.nodup side).erase id
    · exact linked.nodup a
  · intro j client server
    exact linked.apart ((linked.mem_dropNic member).mp client).1 ((linked.mem_dropNic member).mp server).1
  · intro j con found a
    rw [cons_dropNic] at found
    refine (linked.mem_dropNic member).mpr ⟨linked.listed found a, ?_⟩
    rintro same
    have here : side = a := linked.side_eq member (same ▸ linked.listed found a)
    exact unused j con found (here ▸ same)
  · intro i j a b foundA foundB
    rw [cons_dropNic] at foundA foundB
    exact linked.unique foundA foundB

theorem lookup_resetConStatus {nicId : Nat} {side : Side}
    (found : (t.smb2McResetConStatus nicId side).cons.lookup id = some con) :
    ∃ old, t.cons.lookup id = some old ∧ old.SameNics con ∧ (con.state = old.state ∨
      old.Hopeless ∧ con.state = .potential ∧ old.nic side = nicId ∧ (t.nic nicId).inIgnorelist = false) := by
  change (t.cons.mapAll _).lookup id = some con at found
  rw [Slots.lookup_mapAll] at found
  obtain ⟨old, lookup, rfl⟩ := Option.map_eq_some_iff.mp found
  refine ⟨old, lookup, ?_⟩
  split_ifs with here failed
  · exact ⟨⟨rfl, rfl⟩, .inr ⟨failed.symm, rfl, here.1, by simpa using here.2⟩⟩
  · exact ⟨⟨rfl, rfl⟩, .inl rfl⟩
  · exact ⟨⟨rfl, rfl⟩, .inl rfl⟩

theorem linked_move (nics : ∀ {t before after}, rules.con t before after → Con.SameNics before after)
    (move : Move rules t next) (linked : Linked t) : Linked next := by
  cases move with
  | nic _ => exact linked.modifyNic _ _
  | con allowed =>
    refine linked.change fun {j con} found => ?_
    rw [Slots.lookup_modify] at found
    split at found
    · rename_i same
      obtain ⟨old, lookup, rfl⟩ := Option.map_eq_some_iff.mp found
      exact ⟨old, lookup, nics (allowed old (same ▸ lookup))⟩
    · exact ⟨con, found, rfl, rfl⟩
  | cons allowed => exact linked.mapCons fun id con found => nics (allowed id con found)
  | insert _ _ _ => exact linked.insert _ _
  | reset _ =>
    refine linked.mapCons fun _ con _ => ?_
    split_ifs <;> exact ⟨rfl, rfl⟩
  | join absent listed _ _ => exact (linked.join absent listed).modifyNic _ _
  | part _ => exact linked.part _
  | release member unused => exact linked.release member unused
  | listing _ _ => exact ⟨linked.live, linked.nodup, linked.apart, linked.listed, linked.unique⟩
  | counter _ _ => exact ⟨linked.live, linked.nodup, linked.apart, linked.listed, linked.unique⟩
  | pause _ => exact ⟨linked.live, linked.nodup, linked.apart, linked.listed, linked.unique⟩

theorem Moves.linked (lenient : rules.Lenient) (moves : Moves rules t next) (linked : Linked t) : Linked next :=
  moves.invariant Linked (fun _ _ move linked => linked_move lenient.nics move linked) linked

/-! ## What a move does to one entry and to one interface -/

inductive ConMove (rules : Rules) (t : Table) (id : Nat) : Option Con → Option Con → Prop
  | same (con : Option Con) : ConMove rules t id con con
  | changed {old new : Con} (allowed : rules.con t old new) : ConMove rules t id (some old) (some new)
  | reset {old new : Con} {side : Side} (nics : old.SameNics new) (hopeless : old.Hopeless) (state : new.state = .potential)
      (allowed : rules.reset t side (old.nic side)) (unmarked : (t.nic (old.nic side)).inIgnorelist = false) :
      ConMove rules t id (some old) (some new)
  | joined {new : Con} (last : id = t.cons.length) (state : new.Waiting ∨ new.state = .noPotential)
      (ignored : (t.nic new.clientNic).inIgnorelist = true → new.state = .noPotential) :
      ConMove rules t id none (some new)
  | parted {old : Con} (hopeless : old.Hopeless) : ConMove rules t id (some old) none

inductive NicMove (rules : Rules) (t : Table) (id : Nat) : Option Nic → Option Nic → Prop
  | same (nic : Option Nic) : NicMove rules t id nic nic
  | changed {old new : Nic} (allowed : rules.nic old new) : NicMove rules t id (some old) (some new)
  | joined (nic : Nic) (possibleConnections : List Nat) :
      NicMove rules t id (some nic) (some { nic with possibleConnections })
  | entered {new : Nic} {side : Side} (fresh : new.Fresh) (allowed : rules.insert side new) :
      NicMove rules t id none (some new)
  | released {old : Option Nic} {side : Side} (listed : id ∈ t.nicList side)
      (unused : ∀ j con, t.cons.lookup j = some con → con.nic side ≠ id) : NicMove rules t id old none

theorem Move.con_cases (lenient : rules.Lenient) (move : Move rules t next) (id : Nat) :
    ConMove rules t id (t.cons.lookup id) (next.cons.lookup id) := by
  cases move with
  | nic _ => exact .same _
  | @con j f allowed =>
    change ConMove rules t id _ ((t.cons.modify j f).lookup id)
    rw [Slots.lookup_modify]
    split
    · rename_i same
      cases found : t.cons.lookup id with
      | none => exact .same _
      | some con => exact .changed (allowed con (same ▸ found))
    · exact .same _
  | @cons f allowed =>
    change ConMove rules t id _ ((t.cons.mapAll f).lookup id)
    rw [Slots.lookup_mapAll]
    cases found : t.cons.lookup id with
    | none => exact .same _
    | some con => exact .changed (allowed id con found)
  | @insert side nic _ _ _ =>
    rw [cons_insertNic]
    exact .same _
  | @reset nicId side allowed =>
    cases found : (t.smb2McResetConStatus nicId side).cons.lookup id with
    | none =>
      change (t.cons.mapAll _).lookup id = none at found
      rw [Slots.lookup_mapAll, Option.map_eq_none_iff] at found
      rw [found]
      exact .same _
    | some con =>
      obtain ⟨old, lookup, nics, same | ⟨hopeless, state, here, unmarked⟩⟩ := lookup_resetConStatus found
      · rw [lookup]
        exact .changed (lenient.con ⟨nics, .inl same⟩)
      · rw [lookup]
        rw [← here] at allowed unmarked
        exact .reset nics hopeless state allowed unmarked
  | @join new _ _ state ignored =>
    change ConMove rules t id _ ((t.cons.alloc new).lookup id)
    rw [Slots.lookup_alloc]
    split
    · rename_i last
      subst last
      rw [Slots.lookup_length]
      exact .joined rfl state ignored
    · exact .same _
  | @part j hopeless =>
    rw [lookup_removeCon]
    split
    · rename_i same
      cases found : t.cons.lookup id with
      | none => exact .same _
      | some con => exact .parted (hopeless con (same ▸ found))
    · exact .same _
  | release _ _ =>
    rw [cons_dropNic]
    exact .same _
  | listing _ _ => exact .same _
  | counter _ _ => exact .same _
  | pause _ => exact .same _

theorem Move.nic_cases (move : Move rules t next) (id : Nat) :
    NicMove rules t id (t.nics.lookup id) (next.nics.lookup id) := by
  have possible (j : Nat) (f : List Nat → List Nat) : NicMove rules t id (t.nics.lookup id)
      ((t.nics.modify j fun nic => { nic with possibleConnections := f nic.possibleConnections }).lookup id) := by
    rw [Slots.lookup_modify]
    split
    · cases found : t.nics.lookup id with
      | none => exact .same _
      | some nic => exact .joined nic _
    · exact .same _
  cases move with
  | @nic j f allowed =>
    change NicMove rules t id _ ((t.nics.modify j f).lookup id)
    rw [Slots.lookup_modify]
    split
    · rename_i same
      cases found : t.nics.lookup id with
      | none => exact .same _
      | some nic => exact .changed (allowed nic (same ▸ found))
    · exact .same _
  | con _ => exact .same _
  | cons _ => exact .same _
  | @insert side nic fresh _ allowed =>
    change NicMove rules t id _ ((t.nics.alloc nic).lookup id)
    rw [Slots.lookup_alloc]
    split
    · rename_i last
      rw [← last, Slots.lookup_length]
      exact .entered fresh allowed
    · exact .same _
  | reset _ => exact .same _
  | @join con _ _ _ _ => exact possible con.clientNic (· ++ [t.cons.length])
  | @part j _ =>
    unfold removeCon
    split
    · exact .same _
    · rename_i con _
      exact possible con.clientNic (·.erase j)
  | @release side j listed unused =>
    change NicMove rules t id _ ((t.nics.free j).lookup id)
    rw [Slots.lookup_free]
    split
    · rename_i same
      subst same
      exact .released listed unused
    · exact .same _
  | listing _ _ => exact .same _
  | counter _ _ => exact .same _
  | pause _ => exact .same _

/-! ## Interfaces -/

namespace Table

theorem nic_of_lookup {t : Table} {id : Nat} {nic : Nic} (found : t.nics.lookup id = some nic) : t.nic id = nic := by
  rw [Table.nic, found, Option.getD_some]

theorem mem_of_getNicByIndex {t : Table} {side : Side} {index id : Nat}
    (found : t.smb2McGetNicByIndex side index = some id) : id ∈ t.nicList side ∧ (t.nic id).nicIndex = index :=
  ⟨List.mem_of_find?_eq_some found, by simpa using List.find?_some found⟩

end Table

theorem kept_updateInfoWithIp (nic : Nic) (addr : SockAddr) : nic.Kept (smb2McUpdateInfoWithIp nic addr).1 := by
  unfold smb2McUpdateInfoWithIp
  split <;> exact ⟨rfl, rfl, rfl, id⟩

theorem kept_updateIpList (existing new : Nic) : existing.Kept (smb2McUpdateIpList existing new).1 := by
  unfold smb2McUpdateIpList
  refine List.foldlRecOn (motive := fun s : Nic × Bool => existing.Kept s.1) _ _ ⟨rfl, rfl, rfl, id⟩ ?_
  intro s kept addr _
  exact kept.trans (kept_updateInfoWithIp s.1 addr)

structure Nic.Entered (info : NetworkNicInfo) (ignored : Bool) (nic : Nic) : Prop extends nic.Fresh where
  baseIndex : nic.baseIndex = info.nicIndex % 2 ^ 32
  inIgnorelist : nic.inIgnorelist = ignored

theorem addNewInterfaceInfoToList_cases (t : Table) (side : Side) (info : NetworkNicInfo) (rssVal : Nat) (ignored : Bool) :
    (∃ id f, (∀ nic, t.nics.lookup id = some nic → nic.Kept (f nic)) ∧
      t.smb2McAddNewInterfaceInfoToList side info rssVal ignored = t.modifyNic id f) ∨
    ∃ nic : Nic, nic.Entered info ignored ∧ t.smb2McGetNicByIndex side nic.nicIndex = none ∧
      t.smb2McAddNewInterfaceInfoToList side info rssVal ignored = t.smb2McInsertNewNicBySpeed side nic := by
  unfold smb2McAddNewInterfaceInfoToList
  dsimp only
  split
  · rename_i id byIndex
    refine .inl ⟨id, _, fun nic found => ?_, rfl⟩
    have same := (mem_of_getNicByIndex byIndex).2
    rw [nic_of_lookup found] at same
    refine Nic.Kept.trans ?_ (kept_updateInfoWithIp _ _)
    refine ⟨same.symm, rfl, rfl, fun marked => ?_⟩
    simp [marked]
  · rename_i unlisted
    have kept := kept_updateInfoWithIp
      { nicIndex := rssVal * 2 ^ smb2IfRssIndexShift + info.nicIndex % 2 ^ 32
        linkSpeed := info.linkSpeed
        nicType := info.nicType
        inIgnorelist := false || ignored } info.addr
    refine .inr ⟨_, ⟨⟨kept.state, kept.possibleConnections⟩, ?_, ?_⟩, ?_, rfl⟩
    · rw [Nic.baseIndex, kept.nicIndex, smb2IfIndexMask, smb2IfRssIndexShift]
      dsimp only
      omega
    · unfold smb2McUpdateInfoWithIp
      split <;> simp
    · rw [kept.nicIndex]
      exact unlisted

theorem all_addWithRss {p : Nic → Prop} (keeps : ∀ {before after : Nic}, before.Kept after → p before → p after)
    {info : NetworkNicInfo} {ignored : Bool} (enters : ∀ {nic : Nic}, nic.Entered info ignored → p nic)
    (all : t.nics.All p) (side : Side) (rssChannels : Nat) : (t.addWithRss side rssChannels info ignored).nics.All p := by
  have one {t : Table} (all : t.nics.All p) (rssVal : Nat) :
      (t.smb2McAddNewInterfaceInfoToList side info rssVal ignored).nics.All p := by
    rcases addNewInterfaceInfoToList_cases t side info rssVal ignored with ⟨id, f, kept, same⟩ | ⟨nic, entered, unlisted, same⟩
    · rw [same]
      exact all.modifyAt fun nic found => keeps (kept nic found) (all.lookup found)
    · rw [same]
      cases side <;> exact all.alloc (enters entered)
  unfold addWithRss
  dsimp only
  split
  · exact List.foldlRecOn (motive := fun t : Table => t.nics.All p) _ _ (one all 0) fun _ all rss _ => one all rss
  · exact one all 0

theorem cons_addWithRss (t : Table) (side : Side) (rssChannels : Nat) (info : NetworkNicInfo) (ignored : Bool) :
    (t.addWithRss side rssChannels info ignored).cons = t.cons := by
  have one (t : Table) (rssVal : Nat) : (t.smb2McAddNewInterfaceInfoToList side info rssVal ignored).cons = t.cons := by
    rcases addNewInterfaceInfoToList_cases t side info rssVal ignored with ⟨id, f, _, same⟩ | ⟨nic, _, _, same⟩
    · rw [same]
      rfl
    · rw [same]
      exact cons_insertNic _ _ _
  unfold addWithRss
  dsimp only
  split
  · exact List.foldlRecOn (motive := fun s : Table => s.cons = t.cons) _ _ (one t 0) fun s same rss _ => (one s rss).trans same
  · exact one t 0

section
variable {rules : Rules} (lenient : rules.Lenient) {t : Table}
include lenient

variable {side : Side} {next : Table}

theorem moves_addNewInterfaceInfoToList {info : NetworkNicInfo} {ignored : Bool}
    (allowed : ∀ nic : Nic, nic.Entered info ignored → rules.insert side nic) (rssVal : Nat) :
    Moves rules t (t.smb2McAddNewInterfaceInfoToList side info rssVal ignored) := by
  rcases addNewInterfaceInfoToList_cases t side info rssVal ignored with ⟨id, f, kept, same⟩ | ⟨nic, entered, unlisted, same⟩
  · rw [same]
    exact .single (.nic fun nic found => lenient.nic (kept nic found))
  · rw [same]
    exact .single (.insert entered.toFresh unlisted (allowed nic entered))

theorem moves_addWithRss {info : NetworkNicInfo} {ignored : Bool}
    (allowed : ∀ nic : Nic, nic.Entered info ignored → rules.insert side nic) (rssChannels : Nat) :
    Moves rules t (t.addWithRss side rssChannels info ignored) := by
  have first : Moves rules t (t.smb2McAddNewInterfaceInfoToList side info 0 ignored) :=
    moves_addNewInterfaceInfoToList lenient allowed 0
  unfold addWithRss
  dsimp only
  split
  · apply first.trans
    apply Moves.foldl
    intro s _ rss _
    exact moves_addNewInterfaceInfoToList lenient allowed rss
  · exact first

omit lenient in
theorem Move.rest (move : Move rules t next) : next.clientIfIgnorelist = t.clientIfIgnorelist ∧
    (¬rules.listing → next.successfulConList = t.successfulConList) ∧
    (¬rules.counter → next.activeOnTrialConnections = t.activeOnTrialConnections) := by
  have lists (side : Side) (list : List Nat) := rest_withNicList t side list
  cases move with
  | insert _ _ _ => exact ⟨(lists _ _).1, fun _ => (lists _ _).2.1, fun _ => (lists _ _).2.2⟩
  | release _ _ => exact ⟨(lists _ _).1, fun _ => (lists _ _).2.1, fun _ => (lists _ _).2.2⟩
  | part =>
    unfold removeCon
    split <;> exact ⟨rfl, fun _ => rfl, fun _ => rfl⟩
  | listing allowed _ => exact ⟨rfl, (absurd allowed ·), fun _ => rfl⟩
  | counter allowed _ => exact ⟨rfl, fun _ => rfl, (absurd allowed ·)⟩
  | _ => exact ⟨rfl, fun _ => rfl, fun _ => rfl⟩

omit lenient in
theorem Moves.clientIfIgnorelist (moves : Moves rules t next) : next.clientIfIgnorelist = t.clientIfIgnorelist :=
  moves.invariant _ (fun _ _ move same => move.rest.1.trans same) rfl

omit lenient in
theorem Moves.successfulConList (closed : ¬rules.listing) (moves : Moves rules t next) :
    next.successfulConList = t.successfulConList :=
  moves.invariant _ (fun _ _ move same => (move.rest.2.1 closed).trans same) rfl

omit lenient in
theorem Moves.activeOnTrialConnections (closed : ¬rules.counter) (moves : Moves rules t next) :
    next.activeOnTrialConnections = t.activeOnTrialConnections :=
  moves.invariant _ (fun _ _ move same => (move.rest.2.2 closed).trans same) rfl

theorem moves_parseClientInterfaceArray (clientInfo : List NetworkNicInfo) (rssForceOn : Bool)
    (allowed : ∀ info ∈ clientInfo, ∀ nic : Nic, nic.Entered info (t.clientIfIgnorelist.contains info.nicIndex) →
      rules.insert .client nic) :
    Moves rules t (t.smb2McParseClientInterfaceArray clientInfo rssForceOn) := by
  apply Moves.foldl
  intro s reached info member
  apply moves_addWithRss lenient
  intro nic entered
  rw [reached.clientIfIgnorelist] at entered
  exact allowed info member nic ⟨entered.toFresh, entered.baseIndex, entered.inIgnorelist⟩

theorem moves_addFails (info : NetworkNicInfo) (rssVal : Nat) (ignored : Bool) :
    Moves rules t (t.addFails side info rssVal ignored) := by
  unfold addFails
  dsimp only
  split
  · rename_i id byIndex
    refine .single (.nic fun nic found => lenient.nic ⟨?_, rfl, rfl, fun marked => by simp [marked]⟩)
    have same := (mem_of_getNicByIndex byIndex).2
    rw [nic_of_lookup found] at same
    exact same.symm
  · exact .refl

omit lenient in
theorem cons_addFails (info : NetworkNicInfo) (rssVal : Nat) (ignored : Bool) :
    (t.addFails side info rssVal ignored).cons = t.cons := by
  unfold addFails
  dsimp only
  split <;> rfl

/-- A report that fails has entered some of the interfaces, and may release them all at its end. -/
theorem parseClientInterfaces_eq (rssForceOn : Bool) (entries : List (NetworkNicInfo × Added))
    (allowed : ∀ entry ∈ entries, ∀ nic : Nic, nic.Entered entry.1 (t.clientIfIgnorelist.contains entry.1.nicIndex) →
      rules.insert .client nic) :
    ∃ s, Moves rules t s ∧ s.cons = t.cons ∧ parseClientInterfaces rssForceOn entries t =
      if releases entries then s.releaseClientNics else s := by
  induction entries generalizing t with
  | nil => exact ⟨t, .refl, rfl, rfl⟩
  | cons entry rest ih =>
    obtain ⟨info, added⟩ := entry
    rw [List.forall_mem_cons] at allowed
    have enter (channels : Nat) : Moves rules t (t.addWithRss .client channels
        { info with rssCapable := info.rssCapable || rssForceOn } (t.clientIfIgnorelist.contains info.nicIndex)) := by
      apply moves_addWithRss lenient
      exact fun nic entered => allowed.1 nic ⟨entered.toFresh, entered.baseIndex, entered.inIgnorelist⟩
    have later {s : Table} (moves : Moves rules t s) (same : s.cons = t.cons) :
        ∃ u, Moves rules t u ∧ u.cons = t.cons ∧ parseClientInterfaces rssForceOn rest s =
          if releases rest then u.releaseClientNics else u := by
      obtain ⟨u, further, same', result⟩ := ih (t := s) (by rw [moves.clientIfIgnorelist]; exact allowed.2)
      exact ⟨u, moves.trans further, same'.trans same, result⟩
    cases added with
    | whole => exact later (enter _) (cons_addWithRss _ _ _ _ _)
    | last => exact ⟨_, enter _, cons_addWithRss _ _ _ _ _, rfl⟩
    | nothing => exact ⟨t, .refl, rfl, rfl⟩
    | allocated channels => exact ⟨_, enter _, cons_addWithRss _ _ _ _ _, rfl⟩
    | entered channels =>
      exact later ((enter _).trans (moves_addFails lenient _ _ _))
        ((cons_addFails _ _ _).trans (cons_addWithRss _ _ _ _ _))

/-! ## Connections -/

theorem moves_updateCon {pair : Nat × Nat} (client : pair.1 ∈ t.clientNicList) (server : pair.2 ∈ t.serverNicList) :
    Moves rules t (t.updateCon pair) := by
  unfold updateCon
  dsimp only
  split
  · rename_i absent
    refine .single (.join absent (fun side => ?_) ?_ fun marked => ?_)
    · cases side
      · exact client
      · exact server
    · unfold Con.Waiting
      split_ifs <;> simp
    · dsimp only at marked
      simp [marked]
  · refine .single (.con fun con _ => lenient.con ⟨?_, ?_⟩)
    · split <;> exact ⟨rfl, rfl⟩
    · split
      · rename_i both
        exact .inr ⟨.inr both.2.2, .inl rfl⟩
      · exact .inl rfl

omit lenient in
theorem nicList_updateCon (side : Side) (pair : Nat × Nat) : (t.updateCon pair).nicList side = t.nicList side := by
  unfold updateCon
  dsimp only
  split <;> cases side <;> rfl

theorem moves_updateConList (turns : Option Nat) : Moves rules t (t.smb2McUpdateConList turns) := by
  have walk (s : Table) (pairs : List (Nat × Nat))
      (listed : ∀ pair ∈ pairs, pair.1 ∈ s.nicList .client ∧ pair.2 ∈ s.nicList .server) :
      Moves rules s (pairs.foldl updateCon s) := by
    induction pairs generalizing s with
    | nil => exact .refl
    | cons pair rest ih =>
      have first := listed pair List.mem_cons_self
      refine (moves_updateCon lenient first.1 first.2).trans (ih _ fun other member => ?_)
      rw [nicList_updateCon, nicList_updateCon]
      exact listed other (List.mem_cons_of_mem _ member)
  apply walk
  intro pair member
  have inside : pair ∈ t.clientNicList.flatMap fun client => t.serverNicList.map fun server => (client, server) := by
    cases turns with
    | none => exact member
    | some n => exact List.mem_of_mem_take member
  obtain ⟨client, inClient, inside⟩ := List.mem_flatMap.mp inside
  obtain ⟨server, inServer, rfl⟩ := List.mem_map.mp inside
  exact ⟨inClient, inServer⟩

omit lenient in
theorem updateConList_none (t : Table) : t.smb2McUpdateConList =
    (t.clientNicList.flatMap fun client => t.serverNicList.map fun server => (client, server)).foldl updateCon t := rfl

omit lenient in
theorem nicList_removeCons (side : Side) (ids : List Nat) :
    (ids.foldl removeCon t).nicList side = t.nicList side := by
  induction ids generalizing t with
  | nil => rfl
  | cons id rest ih =>
    rw [List.foldl_cons, ih]
    unfold removeCon
    split <;> cases side <;> rfl

omit lenient in
theorem moves_removeCons (ids : List Nat) (hopeless : ∀ id ∈ ids, ∀ con, t.cons.lookup id = some con → con.Hopeless) :
    Moves rules t (ids.foldl removeCon t) := by
  induction ids generalizing t with
  | nil => exact .refl
  | cons id rest ih =>
    refine .head (.part (hopeless id List.mem_cons_self)) (ih fun j member con found => ?_)
    rw [lookup_removeCon] at found
    split at found
    · cases found
    · exact hopeless j (List.mem_cons_of_mem _ member) con found

omit lenient in
theorem moves_removeNicIfUnused (linked : Linked t) (side : Side) (nicId : Nat) :
    Moves rules t (t.smb2McRemoveNicIfUnused side nicId) := by
  unfold smb2McRemoveNicIfUnused
  dsimp only
  generalize mine : (t.cons.inUse.filter fun id => (t.cons.lookup id).any fun con => con.nic side == nicId) = ids
  split
  · rename_i unused
    rw [Bool.and_eq_true, List.all_eq_true] at unused
    have removed : Moves rules t (ids.foldl removeCon t) := by
      apply moves_removeCons
      intro id member con found
      have idle := unused.2 id member
      rw [found] at idle
      simp only [Option.all_some, Bool.and_eq_true, Bool.or_eq_true, beq_iff_eq] at idle
      exact idle.2.symm
    have listed : nicId ∈ t.nicList side := by
      obtain ⟨id, member⟩ := List.exists_mem_of_ne_nil ids (by simpa using unused.1)
      rw [← mine, List.mem_filter, Slots.mem_inUse] at member
      obtain ⟨⟨con, found⟩, here⟩ := member
      simp only [found, Option.any_some, beq_iff_eq] at here
      exact here ▸ linked.listed found side
    -- no connection of the interface is left
    refine removed.tail (.release ?_ fun j con found => ?_)
    · rw [nicList_removeCons]
      exact listed
    · rw [lookup_removeCons] at found
      split at found
      · cases found
      · rename_i other
        rw [← mine, List.mem_filter, Slots.mem_inUse, found] at other
        simpa using other
  · exact .refl

omit lenient in
theorem moves_resetNicList (resets : ∀ s id, rules.reset s .client id) : Moves rules t t.smb2McResetNicList := by
  apply Moves.foldl
  intro s _ id _
  exact .single (.reset (resets s id))

/-! ## Reports of changes -/

def Nic.ReportedIn (infos : List NetworkNicInfo) (nic : Nic) : Prop :=
  nic.Fresh ∧ ∃ info ∈ infos, nic.baseIndex = info.nicIndex % 2 ^ 32

omit lenient in
theorem reported_fill {infos : List NetworkNicInfo} {add : Table → NetworkNicInfo → Table}
    (adds : ∀ s, ∀ info ∈ infos, ∃ side rssChannels ignored rssCapable,
      add s info = s.addWithRss side rssChannels { info with rssCapable } ignored)
    (empty : t.nics = []) : (infos.foldl add t).nics.All (Nic.ReportedIn infos) := by
  refine List.foldlRecOn (motive := fun s : Table => s.nics.All (Nic.ReportedIn infos)) _ _ ?_ ?_
  · rw [empty]
    exact fun _ member => absurd member List.not_mem_nil
  · intro s all info member
    obtain ⟨side, rssChannels, ignored, rssCapable, same⟩ := adds s info member
    rw [same]
    refine all_addWithRss ?_ ?_ all side rssChannels
    · rintro before after kept ⟨fresh, info, member, index⟩
      refine ⟨⟨kept.state.trans fresh.state, kept.possibleConnections.trans fresh.possibleConnections⟩, info, member, ?_⟩
      rw [← index, Nic.baseIndex, Nic.baseIndex, kept.nicIndex]
    · exact fun entered => ⟨entered.toFresh, info, member, entered.baseIndex⟩

def notifierTable (clientInfo : List NetworkNicInfo) (clntRssChannels : Nat) (rssForceOn : Bool) : Table :=
  (smb2McInit 0 0 clntRssChannels [] false).smb2McParseClientInterfaceArray clientInfo rssForceOn

def responseTable (serverInfo : List NetworkNicInfo) (srvrRssChannels : Nat) : Table :=
  serverInfo.foldl (fun u info => u.addWithRss .server srvrRssChannels info false) (smb2McInit 0 0 0 [] false)

omit lenient in
theorem reported_notifierTable (clientInfo : List NetworkNicInfo) (clntRssChannels : Nat) (rssForceOn : Bool) :
    (notifierTable clientInfo clntRssChannels rssForceOn).nics.All (Nic.ReportedIn clientInfo) :=
  reported_fill (fun _ _ _ => ⟨_, _, _, _, rfl⟩) rfl

omit lenient in
theorem reported_responseTable (serverInfo : List NetworkNicInfo) (srvrRssChannels : Nat) :
    (responseTable serverInfo srvrRssChannels).nics.All (Nic.ReportedIn serverInfo) :=
  reported_fill (fun _ info _ => ⟨_, _, _, info.rssCapable, rfl⟩) rfl

omit lenient in
def Nic.changedBy (existing updated : Nic) : Bool :=
  (smb2McUpdateIpList existing updated).2 || existing.linkSpeed != updated.linkSpeed ||
    existing.nicType != updated.nicType

theorem moves_updateNic {updated : Nic} (fresh : updated.Fresh)
    (allowed : t.smb2McGetNicByIndex side updated.nicIndex = none → rules.insert side updated)
    (resets : ∀ s id, t.smb2McGetNicByIndex side updated.nicIndex = some id → s.cons = t.cons →
      s.clientIfIgnorelist = t.clientIfIgnorelist → (∀ other, other ≠ id → s.nic other = t.nic other) →
      side = .client ∨ (t.nic id).changedBy updated = true → rules.reset s side id) (needUpdate : Bool) :
    Moves rules t (updateNic side (t, needUpdate) updated).1 := by
  unfold updateNic
  dsimp only
  split
  · rename_i unlisted
    exact .single (.insert fresh unlisted (allowed unlisted))
  · rename_i id found
    have listed : Moves rules t (t.modifyNic id fun _ => (smb2McUpdateIpList (t.nic id) updated).1) := by
      refine .single (.nic fun nic found => lenient.nic ?_)
      rw [nic_of_lookup found]
      exact kept_updateIpList nic updated
    split
    · rename_i changed
      refine (listed.tail (.nic fun nic _ => lenient.nic ?_)).tail (.reset (resets _ id found rfl rfl ?_ (.inr changed)))
      · exact ⟨rfl, rfl, rfl, fun marked => marked⟩
      · intro other different
        rw [nic_modifyNic_of_ne different, nic_modifyNic_of_ne different]
    · split
      · rename_i client
        exact listed.tail (.reset (resets _ id found rfl rfl (fun _ different => nic_modifyNic_of_ne different _) (.inl client)))
      · exact listed

theorem moves_updateNics {nics : List Nic} (fresh : ∀ nic ∈ nics, nic.Fresh)
    (allowed : ∀ nic ∈ nics, rules.insert side nic) (resets : ∀ s id, rules.reset s side id) (needUpdate : Bool) :
    Moves rules t (nics.foldl (updateNic side) (t, needUpdate)).1 := by
  induction nics generalizing t needUpdate with
  | nil => exact .refl
  | cons nic rest ih =>
    have first := moves_updateNic lenient (t := t) (fresh nic List.mem_cons_self)
      (fun _ => allowed nic List.mem_cons_self) (fun s id _ _ _ _ _ => resets s id) needUpdate
    refine first.trans (ih (fun other member => ?_) (fun other member => ?_) _)
    · exact fresh other (List.mem_cons_of_mem _ member)
    · exact allowed other (List.mem_cons_of_mem _ member)

omit lenient in
theorem fresh_nicList {infos : List NetworkNicInfo} {updated : Table}
    (reported : updated.nics.All (Nic.ReportedIn infos)) (side : Side) :
    ∀ nic ∈ (updated.nicList side).map updated.nic, nic.Fresh := by
  intro nic member
  obtain ⟨id, -, rfl⟩ := List.mem_map.mp member
  unfold nic
  cases found : updated.nics.lookup id with
  | none => exact ⟨rfl, rfl⟩
  | some nic => exact (reported.lookup found).1

theorem moves_removeUnused (linked : Linked t) {joined : Table} (moves : Moves rules t joined) (side : Side) (ids : List Nat) :
    Moves rules t (ids.foldl (fun t id => t.smb2McRemoveNicIfUnused side id) joined) := by
  apply moves.trans
  apply Moves.foldl
  intro s reached id _
  exact moves_removeNicIfUnused (reached.linked lenient (moves.linked lenient linked)) side id

theorem moves_updateNicListFromNotifier (linked : Linked t) {updated : Table}
    (first : Moves rules t (((updated.nicList side).map updated.nic).foldl (updateNic side) (t, false)).1)
    (turns : Option Nat) : Moves rules t (t.smb2McUpdateNicListFromNotifier updated side turns) := by
  apply moves_removeUnused lenient linked
  split
  · exact first.trans (moves_updateConList lenient turns)
  · exact first

theorem moves_notifierEvent (linked : Linked t) (clientInfo : List NetworkNicInfo) (clntRssChannels : Nat) (rssForceOn : Bool)
    (allowed : ∀ nic : Nic, nic.Fresh → rules.insert .client nic) (resets : ∀ s id, rules.reset s .client id)
    (turns : Option Nat) : Moves rules t (t.smb2McNotifierEvent clientInfo clntRssChannels rssForceOn turns) := by
  have fresh := fresh_nicList (reported_notifierTable clientInfo clntRssChannels rssForceOn) .client
  refine moves_updateNicListFromNotifier lenient linked ?_ turns
  exact moves_updateNics lenient fresh (fun nic member => allowed nic (fresh nic member)) resets false

theorem moves_queryInfoResponseEvent (linked : Linked t) (serverInfo : List NetworkNicInfo)
    (allowed : ∀ nic : Nic, nic.Fresh → rules.insert .server nic) (resets : ∀ s id, rules.reset s .server id)
    (turns : Option Nat) : Moves rules t (t.smb2McQueryInfoResponseEvent serverInfo turns) := by
  have fresh := fresh_nicList (reported_responseTable serverInfo t.srvrRssChannels) .server
  refine moves_updateNicListFromNotifier lenient linked ?_ turns
  exact moves_updateNics lenient fresh (fun nic member => allowed nic (fresh nic member)) resets false

end

end SmbClient.Multichannel
