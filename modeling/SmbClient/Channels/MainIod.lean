import SmbClient.Channels.Invariant

namespace SmbClient.Channels
open SmbClient.Lib Session

section
variable {s : Session}

/-! ## Failover -/

variable {id alt : Nat} {failover : Failover} {next after : Session} {ids : List Nat}

theorem Shape.main_of_failsOver (inv : Shape s) (fails : failsOver (s.iod id) = true) :
    s.sessionIod = some id ∧ ∃ iod, s.iods.lookup id = some iod ∧ iod.running = true := by
  obtain ⟨iod, found, fails⟩ := lookup_of_iod rfl fails
  simp only [failsOver, Bool.and_eq_true, Bool.not_eq_true', Bool.or_eq_true, beq_iff_eq] at fails
  obtain ⟨⟨⟨runs, main⟩, -⟩, state⟩ := fails
  refine ⟨((inv.kinds found).mp main).resolve_right fun unmarked => ?_, iod, found, runs⟩
  rw [inv.waiting unmarked found] at state
  simp at state

theorem Shape.startFailover (inv : Shape s) (fails : failsOver (s.iod id) = true)
    (first : ∀ failover ∈ s.failovers, failover.iod ≠ id) :
    Shape { s with failovers := { iod := id } :: s.failovers } := by
  obtain ⟨isMain, runs⟩ := inv.main_of_failsOver fails
  have none : s.failovers = [] := by
    rw [List.eq_nil_iff_forall_not_mem]
    intro failover member
    have same := (inv.failing member).1
    rw [isMain, Option.some.injEq] at same
    exact first failover member same.symm
  refine { inv with single := ?_, failing := ?_ }
  · rw [none]
    exact Nat.le_refl 1
  · intro failover member
    rw [none, List.mem_singleton] at member
    subst member
    exact ⟨isMain, runs, fun waits => by cases waits⟩

theorem counted_startFailover (counted : s.Counted) (id : Nat) :
    ({ s with failovers := { iod := id } :: s.failovers } : Session).Counted := by
  intro j iod found
  have same : ({ s with failovers := { iod := id } :: s.failovers } : Session).references j = s.references j := by
    simp [references]
  rw [same]
  exact counted j iod found

theorem mem_getNonMainIod {forceInactive : Bool} (drawn : s.smbIodGetNonMainIod forceInactive = some id) :
    id ∈ s.iodTailq ∧ usable (s.iod id) = true ∧ (s.iod id).alternateChannel = true := by
  have suitable {id : Nat}
      (member : id ∈ s.iodTailq.filter fun id => usable (s.iod id) && (s.iod id).alternateChannel) :
      id ∈ s.iodTailq ∧ usable (s.iod id) = true ∧ (s.iod id).alternateChannel = true := by
    rwa [List.mem_filter, Bool.and_eq_true] at member
  unfold smbIodGetNonMainIod at drawn
  dsimp only at drawn
  rcases Option.or_eq_some_iff.mp drawn with active | ⟨-, inactive⟩
  · split at active
    · cases active
    · exact suitable (List.mem_of_find?_eq_some active)
  · exact suitable (List.mem_filter.mp (List.mem_of_getLast? inactive)).1

theorem Shape.failovers_eq (inv : Shape s) (member : failover ∈ s.failovers) :
    s.failovers = [failover] := by
  have single := inv.single
  cases list : s.failovers with
  | nil =>
    rw [list] at member
    cases member
  | cons first rest =>
    rw [list] at member single
    have none : rest = [] := List.length_eq_zero_iff.mp (Nat.le_zero.mp (Nat.le_of_succ_le_succ single))
    subst none
    rw [List.mem_singleton.mp member]

theorem Shape.erase_failover (inv : Shape s) (member : failover ∈ s.failovers) :
    s.failovers.erase failover = [] := by
  rw [inv.failovers_eq member, List.erase_cons_head]

theorem Shape.withoutFailover (inv : Shape s) : Shape { s with failovers := [] } :=
  { inv with single := Nat.zero_le 1, failing := fun member => absurd member List.not_mem_nil }

theorem Shape.findAlternate (inv : Shape s) (member : failover ∈ s.failovers) :
    Shape (s.findAlternate failover) := by
  unfold Session.findAlternate
  dsimp only
  rw [inv.erase_failover member]
  split
  · exact inv.withoutFailover
  · rename_i alt drawn
    obtain ⟨listed, active, alternate⟩ := mem_getNonMainIod drawn
    obtain ⟨iod, found⟩ := inv.live listed
    rw [iod_of_lookup found] at active alternate
    have kind : ¬(s.sessionIod = some alt ∨ alt ∈ s.unmarked) := by
      rw [← inv.kinds found, alternate]
      simp
    have taken := (inv.smbIodRef alt).modifyIod alt (f := fun iod => { iod with inactiveChannel := false })
      (fun _ => rfl) (fun _ ends => ends) (.inl fun _ runs => runs) fun _ _ => rfl
    obtain ⟨isMain, runs, -⟩ := taken.failing member
    refine { taken with single := Nat.le_refl 1, failing := ?_ }
    intro other here
    cases List.mem_singleton.mp here
    refine ⟨isMain, runs, fun waits => ?_⟩
    cases waits
    exact ⟨listed, fun there => kind (.inr there), fun same => kind (.inl (isMain.trans (congrArg some same.symm)))⟩

theorem Shape.counted_findAlternate (inv : Shape s) (counted : s.Counted)
    (member : failover ∈ s.failovers) (none : failover.altIod = none) : (s.findAlternate failover).Counted := by
  have before (j : Nat) : s.references j = s.held.count j := by
    unfold references
    rw [inv.failovers_eq member]
    simp [none]
  unfold Session.findAlternate
  dsimp only
  rw [inv.erase_failover member]
  split
  · intro j iod found
    have fewer := counted j iod found
    rw [before] at fewer
    exact fewer
  · rename_i alt drawn
    have one (j : Nat) :
        ({ s with held := s.held, failovers := [{ failover with altIod := some alt }] } : Session).references j ≤
          s.references j + if alt = j then 1 else 0 := by
      rw [before]
      simp [references, List.countP_cons]
    exact (counted.smbIodRef one).modifyIod alt fun _ => Nat.le_refl _

theorem smbIodProclaimMain_some {main : Nat} (taken : s.smbIodProclaimMain alt main = some next) :
    (s.iod alt).shutdown = false ∧ next =
      { (s.modifyIod main fun iod => { iod with alternateChannel := true }).modifyIod alt
          fun iod => { iod with alternateChannel := false } with
        roundRobinIod := none
        iodTailq := alt :: s.iodTailq.erase alt
        sessionIod := some alt } := by
  unfold smbIodProclaimMain at taken
  split at taken
  · cases taken
  · rename_i alive
    cases taken
    rw [Bool.or_eq_true, not_or, Bool.not_eq_true] at alive
    exact ⟨alive.1, rfl⟩

theorem Shape.proclaimMain (inv : Shape s) (member : failover ∈ s.failovers) (waits : failover.altIod = some alt)
    (taken : s.smbIodProclaimMain alt failover.iod = some next) : Shape { next with failovers := [] } := by
  obtain ⟨alive, rfl⟩ := smbIodProclaimMain_some taken
  obtain ⟨isMain, -, waited⟩ := inv.failing member
  obtain ⟨listed, marked, apart⟩ := waited waits
  obtain ⟨iod, found⟩ := inv.live listed
  -- an iod that is not shutting down is on the list only while the session is not either
  have opened : s.shuttingDown = false := by
    rw [← Bool.not_eq_true]
    intro closed
    have ends := ((inv.closed closed).2 listed).2 iod found
    rw [iod_of_lookup found, ends] at alive
    cases alive
  have list {id : Nat} : id ∈ alt :: s.iodTailq.erase alt ↔ id ∈ s.iodTailq := by
    rw [List.mem_cons, inv.nodup.mem_erase_iff]
    by_cases same : id = alt
    · simp [same, listed]
    · simp [same]
  have mainListed : failover.iod ∈ s.iodTailq := inv.opened isMain opened
  have known {id : Nat} (known : id ∈ s.iodTailq ∨ s.sessionIod = some id) : id ∈ s.iodTailq := by
    rcases known with member | same
    · exact member
    · rw [isMain, Option.some.injEq] at same
      exact same ▸ mainListed
  refine ⟨?_, ?_, ?_, ?_, inv.distinct, ?_, ?_, ?_, ?_, ?_, ?_, ?_, Nat.zero_le 1, ?_, ?_, ?_⟩
  · exact List.nodup_cons.mpr ⟨fun member => (inv.nodup.mem_erase_iff.mp member).1 rfl, inv.nodup.erase alt⟩
  · intro id member
    obtain ⟨iod, found⟩ := inv.live (list.mp member)
    exact ⟨_, lookup_modifyIod_of (lookup_modifyIod_of found)⟩
  · intro id iod found
    obtain ⟨_, found, -⟩ := lookup_modifyIod found
    obtain ⟨_, found, -⟩ := lookup_modifyIod found
    exact .inl (list.mpr (known (inv.known found)))
  · intro id iod found
    obtain ⟨mid, between, rfl⟩ := lookup_modifyIod found
    obtain ⟨old, before, rfl⟩ := lookup_modifyIod between
    by_cases new : alt = id
    · subst new
      simp
    · by_cases main : failover.iod = id
      · subst main
        have other : failover.iod ∉ s.unmarked := fun there => (inv.unmarked there).2 isMain
        simpa [Session.modifyIod, new] using other
      · have kind := inv.kinds before
        rw [isMain, Option.some.injEq, or_iff_right main] at kind
        simpa [Session.modifyIod, new, main] using kind
  · intro id there
    refine ⟨list.mpr (inv.unmarked there).1, ?_⟩
    rintro same
    exact marked (Option.some.inj same ▸ there)
  · intro id iod there found
    obtain ⟨mid, between, rfl⟩ := lookup_modifyIod found
    obtain ⟨old, before, rfl⟩ := lookup_modifyIod between
    have waiting := inv.waiting there before
    split_ifs <;> exact waiting
  · intro id same _
    exact list.mpr (Option.some.inj same ▸ listed)
  · intro closed
    exact absurd (opened.symm.trans closed) (by decide)
  · intro _
    exact ⟨alt, _, rfl, lookup_modifyIod_of (lookup_modifyIod_of found)⟩
  · intro id removed
    exact absurd (opened.symm.trans (inv.removed removed).2) (by decide)
  · refine ⟨fun empty => ?_, nofun⟩
    have gone := (lookup_modifyIod_of (lookup_modifyIod_of found)).symm.trans (congrArg (Slots.lookup · alt) empty)
    cases gone
  · intro _ member
    cases member
  · intro id held
    exact .inl (list.mpr (known (inv.holding held)))
  · intro id drawn
    cases drawn

theorem Shape.proclaimed (inv : Shape s) (member : failover ∈ s.failovers)
    (waits : failover.altIod = some alt) (orderly : s.Orderly (.proclaimed failover))
    (taken : s.proclaimed failover alt = some next) : Shape next := by
  unfold Session.proclaimed at taken
  dsimp only at taken
  rw [inv.erase_failover member] at taken
  split at taken
  · rename_i promoted proclaims
    exact (inv.proclaimMain member waits proclaims).smbIodRel taken
  · rename_i refused
    obtain ⟨s', given, taken⟩ := Option.bind_eq_some_iff.mp taken
    split at taken
    · cases taken
      have shape := inv.smbIodRel given
      have same : s'.failovers = s.failovers := by rw [smbIodRel_some given]; rfl
      obtain ⟨isMain, runs, -⟩ := shape.failing (same ▸ member)
      refine { shape with single := Nat.le_refl 1, failing := fun {f} here => ?_ }
      cases List.mem_singleton.mp here
      exact ⟨isMain, runs, nofun⟩
    · rename_i last
      have alive := orderly.resolve_left last alt waits
      unfold smbIodProclaimMain at refused
      rw [alive.1, alive.2] at refused
      cases refused

theorem Shape.counted_proclaimed (inv : Shape s) (counted : s.Counted)
    (member : failover ∈ s.failovers) (waits : failover.altIod = some alt) (orderly : s.Orderly (.proclaimed failover))
    (taken : s.proclaimed failover alt = some next) : next.Counted := by
  have spare (j : Nat) (iod : Iod) (found : s.iods.lookup j = some iod) :
      s.held.count j + (if alt = j then 1 else 0) ≤ iod.refCnt := by
    have before := counted j iod found
    unfold references at before
    rw [inv.failovers_eq member, List.countP_singleton, waits] at before
    simpa using before
  unfold Session.proclaimed at taken
  dsimp only at taken
  rw [inv.erase_failover member] at taken
  split at taken
  · rename_i promoted proclaims
    obtain ⟨-, rfl⟩ := smbIodProclaimMain_some proclaims
    refine Counted.smbIodRel taken fun j iod found => ?_
    obtain ⟨mid, between, rfl⟩ := lookup_modifyIod found
    obtain ⟨old, before, rfl⟩ := lookup_modifyIod between
    have fewer := spare j old before
    split_ifs at fewer ⊢ <;> exact fewer
  · rename_i refused
    obtain ⟨s', given, taken⟩ := Option.bind_eq_some_iff.mp taken
    split at taken
    · cases taken
      cases smbIodRel_some given
      intro j iod found
      obtain ⟨old, before, rfl⟩ := lookup_modifyIod found
      have fewer := spare j old before
      change s.held.count j ≤ _
      split
      · rename_i same
        rw [if_pos same] at fewer
        exact Nat.le_sub_of_add_le fewer
      · exact (Nat.le_add_right _ _).trans fewer
    · rename_i last
      have alive := orderly.resolve_left last alt waits
      unfold smbIodProclaimMain at refused
      rw [alive.1, alive.2] at refused
      cases refused

/-! ## The end -/

theorem Shape.free (inv : Shape s) (other : s.sessionIod ≠ some id) (marked : id ∉ s.unmarked)
    (unused : s.references id = 0) :
    Shape { s with roundRobinIod := none, iodTailq := s.iodTailq.erase id, iods := s.iods.free id } := by
  have left {j : Nat} : j ∈ s.iodTailq.erase id ↔ j ≠ id ∧ j ∈ s.iodTailq := inv.nodup.mem_erase_iff
  have kept {j : Nat} {iod : Iod} (different : j ≠ id) (found : s.iods.lookup j = some iod) :
      (s.iods.free id).lookup j = some iod := by
    rw [Slots.lookup_free, if_neg (Ne.symm different), found]
  have before {j : Nat} {iod : Iod} (found : (s.iods.free id).lookup j = some iod) :
      j ≠ id ∧ s.iods.lookup j = some iod :=
    (Slots.lookup_free_eq_some.mp found).imp_left Ne.symm
  have isOther {j : Nat} (isMain : s.sessionIod = some j) : j ≠ id := fun same => other (same ▸ isMain)
  obtain ⟨noneHeld, noneWaits⟩ := Nat.add_eq_zero_iff.mp unused
  rw [List.count_eq_zero] at noneHeld
  rw [List.countP_eq_zero] at noneWaits
  refine ⟨inv.nodup.erase id, ?_, ?_, ?_, inv.distinct, ?_, ?_, ?_, ?_, ?_, inv.removed, ?_, inv.single, ?_, ?_, nofun⟩
  · intro j member
    obtain ⟨iod, found⟩ := inv.live (left.mp member).2
    exact ⟨iod, kept (left.mp member).1 found⟩
  · intro j iod found
    exact (inv.known (before found).2).imp_left fun member => left.mpr ⟨(before found).1, member⟩
  · intro j iod found
    exact inv.kinds (before found).2
  · intro j there
    exact ⟨left.mpr ⟨ne_of_mem_of_not_mem there marked, (inv.unmarked there).1⟩, (inv.unmarked there).2⟩
  · intro j iod there found
    exact inv.waiting there (before found).2
  · intro main isMain opened
    exact left.mpr ⟨isOther isMain, inv.opened isMain opened⟩
  · intro closed
    refine ⟨(inv.closed closed).1, fun {j} member => ?_⟩
    obtain ⟨isAlternate, ends⟩ := (inv.closed closed).2 (left.mp member).2
    exact ⟨isAlternate, fun iod found => ends iod (before found).2⟩
  · intro nonempty
    obtain ⟨j, member⟩ := List.exists_mem_of_ne_nil _ nonempty
    obtain ⟨main, iod, isMain, found⟩ := inv.kept (List.ne_nil_of_mem (left.mp member).2)
    exact ⟨main, iod, isMain, kept (isOther isMain) found⟩
  · exact (nil_iff_of_length (Slots.length_free ..)).trans inv.fresh
  · intro failover member
    obtain ⟨isMain, ⟨iod, found, runs⟩, waited⟩ := inv.failing member
    refine ⟨isMain, ⟨iod, kept (isOther isMain) found, runs⟩, fun {alt} waits => ?_⟩
    obtain ⟨listed, rest⟩ := waited waits
    refine ⟨left.mpr ⟨?_, listed⟩, rest⟩
    rintro rfl
    exact noneWaits failover member (beq_iff_eq.mpr waits)
  · intro j member
    exact (inv.holding member).imp_left fun listed => left.mpr ⟨ne_of_mem_of_not_mem member noneHeld, listed⟩

theorem Shape.threadEnds (inv : Shape s) (counted : s.Counted) (runs : (s.iod id).running = true)
    (none : ∀ failover ∈ s.failovers, failover.iod ≠ id) (taken : s.threadEnds id = some next) :
    Shape next ∧ next.Counted := by
  obtain ⟨iod, found, -⟩ := lookup_of_iod rfl runs
  unfold Session.threadEnds at taken
  rw [iod_of_lookup found] at taken
  split at taken
  · rename_i alternate
    split at taken
    · rename_i unused
      cases taken
      have kind : ¬(s.sessionIod = some id ∨ id ∈ s.unmarked) := by
        rw [← inv.kinds found, alternate]
        simp
      have unreferenced : s.references id = 0 := Nat.le_zero.mp (unused ▸ counted id iod found)
      refine ⟨inv.free (fun main => kind (.inl main)) (fun there => kind (.inr there)) unreferenced, ?_⟩
      intro j iod found
      exact counted j iod (Slots.lookup_free_eq_some.mp found).2
    · cases taken
  · cases taken
    refine ⟨inv.modifyIod id (fun _ => rfl) (fun _ ends => ends) (.inr none) fun _ _ => rfl, ?_⟩
    exact counted.modifyIod id fun _ => Nat.le_refl _

structure Freed (ids : List Nat) (before after : Session) : Prop where
  lookup : ∀ id, after.iods.lookup id = (before.iods.lookup id).map fun iod =>
    if id ∈ ids ∧ iod.alternateChannel = true then { iod with shutdown := true } else iod
  length : after.iods.length = before.iods.length
  nodup : after.iodTailq.Nodup
  listed : ∀ id, id ∈ after.iodTailq ↔ id ∈ before.iodTailq ∧ (id ∈ ids → (before.iod id).alternateChannel = true)
  mainIod : ∀ id, after.mainIod = some id →
    before.mainIod = some id ∨ id ∈ ids ∧ (before.iod id).alternateChannel = false
  drawn : ∀ id, after.roundRobinIod = some id →
    before.roundRobinIod = some id ∧ ∀ id ∈ ids, (before.iod id).alternateChannel = true
  sessionIod : after.sessionIod = before.sessionIod
  shuttingDown : after.shuttingDown = before.shuttingDown
  unmarked : after.unmarked = before.unmarked
  failovers : after.failovers = before.failovers
  held : after.held = before.held

theorem Freed.alternateChannel (freed : Freed ids s after) (id : Nat) :
    (after.iod id).alternateChannel = (s.iod id).alternateChannel := by
  unfold iod
  rw [freed.lookup]
  cases s.iods.lookup id with
  | none => rfl
  | some iod =>
    rw [Option.map_some, Option.getD_some, Option.getD_some]
    split <;> rfl

theorem freed_freeIod (nodup : s.iodTailq.Nodup) (id : Nat) : Freed [id] s (s.freeIod id) := by
  have onlyOne {j : Nat} (other : id ≠ j) : j ∉ [id] := fun member => other (List.mem_singleton.mp member).symm
  unfold freeIod
  split
  · rename_i alternate
    refine ⟨?_, Slots.length_modify _ _ _, nodup, ?_, fun _ => .inl, ?_, rfl, rfl, rfl, rfl, rfl⟩
    · intro j
      change (s.iods.modify id _).lookup j = _
      rw [Slots.lookup_modify]
      split
      · rename_i same
        subst same
        cases found : s.iods.lookup id with
        | none => rfl
        | some iod =>
          rw [iod_of_lookup found] at alternate
          simp [alternate]
      · rename_i other
        simp [Ne.symm other]
    · intro j
      refine ⟨fun member => ⟨member, fun here => ?_⟩, And.left⟩
      rw [List.mem_singleton.mp here]
      exact alternate
    · intro j drawn
      refine ⟨drawn, fun i here => ?_⟩
      rw [List.mem_singleton.mp here]
      exact alternate
  · rename_i main
    rw [Bool.not_eq_true] at main
    refine ⟨?_, rfl, nodup.erase id, ?_, ?_, nofun, rfl, rfl, rfl, rfl, rfl⟩
    · intro j
      cases found : s.iods.lookup j with
      | none => rfl
      | some iod =>
        rw [Option.map_some, if_neg]
        rintro ⟨here, alternate⟩
        rw [List.mem_singleton.mp here] at found
        rw [iod_of_lookup found, alternate] at main
        cases main
    · intro j
      rw [nodup.mem_erase_iff, List.mem_singleton, and_comm]
      refine and_congr_right fun _ => ⟨fun other same => absurd same other, ?_⟩
      rintro alternate rfl
      rw [main] at alternate
      cases alternate rfl
    · rintro j same
      cases same
      exact .inr ⟨List.mem_singleton.mpr rfl, main⟩

theorem Freed.cons {mid : Session} (first : Freed [id] s mid)
    (later : Freed ids mid after) : Freed (id :: ids) s after where
  lookup j := by
    rw [later.lookup, first.lookup, Option.map_map]
    congr 1
    funext iod
    simp only [Function.comp, List.mem_cons]
    by_cases same : j = id <;> by_cases alternate : iod.alternateChannel = true <;> simp [same, alternate]
  length := later.length.trans first.length
  nodup := later.nodup
  listed j := by
    rw [later.listed, first.listed, first.alternateChannel, List.mem_singleton, List.mem_cons, and_assoc]
    exact and_congr_right fun _ => ⟨fun both => Or.rec both.1 both.2, fun all => ⟨all ∘ .inl, all ∘ .inr⟩⟩
  mainIod j same := by
    rcases later.mainIod j same with same | ⟨here, main⟩
    · rcases first.mainIod j same with same | ⟨here, main⟩
      · exact .inl same
      · exact .inr ⟨List.mem_cons.mpr (.inl (List.mem_singleton.mp here)), main⟩
    · rw [first.alternateChannel] at main
      exact .inr ⟨List.mem_cons_of_mem _ here, main⟩
  drawn j drawn := by
    obtain ⟨drawn, rest⟩ := later.drawn j drawn
    obtain ⟨drawn, one⟩ := first.drawn j drawn
    refine ⟨drawn, fun i here => ?_⟩
    rcases List.mem_cons.mp here with rfl | here
    · exact one i (List.mem_singleton.mpr rfl)
    · exact (first.alternateChannel i).symm.trans (rest i here)
  sessionIod := later.sessionIod.trans first.sessionIod
  shuttingDown := later.shuttingDown.trans first.shuttingDown
  unmarked := later.unmarked.trans first.unmarked
  failovers := later.failovers.trans first.failovers
  held := later.held.trans first.held

theorem freed_foldl (nodup : s.iodTailq.Nodup) (ids : List Nat) : Freed ids s (ids.foldl freeIod s) := by
  induction ids generalizing s with
  | nil =>
    refine ⟨fun id => ?_, rfl, nodup, ?_, fun _ => .inl, ?_, rfl, rfl, rfl, rfl, rfl⟩
    · simp
    · simp
    · simp
  | cons id rest ih => exact (freed_freeIod nodup id).cons (ih (freed_freeIod nodup id).nodup)

theorem Freed.lookup_some (freed : Freed ids s after) {new : Iod}
    (found : after.iods.lookup id = some new) : ∃ old, s.iods.lookup id = some old ∧
      new.alternateChannel = old.alternateChannel ∧ new.state = old.state ∧ new.refCnt = old.refCnt ∧
      new.running = old.running ∧ (id ∈ ids → old.alternateChannel = true → new.shutdown = true) := by
  rw [freed.lookup] at found
  obtain ⟨old, before, rfl⟩ := Option.map_eq_some_iff.mp found
  refine ⟨old, before, ?_⟩
  split
  · simp
  · rename_i other
    exact ⟨rfl, rfl, rfl, rfl, fun here alternate => absurd ⟨here, alternate⟩ other⟩

theorem Freed.live (freed : Freed ids s after) {old : Iod}
    (found : s.iods.lookup id = some old) : ∃ new, after.iods.lookup id = some new ∧ new.running = old.running := by
  refine ⟨_, (freed.lookup id).trans (congrArg _ found), ?_⟩
  dsimp only
  split <;> rfl

theorem Shape.freed (inv : Shape s) : Freed s.iodTailq { s with shuttingDown := true } s.smbSessionFree :=
  freed_foldl (s := { s with shuttingDown := true }) inv.nodup s.iodTailq

theorem Shape.smbSessionFree (inv : Shape s) (marked : s.unmarked = []) : Shape s.smbSessionFree := by
  have freed := inv.freed
  have main {id : Nat} (member : id ∈ s.iodTailq) : (s.iod id).alternateChannel = false ↔ s.sessionIod = some id := by
    obtain ⟨iod, found⟩ := inv.live member
    rw [iod_of_lookup found, inv.kinds found, marked]
    simp
  have listed {id : Nat} : id ∈ s.smbSessionFree.iodTailq ↔ id ∈ s.iodTailq ∧ s.sessionIod ≠ some id := by
    refine (freed.listed id).trans (and_congr_right fun member => ?_)
    rw [Ne, ← main member, Bool.not_eq_false]
    exact ⟨fun alternate => alternate member, fun alternate _ => alternate⟩
  have session := freed.sessionIod
  have unmarked : s.smbSessionFree.unmarked = [] := freed.unmarked.trans marked
  have known {id : Nat} (known : id ∈ s.iodTailq ∨ s.sessionIod = some id) :
      id ∈ s.smbSessionFree.iodTailq ∨ s.sessionIod = some id := by
    by_cases isMain : s.sessionIod = some id
    · exact .inr isMain
    · exact .inl (listed.mpr ⟨known.resolve_right isMain, isMain⟩)
  refine ⟨freed.nodup, ?_, ?_, ?_, ?_, ?_, ?_, ?_, ?_, ?_, ?_, ?_, ?_, ?_, ?_, ?_⟩
  · intro id member
    obtain ⟨iod, found⟩ := inv.live (listed.mp member).1
    obtain ⟨new, found, -⟩ := freed.live found
    exact ⟨new, found⟩
  · intro id iod found
    obtain ⟨old, before, -⟩ := freed.lookup_some found
    rw [session]
    exact known (inv.known before)
  · intro id iod found
    obtain ⟨old, before, same, -⟩ := freed.lookup_some found
    rw [same, session, freed.unmarked]
    exact inv.kinds before
  · rw [unmarked]
    exact List.nodup_nil
  · intro id there
    rw [unmarked] at there
    cases there
  · intro id iod there
    rw [unmarked] at there
    cases there
  · intro id _ opened
    cases freed.shuttingDown.symm.trans opened
  · intro _
    refine ⟨unmarked, fun {id} member => ?_⟩
    obtain ⟨before, isAlternate⟩ := listed.mp member
    refine ⟨session ▸ isAlternate, fun iod found => ?_⟩
    obtain ⟨old, found, -, -, -, -, ends⟩ := freed.lookup_some found
    apply ends before
    rw [← Bool.not_eq_false, inv.kinds found, marked]
    simpa using isAlternate
  · intro nonempty
    obtain ⟨id, member⟩ := List.exists_mem_of_ne_nil _ nonempty
    obtain ⟨main, iod, isMain, found⟩ := inv.kept (List.ne_nil_of_mem (listed.mp member).1)
    obtain ⟨new, found, -⟩ := freed.live found
    exact ⟨main, new, session.trans isMain, found⟩
  · intro id removed
    refine ⟨session.trans ?_, freed.shuttingDown⟩
    rcases freed.mainIod id removed with before | ⟨member, isMain⟩
    · exact (inv.removed before).1
    · exact (main member).mp isMain
  · rw [session]
    exact (nil_iff_of_length freed.length).trans inv.fresh
  · rw [freed.failovers]
    exact inv.single
  · intro failover member
    rw [freed.failovers] at member
    obtain ⟨isMain, ⟨iod, found, runs⟩, waited⟩ := inv.failing member
    obtain ⟨new, found, same⟩ := freed.live found
    refine ⟨session.trans isMain, ⟨new, found, same.trans runs⟩, fun {alt} waits => ?_⟩
    obtain ⟨before, -, apart⟩ := waited waits
    rw [unmarked, listed]
    refine ⟨⟨before, fun same => apart ?_⟩, List.not_mem_nil, apart⟩
    rw [isMain, Option.some.injEq] at same
    exact same.symm
  · intro id member
    rw [session]
    rw [freed.held] at member
    exact known (inv.holding member)
  · intro id drawn
    obtain ⟨before, all⟩ := freed.drawn id drawn
    have member := inv.drawn before
    refine listed.mpr ⟨member, ?_⟩
    rw [Ne, ← main member, Bool.not_eq_false]
    exact all id member

theorem Shape.counted_smbSessionFree (inv : Shape s) (counted : s.Counted) : s.smbSessionFree.Counted := by
  have freed := inv.freed
  intro id iod found
  obtain ⟨old, before, -, -, same, -⟩ := freed.lookup_some found
  unfold references
  rw [same, freed.held, freed.failovers]
  exact counted id old before

theorem Shape.destroyMain (inv : Shape s) (empty : s.iodTailq = []) (removed : s.mainIod = some id)
    (ended : (s.iod id).running = false) :
    Shape { s with iods := s.iods.free id, mainIod := none } := by
  have isMain := (inv.removed removed).1
  have none : s.failovers = [] := by
    rw [List.eq_nil_iff_forall_not_mem]
    intro failover member
    obtain ⟨same, ⟨iod, found, runs⟩, -⟩ := inv.failing member
    rw [isMain, Option.some.injEq] at same
    rw [same, iod_of_lookup found, runs] at ended
    cases ended
  have before {j : Nat} {iod : Iod} (found : (s.iods.free id).lookup j = some iod) : s.iods.lookup j = some iod :=
    (Slots.lookup_free_eq_some.mp found).2
  have unlisted {j : Nat} (member : j ∈ s.iodTailq) : False := by
    rw [empty] at member
    cases member
  exact { inv with
    live := fun member => (unlisted member).elim
    known := fun found => inv.known (before found)
    kinds := fun found => inv.kinds (before found)
    waiting := fun there found => inv.waiting there (before found)
    closed := fun closed => ⟨(inv.closed closed).1, fun member => (unlisted member).elim⟩
    kept := fun nonempty => absurd empty nonempty
    removed := nofun
    fresh := (nil_iff_of_length (Slots.length_free ..)).trans inv.fresh
    failing := fun member => absurd (none ▸ member) List.not_mem_nil }

/-! ## Steps -/

theorem mem_getMainIod (drawn : s.smbIodGetMainIod = some id) : id ∈ s.iodTailq :=
  List.mem_of_head? (Option.eq_some_of_filter_eq_some drawn)

theorem mem_getAnyIod (drawn : s.smbIodGetAnyIod = some id) : id ∈ s.iodTailq := by
  have later {first : Nat} (member : id ∈ (s.iodTailq.dropWhile (· != first)).tail) : id ∈ s.iodTailq :=
    (List.dropWhile_sublist _).subset (List.mem_of_mem_tail member)
  unfold smbIodGetAnyIod at drawn
  dsimp only at drawn
  rcases Option.or_eq_some_iff.mp drawn with found | ⟨-, first⟩
  · rcases List.mem_append.mp (List.mem_of_find?_eq_some found) with member | member
    · split at member
      · exact member
      · exact later member
    · exact member
  · exact List.mem_of_head? first

theorem smbIodCreate_started (s : Session) (started : s.shuttingDown = false) :
    s.smbIodCreate true = ({ s.created with unmarked := s.unmarked }, some s.iods.length) := by
  unfold smbIodCreate
  rw [if_neg (by simp [started])]
  rfl

theorem shape_step {event : Event} (inv : Shape s) (counted : s.Counted) (orderly : s.Orderly event)
    (taken : s.step event = some next) : Shape next ∧ next.Counted := by
  cases event with
  | create started =>
    obtain ⟨empty, taken⟩ := Option.ite_none_right_eq_some.mp taken
    cases taken
    cases orderly
    cases down : s.shuttingDown with
    | true =>
      unfold smbIodCreate
      rw [if_pos down]
      exact ⟨inv, counted⟩
    | false =>
      rw [smbIodCreate_started s down]
      have new := inv.eq_new (inv.fresh.mp empty)
      rw [down] at new
      subst new
      exact ⟨shape_first, inv.counted_created counted rfl⟩
  | establish started =>
    obtain ⟨nonempty, taken⟩ := Option.ite_none_left_eq_some.mp taken
    cases taken
    cases orderly
    unfold smbSessionEstablishAlternateConnection
    cases down : s.shuttingDown with
    | true =>
      unfold smbIodCreate
      rw [if_pos down]
      exact ⟨inv, counted⟩
    | false =>
      rw [smbIodCreate_started s down]
      have isSome : s.sessionIod ≠ none := fun none => nonempty (inv.fresh.mpr none)
      obtain ⟨main, isMain⟩ := Option.ne_none_iff_exists'.mp isSome
      have others : s.iodTailq.isEmpty = false :=
        List.isEmpty_eq_false_iff.mpr (List.ne_nil_of_mem (inv.opened isMain down))
      have same : ({ s.created with unmarked := s.iods.length :: s.unmarked } : Session) = s.created := by
        unfold created
        simp [others]
      dsimp only
      rw [same]
      exact ⟨inv.created down isMain, inv.counted_created counted down⟩
  | mark id =>
    obtain ⟨there, taken⟩ := Option.ite_none_right_eq_some.mp taken
    cases taken
    exact ⟨inv.mark there, counted.modifyIod id fun _ => Nat.le_refl _⟩
  | threadStarts id =>
    cases taken
    refine ⟨inv.modifyIod id (fun _ => rfl) (fun _ ends => ends) (.inl fun _ _ => rfl) fun _ _ => rfl, ?_⟩
    exact counted.modifyIod id fun _ => Nat.le_refl _
  | progress id state shutdown reconnect startReconnect inactiveChannel =>
    obtain ⟨marked, taken⟩ := Option.ite_none_left_eq_some.mp taken
    cases taken
    refine ⟨inv.modifyIod id (fun _ => rfl) (fun _ ends => ?_) (.inl fun _ runs => runs)
      fun there => absurd there marked, ?_⟩
    · dsimp only
      rw [ends, Bool.true_or]
    · exact counted.modifyIod id fun _ => Nat.le_refl _
  | getMain =>
    cases taken
    exact ⟨inv.hold fun _ => mem_getMainIod, counted.hold _⟩
  | getAny =>
    cases taken
    refine ⟨{ inv.hold fun _ => mem_getAnyIod with drawn := fun {id} drawn => ?_ }, counted.hold _⟩
    have same : (s.hold s.smbIodGetAnyIod).iodTailq = s.iodTailq := by
      cases s.smbIodGetAnyIod <;> rfl
    rw [same]
    rcases Option.or_eq_some_iff.mp drawn with drawn | ⟨-, before⟩
    · exact mem_getAnyIod drawn
    · exact inv.drawn before
  | getNonMain forceInactive =>
    cases taken
    exact ⟨inv.hold fun _ drawn => (mem_getNonMainIod drawn).1, counted.hold _⟩
  | rel id =>
    obtain ⟨there, taken⟩ := Option.ite_none_right_eq_some.mp taken
    have without : Shape { s with held := s.held.erase id } :=
      { inv with holding := fun member => inv.holding (List.mem_of_mem_erase member) }
    refine ⟨without.smbIodRel taken, Counted.smbIodRel taken fun j iod found => ?_⟩
    have enough := counted j iod found
    unfold references at enough ⊢
    rw [List.count_erase]
    by_cases same : id = j
    · subst same
      have positive := List.count_pos_iff.mpr there
      simp only [beq_self_eq_true, if_true]
      omega
    · simpa [same] using enough
  | startFailover id =>
    obtain ⟨⟨fails, first⟩, taken⟩ := Option.ite_none_right_eq_some.mp taken
    cases taken
    exact ⟨inv.startFailover fails first, counted_startFailover counted id⟩
  | findAlternate failover =>
    obtain ⟨⟨member, none⟩, taken⟩ := Option.ite_none_right_eq_some.mp taken
    cases taken
    exact ⟨inv.findAlternate member, inv.counted_findAlternate counted member none⟩
  | proclaimed failover =>
    obtain ⟨member, taken⟩ := Option.ite_none_right_eq_some.mp taken
    obtain ⟨alt, waits, taken⟩ := Option.bind_eq_some_iff.mp taken
    exact ⟨inv.proclaimed member waits orderly taken, inv.counted_proclaimed counted member waits orderly taken⟩
  | threadEnds id =>
    obtain ⟨⟨runs, -, none⟩, taken⟩ := Option.ite_none_right_eq_some.mp taken
    exact inv.threadEnds counted runs none taken
  | free =>
    obtain ⟨-, taken⟩ := Option.ite_none_left_eq_some.mp taken
    cases taken
    exact ⟨inv.smbSessionFree orderly, inv.counted_smbSessionFree counted⟩
  | destroyMain =>
    obtain ⟨⟨closed, empty⟩, taken⟩ := Option.ite_none_right_eq_some.mp taken
    obtain ⟨id, removed, taken⟩ := Option.bind_eq_some_iff.mp taken
    obtain ⟨ended, taken⟩ := Option.ite_none_left_eq_some.mp taken
    cases taken
    refine ⟨inv.destroyMain empty removed (by simpa using ended), fun j iod found => ?_⟩
    exact counted j iod (Slots.lookup_free_eq_some.mp found).2

end

theorem shape_new : Shape {} := by
  refine ⟨List.nodup_nil, ?_, ?_, ?_, List.nodup_nil, ?_, ?_, ?_, ?_, ?_, ?_, ?_, Nat.zero_le 1, ?_, ?_, ?_⟩ <;>
    simp [Slots.lookup]

/-- In every history of a session that is orderly its channels are governed. -/
theorem governed_run {events : List Event} {last : Session} (orderly : AllSteps Session.step Session.Orderly {} events)
    (reached : run Session.step {} events = some last) : last.Governed := by
  have start : Shape {} ∧ Counted {} := ⟨shape_new, fun id iod found => by simp [Slots.lookup] at found⟩
  exact (run_invariant Session.step (fun _ _ _ inv orderly taken => shape_step inv.1 inv.2 orderly taken) start orderly
    reached).1.governed

def failover : List Event :=
  [.create true, .threadStarts 0, .progress 0 .sessionActive false false false false, .establish true, .mark 1,
    .threadStarts 1, .progress 1 .sessionActive false false false false, .startFailover 0, .findAlternate { iod := 0 },
    .proclaimed { iod := 0, altIod := some 1 }, .progress 0 .reconnect true false false false, .threadEnds 0]

theorem governed_run_failover : ∃ last, run Session.step {} failover = some last ∧ last.Governed ∧
    last.iodTailq = [1] ∧ last.sessionIod = some 1 := by
  have result : (run Session.step {} failover).map (fun last => (last.iodTailq, last.sessionIod)) =
      some ([1], some 1) := by decide +kernel
  obtain ⟨last, reached, same⟩ := Option.map_eq_some_iff.mp result
  exact ⟨last, reached, governed_run (by decide +kernel) reached, congrArg Prod.fst same, congrArg Prod.snd same⟩

/-- While a session is freed its alternate channels stay on the list without the main iod. -/
theorem main_iod_off_list : ∃ last, run Session.step {} [.create true, .establish true, .mark 1, .free] = some last ∧
    last.iodTailq = [1] ∧ last.sessionIod = some 0 := by
  have result : (run Session.step {} [.create true, .establish true, .mark 1, .free]).map
      (fun last => (last.iodTailq, last.sessionIod)) = some ([1], some 0) := by decide +kernel
  obtain ⟨last, reached, same⟩ := Option.map_eq_some_iff.mp result
  exact ⟨last, reached, congrArg Prod.fst same, congrArg Prod.snd same⟩

end SmbClient.Channels
