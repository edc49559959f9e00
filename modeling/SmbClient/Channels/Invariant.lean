import SmbClient.Channels.Iod
import Mathlib.Data.List.Nodup

namespace SmbClient.Channels
open SmbClient.Lib Session

namespace Session

def Refers (s : Session) (id : Nat) : Prop :=
  id ∈ s.iodTailq ∨ s.sessionIod = some id ∨ s.roundRobinIod = some id ∨ s.mainIod = some id ∨ id ∈ s.held ∨
    ∃ failover ∈ s.failovers, failover.iod = id ∨ failover.altIod = some id

/-- What holds of the channels of a session. -/
structure Governed (s : Session) : Prop where
  main : s.shuttingDown = false → s.iodTailq ≠ [] → ∃ main ∈ s.iodTailq, s.sessionIod = some main ∧ main ∉ s.unmarked ∧
    ∀ id ∈ s.iodTailq, (s.iod id).alternateChannel = false ↔ id = main ∨ id ∈ s.unmarked
  closing : s.shuttingDown = true → ∀ id ∈ s.iodTailq, (s.iod id).alternateChannel = true
  unreleased : s.iodTailq ≠ [] → ∀ id, s.Refers id → ∃ iod, s.iods.lookup id = some iod

/-- Threads can be started, a new iod is marked before the session is freed, and a failover that fails has
attempts left. -/
def Orderly (s : Session) : Event → Prop
  | .create started | .establish started => started = true
  | .free => s.unmarked = []
  | .proclaimed failover => 1 < failover.attempts ∨
      ∀ alt ∈ failover.altIod, (s.iod alt).shutdown = false ∧ (s.iod failover.iod).shutdown = false
  | _ => True

instance (s : Session) (event : Event) : Decidable (s.Orderly event) := by
  cases event <;> unfold Orderly <;> infer_instance

end Session

/-! ## The invariant -/

structure Shape (s : Session) : Prop where
  nodup : s.iodTailq.Nodup
  live : ∀ {id}, id ∈ s.iodTailq → ∃ iod, s.iods.lookup id = some iod
  known : ∀ {id iod}, s.iods.lookup id = some iod → id ∈ s.iodTailq ∨ s.sessionIod = some id
  kinds : ∀ {id iod}, s.iods.lookup id = some iod →
    (iod.alternateChannel = false ↔ s.sessionIod = some id ∨ id ∈ s.unmarked)
  distinct : s.unmarked.Nodup
  unmarked : ∀ {id}, id ∈ s.unmarked → id ∈ s.iodTailq ∧ s.sessionIod ≠ some id
  waiting : ∀ {id iod}, id ∈ s.unmarked → s.iods.lookup id = some iod → iod.state = .notConn
  opened : ∀ {main}, s.sessionIod = some main → s.shuttingDown = false → main ∈ s.iodTailq
  closed : s.shuttingDown = true → s.unmarked = [] ∧ ∀ {id}, id ∈ s.iodTailq →
    s.sessionIod ≠ some id ∧ ∀ iod, s.iods.lookup id = some iod → iod.shutdown = true
  kept : s.iodTailq ≠ [] → ∃ main iod, s.sessionIod = some main ∧ s.iods.lookup main = some iod
  removed : ∀ {main}, s.mainIod = some main → s.sessionIod = some main ∧ s.shuttingDown = true
  fresh : s.iods = [] ↔ s.sessionIod = none
  single : s.failovers.length ≤ 1
  failing : ∀ {f}, f ∈ s.failovers → s.sessionIod = some f.iod ∧
    (∃ iod, s.iods.lookup f.iod = some iod ∧ iod.running = true) ∧
    ∀ {alt}, f.altIod = some alt → alt ∈ s.iodTailq ∧ alt ∉ s.unmarked ∧ alt ≠ f.iod
  holding : ∀ {id}, id ∈ s.held → id ∈ s.iodTailq ∨ s.sessionIod = some id
  drawn : ∀ {id}, s.roundRobinIod = some id → id ∈ s.iodTailq

def Session.references (s : Session) (id : Nat) : Nat :=
  s.held.count id + s.failovers.countP (·.altIod == some id)

/-- No reference is missing in the counts. -/
def Session.Counted (s : Session) : Prop := ∀ id iod, s.iods.lookup id = some iod → s.references id ≤ iod.refCnt

section
variable {s : Session}

variable {id : Nat} {iod : Iod} {f : Iod → Iod} {next : Session}

theorem nil_iff_of_length {iods : Slots Iod} (same : iods.length = s.iods.length) : iods = [] ↔ s.iods = [] := by
  rw [← List.length_eq_zero_iff, ← List.length_eq_zero_iff, same]

theorem iod_of_lookup (found : s.iods.lookup id = some iod) : s.iod id = iod := by
  unfold Session.iod
  rw [found, Option.getD_some]

theorem lookup_of_iod {p : Iod → Bool} (absent : p {} = false) (holds : p (s.iod id) = true) :
    ∃ iod, s.iods.lookup id = some iod ∧ p iod = true := by
  unfold iod at holds
  cases found : s.iods.lookup id with
  | none =>
    rw [found, Option.getD_none, absent] at holds
    cases holds
  | some iod =>
    rw [found, Option.getD_some] at holds
    exact ⟨iod, rfl, holds⟩

theorem Shape.governed (inv : Shape s) : s.Governed where
  main opened nonempty := by
    obtain ⟨main, _, isMain, _⟩ := inv.kept nonempty
    refine ⟨main, inv.opened isMain opened, isMain, fun there => (inv.unmarked there).2 isMain, fun id member => ?_⟩
    obtain ⟨iod, found⟩ := inv.live member
    rw [iod_of_lookup found, inv.kinds found, isMain, Option.some.injEq, eq_comm]
  closing closed id member := by
    obtain ⟨none, others⟩ := inv.closed closed
    obtain ⟨iod, found⟩ := inv.live member
    rw [iod_of_lookup found, ← Bool.not_eq_false, inv.kinds found, none]
    rintro (isMain | there)
    · exact (others member).1 isMain
    · cases there
  unreleased nonempty id refers := by
    obtain ⟨main, iod, isMain, found⟩ := inv.kept nonempty
    have ofMain (same : s.sessionIod = some id) : ∃ iod, s.iods.lookup id = some iod := by
      rw [isMain, Option.some.injEq] at same
      exact ⟨iod, same ▸ found⟩
    rcases refers with listed | same | drawn | same | held | ⟨f, member, same | same⟩
    · exact inv.live listed
    · exact ofMain same
    · exact inv.live (inv.drawn drawn)
    · exact ofMain (inv.removed same).1
    · exact (inv.holding held).elim inv.live ofMain
    · exact ofMain (same ▸ (inv.failing member).1)
    · exact inv.live ((inv.failing member).2.2 same).1

/-! ## Changes of one iod -/

theorem lookup_modifyIod {j : Nat} {new : Iod} (found : (s.modifyIod id f).iods.lookup j = some new) :
    ∃ old, s.iods.lookup j = some old ∧ new = if id = j then f old else old := by
  unfold modifyIod at found
  rw [Slots.lookup_modify] at found
  split at found
  · rename_i same
    obtain ⟨old, before, rfl⟩ := Option.map_eq_some_iff.mp found
    exact ⟨old, before, (if_pos same).symm⟩
  · rename_i other
    exact ⟨new, found, (if_neg other).symm⟩

theorem lookup_modifyIod_of {j : Nat} {old : Iod} (found : s.iods.lookup j = some old) :
    (s.modifyIod id f).iods.lookup j = some (if id = j then f old else old) := by
  unfold modifyIod
  rw [Slots.lookup_modify, found]
  split <;> rfl

theorem Shape.modifyIod (inv : Shape s) (id : Nat) (alternate : ∀ iod, (f iod).alternateChannel = iod.alternateChannel)
    (shutdown : ∀ iod, iod.shutdown = true → (f iod).shutdown = true)
    (running : (∀ iod, iod.running = true → (f iod).running = true) ∨ ∀ failover ∈ s.failovers, failover.iod ≠ id)
    (state : id ∈ s.unmarked → ∀ iod, (f iod).state = iod.state) : Shape (s.modifyIod id f) where
  nodup := inv.nodup
  live member := by
    obtain ⟨iod, found⟩ := inv.live member
    exact ⟨_, lookup_modifyIod_of found⟩
  known found := by
    obtain ⟨old, found, -⟩ := lookup_modifyIod found
    exact inv.known found
  kinds found := by
    obtain ⟨old, before, rfl⟩ := lookup_modifyIod found
    rw [apply_ite Iod.alternateChannel, alternate, ite_self]
    exact inv.kinds before
  distinct := inv.distinct
  unmarked := inv.unmarked
  waiting {j iod} there found := by
    obtain ⟨old, before, rfl⟩ := lookup_modifyIod found
    split
    · rename_i same
      rw [state (same ▸ there)]
      exact inv.waiting there before
    · exact inv.waiting there before
  opened := inv.opened
  closed closed := by
    refine ⟨(inv.closed closed).1, fun {j} member => ⟨((inv.closed closed).2 member).1, fun iod found => ?_⟩⟩
    obtain ⟨old, before, rfl⟩ := lookup_modifyIod found
    have ends := ((inv.closed closed).2 member).2 old before
    split
    · exact shutdown old ends
    · exact ends
  kept nonempty := by
    obtain ⟨main, iod, isMain, found⟩ := inv.kept nonempty
    exact ⟨main, _, isMain, lookup_modifyIod_of found⟩
  removed := inv.removed
  fresh := (nil_iff_of_length (Slots.length_modify ..)).trans inv.fresh
  single := inv.single
  failing {failover} member := by
    obtain ⟨isMain, ⟨iod, found, runs⟩, alt⟩ := inv.failing member
    refine ⟨isMain, ⟨_, lookup_modifyIod_of found, ?_⟩, alt⟩
    split
    · rename_i same
      exact running.elim (fun keeps => keeps iod runs) fun none => absurd same.symm (none failover member)
    · exact runs
  holding := inv.holding
  drawn := inv.drawn

theorem Session.Counted.modifyIod (counted : s.Counted) (id : Nat)
    (refs : ∀ iod, iod.refCnt ≤ (f iod).refCnt) : (s.modifyIod id f).Counted := by
  intro j iod found
  obtain ⟨old, before, rfl⟩ := lookup_modifyIod found
  split
  · exact (counted j old before).trans (refs old)
  · exact counted j old before

/-! ## References -/

theorem Shape.smbIodRef (inv : Shape s) (id : Nat) : Shape (s.smbIodRef id) :=
  inv.modifyIod id (fun _ => rfl) (fun _ ends => ends) (.inl fun _ runs => runs) fun _ _ => rfl

theorem Shape.hold (inv : Shape s) {drawn : Option Nat} (listed : ∀ id ∈ drawn, id ∈ s.iodTailq) :
    Shape (s.hold drawn) := by
  cases drawn with
  | none => exact inv
  | some id =>
    refine { inv.smbIodRef id with holding := fun {j} there => ?_ }
    rcases List.mem_cons.mp there with rfl | there
    · exact .inl (listed j rfl)
    · exact inv.holding there

theorem Session.Counted.smbIodRef (counted : s.Counted) {held : List Nat} {failovers : List Failover}
    (one : ∀ j, ({ s with held, failovers } : Session).references j ≤ s.references j + if id = j then 1 else 0) :
    ({ s.smbIodRef id with held, failovers } : Session).Counted := by
  intro j iod found
  obtain ⟨old, before, rfl⟩ := lookup_modifyIod found
  have more := (one j).trans (Nat.add_le_add_right (counted j old before) _)
  split
  · rename_i same
    rwa [if_pos same] at more
  · rename_i other
    rwa [if_neg other] at more

theorem Session.Counted.hold (counted : s.Counted) (drawn : Option Nat) : (s.hold drawn).Counted := by
  cases drawn with
  | none => exact counted
  | some id =>
    have one (j : Nat) : ({ s with held := id :: s.held, failovers := s.failovers } : Session).references j ≤
        s.references j + if id = j then 1 else 0 := by
      unfold references
      simp only [List.count_cons, beq_iff_eq]
      omega
    exact counted.smbIodRef one

theorem smbIodRel_some (taken : s.smbIodRel id = some next) :
    next = s.modifyIod id fun iod => { iod with refCnt := iod.refCnt - 1 } := by
  unfold smbIodRel at taken
  split at taken
  · cases taken
  · cases taken
    rfl

theorem Shape.smbIodRel (inv : Shape s) (taken : s.smbIodRel id = some next) :
    Shape next := by
  rw [smbIodRel_some taken]
  exact inv.modifyIod id (fun _ => rfl) (fun _ ends => ends) (.inl fun _ runs => runs) fun _ _ => rfl

theorem Session.Counted.smbIodRel (taken : s.smbIodRel id = some next)
    (spare : ∀ j iod, s.iods.lookup j = some iod → s.references j + (if id = j then 1 else 0) ≤ iod.refCnt) :
    next.Counted := by
  rw [smbIodRel_some taken]
  intro j iod found
  obtain ⟨old, before, rfl⟩ := lookup_modifyIod found
  have fewer := spare j old before
  change s.references j ≤ _
  split
  · rename_i same
    rw [if_pos same] at fewer
    exact Nat.le_sub_of_add_le fewer
  · rename_i other
    rwa [if_neg other] at fewer

/-! ## Creation -/

theorem Shape.eq_new (inv : Shape s) (none : s.sessionIod = none) :
    s = { shuttingDown := s.shuttingDown } := by
  have list : s.iodTailq = [] := by
    by_contra nonempty
    obtain ⟨main, _, isMain, _⟩ := inv.kept nonempty
    rw [none] at isMain
    cases isMain
  have unmarked : s.unmarked = [] := by
    rw [List.eq_nil_iff_forall_not_mem]
    intro id member
    have listed := (inv.unmarked member).1
    rw [list] at listed
    cases listed
  have failovers : s.failovers = [] := by
    rw [List.eq_nil_iff_forall_not_mem]
    intro failover member
    have isMain := (inv.failing member).1
    rw [none] at isMain
    cases isMain
  have held : s.held = [] := by
    rw [List.eq_nil_iff_forall_not_mem]
    intro id member
    have known := inv.holding member
    rw [list, none] at known
    rcases known with known | known <;> cases known
  have drawn : s.roundRobinIod = Option.none := by
    rw [Option.eq_none_iff_forall_ne_some]
    intro id drawn
    have listed := inv.drawn drawn
    rw [list] at listed
    cases listed
  have removed : s.mainIod = Option.none := by
    rw [Option.eq_none_iff_forall_ne_some]
    intro id removed
    have isMain := (inv.removed removed).1
    rw [none] at isMain
    cases isMain
  have empty := inv.fresh.mpr none
  cases s
  simp_all

def Session.created (s : Session) : Session :=
  { s with
    iods := s.iods.alloc {}
    sessionIod := if s.iodTailq.isEmpty then some s.iods.length else s.sessionIod
    iodTailq := s.iodTailq ++ [s.iods.length]
    unmarked := if s.iodTailq.isEmpty then s.unmarked else s.iods.length :: s.unmarked }

theorem Shape.new (inv : Shape s) : s.iods.length ∉ s.iodTailq := by
  intro member
  obtain ⟨iod, found⟩ := inv.live member
  rw [Slots.lookup_length] at found
  cases found

theorem lookup_created (found : s.created.iods.lookup id = some iod) :
    id = s.iods.length ∧ iod = {} ∨ id ≠ s.iods.length ∧ s.iods.lookup id = some iod := by
  unfold created at found
  rw [Slots.lookup_alloc] at found
  split at found
  · rename_i same
    exact .inl ⟨same.symm, (Option.some.inj found).symm⟩
  · rename_i other
    exact .inr ⟨Ne.symm other, found⟩

theorem lookup_created_of (found : s.iods.lookup id = some iod) :
    s.created.iods.lookup id = some iod := by
  unfold created
  rw [Slots.lookup_alloc, if_neg (Slots.lookup_lt found).ne', found]

theorem shape_first : Shape (created {}) where
  nodup := List.nodup_singleton 0
  live member := by
    cases List.mem_singleton.mp member
    exact ⟨{}, rfl⟩
  known {id iod} found := by
    rcases lookup_created found with ⟨rfl, -⟩ | ⟨-, found⟩
    · exact .inr rfl
    · cases found
  kinds {id iod} found := by
    rcases lookup_created found with ⟨rfl, rfl⟩ | ⟨-, found⟩
    · exact ⟨fun _ => .inl rfl, fun _ => rfl⟩
    · cases found
  distinct := List.nodup_nil
  unmarked member := by cases member
  waiting member := by cases member
  opened isMain _ := by
    cases isMain
    exact List.mem_singleton.mpr rfl
  closed closed := by cases closed
  kept _ := ⟨0, {}, rfl, rfl⟩
  removed removed := by cases removed
  fresh := by simp [created, Slots.alloc]
  single := Nat.zero_le 1
  failing member := by cases member
  holding member := by cases member
  drawn drawn := by cases drawn

theorem Shape.created (inv : Shape s) (opened : s.shuttingDown = false) {main : Nat} (isMain : s.sessionIod = some main) :
    Shape s.created := by
  have new := inv.new
  have here : main ∈ s.iodTailq := inv.opened isMain opened
  have nonempty : s.iodTailq.isEmpty = false := List.isEmpty_eq_false_iff.mpr (List.ne_nil_of_mem here)
  have session : s.created.sessionIod = s.sessionIod := by simp [Session.created, nonempty]
  have list : s.created.iodTailq = s.iodTailq ++ [s.iods.length] := rfl
  have unmarked : s.created.unmarked = s.iods.length :: s.unmarked := by simp [Session.created, nonempty]
  have other (same : s.sessionIod = some s.iods.length) : False := new (inv.opened same opened)
  refine ⟨?_, ?_, ?_, ?_, ?_, ?_, ?_, ?_, ?_, ?_, ?_, ?_, inv.single, ?_, ?_, ?_⟩
  · rw [list]
    exact List.nodup_append.mpr ⟨inv.nodup, List.nodup_singleton _, by simpa using fun id member => ne_of_mem_of_not_mem member new⟩
  · intro id member
    rw [list, List.mem_append, List.mem_singleton] at member
    rcases member with member | rfl
    · obtain ⟨iod, found⟩ := inv.live member
      exact ⟨iod, lookup_created_of found⟩
    · exact ⟨{}, (Slots.lookup_alloc _ _ _).trans (if_pos rfl)⟩
  · intro id iod found
    rw [list, session, List.mem_append, List.mem_singleton]
    rcases lookup_created found with ⟨rfl, -⟩ | ⟨-, found⟩
    · exact .inl (.inr rfl)
    · exact (inv.known found).imp_left .inl
  · intro id iod found
    rw [session, unmarked, List.mem_cons]
    rcases lookup_created found with ⟨rfl, rfl⟩ | ⟨old, found⟩
    · simp
    · rw [inv.kinds found, or_iff_right old]
  · rw [unmarked]
    exact List.nodup_cons.mpr ⟨fun member => new (inv.unmarked member).1, inv.distinct⟩
  · intro id member
    rw [unmarked, List.mem_cons] at member
    rw [list, session, List.mem_append, List.mem_singleton]
    rcases member with rfl | member
    · exact ⟨.inr rfl, other⟩
    · exact ⟨.inl (inv.unmarked member).1, (inv.unmarked member).2⟩
  · intro id iod member found
    rw [unmarked, List.mem_cons] at member
    rcases lookup_created found with ⟨rfl, rfl⟩ | ⟨old, found⟩
    · rfl
    · exact inv.waiting (member.resolve_left old) found
  · intro id same _
    rw [session] at same
    rw [list]
    exact List.mem_append_left _ (inv.opened same opened)
  · intro closed
    exact absurd (opened.symm.trans closed) (by decide)
  · intro _
    obtain ⟨_, iod, same, found⟩ := inv.kept (List.ne_nil_of_mem here)
    exact ⟨_, iod, session.trans same, lookup_created_of found⟩
  · intro id removed
    exact ⟨session.trans (inv.removed removed).1, (inv.removed removed).2⟩
  · rw [session, isMain]
    simp [Session.created, Slots.alloc]
  · intro failover member
    obtain ⟨same, ⟨iod, found, runs⟩, alt⟩ := inv.failing member
    refine ⟨session.trans same, ⟨iod, lookup_created_of found, runs⟩, fun {id} waits => ?_⟩
    obtain ⟨listed, marked, apart⟩ := alt waits
    rw [list, unmarked]
    refine ⟨List.mem_append_left _ listed, ?_, apart⟩
    rw [List.mem_cons]
    rintro (same | there)
    · exact new (same ▸ listed)
    · exact marked there
  · intro id member
    rw [list, session]
    exact (inv.holding member).imp_left (List.mem_append_left _)
  · intro id drawn
    rw [list]
    exact List.mem_append_left _ (inv.drawn drawn)

theorem Shape.counted_created (inv : Shape s) (counted : s.Counted) (opened : s.shuttingDown = false) :
    s.created.Counted := by
  intro id iod found
  rcases lookup_created found with ⟨rfl, rfl⟩ | ⟨-, found⟩
  · have held : s.held.count s.iods.length = 0 := by
      rw [List.count_eq_zero]
      intro member
      exact (inv.holding member).elim inv.new fun same => inv.new (inv.opened same opened)
    have waited : s.failovers.countP (·.altIod == some s.iods.length) = 0 := by
      rw [List.countP_eq_zero]
      intro failover member waits
      exact inv.new ((inv.failing member).2.2 (beq_iff_eq.mp waits)).1
    exact (Nat.add_eq_zero_iff.mpr ⟨held, waited⟩).le
  · exact counted id iod found

theorem Shape.mark (inv : Shape s) (there : id ∈ s.unmarked) :
    Shape { s.modifyIod id fun iod => { iod with alternateChannel := true } with unmarked := s.unmarked.erase id } := by
  have left {j : Nat} : j ∈ s.unmarked.erase id ↔ j ≠ id ∧ j ∈ s.unmarked := inv.distinct.mem_erase_iff
  refine ⟨inv.nodup, ?_, ?_, ?_, inv.distinct.erase id, ?_, ?_, inv.opened, ?_, ?_, inv.removed, ?_, inv.single, ?_,
    inv.holding, inv.drawn⟩
  · intro j member
    obtain ⟨iod, found⟩ := inv.live member
    exact ⟨_, lookup_modifyIod_of found⟩
  · intro j iod found
    obtain ⟨old, before, -⟩ := lookup_modifyIod found
    exact inv.known before
  · intro j iod found
    obtain ⟨old, before, rfl⟩ := lookup_modifyIod found
    rw [left]
    split
    · rename_i same
      subst same
      refine ⟨nofun, ?_⟩
      rintro (isMain | left)
      · exact absurd isMain (inv.unmarked there).2
      · exact absurd rfl left.1
    · rename_i other
      rw [inv.kinds before, and_iff_right (Ne.symm other)]
      rfl
  · intro j member
    exact inv.unmarked (left.mp member).2
  · intro j iod member found
    obtain ⟨old, before, rfl⟩ := lookup_modifyIod found
    rw [if_neg (left.mp member).1.symm]
    exact inv.waiting (left.mp member).2 before
  · intro closed
    rw [(inv.closed closed).1] at there
    cases there
  · intro nonempty
    obtain ⟨main, iod, isMain, found⟩ := inv.kept nonempty
    exact ⟨main, _, isMain, lookup_modifyIod_of found⟩
  · exact (nil_iff_of_length (Slots.length_modify ..)).trans inv.fresh
  · intro failover member
    obtain ⟨isMain, ⟨iod, found, runs⟩, alt⟩ := inv.failing member
    refine ⟨isMain, ⟨_, lookup_modifyIod_of found, ?_⟩, fun waits => ?_⟩
    · split <;> exact runs
    · obtain ⟨listed, marked, apart⟩ := alt waits
      exact ⟨listed, fun member => marked (left.mp member).2, apart⟩

end

end SmbClient.Channels
