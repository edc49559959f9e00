import Mathlib.Data.List.Forall2

namespace SmbClient.Lib
variable {σ ε : Type} (step : σ → ε → Option σ)

/-- The state after a sequence of events, if the system can take them all. -/
def run : σ → List ε → Option σ
  | s, [] => some s
  | s, e :: rest => (step s e).bind fun next => run next rest

variable {step} in
theorem run_cons {s next : σ} {e : ε} (taken : step s e = some next) (rest : List ε) :
    run step s (e :: rest) = run step next rest := by
  rw [run, taken, Option.bind_some]

/-- What the steps of a run put out, in order. -/
def emitted {ω : Type} (out : σ → ε → List ω) : σ → List ε → List ω
  | _, [] => []
  | s, e :: rest => out s e ++ (step s e).elim [] fun next => emitted out next rest

/-- `cond` holds of every event of the run in the state it is taken in. -/
def AllSteps (cond : σ → ε → Prop) : σ → List ε → Prop
  | _, [] => True
  | s, e :: rest => cond s e ∧ ∀ next, step s e = some next → AllSteps cond next rest

instance AllSteps.decidable {cond : σ → ε → Prop} [∀ s e, Decidable (cond s e)] :
    ∀ s events, Decidable (AllSteps step cond s events)
  | _, [] => isTrue trivial
  | s, e :: rest =>
    match taken : step s e with
    | none => decidable_of_iff (cond s e) ⟨fun meets => ⟨meets, by simp [taken]⟩, And.left⟩
    | some next =>
      have : Decidable (AllSteps step cond next rest) := AllSteps.decidable next rest
      decidable_of_iff (cond s e ∧ AllSteps step cond next rest) (by simp [AllSteps, taken])

variable {step} in
theorem AllSteps.cons {cond : σ → ε → Prop} {s next : σ} {e : ε} {rest : List ε} (meets : cond s e)
    (taken : step s e = some next) (later : AllSteps step cond next rest) :
    AllSteps step cond s (e :: rest) := by
  refine ⟨meets, fun other taken' => ?_⟩
  rw [taken, Option.some.injEq] at taken'
  exact taken' ▸ later

variable {step} in
theorem AllSteps.and {a b : σ → ε → Prop} {s : σ} {events : List ε} (first : AllSteps step a s events)
    (second : AllSteps step b s events) : AllSteps step (fun s e => a s e ∧ b s e) s events := by
  induction events generalizing s with
  | nil => trivial
  | cons e rest ih =>
    refine ⟨⟨first.1, second.1⟩, fun next taken => ih (first.2 next taken) (second.2 next taken)⟩

theorem AllSteps.congr {a b : σ → ε → Prop} (same : ∀ s e, a s e ↔ b s e) (s : σ) (events : List ε) :
    AllSteps step a s events ↔ AllSteps step b s events := by
  rw [funext₂ fun s e => propext (same s e)]

theorem AllSteps.of_forall {cond : ε → Prop} {events : List ε} (all : ∀ e ∈ events, cond e) (s : σ) :
    AllSteps step (fun _ e => cond e) s events := by
  induction events generalizing s with
  | nil => trivial
  | cons e rest ih =>
    have later := ih fun e' member => all e' (List.mem_cons_of_mem _ member)
    exact ⟨all e List.mem_cons_self, fun next _ => later next⟩

theorem AllSteps.always {cond : σ → ε → Prop} (all : ∀ s e, cond s e) (s : σ) (events : List ε) :
    AllSteps step cond s events := by
  induction events generalizing s with
  | nil => trivial
  | cons e rest ih => exact ⟨all s e, fun next _ => ih next⟩

theorem run_invariant {inv : σ → Prop} {cond : σ → ε → Prop}
    (keeps : ∀ s e next, inv s → cond s e → step s e = some next → inv next)
    {s last : σ} {events : List ε} (start : inv s) (steps : AllSteps step cond s events)
    (reached : run step s events = some last) : inv last := by
  induction events generalizing s with
  | nil =>
    rw [run, Option.some.injEq] at reached
    exact reached ▸ start
  | cons e rest ih =>
    obtain ⟨next, taken, reached⟩ := Option.bind_eq_some_iff.mp reached
    exact ih (keeps s e next start steps.1 taken) (steps.2 next taken) reached

theorem AllSteps.of_invariant {cond met : σ → ε → Prop} {inv : σ → Prop}
    (keeps : ∀ s e next, inv s → cond s e → step s e = some next → inv next)
    (meets : ∀ s e, inv s → cond s e → met s e) {s : σ} {events : List ε} (start : inv s)
    (steps : AllSteps step cond s events) : AllSteps step met s events := by
  induction events generalizing s with
  | nil => trivial
  | cons e rest ih =>
    exact ⟨meets s e start steps.1, fun next taken => ih (keeps s e next start steps.1 taken) (steps.2 next taken)⟩

theorem run_preserves {inv : σ → Prop} (keeps : ∀ s e next, inv s → step s e = some next → inv next) {s last : σ}
    {events : List ε} (start : inv s) (reached : run step s events = some last) : inv last := by
  have steps : AllSteps step (fun _ _ => True) s events := AllSteps.of_forall step (fun _ _ => trivial) s
  exact run_invariant step (fun s e next holds _ taken => keeps s e next holds taken) start steps reached

/-- `P` holds of every state that the run reaches. -/
def Throughout (P : σ → Prop) : σ → List ε → Prop
  | s, [] => P s
  | s, e :: rest => P s ∧ ∀ next, step s e = some next → Throughout P next rest

theorem Throughout.of_preserves {P : σ → Prop} (keeps : ∀ s e next, P s → step s e = some next → P next) {s : σ}
    (start : P s) (events : List ε) : Throughout step P s events := by
  induction events generalizing s with
  | nil => exact start
  | cons e rest ih => exact ⟨start, fun next taken => ih (keeps s e next start taken)⟩

/-- Where `cond` is just what a step needs to stay within `P`, and keeps an invariant that implies it, the
runs through `P` are those of steps with `cond`. -/
theorem throughout_iff {P inv : σ → Prop} {cond : σ → ε → Prop} (sound : ∀ s, inv s → P s)
    (keeps : ∀ s e next, inv s → cond s e → step s e = some next → inv next)
    (needs : ∀ s e next, inv s → step s e = some next → P next → cond s e)
    (refused : ∀ s e, step s e = none → cond s e) {s : σ} (start : inv s) (events : List ε) :
    Throughout step P s events ↔ AllSteps step cond s events := by
  induction events generalizing s with
  | nil => exact ⟨fun _ => trivial, fun _ => sound s start⟩
  | cons e rest ih =>
    cases taken : step s e with
    | none =>
      simp only [Throughout, AllSteps, taken, sound s start, refused s e taken, reduceCtorEq, false_implies,
        implies_true]
    | some next =>
      simp only [Throughout, AllSteps, taken, sound s start, Option.some.injEq, forall_eq', true_and]
      constructor
      · intro later
        have reached : P next := by
          cases rest with
          | nil => exact later
          | cons _ _ => exact later.1
        have meets := needs s e next start taken reached
        exact ⟨meets, (ih (keeps s e next start meets taken)).mp later⟩
      · rintro ⟨meets, later⟩
        exact (ih (keeps s e next start meets taken)).mpr later

variable {step} {ω ν : Type} {came : σ → ε → List ω} {went : σ → ε → List ν}

/-- What goes out of a system corresponds, in order, to the first of what has come in; `inv` relates a state to what
is left. -/
theorem run_delivers {R : ω → ν → Prop} {inv : σ → List ω → Prop} {cond : σ → ε → Prop}
    (keeps : ∀ s e next waiting, inv s waiting → cond s e → step s e = some next → ∃ got left,
      waiting ++ came s e = got ++ left ∧ List.Forall₂ R got (went s e) ∧ inv next left)
    {s last : σ} {events : List ε} {waiting : List ω} (start : inv s waiting) (steps : AllSteps step cond s events)
    (reached : run step s events = some last) : ∃ got left,
      waiting ++ emitted step came s events = got ++ left ∧
        List.Forall₂ R got (emitted step went s events) ∧ inv last left := by
  induction events generalizing s waiting with
  | nil =>
    rw [run, Option.some.injEq] at reached
    exact ⟨[], waiting, List.append_nil _, .nil, reached ▸ start⟩
  | cons e rest ih =>
    obtain ⟨next, taken, reached⟩ := Option.bind_eq_some_iff.mp reached
    obtain ⟨first, between, split, shown, holds⟩ := keeps s e next waiting start steps.1 taken
    obtain ⟨more, left, split', shown', holds'⟩ := ih holds (steps.2 next taken) reached
    refine ⟨first ++ more, left, ?_, ?_, holds'⟩
    · rw [emitted, taken, Option.elim_some, ← List.append_assoc, split, List.append_assoc, split',
        List.append_assoc]
    · rw [emitted, taken, Option.elim_some]
      exact List.rel_append shown shown'

end SmbClient.Lib
