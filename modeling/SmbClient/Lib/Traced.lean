import Mathlib.Data.List.Basic

namespace SmbClient.Lib

@[simp] theorem except_ok_bind {ε α β : Type} (a : α) (f : α → Except ε β) :
    ((.ok a : Except ε α) >>= f) = f a := rfl

@[simp] theorem except_error_bind {ε α β : Type} (e : ε) (f : α → Except ε β) :
    ((.error e : Except ε α) >>= f) = .error e := rfl

theorem except_bind_eq_ok {ε α β : Type} {x : Except ε α} {f : α → Except ε β} {b : β} :
    (x >>= f) = .ok b ↔ ∃ a, x = .ok a ∧ f a = .ok b := by
  cases x <;> simp

/-- A computation that may fail, with the record of what it has done up to its end or its failure. -/
structure Traced (ω ε α : Type) where
  log : List ω
  result : Except ε α

namespace Traced
variable {ω ε α β σ : Type}

def bind (x : Traced ω ε α) (f : α → Traced ω ε β) : Traced ω ε β :=
  match x.result with
  | .ok a => ⟨x.log ++ (f a).log, (f a).result⟩
  | .error e => ⟨x.log, .error e⟩

instance : Monad (Traced ω ε) where
  pure a := ⟨[], .ok a⟩
  bind := bind

def emit (w : ω) : Traced ω ε Unit := ⟨[w], .ok ()⟩

def fail (e : ε) : Traced ω ε α := ⟨[], .error e⟩

def lift (r : Except ε α) : Traced ω ε α := ⟨[], r⟩

def AllLogged (p : ω → Prop) (x : Traced ω ε α) : Prop := ∀ w ∈ x.log, p w

instance (p : ω → Prop) [DecidablePred p] (x : Traced ω ε α) : Decidable (AllLogged p x) :=
  inferInstanceAs (Decidable (∀ w ∈ x.log, p w))

section Results
variable (a : α) (e : ε) (w : ω) (r : Except ε α) (x : Traced ω ε α) (f : α → Traced ω ε β)

@[simp] theorem result_pure : (Pure.pure a : Traced ω ε α).result = .ok a := rfl

@[simp] theorem result_emit : (emit w : Traced ω ε Unit).result = .ok () := rfl

@[simp] theorem result_lift : (lift r : Traced ω ε α).result = r := rfl

@[simp] theorem result_bind : (x >>= f).result = x.result >>= fun a => (f a).result := by
  change (bind x f).result = _
  unfold bind
  cases x.result <;> rfl

theorem result_bind_eq_ok {x : Traced ω ε α} {f : α → Traced ω ε β} {b : β} :
    (x >>= f).result = .ok b ↔ ∃ a, x.result = .ok a ∧ (f a).result = .ok b := by
  rw [result_bind, except_bind_eq_ok]

end Results

section Logs
variable (p : ω → Prop) (a : α) (e : ε) (w : ω) (r : Except ε α) (x : Traced ω ε α) (f : α → Traced ω ε β)

@[simp] theorem allLogged_pure : AllLogged p (Pure.pure a : Traced ω ε α) ↔ True := by
  simp [AllLogged, Pure.pure]

@[simp] theorem allLogged_emit : AllLogged p (emit w : Traced ω ε Unit) ↔ p w := by
  simp [AllLogged, emit]

@[simp] theorem allLogged_fail : AllLogged p (fail e : Traced ω ε α) ↔ True := by
  simp [AllLogged, fail]

@[simp] theorem allLogged_lift : AllLogged p (lift r : Traced ω ε α) ↔ True := by
  simp [AllLogged, lift]

theorem allLogged_bind : AllLogged p (x >>= f) ↔
    AllLogged p x ∧ ∀ a, x.result = .ok a → AllLogged p (f a) := by
  change AllLogged p (bind x f) ↔ _
  unfold bind AllLogged
  cases x.result with
  | error e => simp
  | ok a => simp [or_imp, forall_and]

end Logs

/-- A computation that does not fail: all it does meets `p`, and `Q` holds of its result. -/
def Yields (p : ω → Prop) (Q : α → Prop) (x : Traced ω ε α) : Prop :=
  AllLogged p x ∧ ∃ a, x.result = .ok a ∧ Q a

namespace Yields
variable {p : ω → Prop} {Q Q' : α → Prop} {R : β → Prop} {x y : Traced ω ε α} {f : α → Traced ω ε β}

theorem pure {a : α} (holds : Q a) : Yields p Q (Pure.pure a : Traced ω ε α) :=
  ⟨(allLogged_pure p a).mpr trivial, a, rfl, holds⟩

theorem bind (first : Yields p Q x) (second : ∀ a, Q a → Yields p R (f a)) : Yields p R (x >>= f) := by
  obtain ⟨logged, a, run, holds⟩ := first
  obtain ⟨after, b, run', result⟩ := second a holds
  refine ⟨?_, b, ?_, result⟩
  · rw [allLogged_bind]
    refine ⟨logged, fun a' same => ?_⟩
    rw [run, Except.ok.injEq] at same
    exact same ▸ after
  · rw [result_bind, run]
    exact run'

theorem mono (yields : Yields p Q x) (weaker : ∀ a, Q a → Q' a) : Yields p Q' x := by
  obtain ⟨logged, a, run, holds⟩ := yields
  exact ⟨logged, a, run, weaker a holds⟩

theorem ite {c : Prop} [Decidable c] (yes : c → Yields p Q x) (no : ¬c → Yields p Q y) :
    Yields p Q (if c then x else y) := by
  by_cases holds : c
  · rw [if_pos holds]
    exact yes holds
  · rw [if_neg holds]
    exact no holds

end Yields

section Loop
variable (cont : σ → Bool) (body : σ → Traced ω ε σ)

def loop : Nat → σ → Traced ω ε σ
  | 0, s => Pure.pure s
  | fuel + 1, s => if cont s then body s >>= loop fuel else Pure.pure s

def turns : Nat → σ → Nat
  | 0, _ => 0
  | fuel + 1, s =>
    if cont s then
      match (body s).result with
      | .ok next => 1 + turns fuel next
      | .error _ => 1
    else 0

/-- The states in which the body of the loop is entered, in order. -/
def entered : Nat → σ → List σ
  | 0, _ => []
  | fuel + 1, s =>
    if cont s then
      match (body s).result with
      | .ok next => s :: entered fuel next
      | .error _ => [s]
    else []

variable {cont body} in
theorem loop_stop {s : σ} (done : cont s = false) (fuel : Nat) : loop cont body fuel s = Pure.pure s := by
  cases fuel with
  | zero => rfl
  | succ fuel =>
    rw [loop, done]
    rfl

variable {cont body} in
theorem loop_fail {s : σ} {e : ε} (more : cont s) (failed : (body s).result = .error e) (fuel : Nat) :
    (loop cont body (fuel + 1) s).result = .error e := by
  rw [loop, if_pos more, result_bind, failed, except_error_bind]

inductive Visits : σ → σ → Prop
  | here {s : σ} : cont s → Visits s s
  | later {s next t : σ} : cont s → (body s).result = .ok next → Visits next t → Visits s t

theorem Visits.invariant {cont : σ → Bool} {body : σ → Traced ω ε σ} {inv : σ → Prop}
    (keeps : ∀ s next, inv s → (body s).result = .ok next → inv next) {s t : σ}
    (visit : Visits cont body s t) (start : inv s) : inv t ∧ cont t := by
  induction visit with
  | here more => exact ⟨start, more⟩
  | later _ taken _ ih => exact ih (keeps _ _ start taken)

/-- Every turn of the loop that does not fail makes `size` smaller. -/
def Shrinks (size : σ → Nat) : Prop :=
  ∀ s next, cont s → (body s).result = .ok next → size next < size s

variable {cont body} {size : σ → Nat} (shrinks : Shrinks cont body size)
include shrinks

theorem allLogged_loop_iff {p : ω → Prop} {fuel : Nat} {s : σ} (enough : size s < fuel) :
    AllLogged p (loop cont body fuel s) ↔ ∀ t, Visits cont body s t → AllLogged p (body t) := by
  induction fuel generalizing s with
  | zero => exact absurd enough (Nat.not_lt_zero _)
  | succ fuel ih =>
    rw [loop]
    by_cases more : cont s
    · rw [if_pos more, allLogged_bind]
      constructor
      · rintro ⟨first, rest⟩ t visit
        cases visit with
        | here _ => exact first
        | later _ taken visit =>
          have smaller := shrinks _ _ more taken
          exact (ih (by omega)).mp (rest _ taken) t visit
      · intro all
        refine ⟨all s (.here more), fun next taken => ?_⟩
        have smaller := shrinks _ _ more taken
        exact (ih (by omega)).mpr fun t visit => all t (.later more taken visit)
    · rw [if_neg more, allLogged_pure, true_iff]
      rintro t (going | ⟨going, -, -⟩) <;> exact absurd going more

theorem turns_le (positive : ∀ s, cont s → 0 < size s) (fuel : Nat) (s : σ) : turns cont body fuel s ≤ size s := by
  induction fuel generalizing s with
  | zero => exact Nat.zero_le _
  | succ fuel ih =>
    rw [turns]
    split
    · rename_i more
      split
      · rename_i next taken
        have smaller := shrinks s next more taken
        have later := ih next
        omega
      · exact positive s more
    · exact Nat.zero_le _

theorem loop_done {fuel : Nat} {s last : σ} (enough : size s < fuel)
    (ended : (loop cont body fuel s).result = .ok last) : cont last = false := by
  induction fuel generalizing s with
  | zero => exact absurd enough (Nat.not_lt_zero _)
  | succ fuel ih =>
    rw [loop] at ended
    by_cases more : cont s
    · rw [if_pos more, result_bind_eq_ok] at ended
      obtain ⟨next, taken, ended⟩ := ended
      have smaller := shrinks _ _ more taken
      exact ih (by omega) ended
    · rw [if_neg more, result_pure, Except.ok.injEq] at ended
      exact ended ▸ Bool.eq_false_iff.mpr more

theorem loop_next {fuel : Nat} {s next : σ} (enough : size s < fuel) (more : cont s)
    (taken : (body s).result = .ok next) :
    ∃ left, size next < left ∧
      (loop cont body fuel s).result = (loop cont body left next).result := by
  obtain _ | fuel := fuel
  · exact absurd enough (Nat.not_lt_zero _)
  refine ⟨fuel, ?_, ?_⟩
  · have smaller := shrinks _ _ more taken
    omega
  · rw [loop, if_pos more, result_bind, taken]
    rfl

end Loop

end Traced

end SmbClient.Lib
