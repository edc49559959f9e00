namespace SmbClient.Lib

/-- A computation that may fail, and keeps what it did to the state before. -/
def Fallible (σ ε α : Type) := σ → Except ε α × σ

namespace Fallible
variable {σ ε α β : Type}

instance : Monad (Fallible σ ε) where
  pure a := fun s => (.ok a, s)
  bind p f := fun s =>
    match p s with
    | (.ok a, next) => f a next
    | (.error e, next) => (.error e, next)

def fail (e : ε) : Fallible σ ε α := fun s => (.error e, s)

def get : Fallible σ ε σ := fun s => (.ok s, s)

def modify (f : σ → σ) : Fallible σ ε Unit := fun s => (.ok (), f s)

variable {p : Fallible σ ε α} {f : α → Fallible σ ε β} {s last : σ} {b : β}

theorem bind_of_ok {a : α} (run : p s = (.ok a, last)) : (p >>= f) s = f a last := by
  simp only [bind, run]

theorem bind_of_error {e : ε} (run : p s = (.error e, last)) : (p >>= f) s = (.error e, last) := by
  simp only [bind, run]

/-- The rest goes on with what the first part gives, or the first part fails. -/
theorem bind_cases (p : Fallible σ ε α) (f : α → Fallible σ ε β) (s : σ) :
    (∃ a next, p s = (.ok a, next) ∧ (p >>= f) s = f a next) ∨
      ∃ e next, p s = (.error e, next) ∧ (p >>= f) s = (.error e, next) := by
  cases run : p s with
  | mk result next =>
      cases result with
      | ok a => exact .inl ⟨a, next, rfl, bind_of_ok run⟩
      | error e => exact .inr ⟨e, next, rfl, bind_of_error run⟩

theorem bind_bind {γ : Type} (p : Fallible σ ε α) (f : α → Fallible σ ε β) (g : β → Fallible σ ε γ) :
    (p >>= f) >>= g = p >>= fun a => f a >>= g := by
  funext s
  obtain ⟨a, next, run, whole⟩ | ⟨e, next, run, whole⟩ := bind_cases p f s
  · rw [bind_of_ok run]
    obtain ⟨b, last, after, rest⟩ | ⟨e, last, after, rest⟩ := bind_cases (f a) g next
    · rw [rest, bind_of_ok (whole.trans after)]
    · rw [rest, bind_of_error (whole.trans after)]
  · rw [bind_of_error run, bind_of_error whole]

theorem of_bind_eq_ok (done : (p >>= f) s = (.ok b, last)) :
    ∃ a next, p s = (.ok a, next) ∧ f a next = (.ok b, last) := by
  obtain ⟨a, next, run, whole⟩ | ⟨e, next, run, whole⟩ := bind_cases p f s
  · exact ⟨a, next, run, whole.symm.trans done⟩
  · cases whole.symm.trans done

theorem bind_succeeds_iff (p : Fallible σ ε α) (f : α → Fallible σ ε β) (s : σ) :
    (∃ b t, (p >>= f) s = (.ok b, t)) ↔ ∃ a u, p s = (.ok a, u) ∧ ∃ b t, f a u = (.ok b, t) := by
  constructor
  · rintro ⟨b, t, done⟩
    obtain ⟨a, u, run, after⟩ := of_bind_eq_ok done
    exact ⟨a, u, run, b, t, after⟩
  · rintro ⟨a, u, run, b, t, after⟩
    exact ⟨b, t, (bind_of_ok run).trans after⟩

theorem of_pure_eq_ok {a a' : α} (done : (pure a : Fallible σ ε α) s = (.ok a', last)) : a = a' ∧ s = last := by
  change ((Except.ok a : Except ε α), s) = _ at done
  cases done
  exact ⟨rfl, rfl⟩

/-- Whatever comes of the computation, the state after it is related to the one before. -/
def Within (R : σ → σ → Prop) (p : Fallible σ ε α) : Prop := ∀ s, R s (p s).2

variable {R : σ → σ → Prop}

theorem Within.bind (trans : ∀ a b c, R a b → R b c → R a c) {p : Fallible σ ε α}
    {f : α → Fallible σ ε β} (first : Within R p) (second : ∀ a, Within R (f a)) : Within R (p >>= f) := by
  intro s
  have reached := first s
  obtain ⟨a, next, run, whole⟩ | ⟨e, next, run, whole⟩ := bind_cases p f s
  · rw [run] at reached
    rw [whole]
    exact trans _ _ _ reached (second a next)
  · rw [run] at reached
    rwa [whole]

/-- Whatever comes of the computation, `Q` holds after it if `P` did before. -/
def Ensures (P : σ → Prop) (p : Fallible σ ε α) (Q : σ → Prop) : Prop := ∀ s, P s → Q (p s).2

namespace Ensures
variable {P Q S : σ → Prop}

theorem bind {p : Fallible σ ε α} {f : α → Fallible σ ε β} (first : Ensures P p Q) (second : ∀ a, Ensures Q (f a) S)
    (weaker : ∀ s, Q s → S s) : Ensures P (p >>= f) S := by
  intro s holds
  have reached := first s holds
  obtain ⟨a, next, run, whole⟩ | ⟨e, next, run, whole⟩ := bind_cases p f s
  · rw [run] at reached
    rw [whole]
    exact second a next reached
  · rw [run] at reached
    rw [whole]
    exact weaker next reached

theorem pure {a : α} (weaker : ∀ s, P s → Q s) : Ensures P (Pure.pure a : Fallible σ ε α) Q := weaker

theorem fail {e : ε} (weaker : ∀ s, P s → Q s) : Ensures P (Fallible.fail e : Fallible σ ε α) Q := weaker

theorem ite {condition : Prop} [Decidable condition] {p q : Fallible σ ε α} (yes : condition → Ensures P p Q)
    (no : ¬condition → Ensures P q Q) : Ensures P (if condition then p else q) Q := by
  by_cases holds : condition
  · rw [if_pos holds]
    exact yes holds
  · rw [if_neg holds]
    exact no holds

end Ensures
end Fallible
end SmbClient.Lib
