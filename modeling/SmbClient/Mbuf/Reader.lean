import SmbClient.Lib.Buffer
import SmbClient.Lib.Fallible
import SmbClient.Mbuf.MdChain

/-! Parsers of reply bodies: `md_get_*` calls in a row, each of which may end the parse, between
changes to what the parser fills in. -/

namespace SmbClient.Mbuf
open SmbClient.Lib SmbClient.Lib.Fallible

structure Reading (τ : Type) where
  mdp : MdChain
  state : τ

abbrev Reader (τ : Type) := Fallible (Reading τ) Errno

variable {τ α : Type}

def Reading.advance (s : Reading τ) (size : Nat) : Reading τ := { s with mdp := (mdGetMem s.mdp size).mdp }

@[simp] theorem Reading.advance_rest (s : Reading τ) (size : Nat) :
    (s.advance size).mdp.rest = s.mdp.rest.drop size :=
  mdGetMem_rest s.mdp size

@[simp] theorem Reading.advance_state (s : Reading τ) (size : Nat) : (s.advance size).state = s.state := rfl

theorem Reading.advance_zero (s : Reading τ) : s.advance 0 = s := by
  obtain ⟨⟨top, cur, pos, len, inside⟩, state⟩ := s
  simp [Reading.advance, mdGetMem, mdGetMemLoop]

theorem Reading.advance_advance (s : Reading τ) {a b : Nat} (enough : a + b ≤ s.mdp.rest.length) :
    (s.advance a).advance b = s.advance (a + b) := by
  simp only [Reading.advance, mdGetMem_mdp_add enough]

theorem ofLe_slice_lt (data : Bytes) (k width : Nat) : ofLe (slice data k width) < 256 ^ width := by
  refine Nat.lt_of_lt_of_le (ofLe_lt _) (Nat.pow_le_pow_right (by decide) ?_)
  rw [slice, List.length_take]
  exact Nat.min_le_left _ _

namespace Reader

def getMem (size : Nat) : Reader τ Bytes := fun s =>
  match (mdGetMem s.mdp size).error with
  | none => (.ok (mdGetMem s.mdp size).target, s.advance size)
  | some e => (.error e, s.advance size)

def getUint (width : Nat) : Reader τ Nat := do
  let data ← getMem width
  pure (ofLe data)

def skip (size : Nat) : Reader τ Unit := do
  let _ ← getMem size

def require (p : Prop) [Decidable p] (e : Errno) : Reader τ Unit := if p then pure () else fail e

def update (f : τ → τ) : Reader τ Unit := modify fun s => { s with state := f s.state }

def state : Reader τ τ := do
  let s ← get
  pure s.state

theorem skip_zero : (skip 0 : Reader τ Unit) = pure () := by
  funext s
  have nothing : (getMem 0 : Reader τ Bytes) s = (.ok [], s) := by
    unfold getMem
    rw [mdGetMem_error, mdGetMem_target, if_neg (Nat.not_lt_zero _), List.take_zero, s.advance_zero]
  exact bind_of_ok nothing

def shadow (p : Reader τ α) : Reader τ α := fun s => ((p s).1, { (p s).2 with mdp := s.mdp })

theorem getMem_ok {s t : Reading τ} {size : Nat} {data : Bytes} (run : getMem size s = (.ok data, t)) :
    size ≤ s.mdp.rest.length ∧ data = s.mdp.rest.take size ∧ t.mdp.rest = s.mdp.rest.drop size ∧
      t.state = s.state := by
  unfold getMem at run
  rw [mdGetMem_error, mdGetMem_target] at run
  split at run
  · rename_i enough
    cases run
    refine ⟨?_, rfl, Reading.advance_rest s size, rfl⟩
    by_contra lacking
    rw [if_pos (Nat.lt_of_not_le lacking)] at enough
    cases enough
  · cases run

theorem getUint_ok {s t : Reading τ} {size value : Nat} (run : getUint size s = (.ok value, t)) :
    size ≤ s.mdp.rest.length ∧ value = ofLe (s.mdp.rest.take size) ∧ t.mdp.rest = s.mdp.rest.drop size ∧
      t.state = s.state := by
  obtain ⟨data, u, fetched, converted⟩ := of_bind_eq_ok run
  obtain ⟨rfl, rfl⟩ := of_pure_eq_ok converted
  obtain ⟨enough, rfl, rest, same⟩ := getMem_ok fetched
  exact ⟨enough, rfl, rest, same⟩

/-! ## Reading from a known place of the bytes -/

section
variable {β : Type} {s : Reading τ} {data : Bytes} {k size : Nat} (place : s.mdp.rest = data.drop k)
include place

theorem getMem_at (enough : k + size ≤ data.length) (f : Bytes → Reader τ β) :
    ∃ t, (getMem size >>= f) s = f (slice data k size) t ∧ t.mdp.rest = data.drop (k + size) ∧
      t.state = s.state := by
  refine ⟨s.advance size, bind_of_ok ?_, ?_, rfl⟩
  · unfold getMem
    rw [mdGetMem_error, mdGetMem_target, place, List.length_drop, if_neg (by omega)]
    rfl
  · rw [Reading.advance_rest, place, List.drop_drop]

theorem getMem_short (short : data.length < k + size) (inside : k ≤ data.length) (f : Bytes → Reader τ β) :
    ∃ t, (getMem size >>= f) s = (.error .ebadrpc, t) ∧ t.state = s.state := by
  refine ⟨s.advance size, bind_of_error ?_, rfl⟩
  unfold getMem
  rw [mdGetMem_error, place, List.length_drop, if_pos (by omega)]

theorem getUint_at (enough : k + size ≤ data.length) (f : Nat → Reader τ β) :
    ∃ t, (getUint size >>= f) s = f (ofLe (slice data k size)) t ∧ t.mdp.rest = data.drop (k + size) ∧
      t.state = s.state := by
  obtain ⟨t, run, after, same⟩ := getMem_at place enough fun data => (pure (ofLe data) : Reader τ Nat)
  exact ⟨t, bind_of_ok run, after, same⟩

theorem getUint_short (short : data.length < k + size) (inside : k ≤ data.length) (f : Nat → Reader τ β) :
    ∃ t, (getUint size >>= f) s = (.error .ebadrpc, t) ∧ t.state = s.state := by
  obtain ⟨t, run, same⟩ := getMem_short place short inside fun data => (pure (ofLe data) : Reader τ Nat)
  exact ⟨t, bind_of_error run, same⟩

end

/-! ## Reading what has been encoded -/

section
variable {β : Type} {s : Reading τ} {data tail : Bytes} {width value : Nat}

theorem getMem_append (rest : s.mdp.rest = data ++ tail) (f : Bytes → Reader τ β) :
    ∃ t, (getMem data.length >>= f) s = f data t ∧ t.mdp.rest = tail ∧ t.state = s.state := by
  have enough : 0 + data.length ≤ (data ++ tail).length := by
    rw [List.length_append]
    omega
  obtain ⟨t, run, after, same⟩ := getMem_at (rest.trans List.drop_zero.symm) enough f
  rw [slice_append_left data tail _ rfl] at run
  rw [Nat.zero_add, List.drop_left] at after
  exact ⟨t, run, after, same⟩

theorem getUint_append (rest : s.mdp.rest = data ++ tail) (exact : data.length = width) (f : Nat → Reader τ β) :
    ∃ t, (getUint width >>= f) s = f (ofLe data) t ∧ t.mdp.rest = tail ∧ t.state = s.state := by
  subst exact
  obtain ⟨t, run, after, same⟩ := getMem_append rest fun data => (pure (ofLe data) : Reader τ Nat)
  exact ⟨t, bind_of_ok run, after, same⟩

theorem getUint_toLe (rest : s.mdp.rest = toLe width value ++ tail) (small : value < 256 ^ width)
    (f : Nat → Reader τ β) : ∃ t, (getUint width >>= f) s = f value t ∧ t.mdp.rest = tail ∧ t.state = s.state := by
  obtain ⟨t, run, after, same⟩ := getUint_append rest (length_toLe width value) f
  rw [ofLe_toLe_of_lt small] at run
  exact ⟨t, run, after, same⟩

theorem skip_append (rest : s.mdp.rest = data ++ tail) (f : Unit → Reader τ β) :
    ∃ t, (skip data.length >>= f) s = f () t ∧ t.mdp.rest = tail ∧ t.state = s.state := by
  obtain ⟨t, run, after, same⟩ := getMem_append rest fun _ => (pure () : Reader τ Unit)
  exact ⟨t, bind_of_ok run, after, same⟩

end

section
variable {β : Type} {s : Reading τ} {p : Prop} [Decidable p]

theorem require_bind (holds : p) (e : Errno) (f : Unit → Reader τ β) : (require p e >>= f) s = f () s := by
  unfold require
  rw [if_pos holds]
  rfl

theorem require_bind_fails (fails : ¬p) (e : Errno) (f : Unit → Reader τ β) :
    (require p e >>= f) s = (.error e, s) := by
  unfold require
  rw [if_neg fails]
  rfl

theorem state_bind (f : τ → Reader τ β) : (state >>= f) s = f s.state s := rfl

theorem update_bind (g : τ → τ) (f : Unit → Reader τ β) :
    (update g >>= f) s = f () { s with state := g s.state } := rfl

end
/-! ## What the parse leaves in the state -/

section
variable {P Q : τ → Prop} (weaker : ∀ state, P state → Q state)
include weaker

theorem ensures_getMem (size : Nat) : Ensures (fun s => P s.state) (getMem size : Reader τ Bytes) (fun s => Q s.state) := by
  intro s holds
  unfold getMem
  split <;> exact weaker _ holds

theorem ensures_getUint (size : Nat) : Ensures (fun s => P s.state) (getUint size : Reader τ Nat) (fun s => Q s.state) :=
  .bind (ensures_getMem weaker size) (fun _ => .pure fun _ holds => holds) (fun _ holds => holds)

theorem ensures_skip (size : Nat) : Ensures (fun s => P s.state) (skip size : Reader τ Unit) (fun s => Q s.state) :=
  .bind (ensures_getMem weaker size) (fun _ => .pure fun _ holds => holds) (fun _ holds => holds)

theorem ensures_require (p : Prop) [Decidable p] (e : Errno) :
    Ensures (fun s => P s.state) (require p e : Reader τ Unit) (fun s => Q s.state) :=
  .ite (fun _ => .pure fun _ => weaker _) (fun _ => .fail fun _ => weaker _)

end

theorem ensures_update {P Q : τ → Prop} {f : τ → τ} (holds : ∀ state, P state → Q (f state)) :
    Ensures (fun s => P s.state) (update f : Reader τ Unit) (fun s => Q s.state) :=
  fun s before => holds s.state before

end Reader

structure Settles {τ α : Type} (p : Reader τ α) (s : Reading τ) (accepted : Prop) (Q : α → Reading τ → Prop) :
    Prop where
  ok : accepted → ∃ a t, p s = (.ok a, t) ∧ Q a t
  error : ¬accepted → ∃ e t, p s = (.error e, t)

namespace Settles
open Reader
variable {β : Type} {p : Reader τ α} {s : Reading τ} {accepted : Prop} {Q : α → Reading τ → Prop}

variable {a : α} {t : Reading τ}

theorem done (run : p s = (.ok a, t)) (holds : accepted) (result : Q a t) :
    Settles p s accepted Q :=
  ⟨fun _ => ⟨a, t, run, result⟩, fun fails => absurd holds fails⟩

theorem pure (holds : accepted) (result : Q a s) : Settles (Pure.pure a) s accepted Q :=
  .done rfl holds result

theorem failed {e : Errno} (run : p s = (.error e, t)) (fails : ¬accepted) :
    Settles p s accepted Q :=
  ⟨fun holds => absurd holds fails, fun _ => ⟨e, t, run⟩⟩

theorem of_eq {q : Reader τ α} (run : p s = q t) (after : Settles q t accepted Q) :
    Settles p s accepted Q := by
  refine ⟨?_, ?_⟩
  · rw [run]
    exact after.ok
  · rw [run]
    exact after.error

theorem of_ok (settles : Settles p s accepted Q) (run : p s = (.ok a, t)) :
    accepted ∧ Q a t := by
  by_cases holds : accepted
  · obtain ⟨b, u, found, result⟩ := settles.ok holds
    rw [run] at found
    cases found
    exact ⟨holds, result⟩
  · obtain ⟨e, u, failed⟩ := settles.error holds
    rw [run] at failed
    cases failed

theorem congr {accepted' : Prop} {Q' : α → Reading τ → Prop} (settles : Settles p s accepted Q)
    (same : accepted' ↔ accepted) (result : ∀ a t, Q a t → Q' a t) : Settles p s accepted' Q' := by
  refine ⟨fun holds => ?_, fun fails => settles.error fun holds => fails (same.mpr holds)⟩
  obtain ⟨a, t, run, found⟩ := settles.ok (same.mp holds)
  exact ⟨a, t, run, result a t found⟩

theorem bind {q : Reader τ β} {f : β → Reader τ α} {first : Prop} {R : β → Reading τ → Prop}
    (before : Settles q s first R) (needs : accepted → first)
    (after : first → ∀ b t, R b t → Settles (f b) t accepted Q) : Settles (q >>= f) s accepted Q := by
  by_cases holds : first
  · obtain ⟨b, t, run, result⟩ := before.ok holds
    exact .of_eq (bind_of_ok run) (after holds b t result)
  · obtain ⟨e, t, run⟩ := before.error holds
    exact .failed (bind_of_error run) (fun accept => holds (needs accept))

theorem require {e : Errno} {condition : Prop} [Decidable condition] {f : Unit → Reader τ α}
    (needs : accepted → condition) (after : condition → Settles (f ()) s accepted Q) :
    Settles (Reader.require condition e >>= f) s accepted Q := by
  by_cases holds : condition
  · exact .of_eq (require_bind holds _ _) (after holds)
  · exact .failed (require_bind_fails holds _ _) (fun accept => holds (needs accept))

section
variable {data : Bytes} {k size : Nat} (place : s.mdp.rest = data.drop k) (inside : k ≤ data.length)
  (needs : accepted → k + size ≤ data.length)
include place inside needs

theorem getMem {f : Bytes → Reader τ α}
    (after : k + size ≤ data.length → ∀ t, t.mdp.rest = data.drop (k + size) → t.state = s.state →
      Settles (f (slice data k size)) t accepted Q) :
    Settles (Reader.getMem size >>= f) s accepted Q := by
  rcases Nat.lt_or_ge data.length (k + size) with lacking | enough
  · obtain ⟨t, run, _⟩ := Reader.getMem_short place lacking inside f
    exact .failed run (fun accept => absurd (needs accept) (Nat.not_le_of_lt lacking))
  · obtain ⟨t, run, place, same⟩ := getMem_at place enough f
    exact .of_eq run (after enough t place same)

theorem getUint {f : Nat → Reader τ α}
    (after : k + size ≤ data.length → ∀ t, t.mdp.rest = data.drop (k + size) → t.state = s.state →
      Settles (f (ofLe (slice data k size))) t accepted Q) :
    Settles (Reader.getUint size >>= f) s accepted Q := by
  unfold Reader.getUint
  rw [bind_bind]
  exact .getMem place inside needs after

theorem skip {f : Unit → Reader τ α}
    (after : k + size ≤ data.length → ∀ t, t.mdp.rest = data.drop (k + size) → t.state = s.state →
      Settles (f ()) t accepted Q) :
    Settles (Reader.skip size >>= f) s accepted Q := by
  unfold Reader.skip
  rw [bind_bind]
  exact .getMem place inside needs after

end

/-! The same from a place that is counted from the start of a parse, with the state that is reached. -/

section
variable {k size : Nat} (inside : k ≤ s.mdp.rest.length) (needs : accepted → k + size ≤ s.mdp.rest.length)
include inside needs

theorem getMemFrom {f : Bytes → Reader τ α}
    (after : k + size ≤ s.mdp.rest.length → Settles (f (slice s.mdp.rest k size)) (s.advance (k + size)) accepted Q) :
    Settles (Reader.getMem size >>= f) (s.advance k) accepted Q := by
  by_cases enough : k + size ≤ s.mdp.rest.length
  · refine .of_eq (bind_of_ok ?_) (after enough)
    rw [← s.advance_advance enough]
    unfold Reader.getMem
    rw [mdGetMem_error, mdGetMem_target, Reading.advance_rest, List.length_drop, if_neg (by omega)]
    rfl
  · obtain ⟨t, run, _⟩ := Reader.getMem_short (s.advance_rest k) (Nat.lt_of_not_le enough) inside f
    exact .failed run (fun accept => enough (needs accept))

theorem getUintFrom {f : Nat → Reader τ α} (after : k + size ≤ s.mdp.rest.length →
      Settles (f (ofLe (slice s.mdp.rest k size))) (s.advance (k + size)) accepted Q) :
    Settles (Reader.getUint size >>= f) (s.advance k) accepted Q := by
  unfold Reader.getUint
  rw [bind_bind]
  exact .getMemFrom inside needs after

theorem skipFrom {f : Unit → Reader τ α}
    (after : k + size ≤ s.mdp.rest.length → Settles (f ()) (s.advance (k + size)) accepted Q) :
    Settles (Reader.skip size >>= f) (s.advance k) accepted Q := by
  unfold Reader.skip
  rw [bind_bind]
  exact .getMemFrom inside needs after

end
end Settles

/-! A parser that succeeds has looked at the bytes it has taken and at no others. -/

variable {β : Type}

structure TakesFrom (p : Reader τ α) (s : Reading τ) (n : Nat) (a : α) (t : Reading τ) : Prop where
  enough : n ≤ s.mdp.rest.length
  rest : t.mdp.rest = s.mdp.rest.drop n
  again : ∀ s' : Reading τ, s'.state = s.state → s'.mdp.rest.take n = s.mdp.rest.take n →
    ∃ t', p s' = (.ok a, t') ∧ t'.state = t.state ∧ t'.mdp.rest = s'.mdp.rest.drop n

theorem TakesFrom.bind {p : Reader τ α} {f : α → Reader τ β} {s u t : Reading τ} {n m : Nat} {a : α} {b : β}
    (first : TakesFrom p s n a u) (second : TakesFrom (f a) u m b t) : TakesFrom (p >>= f) s (n + m) b t where
  enough := by
    have more := second.enough
    rw [first.rest, List.length_drop] at more
    have some := first.enough
    omega
  rest := by rw [second.rest, first.rest, List.drop_drop]
  again := by
    intro s' state same
    have front : s'.mdp.rest.take n = s.mdp.rest.take n := by
      have shorter := congrArg (List.take n) same
      rwa [List.take_take, List.take_take, Nat.min_eq_left (Nat.le_add_right n m)] at shorter
    obtain ⟨u', run, state', rest'⟩ := first.again s' state front
    have back : u'.mdp.rest.take m = u.mdp.rest.take m := by
      rw [rest', first.rest, List.take_drop, List.take_drop, same]
    obtain ⟨t', run', state'', rest''⟩ := second.again u' state' back
    exact ⟨t', (bind_of_ok run).trans run', state'', by rw [rest'', rest', List.drop_drop]⟩

def Local (n : Nat) (p : Reader τ α) : Prop := ∀ s a t, p s = (.ok a, t) → TakesFrom p s n a t

structure Fixed (n : Nat) (p : Reader τ α) : Prop where
  taken : Local n p
  succeeds : ∀ s : Reading τ, n ≤ s.mdp.rest.length → ∃ a t, p s = (.ok a, t)

namespace Local
variable {n m : Nat} {p q : Reader τ α}

theorem of_eq (same : n = m) (taken : Local n p) : Local m p := same ▸ taken

theorem bind {f : α → Reader τ β} (first : Local n p) (second : ∀ a, Local m (f a)) : Local (n + m) (p >>= f) := by
  intro s b t done
  obtain ⟨a, u, run, after⟩ := of_bind_eq_ok done
  exact (first s a u run).bind (second a u b t after)

theorem pure (a : α) : Local 0 (Pure.pure a : Reader τ α) := by
  intro s b t run
  obtain ⟨rfl, rfl⟩ := of_pure_eq_ok run
  exact ⟨Nat.zero_le _, rfl, fun s' state _ => ⟨s', rfl, state, rfl⟩⟩

theorem ite {c : Prop} [Decidable c] (yes : Local n p) (no : Local n q) : Local n (if c then p else q) := by
  split
  · exact yes
  · exact no

theorem require (c : Prop) [Decidable c] (e : Errno) : Local 0 (Reader.require c e : Reader τ Unit) := by
  refine .ite (.pure ()) fun s a t run => ?_
  obtain ⟨⟨⟩, -⟩ := Prod.mk.inj run

end Local

namespace Fixed
variable {n m : Nat} {p q : Reader τ α}

theorem bind {f : α → Reader τ β} (first : Fixed n p) (second : ∀ a, Fixed m (f a)) : Fixed (n + m) (p >>= f) where
  taken := first.taken.bind fun a => (second a).taken
  succeeds := by
    intro s enough
    obtain ⟨a, u, run⟩ := first.succeeds s (by omega)
    have left : m ≤ u.mdp.rest.length := by
      rw [(first.taken s a u run).rest, List.length_drop]
      omega
    obtain ⟨b, t, run'⟩ := (second a).succeeds u left
    exact ⟨b, t, (bind_of_ok run).trans run'⟩

theorem bind_at (fixed : Fixed n p) {u : Reading τ} {data : Bytes} {k : Nat} (place : u.mdp.rest = data.drop k)
    (enough : k + n ≤ data.length) (f : α → Reader τ β) :
    ∃ a t, (p >>= f) u = f a t ∧ p u = (.ok a, t) ∧ t.mdp.rest = data.drop (k + n) := by
  have left : n ≤ u.mdp.rest.length := by
    rw [place, List.length_drop]
    omega
  obtain ⟨a, t, run⟩ := fixed.succeeds u left
  refine ⟨a, t, bind_of_ok run, run, ?_⟩
  rw [(fixed.taken u a t run).rest, place, List.drop_drop]

theorem getMem (size : Nat) : Fixed size (Reader.getMem size : Reader τ Bytes) where
  taken := by
    intro s data t run
    obtain ⟨enough, rfl, rest, state⟩ := Reader.getMem_ok run
    refine ⟨enough, rest, fun s' state' same => ⟨s'.advance size, ?_, state'.trans state.symm, s'.advance_rest size⟩⟩
    have length := congrArg List.length same
    rw [List.length_take, List.length_take, Nat.min_eq_left enough] at length
    unfold Reader.getMem
    rw [mdGetMem_error, mdGetMem_target, if_neg (by omega), same]
  succeeds := by
    intro s enough
    refine ⟨s.mdp.rest.take size, s.advance size, ?_⟩
    unfold Reader.getMem
    rw [mdGetMem_error, mdGetMem_target, if_neg (Nat.not_lt.mpr enough)]

theorem pure (a : α) : Fixed 0 (Pure.pure a : Reader τ α) := ⟨.pure a, fun s _ => ⟨a, s, rfl⟩⟩

theorem update (f : τ → τ) : Fixed 0 (Reader.update f : Reader τ Unit) where
  taken := by
    intro s b t run
    cases run
    exact ⟨Nat.zero_le _, rfl, fun s' state _ => ⟨_, rfl, congrArg f state, rfl⟩⟩
  succeeds := fun s _ => ⟨(), _, rfl⟩

theorem state : Fixed 0 (Reader.state : Reader τ τ) where
  taken := by
    intro s b t run
    cases run
    refine ⟨Nat.zero_le _, rfl, fun s' state _ => ⟨s', ?_, state, rfl⟩⟩
    rw [← state]
    rfl
  succeeds := fun s _ => ⟨s.state, s, rfl⟩

theorem ite {c : Prop} [Decidable c] (yes : Fixed n p) (no : Fixed n q) : Fixed n (if c then p else q) := by
  split
  · exact yes
  · exact no

theorem getUint (size : Nat) : Fixed size (Reader.getUint size : Reader τ Nat) :=
  .bind (.getMem size) fun _ => .pure _

theorem skip (size : Nat) : Fixed size (Reader.skip size : Reader τ Unit) := .bind (.getMem size) fun _ => .pure _

end Fixed

end SmbClient.Mbuf
