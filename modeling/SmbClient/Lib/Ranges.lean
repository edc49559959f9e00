import Mathlib.Order.Interval.Set.Disjoint
import Mathlib.Order.CompletePartialOrder
import SmbClient.Lib.Runs

namespace SmbClient.Lib

structure Extent where
  start : Nat
  length : Nat
  deriving DecidableEq, Repr

namespace Extent

def stop (e : Extent) : Nat := e.start + e.length

def toSet (e : Extent) : Set Nat := Set.Ico e.start e.stop

theorem start_le_stop (e : Extent) : e.start ≤ e.stop := Nat.le_add_right _ _

end Extent

/-- Each extent starts where the one before it stops. -/
def Tiles : Nat → List Extent → Nat → Prop
  | first, [], last => first = last
  | first, e :: rest, last => e.start = first ∧ Tiles e.stop rest last

namespace Tiles
variable {first mid last : Nat} {es fs : List Extent}

theorem le (tiles : Tiles first es last) : first ≤ last := by
  induction es generalizing first with
  | nil => exact tiles.le
  | cons e rest ih =>
    obtain ⟨rfl, tiles⟩ := tiles
    exact e.start_le_stop.trans (ih tiles)

theorem append (front : Tiles first es mid) (back : Tiles mid fs last) : Tiles first (es ++ fs) last := by
  induction es generalizing first with
  | nil =>
    cases front
    exact back
  | cons e rest ih => exact ⟨front.1, ih front.2⟩

theorem iUnion (tiles : Tiles first es last) : ⋃ e ∈ es, e.toSet = Set.Ico first last := by
  induction es generalizing first with
  | nil =>
    cases tiles
    simp
  | cons e rest ih =>
    obtain ⟨rfl, tiles⟩ := tiles
    have joined := Set.Ico_union_Ico_eq_Ico e.start_le_stop tiles.le
    rw [← joined, ← ih tiles]
    simp [Extent.toSet]

theorem pairwise (tiles : Tiles first es last) : es.Pairwise fun e f => Disjoint e.toSet f.toSet := by
  induction es generalizing first with
  | nil => exact List.Pairwise.nil
  | cons e rest ih =>
    refine List.Pairwise.cons (fun f member => ?_) (ih tiles.2)
    -- all the later extents lie past the end of this one
    have later : f.toSet ⊆ Set.Ico e.stop last := by
      rw [← tiles.2.iUnion]
      exact Set.subset_biUnion_of_mem member
    exact (Set.Ico_disjoint_Ico_same).mono_right later

theorem emitted {σ ε : Type} (counter : σ → Nat) {step : σ → ε → Option σ} {out : σ → ε → List Extent}
    {inv : σ → Prop} {cond : σ → ε → Prop} (each : ∀ s e next, inv s → cond s e → step s e = some next →
      inv next ∧ Tiles (counter s) (out s e) (counter next))
    {s final : σ} {events : List ε} (start : inv s) (steps : AllSteps step cond s events)
    (reached : run step s events = some final) :
    inv final ∧ Tiles (counter s) (Lib.emitted step out s events) (counter final) := by
  induction events generalizing s with
  | nil =>
    cases reached
    exact ⟨start, rfl⟩
  | cons e rest ih =>
    obtain ⟨next, taken, reached⟩ := Option.bind_eq_some_iff.mp reached
    obtain ⟨kept, front⟩ := each s e next start steps.1 taken
    obtain ⟨final, back⟩ := ih kept (steps.2 next taken) reached
    rw [Lib.emitted, taken]
    exact ⟨final, front.append back⟩

end Tiles
end SmbClient.Lib
