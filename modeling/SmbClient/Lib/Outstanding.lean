import SmbClient.Lib.Ranges
import SmbClient.Lib.Slots

namespace SmbClient.Lib

/-- A job on the numbers from `first` on is under way. It has been given out up to `last`, each slot in
use works on an extent, and everything that no slot works on is done. `count` is the size of what is done,
counted with its repetitions. -/
structure Outstanding {α : Type} (extent : α → Extent) (done : Nat → Prop) (slots : Slots α)
    (count first last : Nat) : Prop where
  covered : ∀ n, first ≤ n → n < last → done n ∨ ∃ i x, slots.lookup i = some x ∧ n ∈ (extent x).toSet
  balanced : (first : Int) + count + slots.total (fun x => ((extent x).length : Int)) = last

namespace Outstanding
variable {α : Type} {extent : α → Extent} {done done' : Nat → Prop} {slots : Slots α}
  {count count' first last last' : Nat}

theorem start (extent : α → Extent) (done : Nat → Prop) (first : Nat) :
    Outstanding extent done [] 0 first first :=
  ⟨fun _ low high => absurd high (Nat.not_lt_of_le low), by simp [Slots.total]⟩

variable (out : Outstanding extent done slots count first last)
include out

theorem mono (grows : ∀ n, done n → done' n) : Outstanding extent done' slots count first last :=
  ⟨fun n low high => (out.covered n low high).imp_left (grows n), out.balanced⟩

theorem count_le : first + count ≤ last := by
  have nonneg : 0 ≤ slots.total (fun x => ((extent x).length : Int)) :=
    Slots.total_nonneg fun _ _ => Int.natCast_nonneg _
  have balanced := out.balanced
  omega

theorem alloc {x : α} (next : (extent x).start = last) :
    Outstanding extent done (slots.alloc x) count first (extent x).stop := by
  refine ⟨fun n low high => ?_, ?_⟩
  · rcases Nat.lt_or_ge n last with before | behind
    · refine (out.covered n low before).imp_right ?_
      rintro ⟨i, y, found, inside⟩
      refine ⟨i, y, ?_, inside⟩
      rw [Slots.lookup_alloc, if_neg (Nat.ne_of_gt (Slots.lookup_lt found)), found]
    · refine .inr ⟨slots.length, x, ?_, Set.mem_Ico.mpr ⟨next.le.trans behind, high⟩⟩
      rw [Slots.lookup_alloc, if_pos rfl]
  · have balanced := out.balanced
    rw [Slots.total_alloc, Extent.stop, next]
    omega

variable {i : Nat} {x : α}

theorem free (found : slots.lookup i = some x)
    (keeps : ∀ n, done n → done' n) (finished : ∀ n ∈ (extent x).toSet, done' n) :
    Outstanding extent done' (slots.free i) (count + (extent x).length) first last := by
  refine ⟨fun n low high => ?_, ?_⟩
  · rcases out.covered n low high with early | ⟨j, y, other, inside⟩
    · exact .inl (keeps n early)
    · by_cases same : i = j
      · subst same
        cases found.symm.trans other
        exact .inl (finished n inside)
      · refine .inr ⟨j, y, ?_, inside⟩
        rw [Slots.lookup_free, if_neg same, other]
  · have balanced := out.balanced
    rw [Slots.total_free _ found]
    omega

/-- Slot `i` goes on with `y`: what is left of its own extent, or the next part of the job. -/
theorem store (found : slots.lookup i = some x) {y : α}
    (keeps : ∀ n, done n → done' n) (passes : ∀ n ∈ (extent x).toSet, done' n ∨ n ∈ (extent y).toSet)
    (takes : ∀ n, last ≤ n → n < last' → n ∈ (extent y).toSet)
    (balance : count' + (extent y).length + last = count + (extent x).length + last') :
    Outstanding extent done' (slots.store i y) count' first last' := by
  have stored : (slots.store i y).lookup i = some y := by rw [Slots.lookup_store y found, if_pos rfl]
  refine ⟨fun n low high => ?_, ?_⟩
  · rcases Nat.lt_or_ge n last with before | behind
    · rcases out.covered n low before with early | ⟨j, z, other, inside⟩
      · exact .inl (keeps n early)
      · by_cases same : i = j
        · subst same
          cases found.symm.trans other
          exact (passes n inside).imp_right fun inside => ⟨i, y, stored, inside⟩
        · refine .inr ⟨j, z, ?_, inside⟩
          rw [Slots.lookup_store y found, if_neg same, other]
    · exact .inr ⟨i, y, stored, takes n behind high⟩
  · have balanced := out.balanced
    rw [Slots.total_store _ y found]
    omega

theorem of_idle (idle : ∀ i, slots.lookup i = none) (n : Nat) (low : first ≤ n) (high : n < last) : done n := by
  rcases out.covered n low high with early | ⟨i, x, found, -⟩
  · exact early
  · rw [idle i] at found
    cases found

theorem of_complete (complete : last ≤ first + count) (n : Nat) (low : first ≤ n) (high : n < last) : done n := by
  rcases out.covered n low high with early | ⟨i, x, found, inside⟩
  · exact early
  · have others : 0 ≤ (slots.free i).total (fun x => ((extent x).length : Int)) :=
      Slots.total_nonneg fun _ _ => Int.natCast_nonneg _
    have balanced := out.balanced
    have bounds := Set.mem_Ico.mp inside
    rw [Slots.total_free _ found] at others
    unfold Extent.stop at bounds
    omega

/-- What the slots still work on lies behind as many numbers as have been counted. -/
theorem of_ahead (ahead : slots.All fun x => first + count ≤ (extent x).start) (n : Nat) (low : first ≤ n)
    (high : n < first + count) : done n := by
  rcases out.covered n low (high.trans_le out.count_le) with early | ⟨i, x, found, inside⟩
  · exact early
  · exact absurd ((ahead.lookup found).trans inside.1) (Nat.not_le_of_lt high)

end Outstanding
end SmbClient.Lib
