import Mathlib.Algebra.BigOperators.Group.List.Basic
import Mathlib.Algebra.Order.Group.Defs
import Mathlib.Algebra.Order.Monoid.Unbundled.MinMax
import Mathlib.Data.List.Induction

/-! Walks that a barrier at zero reflects: a counter that steps move up and down, and that never
falls below zero. Its height is the best sum over the blocks of steps that end at the present.
-/

namespace WebIndexer.Library

variable {α : Type*} [AddCommGroup α] [LinearOrder α]

/-- One step of the walk. -/
def reflect (height step : α) : α :=
  max 0 (height + step)

/-- The height after steps from zero, the oldest step first. -/
def walk (steps : List α) : α :=
  steps.foldl reflect 0

/-- The last step of a walk. -/
theorem walk_append_one (steps : List α) (step : α)
    : walk (steps ++ [step]) = reflect (walk steps) step := by
  simp [walk, List.foldl_append]

/-- Some block that ends at the present reaches the height: the empty one at the barrier, the
one that reached the height before with the last step otherwise.
-/
theorem exists_sum_eq_walk (steps : List α)
    : ∃ block, block <:+ steps ∧ block.sum = walk steps := by
  induction steps using List.reverseRecOn with
  | nil => exact ⟨[], List.suffix_refl _, List.sum_nil⟩
  | append_singleton steps step ih =>
      obtain ⟨block, last, reached⟩ := ih
      rw [walk_append_one]
      rcases le_total (walk steps + step) 0 with low | high
      · exact ⟨[], List.nil_suffix, by rw [List.sum_nil, reflect, max_eq_left low]⟩
      · refine ⟨block ++ [step], List.suffix_concat_iff.mpr (.inr ⟨block, rfl, last⟩), ?_⟩
        rw [reflect, max_eq_right high, ← reached]
        simp

variable [IsOrderedAddMonoid α]

/-- The walk is at least as high as any block that ends at the present, by induction on the
last step.
-/
theorem sum_le_walk {steps block : List α} (last : block <:+ steps)
    : block.sum ≤ walk steps := by
  induction steps using List.reverseRecOn generalizing block with
  | nil =>
      obtain rfl := List.suffix_nil.mp last
      exact le_of_eq List.sum_nil
  | append_singleton steps step ih =>
      rw [walk_append_one]
      rcases List.suffix_concat_iff.mp last with rfl | ⟨earlier, rfl, before⟩
      · exact List.sum_nil.trans_le (le_max_left ..)
      · calc (earlier ++ [step]).sum
            = earlier.sum + step := by simp
          _ ≤ walk steps + step := by
              have bound := ih before
              gcongr
          _ ≤ reflect (walk steps) step := le_max_right ..

/-- A level is reached exactly when some block that ends at the present sums to it or more. -/
theorem le_walk_iff {steps : List α} {level : α}
    : level ≤ walk steps ↔ ∃ block, block <:+ steps ∧ level ≤ block.sum := by
  constructor
  · intro reached
    obtain ⟨block, last, same⟩ := exists_sum_eq_walk steps
    exact ⟨block, last, reached.trans_eq same.symm⟩
  · rintro ⟨block, last, bound⟩
    exact bound.trans (sum_le_walk last)

end WebIndexer.Library
