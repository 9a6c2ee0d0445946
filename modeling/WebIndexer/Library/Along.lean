import Mathlib.Init

/-! Conditions along the runs of a total step function. When an invariant makes two conditions on
a step equivalent, and one of them keeps the invariant, they are equivalent along every run.
-/

namespace WebIndexer.Library

variable {σ ι : Type*} {next : σ → ι → σ} {met other : σ → ι → Prop} {holds : σ → Prop}

/-- Every item meets a condition on it and on the state that it finds. -/
def Along (next : σ → ι → σ) (met : σ → ι → Prop) : σ → List ι → Prop
  | _, [] => True
  | state, item :: rest => met state item ∧ Along next met (next state item) rest

/-- A condition that an invariant gives holds along every run that starts with the invariant, by
induction on the items.
-/
theorem Along.of_invariant (met_of : ∀ state item, holds state → met state item)
    (kept : ∀ state item, holds state → holds (next state item))
    {state : σ} (start : holds state) (items : List ι)
    : Along next met state items := by
  induction items generalizing state with
  | nil => trivial
  | cons item rest ih => exact ⟨met_of state item start, ih (kept state item start)⟩

/-- Conditions that an invariant makes equivalent, and that keep it, are equivalent along every run
that starts with the invariant, by induction on the items.
-/
theorem Along.iff_of_invariant
    (same : ∀ state item, holds state → (met state item ↔ other state item))
    (kept : ∀ state item, holds state → met state item → holds (next state item))
    {state : σ} (start : holds state) (items : List ι)
    : Along next met state items ↔ Along next other state items := by
  induction items generalizing state with
  | nil => rfl
  | cons item rest ih =>
      constructor
      · rintro ⟨first, later⟩
        exact ⟨(same state item start).mp first, (ih (kept state item start first)).mp later⟩
      · rintro ⟨first, later⟩
        have first := (same state item start).mpr first
        exact ⟨first, (ih (kept state item start first)).mpr later⟩

/-- When a fact before a step and one condition on it come to the fact behind it and another
condition, they do so for a whole run, by induction on the items.
-/
theorem Along.iff_of_step
    (step
      : ∀ state item,
          holds state ∧ met state item ↔ holds (next state item) ∧ other state item)
    (state : σ) (items : List ι)
    : holds state ∧ Along next met state items
      ↔ holds (items.foldl next state) ∧ Along next other state items := by
  induction items generalizing state with
  | nil => rfl
  | cons item rest ih =>
      have first := step state item
      have later := ih (next state item)
      rw [List.foldl_cons, Along, Along]
      constructor
      · rintro ⟨start, met_first, met_rest⟩
        obtain ⟨after, other_first⟩ := first.mp ⟨start, met_first⟩
        obtain ⟨ending, other_rest⟩ := later.mp ⟨after, met_rest⟩
        exact ⟨ending, other_first, other_rest⟩
      · rintro ⟨ending, other_first, other_rest⟩
        obtain ⟨after, met_rest⟩ := later.mpr ⟨ending, other_rest⟩
        obtain ⟨start, met_first⟩ := first.mpr ⟨after, other_first⟩
        exact ⟨start, met_first, met_rest⟩

end WebIndexer.Library
