import WebIndexer.Library.Runs

/-! Histories of runs. An observer adds to a step function what a claim has to remember of the
steps before, without changing which steps can be taken.
-/

namespace WebIndexer.Library

variable {σ ι η : Type*} {step : σ → ι → Option σ} {observe : σ → ι → η → η}

/-- A step, with a history that the observer updates from the state before and the label. -/
def observing (step : σ → ι → Option σ) (observe : σ → ι → η → η) (state : σ × η) (label : ι)
    : Option (σ × η) :=
  (step state.1 label).map fun next => (next, observe state.1 label state.2)

/-- An observed step is a step, and updates the history. -/
theorem observing_cases {state next : σ × η} {label : ι}
    (taken : observing step observe state label = some next)
    : step state.1 label = some next.1 ∧ next.2 = observe state.1 label state.2 := by
  obtain ⟨after, stepped, rfl⟩ := Option.map_eq_some_iff.mp taken
  exact ⟨stepped, rfl⟩

end WebIndexer.Library
