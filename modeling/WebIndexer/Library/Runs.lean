import Mathlib.Init

/-! Guarded runs of a partial step function, and the rules that carry facts along them.
A guard constrains which labels a run may take in which states: the guard that always holds
gives every run, a stronger one the runs whose steps all meet a condition.
-/

namespace WebIndexer.Library

/-- `Run step guard s t` holds when `t` follows from `s` by steps that all meet `guard`. -/
inductive Run {σ ι : Type*} (step : σ → ι → Option σ) (guard : σ → ι → Prop)
    : σ → σ → Prop
  | refl (s : σ) : Run step guard s s
  | next {s t u : σ} {label : ι} (run : Run step guard s t) (met : guard t label)
    (taken : step t label = some u)
    : Run step guard s u

/-- The guard of unconstrained runs. -/
def anyStep {σ ι : Type*} : σ → ι → Prop := fun _ _ => True

/-- `Reaches step s t` holds when some run, of any steps, leads from `s` to `t`. -/
abbrev Reaches {σ ι : Type*} (step : σ → ι → Option σ) : σ → σ → Prop :=
  Run step anyStep

namespace Run

variable {σ ι : Type*} {step : σ → ι → Option σ} {guard other : σ → ι → Prop} {s t u : σ}

/-- Runs compose, by induction on the second run. -/
theorem trans (first : Run step guard s t) (second : Run step guard t u)
    : Run step guard s u := by
  induction second with
  | refl => exact first
  | next _ met taken ih => exact .next ih met taken

/-- Weakening the guard keeps the run. -/
theorem mono (weaker : ∀ s label, guard s label → other s label)
    (run : Run step guard s t)
    : Run step other s t := by
  induction run with
  | refl => exact .refl _
  | next _ met taken ih => exact .next ih (weaker _ _ met) taken

/-- Every guarded run is a run. -/
theorem reaches (run : Run step guard s t) : Reaches step s t :=
  run.mono fun _ _ _ => trivial

/-- A fact kept by each guarded step holds at the end of a run that starts with it. -/
theorem invariant {holds : σ → Prop} (start : holds s)
    (kept : ∀ {t u label}, holds t → guard t label → step t label = some u → holds u)
    (run : Run step guard s t)
    : holds t := by
  induction run with
  | refl => exact start
  | next _ met taken ih => exact kept ih met taken

/-- Where each guarded step lowers a potential, a run leads to a state that no guarded step leaves,
by strong induction on the potential.
-/
theorem exists_stuck {potential : σ → Nat}
    (falls : ∀ s label t, guard s label → step s label = some t → potential t < potential s)
    (s : σ)
    : ∃ t, Run step guard s t ∧ ∀ label, guard t label → step t label = none := by
  induction bound : potential s using Nat.strongRecOn generalizing s with
  | ind _ ih =>
      by_cases stuck : ∀ label, guard s label → step s label = none
      · exact ⟨s, .refl s, stuck⟩
      · obtain ⟨label, moves⟩ := Classical.not_forall.mp stuck
        obtain ⟨met, moves⟩ := Classical.not_imp.mp moves
        obtain ⟨next, taken⟩ := Option.ne_none_iff_exists'.mp moves
        obtain ⟨last, run, stuck⟩ := ih _ (bound ▸ falls s label next met taken) next rfl
        exact ⟨last, (Run.next (.refl s) met taken).trans run, stuck⟩

end Run

instance {σ ι : Type*} : DecidableRel (anyStep : σ → ι → Prop) :=
  fun _ _ => .isTrue trivial

section Execute

variable {σ ι : Type*} {step : σ → ι → Option σ} {guard : σ → ι → Prop}
  [DecidableRel guard]

/-- Take the given labels in order, failing at the first one that the guard forbids or that
is not enabled.
-/
def execute (step : σ → ι → Option σ) (guard : σ → ι → Prop) [DecidableRel guard]
    : σ → List ι → Option σ
  | s, [] => some s
  | s, label :: rest =>
      if guard s label then
        (step s label).bind fun next => execute step guard next rest
      else
        none

/-- The executed labels form a run, by induction on the labels. -/
theorem run_of_execute {s t : σ} {labels : List ι}
    (executed : execute step guard s labels = some t)
    : Run step guard s t := by
  induction labels generalizing s with
  | nil =>
      obtain rfl := Option.some.inj executed
      exact .refl _
  | cons label rest ih =>
      unfold execute at executed
      split at executed
      · rename_i met
        obtain ⟨next, taken, later⟩ := Option.bind_eq_some_iff.mp executed
        exact (Run.next (.refl s) met taken).trans (ih later)
      · cases executed

/-- A test that passes after the executed labels passes at the end of a run. -/
theorem exists_run_of_any {s : σ} {labels : List ι} {test : σ → Bool}
    (passes : (execute step guard s labels).any test = true)
    : ∃ t, Run step guard s t ∧ test t = true := by
  obtain ⟨t, executed, passed⟩ := (Option.any_eq_true _ _).mp passes
  exact ⟨t, run_of_execute executed, passed⟩

end Execute

end WebIndexer.Library
