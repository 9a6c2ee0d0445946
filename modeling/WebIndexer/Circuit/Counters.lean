import WebIndexer.Circuit.Calls

/-! The counters of a breaker between any two operations. Completions arrive in every state, and
a transition resets only some counters, so the bounds are proved together. No order of the clock
readings is assumed.
-/

namespace WebIndexer.Circuit

open WebIndexer.Library

/-- The bounds of the counters, and the failure time that `currentState` takes for granted. The
counters are natural numbers, as `_onSuccess` stops the only decrement at zero.
-/
structure CircuitBreaker.CountersBounded (breaker : CircuitBreaker) : Prop where
  failures_nonneg : 0 ≤ breaker.failureCount
  failures_lt : breaker.state = .closed → breaker.failureCount < breaker.failureThreshold
  attempts_bounds : 0 ≤ breaker.halfOpenAttempts ∧ breaker.halfOpenAttempts ≤ breaker.halfOpenMax
  successes_bounds : 0 ≤ breaker.successCount ∧ breaker.successCount < breaker.halfOpenMax
  failed : breaker.state ≠ .closed → breaker.lastFailureTime ≠ none

namespace CircuitBreaker

variable {breaker after : CircuitBreaker} {now : Nat}

/-- The counters of a new breaker. -/
theorem countersBounded_create (options : CircuitBreakerOptions) (now : Nat)
    : (create options now).CountersBounded where
  failures_nonneg := Nat.zero_le _
  failures_lt := fun _ => (create options now).failureThreshold_pos
  attempts_bounds := ⟨Nat.zero_le _, Nat.zero_le _⟩
  successes_bounds := ⟨Nat.zero_le _, (create options now).halfOpenMax_pos⟩
  failed := fun open_ => absurd rfl open_

/-- An opening leaves the counters alone. -/
theorem CountersBounded.opened (bounded : breaker.CountersBounded)
    (failed : breaker.lastFailureTime ≠ none)
    : (breaker.transition now .opened).CountersBounded where
  failures_nonneg := Nat.zero_le _
  failures_lt := by simp
  attempts_bounds := bounded.attempts_bounds
  successes_bounds := bounded.successes_bounds
  failed := fun _ => failed

/-- A new episode resets the counters of the last one, and may count its first attempt. -/
theorem CountersBounded.halfOpened (bounded : breaker.CountersBounded)
    (state : breaker.state = .opened) (now : Nat)
    : (breaker.transition now .halfOpen).CountersBounded where
  failures_nonneg := Nat.zero_le _
  failures_lt := by simp
  attempts_bounds := ⟨Nat.zero_le _, Nat.zero_le _⟩
  successes_bounds := ⟨Nat.zero_le _, breaker.halfOpenMax_pos⟩
  failed := fun _ => bounded.failed (by simp [state])

/-- A reset starts the counters again. -/
theorem countersBounded_closed (breaker : CircuitBreaker) (now : Nat)
    : (breaker.transition now .closed).CountersBounded where
  failures_nonneg := Nat.zero_le _
  failures_lt := fun _ => breaker.failureThreshold_pos
  attempts_bounds := ⟨Nat.zero_le _, Nat.zero_le _⟩
  successes_bounds := ⟨Nat.zero_le _, breaker.halfOpenMax_pos⟩
  failed := fun open_ => absurd rfl open_

/-- The getter keeps the bounds, whatever the clock says. -/
theorem CountersBounded.currentState (bounded : breaker.CountersBounded)
    : (breaker.currentState now).CountersBounded := by
  rcases breaker.currentState_cases now with ⟨due, same⟩ | ⟨_, same⟩
  · rw [same]
    exact bounded.halfOpened (state_of_probeDue due) now
  · rwa [same]

/-- An admission check keeps the bounds: it counts an attempt only while some quota is left. -/
theorem CountersBounded.admitted {admission : Admission} (bounded : breaker.CountersBounded)
    (admitted : breaker.GateCase now (after, admission))
    : after.CountersBounded := by
  cases admitted with
  | refused | regular => exact bounded
  | firstProbe due =>
      exact {
        bounded.halfOpened (state_of_probeDue due) now with
        attempts_bounds := ⟨Nat.zero_le _, breaker.halfOpenMax_pos⟩
      }
  | probe state left => exact { bounded with attempts_bounds := ⟨Nat.zero_le _, left⟩ }
  | excess exhausted => exact bounded.opened (bounded.failed (by simp [exhausted.1]))

/-- A completion keeps the bounds, whatever the state that it meets. -/
theorem CountersBounded.settled {succeeded : Bool} (bounded : breaker.CountersBounded)
    (settled : breaker.SettleCase now succeeded after)
    : after.CountersBounded := by
  cases settled with
  | credited state short =>
      exact {
        bounded with
        failures_lt := fun closed => bounded.failures_lt closed
        successes_bounds := ⟨Nat.zero_le _, short⟩
      }
  | closing => exact countersBounded_closed ..
  | repaid =>
      exact {
        bounded with
        failures_nonneg := Nat.zero_le _
        failures_lt := fun closed => (Nat.sub_le ..).trans_lt (bounded.failures_lt closed)
      }
  | opening reason =>
      exact {
        failures_nonneg := Nat.zero_le _
        failures_lt := by simp
        attempts_bounds := bounded.attempts_bounds
        successes_bounds := bounded.successes_bounds
        failed := by simp
      }
  | counted state below =>
      exact {
        bounded with
        failures_nonneg := Nat.zero_le _
        failures_lt := fun _ => below
        failed := by simp
      }

end CircuitBreaker

namespace System

/-- A step at a clock reading, which may be any: the clock need not go forward. -/
def stepAt (system : System) (event : Nat × Label) : Option System :=
  { system with now := event.1 }.step event.2

/-- Each step keeps the bounds, by the outcomes of the admission check or the completion. -/
theorem countersBounded_stepAt {system next : System} {event : Nat × Label}
    (bounded : system.breaker.CountersBounded) (taken : system.stepAt event = some next)
    : next.breaker.CountersBounded := by
  obtain ⟨reading, label⟩ := event
  have bounded : { system with now := reading }.breaker.CountersBounded := bounded
  cases step_cases taken with
  | tick | observe => exact bounded
  | reopen due => exact bounded.halfOpened (CircuitBreaker.state_of_probeDue due) reading
  | rejected breaker message admission => exact bounded.admitted admission
  | started breaker admission => exact bounded.admitted admission
  | complete index succeeded call rest breaker picked settled => exact bounded.settled settled

/-- In every state that overlapping calls, reads of the state and monitor ticks lead to, the
counters are within their bounds, and a breaker that is not closed has a failure time.
-/
theorem countersBounded (options : CircuitBreakerOptions) (start : Nat) {system : System}
    (run : Reaches stepAt (initial options start) system)
    : system.breaker.CountersBounded := by
  induction run with
  | refl => exact CircuitBreaker.countersBounded_create options start
  | next _ _ taken ih => exact countersBounded_stepAt ih taken

/-- Two failures open a breaker, a probe succeeds and another fails, on a clock that was set
back in between.
-/
theorem countersBounded_of_probes
    : ∃ system : System,
        system.breaker.CountersBounded
        ∧ system.breaker.state = .opened
        ∧ system.breaker.successCount = 1
        ∧ system.breaker.halfOpenAttempts = 2 := by
  have passes : (execute stepAt anyStep
      (initial { failureThreshold := some 2, resetTimeout := some 10, halfOpenMax := some 2 } 100)
      [(100, .execute), (100, .execute), (103, .complete 0 false), (102, .complete 0 false),
        (112, .observe), (112, .execute), (50, .execute), (51, .complete 0 true),
        (52, .complete 0 false)]).any
        (fun system => decide (
          system.breaker.state = .opened
          ∧ system.breaker.successCount = 1
          ∧ system.breaker.halfOpenAttempts = 2)) = true := by
    decide +kernel
  obtain ⟨system, run, reached⟩ := exists_run_of_any passes
  exact ⟨system, countersBounded _ _ run, of_decide_eq_true reached⟩

end System

end WebIndexer.Circuit
