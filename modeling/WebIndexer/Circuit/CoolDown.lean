import WebIndexer.Circuit.Calls

/-! How long a breaker stays open. Both failure paths stamp `lastFailureTime` when they open
the breaker, so it rests for a full reset timeout; the branch of `execute` that rejects a
call for lack of quota opens it without a stamp, and the next call gets through at once.
-/

namespace WebIndexer.Circuit

open WebIndexer.Library

namespace System

/-- No call would be started before a reset timeout has passed since each transition to
`OPEN` that the breaker has logged.
-/
def CoolsDown (system : System) : Prop :=
  ∀ change ∈ system.breaker.log,
    change.target = .opened
    → system.WouldStart
    → change.time + system.breaker.resetTimeout ≤ system.now

/-- The times of the openings, compared with the last failure while the breaker is open, and
with the present otherwise. The last failure is never in the future, and a half-open breaker
has rested since.
-/
structure OpeningsTimed (system : System) : Prop where
  past : system.breaker.lastFailureTime.getD 0 ≤ system.now
  rested
    : system.breaker.state = .halfOpen
      → system.breaker.lastFailureTime.getD 0 + system.breaker.resetTimeout ≤ system.now
  resting
    : system.breaker.state = .opened
      → ∀ change ∈ system.breaker.log,
          change.target = .opened
          → change.time ≤ system.breaker.lastFailureTime.getD 0
  elapsed
    : system.breaker.state ≠ .opened
      → ∀ change ∈ system.breaker.log,
          change.target = .opened
          → change.time + system.breaker.resetTimeout ≤ system.now

/-- A new breaker has logged nothing. -/
theorem openingsTimed_initial (options : CircuitBreakerOptions) (now : Nat)
    : (initial options now).OpeningsTimed where
  past := Nat.zero_le _
  rested := by simp [initial, CircuitBreaker.create]
  resting := by simp [initial, CircuitBreaker.create]
  elapsed := by simp [initial, CircuitBreaker.create]

/-- Whatever the state, every logged opening is at most as late as the present. -/
theorem OpeningsTimed.time_le {system : System} (timed : system.OpeningsTimed)
    {change : StateChange} (logged : change ∈ system.breaker.log)
    (opens : change.target = .opened)
    : change.time ≤ system.now := by
  by_cases state : system.breaker.state = .opened
  · exact (timed.resting state change logged opens).trans timed.past
  · exact (Nat.le_add_right ..).trans (timed.elapsed state change logged opens)

/-- When a probe is due, the timeout has elapsed since the last failure. Witness: the timeout
is positive, so the truncated difference of the test cannot hide a future failure.
-/
theorem rested_of_probeDue {system : System}
    (due : system.breaker.probeDue system.now = true)
    : system.breaker.lastFailureTime.getD 0 + system.breaker.resetTimeout ≤ system.now := by
  have pos := system.breaker.resetTimeout_pos
  simp only [CircuitBreaker.probeDue, Bool.and_eq_true, decide_eq_true_eq] at due
  omega

/-- When a probe is due, the timeout has elapsed since each opening. -/
theorem OpeningsTimed.elapsed_of_probeDue {system : System} (timed : system.OpeningsTimed)
    (due : system.breaker.probeDue system.now = true)
    {change : StateChange} (logged : change ∈ system.breaker.log)
    (opens : change.target = .opened)
    : change.time + system.breaker.resetTimeout ≤ system.now := by
  have stamped := timed.resting (CircuitBreaker.state_of_probeDue due) change logged opens
  exact (Nat.add_le_add_right stamped _).trans (rested_of_probeDue due)

/-- Moving a due breaker to half-open keeps the times, whatever happens to the counters. -/
theorem OpeningsTimed.halfOpen {system next : System} (timed : system.OpeningsTimed)
    (due : system.breaker.probeDue system.now = true)
    (now : next.now = system.now)
    (state : next.breaker.state = .halfOpen)
    (timeout : next.breaker.resetTimeout = system.breaker.resetTimeout)
    (failure : next.breaker.lastFailureTime = system.breaker.lastFailureTime)
    (log
      : next.breaker.log
        = ⟨system.now, system.breaker.state, .halfOpen⟩ :: system.breaker.log)
    : next.OpeningsTimed where
  past := by simpa only [failure, now] using timed.past
  rested := fun _ => by simpa only [failure, now, timeout] using rested_of_probeDue due
  resting := by simp [state]
  elapsed := by
    intro _ change logged opens
    rw [log, List.mem_cons] at logged
    rcases logged with rfl | earlier
    · cases opens
    · rw [timeout, now]
      exact timed.elapsed_of_probeDue due earlier opens

/-- A failure stamps the present, so the openings precede the stamp, new one included. -/
theorem OpeningsTimed.failed {system next : System} (timed : system.OpeningsTimed)
    (now : next.now = system.now)
    (state : next.breaker.state = .opened)
    (failure : next.breaker.lastFailureTime = some system.now)
    (log
      : ∀ change ∈ next.breaker.log,
          change ∈ system.breaker.log ∨ change.time = system.now)
    : next.OpeningsTimed where
  past := by simp [failure, now]
  rested := by simp [state]
  resting := by
    intro _ change logged opens
    rw [failure, Option.getD_some]
    rcases log change logged with earlier | stamped
    · exact timed.time_le earlier opens
    · exact stamped.le
  elapsed := fun notOpen => absurd state notOpen

/-- Each step that leaves some quota keeps the times, by the outcomes of a step. -/
theorem OpeningsTimed.step {system next : System} {label : Label}
    (timed : system.OpeningsTimed) (left : system.QuotaLeft label)
    (taken : system.step label = some next)
    : next.OpeningsTimed := by
  cases step_cases taken with
  | tick elapsed =>
      exact {
        past := timed.past.trans (Nat.le_add_right ..)
        rested := fun state => (timed.rested state).trans (Nat.le_add_right ..)
        resting := timed.resting
        elapsed := fun state change logged opens =>
          (timed.elapsed state change logged opens).trans (Nat.le_add_right ..)
      }
  | observe => exact timed
  | reopen due => exact timed.halfOpen due rfl (by simp) (by simp) (by simp) (by simp)
  | rejected breaker message admission =>
      cases admission with
      | refused => exact timed
      | excess exhausted => exact absurd exhausted (left rfl)
  | started breaker admission =>
      cases admission with
      | firstProbe due => exact timed.halfOpen due rfl (by simp) (by simp) (by simp) (by simp)
      | probe | regular => exact { timed with }
  | complete index succeeded call rest breaker picked settled =>
      cases settled with
      | credited | repaid => exact { timed with }
      | closing state enough =>
          have notOpen : system.breaker.state ≠ .opened := by simp [state]
          refine { past := ?_, rested := ?_, resting := ?_, elapsed := ?_ }
          · simpa using timed.past
          · simp
          · simp
          · intro _ change logged opens
            simp only [CircuitBreaker.transition_log, List.mem_cons] at logged
            rcases logged with rfl | earlier
            · cases opens
            · simpa using timed.elapsed notOpen change earlier opens
      | opening reason =>
          refine timed.failed rfl (by simp) (by simp) ?_
          intro change logged
          simp only [CircuitBreaker.transition_log, List.mem_cons] at logged
          rcases logged with rfl | earlier
          · exact .inr rfl
          · exact .inl earlier
      | counted state below =>
          by_cases opened : system.breaker.state = .opened
          · exact timed.failed rfl opened rfl fun change earlier => .inl earlier
          · exact {
              past := le_rfl
              rested := fun halfOpen => absurd halfOpen state
              resting := fun resting => absurd resting opened
              elapsed := timed.elapsed
            }

/-- Timed openings cool down: a call starts only when a probe is due or the breaker has left
`OPEN`.
-/
theorem OpeningsTimed.coolsDown {system : System} (timed : system.OpeningsTimed)
    : system.CoolsDown := by
  intro change logged opens starts
  have admission := system.breaker.gate_spec system.now
  unfold WouldStart at starts
  rcases admitted : system.breaker.gate system.now with ⟨breaker, outcome⟩
  rw [admitted] at admission starts
  obtain rfl : outcome = .started := starts
  cases admission with
  | firstProbe due => exact timed.elapsed_of_probeDue due logged opens
  | probe state => exact timed.elapsed (by simp [state]) change logged opens
  | regular state => exact timed.elapsed (by simp [state]) change logged opens

/-- Rejecting a call for lack of quota opens a breaker whose reset timeout has already
elapsed, so the next call is started without any rest.
-/
theorem OpeningsTimed.not_coolsDown_of_exhausted {system next : System}
    (timed : system.OpeningsTimed) (exhausted : system.breaker.Exhausted)
    (taken : system.step .execute = some next)
    : ¬ next.CoolsDown := by
  intro cools
  have pos := system.breaker.resetTimeout_pos
  have rested := timed.rested exhausted.1
  obtain ⟨reopened, same⟩ := step_execute_breaker taken
  rw [CircuitBreaker.gate_of_exhausted exhausted] at reopened
  have due : next.breaker.probeDue next.now = true := by
    simp only [reopened, same, CircuitBreaker.probeDue, CircuitBreaker.transition_state,
      CircuitBreaker.transition_toLimits, CircuitBreaker.transition_lastFailureTime,
      Bool.and_eq_true, decide_eq_true_eq, true_and]
    omega
  have bound := cools ⟨system.now, system.breaker.state, .opened⟩ (by simp [reopened]) rfl
    (CircuitBreaker.gate_of_probeDue due)
  simp only [reopened, same, CircuitBreaker.transition_toLimits] at bound
  omega

/-- The cool-down after opening: it holds throughout every run in which no call meets a
used-up quota, and a call that does meet one breaks it at once.
-/
theorem openCoolDown (options : CircuitBreakerOptions) (start : Nat)
    : (∀ system, Run step QuotaLeft (initial options start) system → system.CoolsDown)
      ∧ ∀ system next,
          Run step QuotaLeft (initial options start) system
          → ¬ system.QuotaLeft .execute
          → system.step .execute = some next
          → ¬ next.CoolsDown := by
  have timed {system} (run : Run step QuotaLeft (initial options start) system)
      : system.OpeningsTimed :=
    run.invariant (openingsTimed_initial options start)
      fun timed left taken => timed.step left taken
  refine ⟨fun system run => (timed run).coolsDown, ?_⟩
  intro system next run noQuota taken
  have exhausted : system.breaker.Exhausted := by
    simpa [QuotaLeft] using noQuota
  exact (timed run).not_coolsDown_of_exhausted exhausted taken

/-- A breaker that opens, rests and lets a probe through has cooled down. -/
theorem openCoolDown_of_probe
    : ∃ system : System,
        system.CoolsDown ∧ ∃ change ∈ system.breaker.log, change.target = .opened := by
  have passes : (execute step QuotaLeft (initial oneProbe 0)
      (outage ++ [.execute])).any
        (fun system => decide (∃ change ∈ system.breaker.log, change.target = .opened))
        = true := by
    decide +kernel
  obtain ⟨system, run, opened⟩ := exists_run_of_any passes
  exact ⟨system, (openCoolDown oneProbe 0).1 system run, of_decide_eq_true opened⟩

/-- Every call rejected for lack of quota reopens the gate: the breaker opens at time 1000
and lets the next call through at that same time.
-/
theorem openCoolDown_fails_after_excess
    : ¬ ∀ (options : CircuitBreakerOptions) (start : Nat) (system : System),
        Reaches step (initial options start) system → system.CoolsDown := by
  intro claim
  have passes : (execute step anyStep (initial oneProbe 0)
      (outage ++ [.execute, .execute])).any
        (fun system => decide (
          (⟨1000, .halfOpen, .opened⟩ : StateChange) ∈ system.breaker.log
          ∧ system.breaker.resetTimeout = 1000
          ∧ system.now = 1000
          ∧ system.WouldStart)) = true := by
    decide +kernel
  obtain ⟨system, run, reached⟩ := exists_run_of_any passes
  obtain ⟨logged, timeout, now, starts⟩ := of_decide_eq_true reached
  have bound := claim oneProbe 0 system run _ logged rfl starts
  simp only [timeout, now] at bound
  omega

end System

end WebIndexer.Circuit
