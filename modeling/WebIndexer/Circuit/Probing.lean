import WebIndexer.Circuit.Calls

/-! How many probes run at once. The quota counts the admissions of one half-open episode, so
it bounds the load only as long as no probe of an earlier episode is still running.
-/

namespace WebIndexer.Circuit

open WebIndexer.Library

namespace System

/-- While the breaker is not closed, at most `halfOpenMax` probes are in flight. -/
def BoundsProbes (system : System) : Prop :=
  system.breaker.state ≠ .closed → system.probesInFlight ≤ system.breaker.halfOpenMax

instance (system : System) : Decidable system.BoundsProbes :=
  inferInstanceAs (Decidable (_ → _))

/-- The step does not begin a half-open episode while an earlier probe is in flight. An
episode begins when a call or a read of the state finds a probe due.
-/
def ProbesSettled (system : System) (label : Label) : Prop :=
  (label = .execute ∨ label = .observe)
  → system.breaker.probeDue system.now = true
  → system.probesInFlight = 0

instance : DecidableRel ProbesSettled := fun _ _ => inferInstanceAs (Decidable (_ → _))

/-- The probes in flight never exceed the quota, and in a half-open episode they are among
the attempts that the breaker has counted.
-/
structure ProbesCounted (system : System) : Prop where
  bounded : system.probesInFlight ≤ system.breaker.halfOpenMax
  counted
    : system.breaker.state = .halfOpen
      → system.probesInFlight ≤ system.breaker.halfOpenAttempts
        ∧ system.breaker.halfOpenAttempts ≤ system.breaker.halfOpenMax

/-- A new breaker has no call in flight. -/
theorem probesCounted_initial (options : CircuitBreakerOptions) (now : Nat)
    : (initial options now).ProbesCounted where
  bounded := Nat.zero_le _
  counted := by simp [initial, CircuitBreaker.create]

/-- Settling a call never adds a probe. -/
theorem probesInFlight_picked {system : System} {index : Nat} {call : Call}
    {rest : List Call} (picked : pick system.inFlight index = some (call, rest))
    : rest.countP Call.isProbe ≤ system.probesInFlight := by
  rw [probesInFlight, countP_of_pick Call.isProbe picked]
  exact Nat.le_add_right ..

/-- A change outside half-open that adds no probe keeps the count below the quota. -/
theorem ProbesCounted.leave {system next : System} (counted : system.ProbesCounted)
    (state : next.breaker.state ≠ .halfOpen)
    (limits : next.breaker.toLimits = system.breaker.toLimits)
    (fewer : next.probesInFlight ≤ system.probesInFlight)
    : next.ProbesCounted where
  bounded := by
    rw [limits]
    exact fewer.trans counted.bounded
  counted := fun halfOpen => absurd halfOpen state

/-- A change that leaves the state, the quota and the attempts alone and adds no probe keeps
the count.
-/
theorem ProbesCounted.stay {system next : System} (counted : system.ProbesCounted)
    (state : next.breaker.state = system.breaker.state)
    (limits : next.breaker.toLimits = system.breaker.toLimits)
    (attempts : next.breaker.halfOpenAttempts = system.breaker.halfOpenAttempts)
    (fewer : next.probesInFlight ≤ system.probesInFlight)
    : next.ProbesCounted where
  bounded := by
    rw [limits]
    exact fewer.trans counted.bounded
  counted := by
    intro halfOpen
    rw [limits, attempts]
    have old := counted.counted (state.symm.trans halfOpen)
    exact ⟨fewer.trans old.1, old.2⟩

/-- Each step that begins no episode over running probes keeps the count. -/
theorem ProbesCounted.step {system next : System} {label : Label}
    (counted : system.ProbesCounted) (settled : system.ProbesSettled label)
    (taken : system.step label = some next)
    : next.ProbesCounted := by
  cases step_cases taken with
  | tick | observe => exact { counted with }
  | reopen due =>
      have none : system.probesInFlight = 0 := settled (.inr rfl) due
      exact {
        bounded := by simpa [probesInFlight] using counted.bounded
        counted := by simpa [probesInFlight] using none
      }
  | rejected breaker message admission =>
      cases admission with
      | refused => exact counted
      | excess => exact counted.leave (by simp) (by simp) le_rfl
  | started breaker admission =>
      cases admission with
      | regular state =>
          exact counted.leave (by simp [state]) rfl (by simp [probesInFlight_start, state])
      | firstProbe due =>
          have none : system.probesInFlight = 0 := settled (.inl rfl) due
          have quota := system.breaker.halfOpenMax_pos
          constructor <;> simp [probesInFlight_start, none] <;> omega
      | probe state left =>
          have old := counted.counted state
          constructor <;> simp [probesInFlight_start, state] <;> omega
  | complete index succeeded call rest breaker picked outcome =>
      have fewer := probesInFlight_picked picked
      cases outcome with
      | closing => exact counted.leave (by simp) (by simp) fewer
      | opening => exact counted.leave (by simp) (by simp) fewer
      | credited | repaid | counted => exact counted.stay rfl rfl rfl fewer

/-- Bounded probing: it holds throughout every run in which a half-open episode begins only
when the probes of earlier episodes have settled.
-/
theorem boundedProbing (options : CircuitBreakerOptions) (start : Nat) {system : System}
    (run : Run step ProbesSettled (initial options start) system)
    : system.BoundsProbes := by
  have counted : system.ProbesCounted :=
    run.invariant (probesCounted_initial options start)
      fun counted settled taken => counted.step settled taken
  exact fun _ => counted.bounded

/-- A probe that settles before the next episode begins leaves room for the next one. -/
theorem boundedProbing_of_settled
    : ∃ system : System, system.BoundsProbes ∧ system.probesInFlight = 1 := by
  have passes : (execute step ProbesSettled (initial oneProbe 0)
      (outage ++ outage ++ [.execute])).any
        (fun system => decide (system.probesInFlight = 1)) = true := by
    decide +kernel
  obtain ⟨system, run, one⟩ := exists_run_of_any passes
  exact ⟨system, boundedProbing oneProbe 0 run, of_decide_eq_true one⟩

/-- The call rejected for lack of quota ends the episode, and the next call begins another
one: two probes run at once under a quota of one.
-/
theorem boundedProbing_fails_after_excess
    : ¬ ∀ (options : CircuitBreakerOptions) (start : Nat) (system : System),
        Reaches step (initial options start) system → system.BoundsProbes := by
  intro claim
  have passes : (execute step anyStep (initial oneProbe 0)
      (outage ++ [.execute, .execute, .execute])).any
        (fun system => decide (¬ system.BoundsProbes)) = true := by
    decide +kernel
  obtain ⟨system, run, exceeded⟩ := exists_run_of_any passes
  exact of_decide_eq_true exceeded (claim oneProbe 0 system run)

end System

end WebIndexer.Circuit
