import WebIndexer.Circuit.CircuitBreaker
import WebIndexer.Library.Pool
import WebIndexer.Library.Runs

/-! Overlapping `execute` calls on one breaker. Between two awaits a call runs alone, so the
atomic steps are the admission check of an arriving call and the handling of a settled `fn`.
-/

namespace WebIndexer.Circuit

open WebIndexer.Library

/-- A call whose `fn` has been started: the state its admission left the breaker in, and
the half-open episode that was the latest one then.
-/
structure Call where
  startedIn : State
  episode : Nat
  deriving DecidableEq, Repr

/-- The call was let through as a probe of a half-open breaker. -/
def Call.isProbe (call : Call) : Bool :=
  call.startedIn = .halfOpen

/-- The call was let through as a probe of the given episode. -/
def Call.isProbeOf (episode : Nat) (call : Call) : Bool :=
  call.startedIn = .halfOpen && call.episode = episode

/-- A breaker with its clock, the calls in flight, and the history of settled calls. -/
structure System where
  breaker : CircuitBreaker
  now : Nat
  inFlight : List Call
  finished : List (Call × Bool)

/-- What can happen next: time passes, something reads the state (`currentState`,
`getStatus` and the monitor's `_checkState` act alike), a call arrives, or the `fn` of a
call in flight settles.
-/
inductive Label where
  | tick (elapsed : Nat)
  | observe
  | execute
  | complete (index : Nat) (succeeded : Bool)
  deriving DecidableEq, Repr

namespace System

/-- A new breaker, with no calls yet. -/
def initial (options : CircuitBreakerOptions) (now : Nat) : System where
  breaker := .create options now
  now := now
  inFlight := []
  finished := []

/-- Start the `fn` of a call whose admission left the breaker as given. -/
def start (system : System) (breaker : CircuitBreaker) : System := {
  system with
  breaker := breaker
  inFlight := ⟨breaker.state, breaker.episode⟩ :: system.inFlight
}

@[simp] theorem start_breaker (system : System) (breaker : CircuitBreaker)
    : (system.start breaker).breaker = breaker :=
  rfl

/-- One atomic step. -/
def step (system : System) : Label → Option System
  | .tick elapsed => some { system with now := system.now + elapsed }
  | .observe => some { system with breaker := system.breaker.currentState system.now }
  | .execute =>
      match system.breaker.gate system.now with
      | (breaker, .rejected _) => some { system with breaker := breaker }
      | (breaker, .started) => some (system.start breaker)
  | .complete index succeeded =>
      (pick system.inFlight index).map fun picked => {
        system with
        breaker := system.breaker.settle system.now succeeded
        inFlight := picked.2
        finished := (picked.1, succeeded) :: system.finished
      }

/-- The number of probes, of any episode, that are still in flight. -/
def probesInFlight (system : System) : Nat :=
  system.inFlight.countP Call.isProbe

/-- The number of probes of an episode that have succeeded. -/
def successesOf (system : System) (episode : Nat) : Nat :=
  system.finished.countP fun settled => settled.1.isProbeOf episode && settled.2

/-- Starting a call adds a probe exactly when its admission left the breaker half-open. -/
theorem probesInFlight_start (system : System) (breaker : CircuitBreaker)
    : (system.start breaker).probesInFlight
      = system.probesInFlight + if breaker.state = .halfOpen then 1 else 0 := by
  simp [start, probesInFlight, Call.isProbe, List.countP_cons]

/-- A call that arrived now would have its `fn` started. -/
def WouldStart (system : System) : Prop :=
  (system.breaker.gate system.now).2 = .started

instance (system : System) : Decidable system.WouldStart :=
  inferInstanceAs (Decidable (_ = _))

/-- The step is not a call that meets a used-up probe quota. -/
def QuotaLeft (system : System) (label : Label) : Prop :=
  label = .execute → ¬ system.breaker.Exhausted

instance : DecidableRel QuotaLeft := fun _ _ => inferInstanceAs (Decidable (_ → _))

/-- Each label's effect on the breaker, the clock and the calls, with the outcome of the
admission or completion that it runs.
-/
inductive StepCase (system : System) : Label → System → Prop
  | tick (elapsed : Nat)
    : StepCase system (.tick elapsed) { system with now := system.now + elapsed }
  | reopen (due : system.breaker.probeDue system.now = true)
    : StepCase system .observe
        { system with breaker := system.breaker.transition system.now .halfOpen }
  | observe (idle : system.breaker.probeDue system.now = false)
    : StepCase system .observe system
  | rejected (breaker : CircuitBreaker) (message : String)
    (admission : system.breaker.GateCase system.now (breaker, .rejected message))
    : StepCase system .execute { system with breaker := breaker }
  | started (breaker : CircuitBreaker)
    (admission : system.breaker.GateCase system.now (breaker, .started))
    : StepCase system .execute (system.start breaker)
  | complete (index : Nat) (succeeded : Bool) (call : Call) (rest : List Call)
    (breaker : CircuitBreaker)
    (picked : pick system.inFlight index = some (call, rest))
    (settled : system.breaker.SettleCase system.now succeeded breaker)
    : StepCase system (.complete index succeeded) {
        system with
        breaker := breaker
        inFlight := rest
        finished := (call, succeeded) :: system.finished
      }

/-- Inversion of a step, by the specifications of the breaker's operations. -/
theorem step_cases {system next : System} {label : Label}
    (taken : system.step label = some next)
    : StepCase system label next := by
  cases label with
  | tick elapsed =>
      obtain rfl := Option.some.inj taken
      exact .tick elapsed
  | observe =>
      obtain rfl := Option.some.inj taken
      rcases system.breaker.currentState_cases system.now with ⟨due, same⟩ | ⟨idle, same⟩
      · rw [same]
        exact .reopen due
      · rw [same]
        exact .observe idle
  | execute =>
      have admission := system.breaker.gate_spec system.now
      unfold step at taken
      rcases admitted : system.breaker.gate system.now with ⟨breaker, outcome⟩
      rw [admitted] at admission taken
      cases outcome with
      | started =>
          obtain rfl := Option.some.inj taken
          exact .started breaker admission
      | rejected message =>
          obtain rfl := Option.some.inj taken
          exact .rejected breaker message admission
  | complete index succeeded =>
      obtain ⟨⟨call, rest⟩, picked, rfl⟩ := Option.map_eq_some_iff.mp taken
      exact .complete index succeeded call rest _ picked (CircuitBreaker.settle_spec ..)

/-- An arriving call leaves the breaker as its admission check does. -/
theorem step_execute_breaker {system next : System}
    (taken : system.step .execute = some next)
    : next.breaker = (system.breaker.gate system.now).1 ∧ next.now = system.now := by
  unfold step at taken
  rcases admitted : system.breaker.gate system.now with ⟨breaker, outcome⟩
  rw [admitted] at taken
  cases outcome <;> obtain rfl := Option.some.inj taken <;> exact ⟨rfl, rfl⟩

-----------------------------------------------------------------------------------------
-- A breaker small enough to follow
-----------------------------------------------------------------------------------------

/-- Options under which one failure opens the breaker, for a second, and one probe closes it.
-/
def oneProbe : CircuitBreakerOptions where
  failureThreshold := some 1
  resetTimeout := some 1000
  halfOpenMax := some 1

/-- A call that fails, and the second that follows. -/
def outage : List Label :=
  [.execute, .complete 0 false, .tick 1000]

end System

end WebIndexer.Circuit
