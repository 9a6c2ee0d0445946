import Mathlib.Data.Nat.Basic
import Mathlib.Order.Basic

/-! The circuit breaker of `src/circuit.ts`. Each operation takes the clock reading that its
`Date.now()` calls return; the operations run to completion between two awaits, so one
reading serves a whole operation.
-/

namespace WebIndexer.Circuit

/-- The three `STATES` of a breaker; `opened` is `OPEN`. -/
inductive State where
  | closed
  | opened
  | halfOpen
  deriving DecidableEq, Repr

/-- `CircuitBreakerOptions`, with `none` for a missing field. -/
structure CircuitBreakerOptions where
  name : Option String := none
  failureThreshold : Option Nat := none
  resetTimeout : Option Nat := none
  halfOpenMax : Option Nat := none

/-- JavaScript's `option || fallback` on numbers: zero and absence take the fallback. -/
def orElse (option : Option Nat) (fallback : Nat) : Nat :=
  match option with
  | some (n + 1) => n + 1
  | _ => fallback

/-- A defaulted option is positive when its fallback is, since zero is replaced. -/
theorem orElse_pos (option : Option Nat) {fallback : Nat} (pos : 0 < fallback)
    : 0 < orElse option fallback := by
  unfold orElse
  split
  · exact Nat.succ_pos _
  · exact pos

/-- The limits of a breaker. The constructor replaces zero by a positive default, so every
breaker has positive limits.
-/
structure Limits where
  failureThreshold : Nat
  resetTimeout : Nat
  halfOpenMax : Nat
  failureThreshold_pos : 0 < failureThreshold
  resetTimeout_pos : 0 < resetTimeout
  halfOpenMax_pos : 0 < halfOpenMax

/-- The line `_transition` logs: when the state changed, from what and to what. -/
structure StateChange where
  time : Nat
  source : State
  target : State
  deriving DecidableEq, Repr

/-- The fields of a `CircuitBreaker`. The log holds the lines that `_transition` has written,
newest first; no operation reads it.
-/
structure CircuitBreaker extends Limits where
  name : String
  state : State
  failureCount : Nat
  successCount : Nat
  halfOpenAttempts : Nat
  lastFailureTime : Option Nat
  lastStateChange : Nat
  log : List StateChange

namespace CircuitBreaker

/-- The constructor, called at time `now`. -/
def create (options : CircuitBreakerOptions) (now : Nat) : CircuitBreaker where
  failureThreshold := orElse options.failureThreshold 5
  resetTimeout := orElse options.resetTimeout 30000
  halfOpenMax := orElse options.halfOpenMax 3
  failureThreshold_pos := orElse_pos _ (by decide)
  resetTimeout_pos := orElse_pos _ (by decide)
  halfOpenMax_pos := orElse_pos _ (by decide)
  name := match options.name with
    | some "" | none => "default"
    | some name => name
  state := .closed
  failureCount := 0
  successCount := 0
  halfOpenAttempts := 0
  lastFailureTime := none
  lastStateChange := now
  log := []

/-- `_transition`. -/
def transition (breaker : CircuitBreaker) (now : Nat) (newState : State)
    : CircuitBreaker :=
  let changed := {
    breaker with
    state := newState
    lastStateChange := now
    log := ⟨now, breaker.state, newState⟩ :: breaker.log
  }
  match newState with
  | .closed => { changed with failureCount := 0, successCount := 0, halfOpenAttempts := 0 }
  | .halfOpen => { changed with halfOpenAttempts := 0, successCount := 0 }
  | .opened => changed

/-- The test of `currentState`: the breaker is open and its reset timeout has elapsed. A
missing failure time counts as zero, as `null` does in the subtraction.
-/
def probeDue (breaker : CircuitBreaker) (now : Nat) : Bool :=
  breaker.state = .opened
  && breaker.resetTimeout ≤ now - breaker.lastFailureTime.getD 0

/-- The breaker after its `currentState` getter ran; the getter returns the new `state`. -/
def currentState (breaker : CircuitBreaker) (now : Nat) : CircuitBreaker :=
  if breaker.probeDue now then breaker.transition now .halfOpen else breaker

/-- How `execute` treats a call: it runs `fn`, or it rejects with an error. -/
inductive Admission where
  | started
  | rejected (message : String)
  deriving DecidableEq, Repr

/-- The breaker is half-open and its probe quota is used up. -/
def Exhausted (breaker : CircuitBreaker) : Prop :=
  breaker.state = .halfOpen ∧ breaker.halfOpenMax ≤ breaker.halfOpenAttempts

instance (breaker : CircuitBreaker) : Decidable breaker.Exhausted :=
  inferInstanceAs (Decidable (_ ∧ _))

/-- The part of `execute` that runs before `fn`. -/
def gate (breaker : CircuitBreaker) (now : Nat) : CircuitBreaker × Admission :=
  let current := breaker.currentState now
  if current.state = .opened then
    (current, .rejected ("Circuit breaker '" ++ current.name ++ "' is OPEN"))
  else if current.state = .halfOpen then
    if current.halfOpenMax ≤ current.halfOpenAttempts then
      (current.transition now .opened,
        .rejected ("Circuit breaker '" ++ current.name ++ "' rejected during HALF_OPEN"))
    else
      ({ current with halfOpenAttempts := current.halfOpenAttempts + 1 }, .started)
  else
    (current, .started)

/-- `_onSuccess`. -/
def onSuccess (breaker : CircuitBreaker) (now : Nat) : CircuitBreaker :=
  if breaker.state = .halfOpen then
    let counted := { breaker with successCount := breaker.successCount + 1 }
    if counted.halfOpenMax ≤ counted.successCount then
      counted.transition now .closed
    else
      counted
  else
    { breaker with failureCount := breaker.failureCount - 1 }

/-- `_onFailure`. -/
def onFailure (breaker : CircuitBreaker) (now : Nat) : CircuitBreaker :=
  let counted := {
    breaker with
    failureCount := breaker.failureCount + 1
    lastFailureTime := some now
  }
  if counted.state = .halfOpen then
    counted.transition now .opened
  else if counted.failureThreshold ≤ counted.failureCount then
    counted.transition now .opened
  else
    counted

/-- The part of `execute` that runs when the promise of `fn` settles. -/
def settle (breaker : CircuitBreaker) (now : Nat) (succeeded : Bool) : CircuitBreaker :=
  if succeeded then breaker.onSuccess now else breaker.onFailure now

/-- `_checkState`, the monitor timer's callback. -/
def checkState (breaker : CircuitBreaker) (now : Nat) : CircuitBreaker :=
  if breaker.state = .opened then breaker.currentState now else breaker

/-- `CircuitBreakerStatus`. -/
structure Status where
  name : String
  state : State
  failureCount : Nat
  lastFailure : Option Nat
  uptime : Nat
  deriving DecidableEq, Repr

/-- `getStatus`: the breaker after the `state` read, with the status it returns. -/
def getStatus (breaker : CircuitBreaker) (now : Nat) : CircuitBreaker × Status :=
  let current := breaker.currentState now
  (current, {
    name := current.name
    state := current.state
    failureCount := current.failureCount
    lastFailure := current.lastFailureTime
    uptime := now - current.lastStateChange
  })

/-- The number of half-open episodes that have begun. -/
def episode (breaker : CircuitBreaker) : Nat :=
  breaker.log.countP fun change => change.target = .halfOpen

-----------------------------------------------------------------------------------------
-- What each operation does to the fields
-----------------------------------------------------------------------------------------

section Transition

variable (breaker : CircuitBreaker) (now : Nat) (target : State)

@[simp] theorem transition_toLimits
    : (breaker.transition now target).toLimits = breaker.toLimits := by
  cases target <;> rfl

@[simp] theorem transition_state : (breaker.transition now target).state = target := by
  cases target <;> rfl

@[simp] theorem transition_log
    : (breaker.transition now target).log = ⟨now, breaker.state, target⟩ :: breaker.log := by
  cases target <;> rfl

@[simp] theorem transition_lastFailureTime
    : (breaker.transition now target).lastFailureTime = breaker.lastFailureTime := by
  cases target <;> rfl

@[simp] theorem transition_halfOpen_halfOpenAttempts
    : (breaker.transition now .halfOpen).halfOpenAttempts = 0 :=
  rfl

@[simp] theorem transition_halfOpen_successCount
    : (breaker.transition now .halfOpen).successCount = 0 :=
  rfl

/-- Only a transition to half-open begins a new episode. -/
theorem episode_transition
    : (breaker.transition now target).episode
      = breaker.episode + if target = .halfOpen then 1 else 0 := by
  simp [episode, List.countP_cons]

end Transition

/-- A breaker whose probe is due is open. -/
theorem state_of_probeDue {breaker : CircuitBreaker} {now : Nat}
    (due : breaker.probeDue now = true)
    : breaker.state = .opened := by
  simp only [probeDue, Bool.and_eq_true, decide_eq_true_eq] at due
  exact due.1

/-- `_checkState` is the `currentState` getter: both act on open breakers only. -/
theorem checkState_eq_currentState (breaker : CircuitBreaker) (now : Nat)
    : breaker.checkState now = breaker.currentState now := by
  unfold checkState
  split
  · rfl
  · rename_i notOpen
    have idle : breaker.probeDue now = false := by simp [probeDue, notOpen]
    simp [currentState, idle]

/-- The outcomes of the admission check, by the state that the call meets. -/
inductive GateCase (breaker : CircuitBreaker) (now : Nat)
    : CircuitBreaker × Admission → Prop
  | refused (state : breaker.state = .opened) (early : breaker.probeDue now = false)
    (message : String)
    : GateCase breaker now (breaker, .rejected message)
  | firstProbe (due : breaker.probeDue now = true)
    : GateCase breaker now
        ({ breaker.transition now .halfOpen with halfOpenAttempts := 1 }, .started)
  | probe (state : breaker.state = .halfOpen)
    (left : breaker.halfOpenAttempts < breaker.halfOpenMax)
    : GateCase breaker now
        ({ breaker with halfOpenAttempts := breaker.halfOpenAttempts + 1 }, .started)
  | excess (exhausted : breaker.Exhausted) (message : String)
    : GateCase breaker now (breaker.transition now .opened, .rejected message)
  | regular (state : breaker.state = .closed) : GateCase breaker now (breaker, .started)

/-- Every admission check has one of the listed outcomes. Witness: a getter that just moved
the breaker to half-open left a full quota, so the excess branch meets an old episode.
-/
theorem gate_spec (breaker : CircuitBreaker) (now : Nat)
    : GateCase breaker now (breaker.gate now) := by
  by_cases due : breaker.probeDue now = true
  · have room : ¬ breaker.halfOpenMax ≤ 0 := Nat.not_le.mpr breaker.halfOpenMax_pos
    simpa [gate, currentState, due, room] using GateCase.firstProbe due
  · have early : breaker.probeDue now = false := by simpa using due
    cases state : breaker.state with
    | opened => simpa [gate, currentState, early, state] using GateCase.refused state early _
    | closed => simpa [gate, currentState, early, state] using GateCase.regular state
    | halfOpen =>
        by_cases used : breaker.halfOpenMax ≤ breaker.halfOpenAttempts
        · simpa [gate, currentState, early, state, used]
            using GateCase.excess ⟨state, used⟩ _
        · simpa [gate, currentState, early, state, used]
            using GateCase.probe state (Nat.not_le.mp used)

/-- A call that finds a probe due is started, since the new episode has its full quota. -/
theorem gate_of_probeDue {breaker : CircuitBreaker} {now : Nat}
    (due : breaker.probeDue now = true)
    : (breaker.gate now).2 = .started := by
  have room : ¬ breaker.halfOpenMax ≤ 0 := Nat.not_le.mpr breaker.halfOpenMax_pos
  simp [gate, currentState, due, room]

/-- A call that meets a used-up quota opens the breaker. -/
theorem gate_of_exhausted {breaker : CircuitBreaker} {now : Nat}
    (exhausted : breaker.Exhausted)
    : (breaker.gate now).1 = breaker.transition now .opened := by
  have idle : breaker.probeDue now = false := by simp [probeDue, exhausted.1]
  simp [gate, currentState, idle, exhausted.1, exhausted.2]

/-- The outcomes of a completion, by the state that it meets. -/
inductive SettleCase (breaker : CircuitBreaker) (now : Nat)
    : Bool → CircuitBreaker → Prop
  | credited (state : breaker.state = .halfOpen)
    (short : breaker.successCount + 1 < breaker.halfOpenMax)
    : SettleCase breaker now true
        { breaker with successCount := breaker.successCount + 1 }
  | closing (state : breaker.state = .halfOpen)
    (enough : breaker.halfOpenMax ≤ breaker.successCount + 1)
    : SettleCase breaker now true
        ({ breaker with successCount := breaker.successCount + 1 }.transition now .closed)
  | repaid (state : breaker.state ≠ .halfOpen)
    : SettleCase breaker now true
        { breaker with failureCount := breaker.failureCount - 1 }
  | opening
    (reason
      : breaker.state = .halfOpen
        ∨ breaker.failureThreshold ≤ breaker.failureCount + 1)
    : SettleCase breaker now false
        ({
          breaker with
          failureCount := breaker.failureCount + 1
          lastFailureTime := some now
        }.transition now .opened)
  | counted (state : breaker.state ≠ .halfOpen)
    (below : breaker.failureCount + 1 < breaker.failureThreshold)
    : SettleCase breaker now false {
        breaker with
        failureCount := breaker.failureCount + 1
        lastFailureTime := some now
      }

/-- Every completion has one of the listed outcomes, by the branches of the handlers. -/
theorem settle_spec (breaker : CircuitBreaker) (now : Nat) (succeeded : Bool)
    : SettleCase breaker now succeeded (breaker.settle now succeeded) := by
  cases succeeded with
  | true =>
      by_cases state : breaker.state = .halfOpen
      · by_cases enough : breaker.halfOpenMax ≤ breaker.successCount + 1
        · simpa [settle, onSuccess, state, enough] using SettleCase.closing state enough
        · simpa [settle, onSuccess, state, enough]
            using SettleCase.credited state (Nat.not_le.mp enough)
      · simpa [settle, onSuccess, state] using SettleCase.repaid state
  | false =>
      by_cases state : breaker.state = .halfOpen
      · simpa [settle, onFailure, state] using SettleCase.opening (.inl state)
      · by_cases trips : breaker.failureThreshold ≤ breaker.failureCount + 1
        · simpa [settle, onFailure, state, trips] using SettleCase.opening (.inr trips)
        · simpa [settle, onFailure, state, trips]
            using SettleCase.counted state (Nat.not_le.mp trips)

/-- The getter moves a due breaker to half-open and leaves any other alone. -/
theorem currentState_cases (breaker : CircuitBreaker) (now : Nat)
    : (breaker.probeDue now = true
        ∧ breaker.currentState now = breaker.transition now .halfOpen)
      ∨ (breaker.probeDue now = false ∧ breaker.currentState now = breaker) := by
  cases due : breaker.probeDue now <;> simp [currentState, due]

end CircuitBreaker

end WebIndexer.Circuit
