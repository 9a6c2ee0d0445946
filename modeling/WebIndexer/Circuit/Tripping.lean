import Mathlib
import WebIndexer.Circuit.Calls
import WebIndexer.Library.History
import WebIndexer.Library.ReflectedWalk

/-! When a closed breaker trips. Its failure count goes up with a failure and down with a
success, but not below zero, so it is a reflected walk over the completions: what it has
reached is the best balance of any block of completions that ends at the present.
-/

namespace WebIndexer.Circuit

open WebIndexer.Library

/-- The end of a call's `fn`: when it settled, and how. -/
structure Completion where
  time : Nat
  succeeded : Bool
  deriving DecidableEq, Repr

/-- What a completion adds to the failures less the successes. -/
def Completion.balance (completion : Completion) : Int :=
  if completion.succeeded then -1 else 1

/-- The failures of a block of completions, less its successes. -/
def excess (block : List Completion) : Int :=
  (block.countP fun completion => !completion.succeeded) - block.countP Completion.succeeded

/-- Some contiguous block that ends with the last completion has `threshold` more failures than
successes.
-/
def Trips (threshold : Nat) (completions : List Completion) : Prop :=
  ∃ block, block <:+ completions ∧ (threshold : Int) ≤ excess block

/-- The completion at the index is the first one at which such a block ends. -/
def FirstTripAt (threshold : Nat) (completions : List Completion) (index : Nat) : Prop :=
  index < completions.length
  ∧ Trips threshold (completions.take (index + 1))
  ∧ ∀ earlier < index, ¬ Trips threshold (completions.take (earlier + 1))

namespace CircuitBreaker

/-- The breakers that have just been set to `CLOSED`: a new one, and one that was reset. -/
inductive JustClosed : CircuitBreaker → Prop
  | created (options : CircuitBreakerOptions) (now : Nat) : JustClosed (create options now)
  | reset (breaker : CircuitBreaker) (now : Nat) : JustClosed (breaker.transition now .closed)

/-- The breaker after completions, in their order. -/
def settleAll (breaker : CircuitBreaker) (completions : List Completion) : CircuitBreaker :=
  completions.foldl (fun current completion =>
    current.settle completion.time completion.succeeded) breaker

/-- The breaker is closed until the completion at the index, and no longer after it. -/
def LeavesClosedAt (breaker : CircuitBreaker) (completions : List Completion) (index : Nat)
    : Prop :=
  index < completions.length
  ∧ (∀ count ≤ index, (breaker.settleAll (completions.take count)).state = .closed)
  ∧ (breaker.settleAll (completions.take (index + 1))).state ≠ .closed

end CircuitBreaker

-----------------------------------------------------------------------------------------
-- The failure count is a reflected walk
-----------------------------------------------------------------------------------------

/-- The excess of a block is the sum of its balances, by induction over the block. -/
theorem excess_eq_sum (block : List Completion)
    : excess block = (block.map Completion.balance).sum := by
  induction block with
  | nil => rfl
  | cons completion rest ih =>
      rw [List.map_cons, List.sum_cons, ← ih]
      cases outcome : completion.succeeded <;>
        simp [excess, Completion.balance, outcome] <;> omega

/-- A block trips the breaker exactly when the walk over the completions has reached the
threshold.
-/
theorem trips_iff_le_walk {threshold : Nat} {completions : List Completion}
    : Trips threshold completions
      ↔ (threshold : Int) ≤ walk (completions.map Completion.balance) := by
  rw [le_walk_iff]
  constructor
  · rintro ⟨block, last, bound⟩
    exact ⟨_, last.map _, by rwa [← excess_eq_sum]⟩
  · rintro ⟨sums, last, bound⟩
    obtain ⟨block, ends, rfl⟩ := List.suffix_map_iff.mp last
    exact ⟨block, ends, by rwa [excess_eq_sum]⟩

namespace CircuitBreaker

variable {breaker : CircuitBreaker} {completions : List Completion}

/-- The last of the completions. -/
theorem settleAll_append_one (breaker : CircuitBreaker) (completions : List Completion)
    (completion : Completion)
    : breaker.settleAll (completions ++ [completion])
      = (breaker.settleAll completions).settle completion.time completion.succeeded := by
  simp [settleAll, List.foldl_append]

/-- A breaker that has just been closed counts no failures. -/
theorem JustClosed.spec (closed : breaker.JustClosed)
    : breaker.state = .closed ∧ breaker.failureCount = 0 := by
  cases closed with
  | created | reset => exact ⟨rfl, rfl⟩

/-- A completion that meets a closed breaker moves the failure count by one reflected step, and
keeps the breaker closed exactly when the count stays below the threshold.
-/
theorem settle_of_closed (state : breaker.state = .closed) (completion : Completion)
    : let after := breaker.settle completion.time completion.succeeded
      after.toLimits = breaker.toLimits
      ∧ (after.failureCount : Int) = reflect (breaker.failureCount : Int) completion.balance
      ∧ (breaker.failureCount < breaker.failureThreshold
          → (after.state = .closed ↔ after.failureCount < breaker.failureThreshold)) := by
  have notHalfOpen : breaker.state ≠ .halfOpen := by simp [state]
  have outcome := breaker.settle_spec completion.time completion.succeeded
  have balance : completion.balance = if completion.succeeded then -1 else 1 := rfl
  revert outcome balance
  generalize breaker.settle completion.time completion.succeeded = after
  intro outcome balance
  cases succeeded : completion.succeeded with
  | true =>
      rw [succeeded] at outcome balance
      cases outcome with
      | credited halfOpen | closing halfOpen => exact absurd halfOpen notHalfOpen
      | repaid =>
          refine ⟨rfl, ?_, ?_⟩
          · simp only [reflect, balance, if_true]
            omega
          · intro below
            simp only [state, true_iff]
            omega
  | false =>
      rw [succeeded] at outcome balance
      have counts : ((breaker.failureCount + 1 : Nat) : Int)
          = reflect (breaker.failureCount : Int) completion.balance := by
        simp only [reflect, balance, Bool.false_eq_true, if_false]
        omega
      cases outcome with
      | counted other below => exact ⟨rfl, counts, fun _ => by simp [state, below]⟩
      | opening reason =>
          have trips := reason.resolve_left notHalfOpen
          refine ⟨by simp, by simpa [transition] using counts, fun _ => ?_⟩
          simp [transition, trips]

/-- The breaker is closed after each number of completions up to the given one. -/
def StaysClosed (breaker : CircuitBreaker) (completions : List Completion) (count : Nat) : Prop :=
  ∀ early ≤ count, (breaker.settleAll (completions.take early)).state = .closed

/-- While the breaker stays closed, its failure count is the height of the walk, which is below
the threshold, by induction on the number of completions.
-/
theorem StaysClosed.counts {count : Nat} (stays : breaker.StaysClosed completions count)
    (closed : breaker.JustClosed) (within : count ≤ completions.length)
    : let current := breaker.settleAll (completions.take count)
      current.toLimits = breaker.toLimits
      ∧ (current.failureCount : Int) = walk ((completions.take count).map Completion.balance)
      ∧ current.failureCount < breaker.failureThreshold := by
  induction count with
  | zero =>
      have positive := breaker.failureThreshold_pos
      simpa [settleAll, walk, closed.spec.2] using positive
  | succ count ih =>
      have before := stays count (Nat.le_succ _)
      have after := stays (count + 1) le_rfl
      obtain ⟨limits, height, below⟩ :=
        ih (fun early earlier => stays early (by omega)) (by omega)
      rw [List.take_succ_eq_append_getElem within] at after ⊢
      rw [settleAll_append_one] at after ⊢
      obtain ⟨kept, moved, closes⟩ := settle_of_closed before completions[count]
      rw [limits] at closes
      refine ⟨kept.trans limits, ?_, (closes below).mp after⟩
      rw [moved, height, List.map_append, List.map_singleton, walk_append_one]

/-- A breaker that has stayed closed leaves `CLOSED` with the next completion exactly when a
block trips it there.
-/
theorem StaysClosed.next_iff {count : Nat} (stays : breaker.StaysClosed completions count)
    (closed : breaker.JustClosed) (within : count < completions.length)
    : (breaker.settleAll (completions.take (count + 1))).state = .closed
      ↔ ¬ Trips breaker.failureThreshold (completions.take (count + 1)) := by
  obtain ⟨limits, height, below⟩ := stays.counts closed within.le
  rw [trips_iff_le_walk, not_le, List.take_succ_eq_append_getElem within,
    settleAll_append_one]
  obtain ⟨_, moved, closes⟩ := settle_of_closed (stays count le_rfl) completions[count]
  rw [limits] at closes
  rw [closes below, List.map_append, List.map_singleton, walk_append_one, ← height, ← moved]
  exact Int.ofNat_lt.symm

/-- The breaker stays closed exactly as long as no block trips it, by induction on the number of
completions.
-/
theorem staysClosed_iff (closed : breaker.JustClosed) {count : Nat}
    (within : count ≤ completions.length)
    : breaker.StaysClosed completions count
      ↔ ∀ earlier < count, ¬ Trips breaker.failureThreshold (completions.take (earlier + 1)) := by
  induction count with
  | zero => simp [StaysClosed, settleAll, closed.spec.1]
  | succ count ih =>
      have shorter := ih (Nat.le_of_succ_le within)
      constructor
      · intro stays earlier before
        have early : breaker.StaysClosed completions earlier :=
          fun count bound => stays count (by omega)
        exact (early.next_iff closed (by omega)).mp (stays (earlier + 1) (by omega))
      · intro clear early bound
        have stays := shorter.mpr fun earlier before => clear earlier (by omega)
        rcases Nat.le_succ_iff.mp bound with before | rfl
        · exact stays early before
        · exact (stays.next_iff closed within).mpr (clear count (Nat.lt_succ_self _))

/-- A breaker that has just been closed leaves `CLOSED` at the first completion at which some
block of completions ends that has `failureThreshold` more failures than successes, and never
if there is none.
-/
theorem leavesClosedAt_iff (closed : breaker.JustClosed) (completions : List Completion)
    : (∀ index,
        breaker.LeavesClosedAt completions index
        ↔ FirstTripAt breaker.failureThreshold completions index)
      ∧ ((∀ index < completions.length,
            ¬ Trips breaker.failureThreshold (completions.take (index + 1)))
          → ∀ count, (breaker.settleAll (completions.take count)).state = .closed) := by
  have leaves (index : Nat)
      : breaker.LeavesClosedAt completions index
        ↔ FirstTripAt breaker.failureThreshold completions index := by
    refine and_congr_right fun within => ?_
    constructor
    · rintro ⟨stays, left⟩
      refine ⟨?_, (staysClosed_iff closed within.le).mp stays⟩
      exact not_not.mp (mt (StaysClosed.next_iff stays closed within).mpr left)
    · rintro ⟨trips, clear⟩
      have stays := (staysClosed_iff closed within.le).mpr clear
      exact ⟨stays, mt (stays.next_iff closed within).mp (not_not.mpr trips)⟩
  refine ⟨leaves, fun never => ?_⟩
  have stays : breaker.StaysClosed completions completions.length :=
    (staysClosed_iff closed le_rfl).mpr never
  intro count
  rcases le_total count completions.length with bound | beyond
  · exact stays count bound
  · rw [List.take_of_length_le beyond, ← List.take_length (l := completions)]
    exact stays _ le_rfl

/-- Under a threshold of two, one success between two failures does not save the breaker from
the third failure.
-/
theorem leavesClosedAt_of_three
    : (create { failureThreshold := some 2 } 0).LeavesClosedAt
        [⟨1, false⟩, ⟨2, true⟩, ⟨3, false⟩, ⟨4, false⟩] 3 := by
  have closed := JustClosed.created { failureThreshold := some 2 } 0
  refine ((leavesClosedAt_iff closed _).1 3).mpr ⟨by decide, ⟨_, List.suffix_refl _, ?_⟩, ?_⟩
  · decide
  · simp only [trips_iff_le_walk]
    decide

end CircuitBreaker

-----------------------------------------------------------------------------------------
-- Completions among overlapping calls
-----------------------------------------------------------------------------------------

namespace System

/-- The completions of a run, in their order. -/
def noteCompletion (system : System) (label : Label) (completions : List Completion)
    : List Completion :=
  match label with
  | .complete _ succeeded => completions ++ [⟨system.now, succeeded⟩]
  | _ => completions

/-- The steps that meet a closed breaker. -/
def WhileClosed (state : System × List Completion) (_ : Label) : Prop :=
  state.1.breaker.state = .closed

/-- The breaker is the one that the completions alone have made of an earlier one. -/
def SettledBy (breaker : CircuitBreaker) (state : System × List Completion) : Prop :=
  state.1.breaker = breaker.settleAll state.2

/-- A step that meets a closed breaker acts on it by a completion, or not at all. -/
theorem SettledBy.step {breaker : CircuitBreaker} {state next : System × List Completion}
    {label : Label} (settled : SettledBy breaker state) (met : WhileClosed state label)
    (observed : observing step noteCompletion state label = some next)
    : SettledBy breaker next := by
  obtain ⟨current, completions⟩ := state
  obtain ⟨after, noted⟩ := next
  obtain ⟨taken, rfl⟩ := observing_cases observed
  have closed : current.breaker.state = .closed := met
  have idle : current.breaker.probeDue current.now = false := by
    simp [CircuitBreaker.probeDue, closed]
  cases label with
  | tick elapsed =>
      obtain rfl := Option.some.inj taken
      exact settled
  | observe =>
      obtain rfl := Option.some.inj taken
      have same : current.breaker.currentState current.now = current.breaker := by
        simp [CircuitBreaker.currentState, idle]
      exact same.trans settled
  | execute =>
      have admitted : after.breaker = current.breaker := by
        rw [(step_execute_breaker taken).1]
        simp [CircuitBreaker.gate, CircuitBreaker.currentState, idle, closed]
      exact admitted.trans settled
  | complete index succeeded =>
      obtain ⟨picked, _, rfl⟩ := Option.map_eq_some_iff.mp taken
      have settled : current.breaker = breaker.settleAll completions := settled
      simp only [SettledBy, noteCompletion, CircuitBreaker.settleAll_append_one]
      rw [settled]

/-- As long as a breaker is closed, nothing but the completions acts on it: calls that arrive,
reads of its state and the time leave it alone.
-/
theorem settledBy_of_run {system : System} {state : System × List Completion}
    (run : Run (observing step noteCompletion) WhileClosed (system, []) state)
    : SettledBy system.breaker state := by
  have start : SettledBy system.breaker (system, []) := rfl
  exact run.invariant start SettledBy.step

end System

end WebIndexer.Circuit
