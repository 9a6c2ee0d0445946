import Mathlib.Data.Nat.Cast.Order.Field
import Mathlib.Data.Rat.Floor
import Mathlib.Tactic.Linarith
import Mathlib.Tactic.NormNum
import WebIndexer.Circuit.CircuitBreaker

/-! The class `RetryStrategy` of `src/circuit.ts`. A number of retries that is zero counts as one
that is missing, and an error that is logged has to have a `message` to read.
-/

namespace WebIndexer.Circuit

/-- `RetryOptions`, with `none` for a missing field. -/
structure RetryOptions where
  maxRetries : Option Nat := none
  baseDelay : Option Nat := none
  maxDelay : Option Nat := none
  factor : Option Nat := none
  jitter : Option Bool := none

/-- What `fn` throws. Reading a property of `undefined` or `null` throws an error of its own. -/
inductive Thrown (ε : Type) where
  | undefined
  | null
  | error (error : ε)
  deriving DecidableEq, Repr

/-- How a call of `fn` ends. -/
inductive Outcome (α ε : Type) where
  | returns (value : α)
  | throws (error : Thrown ε)
  deriving DecidableEq, Repr

/-- How `execute` ends; a `TypeError` is one that it runs into itself. -/
inductive Ending (α ε : Type) where
  | returned (value : α)
  | thrown (error : Thrown ε)
  | typeError
  deriving DecidableEq, Repr

/-- The attempts that `fn` is called with, the delays between them, and the ending. -/
structure Execution (α ε : Type) where
  calls : List Nat
  delays : List Int
  ending : Ending α ε
  deriving DecidableEq, Repr

/-- A result of `Math.random`. -/
structure Random where
  value : ℚ
  nonneg : 0 ≤ value
  lt_one : value < 1

/-- `error.message` can be read. -/
def Thrown.isReadable {ε : Type} : Thrown ε → Bool
  | .undefined | .null => false
  | .error _ => true

/-- The fields of a `RetryStrategy`. -/
structure RetryStrategy where
  maxRetries : Nat
  baseDelay : Nat
  maxDelay : Nat
  factor : Nat
  jitter : Bool
  deriving DecidableEq, Repr

namespace RetryStrategy

/-- The constructor. -/
def create (options : RetryOptions) : RetryStrategy where
  maxRetries := orElse options.maxRetries 3
  baseDelay := orElse options.baseDelay 1000
  maxDelay := orElse options.maxDelay 30000
  factor := orElse options.factor 2
  jitter := options.jitter ≠ some false

/-- `_calculateDelay`, in exact arithmetic. -/
def calculateDelay (strategy : RetryStrategy) (random : Random) (attempt : Nat) : Int :=
  let delay : ℚ := min (strategy.baseDelay * strategy.factor ^ attempt : Nat) strategy.maxDelay
  if strategy.jitter then
    ⌊delay * (1 / 2 + random.value * (1 / 2))⌋
  else
    ⌊delay⌋

section

variable {α ε : Type} (strategy : RetryStrategy) (fn : Nat → Outcome α ε)
  (random : Nat → Random)

/-- The loop of `execute` from an attempt on, with the number of attempts that are left and the last
error.
-/
def executeFrom : Nat → Nat → Thrown ε → Execution α ε
  | 0, _, lastError => ⟨[], [], .thrown lastError⟩
  | left + 1, attempt, _ =>
      match fn attempt with
      | .returns value => ⟨[attempt], [], .returned value⟩
      | .throws err =>
          if attempt < strategy.maxRetries then
            if err.isReadable then
              let rest := executeFrom left (attempt + 1) err
              {
                rest with
                calls := attempt :: rest.calls
                delays := strategy.calculateDelay (random attempt) attempt :: rest.delays
              }
            else
              ⟨[attempt], [], .typeError⟩
          else
            let rest := executeFrom left (attempt + 1) err
            { rest with calls := attempt :: rest.calls }

/-- `execute`. -/
def execute : Execution α ε :=
  executeFrom strategy fn random (strategy.maxRetries + 1) 0 .undefined

end

end RetryStrategy

/-- Options that are all given, as whole numbers. -/
structure ExplicitOptions where
  maxRetries : Nat
  baseDelay : Nat
  maxDelay : Nat
  factor : Nat
  jitter : Option Bool
  baseDelay_pos : 1 ≤ baseDelay
  factor_pos : 1 ≤ factor
  baseDelay_le : baseDelay ≤ maxDelay

namespace ExplicitOptions

/-- The options as the constructor takes them. -/
def given (options : ExplicitOptions) : RetryOptions where
  maxRetries := some options.maxRetries
  baseDelay := some options.baseDelay
  maxDelay := some options.maxDelay
  factor := some options.factor
  jitter := options.jitter

/-- The delay behind an attempt before jitter. -/
def cap (options : ExplicitOptions) (attempt : Nat) : Nat :=
  min (options.baseDelay * options.factor ^ attempt) options.maxDelay

end ExplicitOptions

/-- A call that returns. -/
def Outcome.succeeds {α ε : Type} : Outcome α ε → Bool
  | .returns _ => true
  | .throws _ => false

/-- A call that returns, or throws an error whose message can be read. -/
def Outcome.isReadable {α ε : Type} : Outcome α ε → Bool
  | .returns _ => true
  | .throws error => error.isReadable

section

variable {α ε : Type} (options : ExplicitOptions) (fn : Nat → Outcome α ε)
  (random : Nat → Random)

/-- The calls go on until the first success, and at most for as many retries as are given; there is
one delay before each of them but the first, and delays without jitter do not decrease.
-/
structure Retries (execution : Execution α ε) : Prop where
  success
    : ∀ k ≤ options.maxRetries, ∀ value,
        (∀ j < k, (fn j).succeeds = false) → fn k = .returns value →
          execution.calls = List.range (k + 1) ∧ execution.ending = .returned value
  failure
    : (∀ j ≤ options.maxRetries, (fn j).succeeds = false) →
        execution.calls = List.range (options.maxRetries + 1)
        ∧ ∃ error, fn options.maxRetries = .throws error ∧ execution.ending = .thrown error
  between : execution.delays.length + 1 = execution.calls.length
  bounds
    : ∀ i delay, execution.delays[i]? = some delay →
        ((options.cap i / 2 : Nat) : Int) ≤ delay ∧ delay ≤ options.cap i
  increasing : options.jitter = some false → execution.delays.Pairwise (· ≤ ·)

/-- The first call succeeds, or retries are asked for and no failure that is retried lacks a message
to log.
-/
def Retryable : Prop :=
  (fn 0).succeeds = true
  ∨ 0 < options.maxRetries
    ∧ ∀ i < options.maxRetries, (∀ j < i, (fn j).succeeds = false) → (fn i).isReadable = true

end

-----------------------------------------------------------------------------------------
-- The delays
-----------------------------------------------------------------------------------------

/-- The options that are one or more are taken as they are given; zero retries are not. -/
theorem create_given (options : ExplicitOptions)
    : RetryStrategy.create options.given = {
        maxRetries := orElse (some options.maxRetries) 3
        baseDelay := options.baseDelay
        maxDelay := options.maxDelay
        factor := options.factor
        jitter := options.jitter ≠ some false
      } := by
  have kept {number fallback : Nat} (positive : 1 ≤ number)
      : orElse (some number) fallback = number := by
    cases number with
    | zero => exact absurd positive (by decide)
    | succ number => rfl
  unfold RetryStrategy.create ExplicitOptions.given
  rw [kept options.baseDelay_pos, kept options.factor_pos,
    kept (Nat.le_trans options.baseDelay_pos options.baseDelay_le)]

/-- One retry or more is taken as it is given. -/
theorem maxRetries_create {options : ExplicitOptions} (some_retries : 0 < options.maxRetries)
    : (RetryStrategy.create options.given).maxRetries = options.maxRetries := by
  rw [create_given]
  exact Nat.succ_pred_eq_of_pos some_retries ▸ rfl

/-- Without jitter the delay is its cap. -/
theorem calculateDelay_of_plain (options : ExplicitOptions) (random : Random) (attempt : Nat)
    (plain : options.jitter = some false)
    : (RetryStrategy.create options.given).calculateDelay random attempt
      = options.cap attempt := by
  rw [create_given]
  simp only [RetryStrategy.calculateDelay, plain, ne_eq, not_true_eq_false, decide_false,
    Bool.false_eq_true, if_false, ← Nat.cast_min]
  exact Int.floor_natCast _

/-- Jitter takes up to a half of the delay away. -/
theorem calculateDelay_bounds (options : ExplicitOptions) (random : Random) (attempt : Nat)
    : ((options.cap attempt / 2 : Nat) : Int)
        ≤ (RetryStrategy.create options.given).calculateDelay random attempt
      ∧ (RetryStrategy.create options.given).calculateDelay random attempt
        ≤ options.cap attempt := by
  by_cases plain : options.jitter = some false
  · rw [calculateDelay_of_plain options random attempt plain]
    omega
  · rw [create_given]
    simp only [RetryStrategy.calculateDelay, plain, ne_eq, not_false_eq_true, decide_true,
      if_true, ← Nat.cast_min]
    change ((options.cap attempt / 2 : Nat) : Int)
        ≤ ⌊(options.cap attempt : ℚ) * (1 / 2 + random.value * (1 / 2))⌋
      ∧ ⌊(options.cap attempt : ℚ) * (1 / 2 + random.value * (1 / 2))⌋ ≤ options.cap attempt
    have delay : (0 : ℚ) ≤ options.cap attempt := Nat.cast_nonneg _
    have low := random.nonneg
    have high := random.lt_one
    constructor
    · have half : ((options.cap attempt / 2 : Nat) : ℚ) ≤ options.cap attempt / 2 := Nat.cast_div_le
      rw [Int.le_floor, Int.cast_natCast]
      nlinarith
    · have scaled : (options.cap attempt : ℚ) * (1 / 2 + random.value * (1 / 2))
          ≤ options.cap attempt := by nlinarith
      exact_mod_cast (Int.floor_le_floor scaled).trans_eq (Int.floor_natCast _)

/-- A later cap is no less. -/
theorem cap_mono (options : ExplicitOptions) {attempt later : Nat} (before : attempt ≤ later)
    : options.cap attempt ≤ options.cap later :=
  min_le_min_right _
    (Nat.mul_le_mul_left _ (Nat.pow_le_pow_right options.factor_pos before))

-----------------------------------------------------------------------------------------
-- The loop
-----------------------------------------------------------------------------------------

section

variable {α ε : Type} {strategy : RetryStrategy} {fn : Nat → Outcome α ε}
  {random : Nat → Random}

/-- How the loop ends with a call that it does not retry. -/
def endingAt (strategy : RetryStrategy) (last : Nat) : Outcome α ε → Ending α ε
  | .returns value => .returned value
  | .throws error => if last < strategy.maxRetries then .typeError else .thrown error

/-- What the loop does from an attempt on, up to its last call. -/
structure EndsWith (strategy : RetryStrategy) (fn : Nat → Outcome α ε) (random : Nat → Random)
    (first last : Nat) (execution : Execution α ε)
    : Prop where
  first_le : first ≤ last
  last_le : last ≤ strategy.maxRetries
  retried : ∀ j, first ≤ j → j < last → (fn j).succeeds = false ∧ (fn j).isReadable = true
  stops : last < strategy.maxRetries → (fn last).succeeds = true ∨ (fn last).isReadable = false
  calls : execution.calls = List.range' first (last + 1 - first)
  delays
    : execution.delays
      = (List.range' first (last - first)).map fun j => strategy.calculateDelay (random j) j
  ending : execution.ending = endingAt strategy last (fn last)

/-- The last call of the loop from the next attempt on is that from this one. -/
theorem EndsWith.cons {first last : Nat} {rest : Execution α ε}
    (ends : EndsWith strategy fn random (first + 1) last rest)
    (fails : (fn first).succeeds = false) (readable : (fn first).isReadable = true)
    : EndsWith strategy fn random first last {
        rest with
        calls := first :: rest.calls
        delays := strategy.calculateDelay (random first) first :: rest.delays
      } where
  first_le := Nat.le_of_succ_le ends.first_le
  last_le := ends.last_le
  retried := by
    intro j after before
    rcases Nat.eq_or_lt_of_le after with same | after
    · rw [← same]
      exact ⟨fails, readable⟩
    · exact ends.retried j after before
  stops := ends.stops
  calls := by
    have after := ends.first_le
    have count : last + 1 - first = (last + 1 - (first + 1)) + 1 := by omega
    rw [ends.calls, count, List.range'_succ]
  delays := by
    have after := ends.first_le
    have count : last - first = (last - (first + 1)) + 1 := by omega
    rw [ends.delays, count, List.range'_succ, List.map_cons]
  ending := ends.ending

/-- A call that is not retried is the last one. -/
theorem EndsWith.single {first : Nat} {execution : Execution α ε}
    (within : first ≤ strategy.maxRetries)
    (stops
      : first < strategy.maxRetries →
          (fn first).succeeds = true ∨ (fn first).isReadable = false)
    (calls : execution.calls = [first]) (delays : execution.delays = [])
    (ending : execution.ending = endingAt strategy first (fn first))
    : EndsWith strategy fn random first first execution where
  first_le := Nat.le_refl first
  last_le := within
  retried := fun _ after before => absurd before (Nat.not_lt.mpr after)
  stops := stops
  calls := by rw [calls, Nat.add_sub_cancel_left, List.range'_one]
  delays := by rw [delays, Nat.sub_self, List.range'_zero, List.map_nil]
  ending := ending

/-- The loop ends with some call: with the first that succeeds or cannot be logged, or with the last
attempt. By induction on the attempts that are left.
-/
theorem endsWith_executeFrom {left first : Nat} (lastError : Thrown ε)
    (all : first + left = strategy.maxRetries)
    : ∃ last,
        EndsWith strategy fn random first last
          (strategy.executeFrom fn random (left + 1) first lastError) := by
  have within : first ≤ strategy.maxRetries := by omega
  induction left generalizing first lastError with
  | zero =>
      have last_attempt : ¬ first < strategy.maxRetries := by omega
      unfold RetryStrategy.executeFrom
      cases outcome : fn first with
      | returns value =>
          exact ⟨first, .single within (fun early => absurd early last_attempt) rfl rfl
            (by rw [outcome]; rfl)⟩
      | throws error =>
          simp only [last_attempt, if_false]
          exact ⟨first, .single within (fun early => absurd early last_attempt) rfl rfl
            (by rw [outcome, endingAt, if_neg last_attempt]; rfl)⟩
  | succ left ih =>
      have before : first < strategy.maxRetries := by omega
      unfold RetryStrategy.executeFrom
      cases outcome : fn first with
      | returns value =>
          exact ⟨first, .single within (fun _ => .inl (by rw [outcome]; rfl)) rfl rfl
            (by rw [outcome]; rfl)⟩
      | throws error =>
          cases readable : error.isReadable with
          | false =>
              simp only [before, if_true, readable, Bool.false_eq_true, if_false]
              exact ⟨first, .single within (fun _ => .inr (by rw [outcome]; exact readable)) rfl rfl
                (by rw [outcome, endingAt, if_pos before])⟩
          | true =>
              simp only [before, if_true, readable]
              obtain ⟨last, ends⟩ := @ih (first + 1) error (by omega) before
              exact ⟨last, ends.cons (by rw [outcome]; rfl) (by rw [outcome]; exact readable)⟩

end

-----------------------------------------------------------------------------------------
-- The retries that are asked for
-----------------------------------------------------------------------------------------

section

variable {α ε : Type} {options : ExplicitOptions} {fn : Nat → Outcome α ε}
  {random : Nat → Random} {last : Nat} {execution : Execution α ε}

/-- The delays keep their bounds however the loop ends. -/
theorem delay_of_endsWith
    (ends : EndsWith (.create options.given) fn random 0 last execution) {i : Nat} {delay : Int}
    (found : execution.delays[i]? = some delay)
    : delay = (RetryStrategy.create options.given).calculateDelay (random i) i := by
  rw [ends.delays, List.getElem?_map, Option.map_eq_some_iff] at found
  obtain ⟨j, place, rfl⟩ := found
  obtain ⟨_, same⟩ := List.getElem?_eq_some_iff.mp place
  rw [List.getElem_range', Nat.zero_add, Nat.one_mul] at same
  rw [same]

/-- Without jitter the delays increase with their caps. -/
theorem increasing_of_endsWith
    (ends : EndsWith (.create options.given) fn random 0 last execution)
    (plain : options.jitter = some false)
    : execution.delays.Pairwise (· ≤ ·) := by
  rw [ends.delays, List.pairwise_map]
  refine (List.pairwise_lt_range' 1 (by decide)).imp fun {i j} before => ?_
  rw [calculateDelay_of_plain options _ _ plain, calculateDelay_of_plain options _ _ plain]
  exact_mod_cast cap_mono options (Nat.le_of_lt before)

/-- The loop does what is asked for as soon as its calls and its ending are right. -/
theorem retries_of_endsWith
    (ends : EndsWith (.create options.given) fn random 0 last execution)
    (success
      : ∀ k ≤ options.maxRetries, ∀ value,
          (∀ j < k, (fn j).succeeds = false) → fn k = .returns value →
            last = k ∧ execution.ending = .returned value)
    (failure
      : (∀ j ≤ options.maxRetries, (fn j).succeeds = false) →
          last = options.maxRetries
          ∧ ∃ error, fn options.maxRetries = .throws error ∧ execution.ending = .thrown error)
    : Retries options fn execution where
  success := by
    intro k within value fails returns
    obtain ⟨same, ending⟩ := success k within value fails returns
    refine ⟨?_, ending⟩
    rw [ends.calls, same, List.range_eq_range', Nat.sub_zero]
  failure := by
    intro fails
    obtain ⟨same, ending⟩ := failure fails
    refine ⟨?_, ending⟩
    rw [ends.calls, same, List.range_eq_range', Nat.sub_zero]
  between := by
    rw [ends.calls, ends.delays, List.length_map, List.length_range', List.length_range']
    omega
  bounds := by
    intro i delay found
    rw [delay_of_endsWith ends found]
    exact calculateDelay_bounds options _ _
  increasing := increasing_of_endsWith ends

/-- A call that succeeds returns a value. -/
theorem Outcome.exists_of_succeeds {outcome : Outcome α ε} (succeeds : outcome.succeeds = true)
    : ∃ value, outcome = .returns value := by
  cases outcome with
  | returns value => exact ⟨value, rfl⟩
  | throws error => cases succeeds

/-- A call that fails throws an error. -/
theorem Outcome.exists_of_fails {outcome : Outcome α ε} (fails : outcome.succeeds = false)
    : ∃ error, outcome = .throws error := by
  cases outcome with
  | returns value => cases fails
  | throws error => exact ⟨error, rfl⟩

/-- With the retries that are given and messages to log, the loop ends with the first success or the
last attempt.
-/
theorem retries_of_readable (some_retries : 0 < options.maxRetries)
    (readable
      : ∀ i < options.maxRetries,
          (∀ j < i, (fn j).succeeds = false) → (fn i).isReadable = true)
    (ends : EndsWith (.create options.given) fn random 0 last execution)
    : Retries options fn execution := by
  have given := maxRetries_create some_retries
  have before : ∀ j < last, (fn j).succeeds = false :=
    fun j before => (ends.retried j (Nat.zero_le j) before).1
  have within : last ≤ options.maxRetries := given ▸ ends.last_le
  -- a call before the last attempt ends the loop by its success only
  have stops : last < options.maxRetries → (fn last).succeeds = true := by
    intro early
    rcases ends.stops (given ▸ early) with succeeds | unreadable
    · exact succeeds
    · rw [readable last early before] at unreadable
      cases unreadable
  refine retries_of_endsWith ends (fun k bound value fails returns => ?_) fun fails => ?_
  · have same : last = k := by
      rcases Nat.lt_trichotomy last k with early | same | late
      · have succeeds := stops (Nat.lt_of_lt_of_le early bound)
        rw [fails last early] at succeeds
        cases succeeds
      · exact same
      · have fails := before k late
        rw [returns] at fails
        cases fails
    exact ⟨same, by rw [ends.ending, same, returns]; rfl⟩
  · have same : last = options.maxRetries := by
      refine Nat.le_antisymm within (Nat.le_of_not_lt fun early => ?_)
      have succeeds := stops early
      rw [fails last within] at succeeds
      cases succeeds
    obtain ⟨error, throws⟩ := Outcome.exists_of_fails (fails _ (Nat.le_refl _))
    refine ⟨same, error, throws, ?_⟩
    rw [ends.ending, same, throws, endingAt, given, if_neg (Nat.lt_irrefl _)]

/-- The loop ends with an error of its own if it comes to a failure that cannot be logged. -/
theorem ending_of_unreadable {i : Nat}
    (ends : EndsWith (.create options.given) fn random 0 last execution)
    (early : i < (RetryStrategy.create options.given).maxRetries)
    (fails : ∀ j ≤ i, (fn j).succeeds = false) (unreadable : (fn i).isReadable = false)
    : execution.ending = .typeError := by
  have reached : last ≤ i := by
    refine Nat.le_of_not_lt fun late => ?_
    have readable := (ends.retried i (Nat.zero_le i) late).2
    rw [unreadable] at readable
    cases readable
  obtain ⟨error, throws⟩ := Outcome.exists_of_fails (fails last reached)
  rw [ends.ending, throws, endingAt, if_pos (Nat.lt_of_le_of_lt reached early)]

/-- The outcome that is asked for is never an error of the loop's own. -/
theorem Retries.ending_ne (retries : Retries options fn execution)
    : execution.ending ≠ .typeError := by
  classical
  intro own
  by_cases succeeds : ∃ k ≤ options.maxRetries, (fn k).succeeds = true
  · -- the first success
    obtain ⟨within, first⟩ := Nat.find_spec succeeds
    obtain ⟨value, returns⟩ := Outcome.exists_of_succeeds first
    have fails : ∀ j < Nat.find succeeds, (fn j).succeeds = false := by
      intro j before
      refine Bool.eq_false_of_not_eq_true fun again => Nat.find_min succeeds before ?_
      exact ⟨Nat.le_trans (Nat.le_of_lt before) within, again⟩
    have ending := (retries.success _ within value fails returns).2
    rw [own] at ending
    cases ending
  · have fails : ∀ j ≤ options.maxRetries, (fn j).succeeds = false := by
      intro j within
      exact Bool.eq_false_of_not_eq_true fun again => succeeds ⟨j, within, again⟩
    obtain ⟨-, error, -, ending⟩ := retries.failure fails
    rw [own] at ending
    cases ending

/-- A first call that succeeds is all that is asked for. -/
theorem retries_of_start (start : (fn 0).succeeds = true)
    (ends : EndsWith (.create options.given) fn random 0 last execution)
    : Retries options fn execution := by
  have once : last = 0 := by
    refine Nat.eq_zero_of_not_pos fun later => ?_
    have fails := (ends.retried 0 (Nat.le_refl 0) later).1
    rw [start] at fails
    cases fails
  refine retries_of_endsWith ends (fun k _ value fails returns => ?_) fun fails => ?_
  · have first : k = 0 := by
      refine Nat.eq_zero_of_not_pos fun later => ?_
      rw [fails 0 later] at start
      cases start
    rw [ends.ending, once, ← first, returns]
    exact ⟨rfl, rfl⟩
  · rw [fails 0 (Nat.zero_le _)] at start
    cases start

/-- Where no retries are asked for, the loop has three, so that a first call that fails is repeated.
-/
theorem Retries.pos (retries : Retries options fn execution) (start : (fn 0).succeeds = false)
    (ends : EndsWith (.create options.given) fn random 0 last execution)
    : 0 < options.maxRetries := by
  refine Nat.pos_of_ne_zero fun none_given => ?_
  obtain ⟨calls, error, -, ending⟩ := retries.failure fun j within => by
    rw [none_given, Nat.le_zero] at within
    rw [within, start]
  have three : (RetryStrategy.create options.given).maxRetries = 3 := by
    rw [create_given, none_given]
    rfl
  have once : last = 0 := by
    have count := congrArg List.length (ends.calls.symm.trans calls)
    rw [List.length_range', List.length_range] at count
    omega
  obtain ⟨thrown, throws⟩ := Outcome.exists_of_fails start
  rw [ends.ending, once, throws, endingAt, three] at ending
  cases ending

/-- A failure that is retried as asked for has a message to log. -/
theorem Retries.isReadable (retries : Retries options fn execution)
    (ends : EndsWith (.create options.given) fn random 0 last execution) {i : Nat}
    (early : i < options.maxRetries) (fails : ∀ j < i, (fn j).succeeds = false)
    : (fn i).isReadable = true := by
  refine Bool.eq_true_of_not_eq_false fun unreadable => ?_
  have own : (fn i).succeeds = false := by
    cases outcome : fn i with
    | returns value =>
        rw [outcome] at unreadable
        cases unreadable
    | throws error => rfl
  have given : i < (RetryStrategy.create options.given).maxRetries := by
    rw [maxRetries_create (Nat.zero_lt_of_lt early)]
    exact early
  refine retries.ending_ne (ending_of_unreadable ends given (fun j within => ?_) unreadable)
  rcases Nat.lt_or_eq_of_le within with before | same
  · exact fails j before
  · rw [same, own]

end

/-- No retries and a tenth of a second. -/
def noRetries : ExplicitOptions :=
  ⟨0, 100, 1000, 2, some false, by decide, by decide, by decide⟩

/-- The least result of `Math.random`. -/
def noRandom : Random := ⟨0, by norm_num, by norm_num⟩

end WebIndexer.Circuit
