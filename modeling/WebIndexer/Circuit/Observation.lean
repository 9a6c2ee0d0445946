import WebIndexer.Circuit.Calls

/-! What a read of the state changes. The getter moves a breaker whose reset timeout has elapsed
to half-open, where the next call would have moved it anyway; in between, only a success of an
earlier call can tell the difference.
-/

namespace WebIndexer.Circuit

open WebIndexer.Library

-----------------------------------------------------------------------------------------
-- Breakers that calls cannot tell apart
-----------------------------------------------------------------------------------------

namespace CircuitBreaker

/-- The two breakers agree on what every state reads: the limits, the name that a rejection
quotes, the failures and the time of the last one.
-/
structure Agrees (seen plain : CircuitBreaker) : Prop where
  limits : seen.toLimits = plain.toLimits
  name : seen.name = plain.name
  failures : seen.failureCount = plain.failureCount
  failed : seen.lastFailureTime = plain.lastFailureTime

/-- A breaker whose state has been read, beside one that has met the same calls unread: they
are in the same state, or a read has begun the episode that the next call will begin.
-/
inductive Alike (now : Nat) (seen plain : CircuitBreaker) : Prop
  | same (agrees : seen.Agrees plain) (state : seen.state = plain.state)
    (episode
      : plain.state = .halfOpen
        → seen.halfOpenAttempts = plain.halfOpenAttempts
          ∧ seen.successCount = plain.successCount)
  | ahead (agrees : seen.Agrees plain) (state : seen.state = .halfOpen)
    (unused : seen.halfOpenAttempts = 0) (uncredited : seen.successCount = 0)
    (due : plain.probeDue now = true)

variable {seen plain : CircuitBreaker} {now later : Nat}

/-- Every breaker is like itself. -/
theorem Alike.refl (breaker : CircuitBreaker) (now : Nat) : Alike now breaker breaker :=
  .same ⟨rfl, rfl, rfl, rfl⟩ rfl fun _ => ⟨rfl, rfl⟩

/-- Outside an episode its counters make no difference. -/
theorem Agrees.alike (agrees : seen.Agrees plain) (state : seen.state = plain.state)
    (apart : plain.state ≠ .halfOpen)
    : Alike now seen plain :=
  .same agrees state fun halfOpen => absurd halfOpen apart

/-- Breakers that agree, in the same state, find their probes due together. -/
theorem Agrees.probeDue_eq (agrees : seen.Agrees plain) (state : seen.state = plain.state)
    : seen.probeDue now = plain.probeDue now := by
  simp [probeDue, state, agrees.failed, agrees.limits]

/-- A probe that is due stays due. -/
theorem probeDue_mono (due : plain.probeDue now = true) (forward : now ≤ later)
    : plain.probeDue later = true := by
  simp only [probeDue, Bool.and_eq_true, decide_eq_true_eq] at due ⊢
  exact ⟨due.1, due.2.trans (Nat.sub_le_sub_right forward _)⟩

/-- A breaker that is not open has no probe due. -/
theorem probeDue_of_halfOpen (state : plain.state = .halfOpen) : plain.probeDue now = false := by
  simp [probeDue, state]

/-- Time makes no difference. -/
theorem Alike.wait (alike : Alike now seen plain) (forward : now ≤ later)
    : Alike later seen plain := by
  cases alike with
  | same agrees state episode => exact .same agrees state episode
  | ahead agrees state unused uncredited due =>
      exact .ahead agrees state unused uncredited (probeDue_mono due forward)

/-- Another read makes no difference. -/
theorem Alike.read (alike : Alike now seen plain) : Alike now (seen.currentState now) plain := by
  rcases seen.currentState_cases now with ⟨due, after⟩ | ⟨_, after⟩
  · rw [after]
    cases alike with
    | same agrees state episode =>
        refine .ahead ⟨?_, agrees.name, agrees.failures, agrees.failed⟩ rfl rfl rfl ?_
        · exact (transition_toLimits ..).trans agrees.limits
        · rwa [← agrees.probeDue_eq state]
    | ahead agrees state =>
        rw [probeDue_of_halfOpen state] at due
        cases due
  · rwa [after]

/-- The first call that finds a probe due begins the episode and is its first attempt. -/
theorem gate_eq_firstProbe (due : plain.probeDue now = true)
    : plain.gate now
      = ({ plain.transition now .halfOpen with halfOpenAttempts := 1 }, .started) := by
  have room : ¬ plain.halfOpenMax ≤ 0 := Nat.not_le.mpr plain.halfOpenMax_pos
  simp [CircuitBreaker.gate, CircuitBreaker.currentState, due, room]

/-- The admission check reads the same state of both, treats the call alike, and leaves them
alike: a call begins the episode that a read has begun before.
-/
theorem Alike.gate (alike : Alike now seen plain)
    : (seen.currentState now).state = (plain.currentState now).state
      ∧ (seen.gate now).2 = (plain.gate now).2
      ∧ Alike now (seen.gate now).1 (plain.gate now).1 := by
  cases alike with
  | ahead agrees state unused uncredited due =>
      have early : seen.probeDue now = false := probeDue_of_halfOpen state
      have room : ¬ seen.halfOpenMax ≤ 0 := Nat.not_le.mpr seen.halfOpenMax_pos
      rw [gate_eq_firstProbe due]
      simp only [CircuitBreaker.gate, CircuitBreaker.currentState, early, due, state, unused, room,
        if_true, Bool.false_eq_true, if_false, reduceCtorEq, transition_state, true_and]
      refine .same ⟨?_, agrees.name, agrees.failures, agrees.failed⟩ rfl fun _ => ⟨rfl, ?_⟩
      · exact agrees.limits.trans (transition_toLimits ..).symm
      · exact uncredited
  | same agrees state episode =>
      cases due : plain.probeDue now with
      | true =>
          have seenDue : seen.probeDue now = true := (agrees.probeDue_eq state).trans due
          rw [gate_eq_firstProbe due, gate_eq_firstProbe seenDue]
          refine ⟨by simp [CircuitBreaker.currentState, due, seenDue], rfl, ?_⟩
          refine .same ⟨?_, agrees.name, agrees.failures, agrees.failed⟩ rfl fun _ => ⟨rfl, rfl⟩
          simpa using agrees.limits
      | false =>
          have seenEarly : seen.probeDue now = false := (agrees.probeDue_eq state).trans due
          have sameLimit : seen.halfOpenMax = plain.halfOpenMax := by rw [agrees.limits]
          cases phase : plain.state with
          | closed =>
              have seenPhase := state.trans phase
              simp only [CircuitBreaker.gate, CircuitBreaker.currentState, due, seenEarly, phase,
                seenPhase, Bool.false_eq_true, if_false, reduceCtorEq, true_and]
              exact .same agrees state episode
          | opened =>
              have seenPhase := state.trans phase
              simp only [CircuitBreaker.gate, CircuitBreaker.currentState, due, seenEarly, phase,
                seenPhase, Bool.false_eq_true, if_false, if_true, agrees.name, true_and]
              exact .same agrees state episode
          | halfOpen =>
              have seenPhase := state.trans phase
              obtain ⟨attempts, successes⟩ := episode phase
              simp only [CircuitBreaker.gate, CircuitBreaker.currentState, due, seenEarly, phase,
                seenPhase, Bool.false_eq_true, if_false, if_true, reduceCtorEq, agrees.name,
                attempts, sameLimit, true_and]
              split
              · refine ⟨rfl, Agrees.alike ⟨?_, agrees.name, agrees.failures, agrees.failed⟩ rfl ?_⟩
                · simpa using agrees.limits
                · simp
              · refine ⟨rfl, .same ⟨agrees.limits, rfl, agrees.failures, agrees.failed⟩ rfl ?_⟩
                exact fun _ => ⟨rfl, successes⟩

/-- A failure leaves them alike: an episode that a read has begun ends at once, and the breaker
rests as if it had not begun.
-/
theorem Alike.onFailure (alike : Alike now seen plain)
    : Alike now (seen.onFailure now) (plain.onFailure now) := by
  cases alike with
  | ahead agrees state unused uncredited due =>
      have opened := state_of_probeDue due
      have limits := agrees.limits
      simp only [CircuitBreaker.onFailure, state, opened, if_false, if_true, reduceCtorEq]
      split
      · refine Agrees.alike ⟨by simpa using limits, agrees.name, ?_, rfl⟩ rfl (by simp)
        exact congrArg (· + 1) agrees.failures
      · refine Agrees.alike ⟨by simpa using limits, agrees.name, ?_, rfl⟩ rfl (by simp)
        exact congrArg (· + 1) agrees.failures
  | same agrees state episode =>
      have limits := agrees.limits
      have sameThreshold : seen.failureThreshold = plain.failureThreshold := by rw [limits]
      by_cases half : plain.state = .halfOpen
      · have seenHalf := state.trans half
        simp only [CircuitBreaker.onFailure, half, seenHalf, if_true]
        refine Agrees.alike ⟨by simpa using limits, agrees.name, ?_, rfl⟩ rfl (by simp)
        exact congrArg (· + 1) agrees.failures
      · have seenNotHalf : seen.state ≠ .halfOpen := state ▸ half
        simp only [CircuitBreaker.onFailure, half, seenNotHalf, if_false, agrees.failures,
          sameThreshold]
        split
        · exact Agrees.alike ⟨by simpa using limits, agrees.name, rfl, rfl⟩ rfl (by simp)
        · exact Agrees.alike ⟨limits, agrees.name, rfl, rfl⟩ state half

/-- A success leaves them alike, unless it comes before the call that would begin the episode. -/
theorem Alike.onSuccess (alike : Alike now seen plain) (timely : plain.probeDue now = false)
    : Alike now (seen.onSuccess now) (plain.onSuccess now) := by
  cases alike with
  | ahead agrees state unused uncredited due => exact absurd (timely.symm.trans due) (by simp)
  | same agrees state episode =>
      have limits := agrees.limits
      have sameQuota : seen.halfOpenMax = plain.halfOpenMax := by rw [limits]
      by_cases half : plain.state = .halfOpen
      · have seenHalf := state.trans half
        obtain ⟨attempts, successes⟩ := episode half
        simp only [CircuitBreaker.onSuccess, half, seenHalf, if_true, successes, sameQuota]
        split
        · exact Agrees.alike ⟨by simpa using limits, agrees.name, rfl, agrees.failed⟩ rfl
            (by simp)
        · refine .same ⟨limits, agrees.name, agrees.failures, agrees.failed⟩ rfl ?_
          exact fun _ => ⟨attempts, rfl⟩
      · have seenNotHalf : seen.state ≠ .halfOpen := state ▸ half
        simp only [CircuitBreaker.onSuccess, half, seenNotHalf, if_false]
        refine Agrees.alike ⟨limits, agrees.name, ?_, agrees.failed⟩ state half
        exact congrArg (· - 1) agrees.failures

/-- A completion leaves them alike, unless it is a success that comes before the call that would
begin the episode.
-/
theorem Alike.settle {succeeded : Bool} (alike : Alike now seen plain)
    (timely : succeeded = true → plain.probeDue now = false)
    : Alike now (seen.settle now succeeded) (plain.settle now succeeded) := by
  cases succeeded with
  | true => exact alike.onSuccess (timely rfl)
  | false => exact alike.onFailure

end CircuitBreaker

-----------------------------------------------------------------------------------------
-- Runs with and without reads
-----------------------------------------------------------------------------------------

namespace System

/-- What a call that arrives is answered: the state that its admission check reads, and whether
its `fn` is started.
-/
structure Answer where
  state : State
  admission : CircuitBreaker.Admission
  deriving DecidableEq, Repr

/-- The answer to a call that arrived now. -/
def answer (system : System) : Answer where
  state := (system.breaker.currentState system.now).state
  admission := (system.breaker.gate system.now).2

/-- The answers to the calls of a run, in their order, or nothing if some step is not possible. -/
def answers (system : System) : List Label → Option (List Answer)
  | [] => some []
  | label :: rest =>
      (system.step label).bind fun next =>
        (next.answers rest).map fun later =>
          if label = .execute then system.answer :: later else later

/-- The run without its reads of the state, which `getStatus`, `currentState` and `_checkState`
all make.
-/
def unobserved (labels : List Label) : List Label :=
  labels.filter fun label => label ≠ .observe

/-- The step is not a success that comes after the reset timeout of an open breaker and before
the call that would move it to half-open.
-/
def NoEarlySuccess (system : System) : Label → Prop
  | .complete _ true => system.breaker.probeDue system.now = false
  | _ => True

instance : DecidableRel NoEarlySuccess := fun system label =>
  match label with
  | .complete _ true => inferInstanceAs (Decidable (system.breaker.probeDue system.now = false))
  | .complete _ false | .tick _ | .observe | .execute => .isTrue trivial

/-- Two systems with as many calls in flight, and breakers that no call can tell apart. -/
structure Alike (seen plain : System) : Prop where
  now : seen.now = plain.now
  calls : seen.inFlight.length = plain.inFlight.length
  breakers : CircuitBreaker.Alike plain.now seen.breaker plain.breaker

variable {seen plain : System}

/-- A call gets the same answer from both. -/
theorem Alike.answer_eq (alike : Alike seen plain) : seen.answer = plain.answer := by
  obtain ⟨state, admission, _⟩ := alike.breakers.gate
  rw [answer, alike.now, state, admission, answer]

/-- A read of the one makes no difference. -/
theorem Alike.observe (alike : Alike seen plain)
    : ∃ next, seen.step .observe = some next ∧ Alike next plain := by
  refine ⟨_, rfl, alike.now, alike.calls, ?_⟩
  rw [alike.now]
  exact alike.breakers.read

/-- The same label leads both to systems that are alike again. -/
theorem Alike.advance {plainNext : System} {label : Label} (alike : Alike seen plain)
    (unread : label ≠ .observe) (timely : plain.NoEarlySuccess label)
    (taken : plain.step label = some plainNext)
    : ∃ seenNext, seen.step label = some seenNext ∧ Alike seenNext plainNext := by
  obtain ⟨now, calls, breakers⟩ := alike
  cases label with
  | observe => exact absurd rfl unread
  | tick elapsed =>
      obtain rfl := Option.some.inj taken
      refine ⟨_, rfl, by simp [now], calls, ?_⟩
      exact breakers.wait (Nat.le_add_right ..)
  | execute =>
      obtain ⟨_, admission, after⟩ := breakers.gate
      unfold System.step at taken ⊢
      rw [now]
      rcases plainAdmitted : plain.breaker.gate plain.now with ⟨plainAfter, outcome⟩
      rcases seenAdmitted : seen.breaker.gate plain.now with ⟨seenAfter, seenOutcome⟩
      rw [plainAdmitted] at admission after taken
      rw [seenAdmitted] at admission after
      obtain rfl : seenOutcome = outcome := admission
      cases seenOutcome with
      | rejected message =>
          obtain rfl := Option.some.inj taken
          exact ⟨_, rfl, rfl, calls, after⟩
      | started =>
          obtain rfl := Option.some.inj taken
          exact ⟨_, rfl, now, congrArg (· + 1) calls, after⟩
  | complete index succeeded =>
      obtain ⟨⟨call, rest⟩, picked, rfl⟩ := Option.map_eq_some_iff.mp taken
      have timely : succeeded = true → plain.breaker.probeDue plain.now = false := by
        rintro rfl
        exact timely
      cases found : pick seen.inFlight index with
      | none =>
          have short := pick_eq_none_iff.mp found
          rw [calls, ← pick_eq_none_iff, picked] at short
          cases short
      | some seenPicked =>
          obtain ⟨seenCall, seenRest⟩ := seenPicked
          have seenTaken : seen.step (.complete index succeeded) = some {
              seen with
              breaker := seen.breaker.settle seen.now succeeded
              inFlight := seenRest
              finished := (seenCall, succeeded) :: seen.finished
            } := by
            simp [System.step, found]
          refine ⟨_, seenTaken, now, ?_, ?_⟩
          · have plainLength := length_of_pick picked
            have seenLength := length_of_pick found
            simp only at plainLength seenLength ⊢
            omega
          · simp only [now]
            exact breakers.settle timely

/-- A run with reads answers its calls as the run without them does, by induction over the run:
a read changes one side only, every other step both.
-/
theorem Alike.answers_eq {labels : List Label} {last : System} (alike : Alike seen plain)
    (run : execute step NoEarlySuccess plain (unobserved labels) = some last)
    : ∃ heard,
        plain.answers (unobserved labels) = some heard ∧ seen.answers labels = some heard := by
  induction labels generalizing seen plain with
  | nil => exact ⟨[], rfl, rfl⟩
  | cons label rest ih =>
      by_cases read : label = .observe
      · subst read
        obtain ⟨next, taken, still⟩ := alike.observe
        obtain ⟨heard, plainHeard, seenHeard⟩ := ih still run
        exact ⟨heard, plainHeard, by simp [answers, taken, seenHeard]⟩
      · have kept : unobserved (label :: rest) = label :: unobserved rest := by
          simp [unobserved, read]
        rw [kept] at run ⊢
        unfold execute at run
        split at run
        · rename_i timely
          obtain ⟨plainNext, taken, later⟩ := Option.bind_eq_some_iff.mp run
          obtain ⟨seenNext, seenTaken, still⟩ := alike.advance read timely taken
          obtain ⟨heard, plainHeard, seenHeard⟩ := ih still later
          refine ⟨if label = .execute then plain.answer :: heard else heard, ?_, ?_⟩
          · simp [answers, taken, plainHeard]
          · simp [answers, seenTaken, seenHeard, alike.answer_eq]
        · cases run

/-- Calls that succeed one after the other, and one more call. -/
def rounds : Nat → List Label
  | 0 => [.execute]
  | count + 1 => .execute :: .complete 0 true :: rounds count

/-- The system when a call whose admission left the breaker as given has succeeded. -/
def succeeded (system : System) (breaker : CircuitBreaker) : System := {
  system with
  breaker := breaker.settle system.now true
  finished := (⟨breaker.state, breaker.episode⟩, true) :: system.finished
}

/-- A call that is started and succeeds at once, with no other call settling in between. -/
theorem answers_round {system : System} {breaker : CircuitBreaker} (rest : List Label)
    (admitted : system.breaker.gate system.now = (breaker, .started))
    : system.answers (.execute :: .complete 0 true :: rest)
      = ((system.succeeded breaker).answers rest).map (system.answer :: ·) := by
  simp [answers, System.step, admitted, start, pick, succeeded]

/-- The last call of a run is answered, whether it is started or not. -/
theorem answers_last (system : System) : system.answers (rounds 0) = some [system.answer] := by
  unfold rounds answers System.step
  rcases system.breaker.gate system.now with ⟨breaker, outcome⟩
  cases outcome <;> rfl

/-- A success that leaves the episode short of its quota. -/
theorem settle_of_short {breaker : CircuitBreaker} {now : Nat} (state : breaker.state = .halfOpen)
    (short : breaker.successCount + 1 < breaker.halfOpenMax)
    : breaker.settle now true = { breaker with successCount := breaker.successCount + 1 } := by
  simp [CircuitBreaker.settle, CircuitBreaker.onSuccess, state, Nat.not_le.mpr short]

/-- The success that reaches the quota. -/
theorem settle_of_enough {breaker : CircuitBreaker} {now : Nat}
    (state : breaker.state = .halfOpen)
    (enough : breaker.halfOpenMax ≤ breaker.successCount + 1)
    : (breaker.settle now true).state = .closed := by
  simp [CircuitBreaker.settle, CircuitBreaker.onSuccess, state, enough]

/-- A probe that is within the quota of its episode. -/
theorem gate_of_probe {breaker : CircuitBreaker} (now : Nat) (state : breaker.state = .halfOpen)
    (left : breaker.halfOpenAttempts < breaker.halfOpenMax)
    : breaker.gate now
      = ({ breaker with halfOpenAttempts := breaker.halfOpenAttempts + 1 }, .started) := by
  simp [CircuitBreaker.gate, CircuitBreaker.currentState,
    CircuitBreaker.probeDue_of_halfOpen state, state, Nat.not_le.mpr left]

/-- The breaker lacks the given number of successes, and has attempts left for them. -/
structure Lacks (breaker : CircuitBreaker) (count : Nat) : Prop where
  pos : 0 < count
  state : breaker.state = .halfOpen
  attempts : breaker.halfOpenAttempts + count ≤ breaker.halfOpenMax
  successes : breaker.successCount + count = breaker.halfOpenMax

/-- As many successes as the breaker lacks close it, by induction on their number. -/
theorem answers_of_lacks (system : System) {count : Nat}
    (lacks : count = 0 ∧ system.breaker.state = .closed ∨ Lacks system.breaker count)
    : ∃ heard last,
        system.answers (rounds count) = some (heard ++ [last]) ∧ last.state = .closed := by
  induction count generalizing system with
  | zero =>
      obtain ⟨_, closed⟩ := lacks.resolve_right fun lacks => Nat.lt_irrefl 0 lacks.pos
      refine ⟨[], system.answer, system.answers_last, ?_⟩
      simp [answer, CircuitBreaker.currentState, CircuitBreaker.probeDue, closed]
  | succ count ih =>
      obtain ⟨_, state, attempts, successes⟩ := lacks.resolve_left fun done =>
        Nat.succ_ne_zero count done.1
      have round
          : ∃ breaker : CircuitBreaker,
              system.breaker.gate system.now = (breaker, .started)
              ∧ breaker.state = .halfOpen
              ∧ breaker.halfOpenAttempts + count ≤ breaker.halfOpenMax
              ∧ breaker.successCount + 1 + count = breaker.halfOpenMax :=
        ⟨_, gate_of_probe system.now state (by omega), state, by simp only; omega,
          by simp only; omega⟩
      obtain ⟨breaker, admitted, state, attempts, successes⟩ := round
      have fewer
          : count = 0 ∧ (system.succeeded breaker).breaker.state = .closed
            ∨ Lacks (system.succeeded breaker).breaker count := by
        rcases Nat.eq_zero_or_pos count with done | more
        · exact .inl ⟨done, settle_of_enough state (by omega)⟩
        · right
          unfold succeeded
          rw [settle_of_short state (by omega)]
          exact ⟨more, state, attempts, successes⟩
      obtain ⟨heard, last, answered, closed⟩ := ih _ fewer
      refine ⟨system.answer :: heard, last, ?_, closed⟩
      rw [rounds, answers_round _ admitted, answered]
      rfl

/-- The breaker needs more than the given number of successes, and has attempts left for them,
in the episode that it is in or that the next call begins.
-/
inductive NeedsMore (breaker : CircuitBreaker) (now count : Nat) : Prop
  | due (due : breaker.probeDue now = true) (short : count < breaker.halfOpenMax)
  | begun (state : breaker.state = .halfOpen)
    (attempts : breaker.halfOpenAttempts + count ≤ breaker.halfOpenMax)
    (short : breaker.successCount + count < breaker.halfOpenMax)

/-- With fewer successes the breaker is still half-open when the last call arrives. -/
theorem answers_of_needsMore (system : System) {count : Nat}
    (needs : NeedsMore system.breaker system.now count)
    : ∃ heard last,
        system.answers (rounds count) = some (heard ++ [last]) ∧ last.state = .halfOpen := by
  induction count generalizing system with
  | zero =>
      refine ⟨[], system.answer, system.answers_last, ?_⟩
      cases needs with
      | due due => simp [answer, CircuitBreaker.currentState, due]
      | begun state =>
          simp [answer, CircuitBreaker.currentState, CircuitBreaker.probeDue_of_halfOpen state,
            state]
  | succ count ih =>
      have round
          : ∃ breaker : CircuitBreaker,
              system.breaker.gate system.now = (breaker, .started)
              ∧ breaker.state = .halfOpen
              ∧ breaker.halfOpenAttempts + count ≤ breaker.halfOpenMax
              ∧ breaker.successCount + 1 + count < breaker.halfOpenMax := by
        cases needs with
        | due due short =>
            refine ⟨_, CircuitBreaker.gate_eq_firstProbe due, rfl, ?_, ?_⟩
            · simp only [CircuitBreaker.transition_toLimits]
              omega
            · simp only [CircuitBreaker.transition_toLimits,
                CircuitBreaker.transition_halfOpen_successCount]
              omega
        | begun state attempts short =>
            exact ⟨_, gate_of_probe system.now state (by omega), state, by simp only; omega,
              by simp only; omega⟩
      obtain ⟨breaker, admitted, state, attempts, short⟩ := round
      have further : NeedsMore (system.succeeded breaker).breaker system.now count := by
        unfold succeeded
        rw [settle_of_short state (by omega)]
        exact .begun state attempts short
      obtain ⟨heard, last, answered, halfOpen⟩ := ih _ further
      refine ⟨system.answer :: heard, last, ?_, halfOpen⟩
      rw [rounds, answers_round _ admitted, answered]
      rfl

/-- After a read, the success of an earlier call is the first one of the episode. -/
theorem lacks_of_read (breaker : CircuitBreaker) (now : Nat)
    : let credited := (breaker.transition now .halfOpen).settle now true
      breaker.halfOpenMax - 1 = 0 ∧ credited.state = .closed
      ∨ Lacks credited (breaker.halfOpenMax - 1) := by
  have quota := breaker.halfOpenMax_pos
  have limit : (breaker.transition now .halfOpen).halfOpenMax = breaker.halfOpenMax := by simp
  rcases Nat.eq_zero_or_pos (breaker.halfOpenMax - 1) with one | more
  · refine .inl ⟨one, settle_of_enough rfl ?_⟩
    rw [limit, CircuitBreaker.transition_halfOpen_successCount]
    omega
  · right
    rw [settle_of_short rfl]
    · exact ⟨more, rfl, by simp, by simp; omega⟩
    · rw [limit, CircuitBreaker.transition_halfOpen_successCount]
      omega

/-- Without the read, the success counts for nothing. -/
theorem needsMore_of_unread {breaker : CircuitBreaker} {now : Nat}
    (due : breaker.probeDue now = true)
    : NeedsMore (breaker.settle now true) now (breaker.halfOpenMax - 1) := by
  have quota := breaker.halfOpenMax_pos
  have opened := CircuitBreaker.state_of_probeDue due
  simp only [CircuitBreaker.settle, CircuitBreaker.onSuccess, opened, if_true, reduceCtorEq,
    if_false]
  exact .due (by simpa [CircuitBreaker.probeDue, opened] using due) (by simp only; omega)

/-- The system when a call in flight has succeeded and left the breaker as given. -/
def released (system : System) (call : Call) (rest : List Call) (breaker : CircuitBreaker)
    : System := {
  system with
  breaker := breaker
  inFlight := rest
  finished := (call, true) :: system.finished
}

/-- A read tells: before a success that comes between the reset timeout and the next call, it
changes the answer to some later call. When enough calls succeed one after the other, the
breaker closes one call earlier than without the read.
-/
theorem exists_answers_ne {system : System} {index : Nat}
    (due : system.breaker.probeDue system.now = true) (running : index < system.inFlight.length)
    : ∃ later,
        system.answers (.observe :: .complete index true :: later)
        ≠ system.answers (.complete index true :: later) := by
  obtain ⟨⟨call, rest⟩, picked⟩ : ∃ picked, pick system.inFlight index = some picked := by
    refine Option.ne_none_iff_exists'.mp fun absent => ?_
    exact absurd (pick_eq_none_iff.mp absent) (Nat.not_le.mpr running)
  let seen :=
    system.released call rest
      ((system.breaker.transition system.now .halfOpen).settle system.now true)
  let plain := system.released call rest (system.breaker.settle system.now true)
  obtain ⟨seenHeard, seenLast, seenAnswered, closed⟩ :=
    answers_of_lacks seen (lacks_of_read system.breaker system.now)
  obtain ⟨plainHeard, plainLast, plainAnswered, halfOpen⟩ :=
    answers_of_needsMore plain (needsMore_of_unread due)
  refine ⟨rounds (system.breaker.halfOpenMax - 1), fun same => ?_⟩
  have seenAnswers
      : system.answers (.observe :: .complete index true :: rounds (system.breaker.halfOpenMax - 1))
        = some (seenHeard ++ [seenLast]) := by
    rw [← seenAnswered]
    simp [answers, System.step, CircuitBreaker.currentState, due, picked, seen, released]
  have plainAnswers
      : system.answers (.complete index true :: rounds (system.breaker.halfOpenMax - 1))
        = some (plainHeard ++ [plainLast]) := by
    rw [← plainAnswered]
    simp [answers, System.step, picked, plain, released]
  rw [seenAnswers, plainAnswers] at same
  have lasts := List.append_inj_right' (Option.some.inj same) rfl
  obtain rfl := List.singleton_inj.mp lasts
  rw [closed] at halfOpen
  cases halfOpen

/-- Reads of the state are harmless in every run in which no success comes between the reset
timeout and the next call: two runs that differ in their reads only answer all calls alike, with
the same state read by each admission check. Before a success that does come there, a read
changes the answer to some later call.
-/
theorem readsHarmless (options : CircuitBreakerOptions) (start : Nat)
    : (∀ labels others last,
        unobserved labels = unobserved others
        → execute step NoEarlySuccess (initial options start) (unobserved labels) = some last
        → ∃ heard,
            (initial options start).answers labels = some heard
            ∧ (initial options start).answers others = some heard)
      ∧ ∀ (system : System) (index : Nat),
          ¬ system.NoEarlySuccess (.complete index true)
          → index < system.inFlight.length
          → ∃ later,
              system.answers (.observe :: .complete index true :: later)
              ≠ system.answers (.complete index true :: later) := by
  constructor
  · intro labels others last same run
    have alike : Alike (initial options start) (initial options start) :=
      ⟨rfl, rfl, .refl ..⟩
    obtain ⟨heard, plainHeard, first⟩ := alike.answers_eq run
    rw [same] at run plainHeard
    obtain ⟨otherHeard, plainOther, second⟩ := alike.answers_eq run
    obtain rfl := Option.some.inj (plainHeard.symm.trans plainOther)
    exact ⟨heard, first, second⟩
  · intro system index early running
    have due : system.breaker.probeDue system.now = true := by
      simpa [NoEarlySuccess] using early
    exact exists_answers_ne due running

/-- A failure that arrives between the reset timeout and the next call ends the episode that a
read has begun: that call is rejected, read or not.
-/
theorem readsHarmless_of_failure
    : ∃ heard,
        (initial oneProbe 0).answers
            [.execute, .execute, .complete 0 false, .tick 1000, .observe, .complete 0 false,
              .execute]
          = some heard
        ∧ (initial oneProbe 0).answers
            [.execute, .execute, .complete 0 false, .tick 1000, .complete 0 false, .observe,
              .execute]
          = some heard := by
  have run : (execute step NoEarlySuccess (initial oneProbe 0)
      [.execute, .execute, .complete 0 false, .tick 1000, .complete 0 false, .execute]).isSome
        = true := by
    decide +kernel
  obtain ⟨last, executed⟩ := Option.isSome_iff_exists.mp run
  exact (readsHarmless oneProbe 0).1 _ _ last rfl executed

/-- A success that arrives between the reset timeout and the next call closes a breaker that a
health request has read, and leaves it open otherwise.
-/
theorem readsHarmless_fails_for_success
    : ¬ ∀ (options : CircuitBreakerOptions) (start : Nat) (labels others : List Label),
        unobserved labels = unobserved others
        → (initial options start).answers labels = (initial options start).answers others := by
  intro claim
  have heard := claim oneProbe 0
    [.execute, .execute, .complete 0 false, .tick 1000, .observe, .complete 0 true, .execute]
    [.execute, .execute, .complete 0 false, .tick 1000, .complete 0 true, .execute] rfl
  revert heard
  decide +kernel

end System

end WebIndexer.Circuit
