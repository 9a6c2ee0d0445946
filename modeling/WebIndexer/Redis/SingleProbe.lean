import WebIndexer.Library.History
import WebIndexer.Redis.CircuitState

/-! The probes of a distributed half-open circuit. Nothing counts them, so a second one is kept
away only when nobody looks at the circuit between the first one and its outcome.
-/

namespace WebIndexer.Redis

open WebIndexer.Library WebIndexer.Runtime
open Circuit (State)

-----------------------------------------------------------------------------------------
-- Calls on their way to an admission
-----------------------------------------------------------------------------------------

namespace Call

/-- A `canExecute` that will return `true`, unless its `SET` is rejected: it has read a state
other than `OPEN`, could not read it, or has found the reset time elapsed.
-/
def bound : Call → Bool
  | .state .canExecute (.arrived found) => found.getD .closed ≠ .opened
  | .failures .canExecute found reply => found ≠ .opened || reply = .failed
  | .lastFailure .canExecute found _ reply => found ≠ .opened || reply = .failed
  | .state .canExecute .failed | .write .probing _ => true
  | _ => false

/-- A `canExecute` that reads a state other than `OPEN`. -/
def readsWay (live : Option State) : Call → Bool
  | .state .canExecute .awaited => live.getD .closed ≠ .opened
  | _ => false

/-- A `canExecute` that waits for one of its reads. -/
def reads : Call → Bool
  | .state .canExecute .awaited | .failures .canExecute _ .awaited
  | .lastFailure .canExecute _ _ .awaited => true
  | _ => false

/-- A `canExecute` that has read `OPEN`, and finds the reset time elapsed. -/
def findsDue (circuit : RedisCircuitState) (now : Nat) : Call → Bool
  | .lastFailure .canExecute .opened _ (.arrived found) =>
      circuit.probeDue now (found.bind parseInt)
  | _ => false

/-- A `canExecute` that writes `HALF_OPEN` over another state. -/
def halfOpens (live : Option State) (call : Call) : Bool :=
  call = .write .probing .awaited && live ≠ some .halfOpen

end Call

namespace RedisCircuitState

variable {circuit : RedisCircuitState} {keys keys' : CircuitKeys} {now : Nat} {call : Call}

/-- A command binds its call exactly when it reads a state other than `OPEN`. -/
theorem exec_bound {answered : Call}
    (executed : circuit.exec keys now call = some (keys', answered))
    : answered.bound = (call.bound || call.readsWay (keys.live now)) := by
  cases call with
  | state operation reply =>
      cases reply <;> cases executed
      cases operation <;> rfl
  | failures operation state reply =>
      cases reply <;> cases executed
      cases operation <;> simp [Call.bound, Call.readsWay]
  | lastFailure operation state failures reply =>
      cases reply <;> cases executed
      cases operation <;> simp [Call.bound, Call.readsWay]
  | write write reply =>
      cases reply <;> cases executed
      cases write <;> rfl

/-- A rejected command binds its call exactly when it was to read. -/
theorem reject_bound {rejected : Call} (failed : reject call = some rejected)
    : rejected.bound = (call.bound || call.reads) := by
  cases call with
  | state operation reply =>
      cases reply <;> cases failed
      cases operation <;> rfl
  | failures operation state reply =>
      cases reply <;> cases failed
      cases operation <;> simp [Call.bound, Call.reads]
  | lastFailure operation state failures reply =>
      cases reply <;> cases failed
      cases operation <;> simp [Call.bound, Call.reads]
  | write write reply =>
      cases reply <;> cases failed
      cases write <;> rfl

/-- A `canExecute` that goes on after its `getState` is bound, and has read `OPEN` and finds
the reset time elapsed. No other operation is bound.
-/
theorem proceed_bound {status : Status} {operation : Operation} {next : Call}
    (proceeded : circuit.proceed now status operation = .waits next)
    : (operation ≠ .canExecute ∧ next.bound = false)
      ∨ (operation = .canExecute ∧ next.bound = true ∧ status.state = .opened
          ∧ circuit.probeDue now status.lastFailure = true) := by
  have cases := circuit.proceed_cases now status operation
  rw [proceeded] at cases
  cases cases with
  | closing => exact .inl ⟨nofun, rfl⟩
  | counting => exact .inl ⟨nofun, rfl⟩
  | probing opened due => exact .inr ⟨rfl, rfl, opened, due⟩

/-- Who returns `true` after its `getState` is a `canExecute` that has not read `OPEN`. -/
theorem way_of_admitted {status : Status} {operation : Operation}
    (proceeded : circuit.proceed now status operation = .returns (.admitted true))
    : operation = .canExecute ∧ status.state ≠ .opened := by
  have cases := circuit.proceed_cases now status operation
  rw [proceeded] at cases
  cases cases with
  | admitted way => exact ⟨rfl, way⟩

/-- A reply binds its call exactly when the call finds the reset time elapsed. -/
theorem resume_bound {next : Call} (resumed : circuit.resume now call = some (.waits next))
    : next.bound = (call.bound || call.findsDue circuit now) := by
  cases call with
  | state operation reply =>
      cases reply with
      | awaited => cases resumed
      | arrived found =>
          obtain rfl := Next.waits.inj (Option.some.inj resumed)
          cases operation <;> simp [Call.bound, Call.findsDue]
      | failed =>
          obtain ⟨other, unbound⟩ | ⟨_, _, opened, _⟩ := proceed_bound (Option.some.inj resumed)
          · cases operation <;> first | exact unbound | exact absurd rfl other
          · cases opened
  | failures operation state reply =>
      cases reply with
      | awaited => cases resumed
      | arrived found =>
          obtain rfl := Next.waits.inj (Option.some.inj resumed)
          cases operation <;> simp [Call.bound, Call.findsDue]
      | failed =>
          obtain ⟨other, unbound⟩ | ⟨_, _, opened, _⟩ := proceed_bound (Option.some.inj resumed)
          · cases operation <;> first | exact unbound | exact absurd rfl other
          · cases opened
  | lastFailure operation state failures reply =>
      cases reply with
      | awaited => cases resumed
      | arrived found =>
          obtain ⟨other, unbound⟩ | ⟨rfl, bound, opened, due⟩
            := proceed_bound (Option.some.inj resumed)
          · cases operation <;> first | exact unbound | exact absurd rfl other
          · obtain rfl : state = .opened := opened
            rw [bound, Call.findsDue, due, Bool.or_true]
      | failed =>
          obtain ⟨other, unbound⟩ | ⟨_, _, opened, _⟩ := proceed_bound (Option.some.inj resumed)
          · cases operation <;> first | exact unbound | exact absurd rfl other
          · cases opened
  | write write reply =>
      cases reply with
      | awaited => cases resumed
      | arrived found =>
          have resumed := Option.some.inj resumed
          cases write with
          | timing status time =>
              simp only [afterWrite] at resumed
              split at resumed <;> cases resumed
              rfl
          | _ => cases resumed <;> rfl
      | failed => cases resumed

/-- Who returns `true` from `canExecute` was bound to. -/
theorem bound_of_admitted
    (resumed : circuit.resume now call = some (.returns (.admitted true)))
    : call.bound = true := by
  cases call with
  | state operation reply =>
      cases reply with
      | awaited => cases resumed
      | arrived found => cases Option.some.inj resumed
      | failed =>
          obtain ⟨rfl, _⟩ := way_of_admitted (Option.some.inj resumed)
          rfl
  | failures operation state reply =>
      cases reply with
      | awaited => cases resumed
      | arrived found => cases Option.some.inj resumed
      | failed =>
          obtain ⟨rfl, _⟩ := way_of_admitted (Option.some.inj resumed)
          simp [Call.bound]
  | lastFailure operation state failures reply =>
      cases reply with
      | awaited => cases resumed
      | arrived found =>
          obtain ⟨rfl, way⟩ := way_of_admitted (Option.some.inj resumed)
          simpa [Call.bound] using way
      | failed =>
          obtain ⟨rfl, _⟩ := way_of_admitted (Option.some.inj resumed)
          simp [Call.bound]
  | write write reply =>
      cases reply with
      | awaited => cases resumed
      | arrived found =>
          have resumed := Option.some.inj resumed
          cases write with
          | probing => rfl
          | timing status time =>
              simp only [afterWrite] at resumed
              split at resumed <;> cases resumed
          | _ => cases resumed
      | failed =>
          cases write <;> cases resumed

end RedisCircuitState

namespace System

-----------------------------------------------------------------------------------------
-- Episodes
-----------------------------------------------------------------------------------------

/-- The step is one of a `canExecute` that finds its way open: it reads a state other than
`OPEN`, one of its reads is rejected, or, having read `OPEN`, it finds the reset time elapsed.
-/
def findsWay (circuit : RedisCircuitState) (system : System) : Label → Bool
  | .exec index =>
      (pick system.inFlight index).any (·.1.readsWay (system.keys.live system.now))
  | .fail index _ => (pick system.inFlight index).any (·.1.reads)
  | .resume index => (pick system.inFlight index).any (·.1.findsDue circuit system.now)
  | .tick _ | .call _ => false

/-- The step is one by which the stored state becomes `HALF_OPEN`. -/
def halfOpens (system : System) : Label → Bool
  | .exec index | .fail index true =>
      (pick system.inFlight index).any (·.1.halfOpens (system.keys.live system.now))
  | _ => false

/-- The step is one by which a `canExecute` returns `true`. -/
def admits (circuit : RedisCircuitState) (system : System) : Label → Bool
  | .resume index =>
      (pick system.inFlight index).any fun picked =>
        circuit.resume system.now picked.1 = some (.returns (.admitted true))
  | _ => false

/-- No call but the one that the step is of is bound to return `true`. -/
def othersUnbound (system : System) : Label → Bool
  | .exec index | .fail index _ | .resume index =>
      (pick system.inFlight index).all fun picked => picked.2.countP Call.bound = 0
  | .tick _ | .call _ => true

/-- The number of `canExecute` calls that have returned `true` since the stored state became
`HALF_OPEN`, as long as no `recordSuccess` and no `recordFailure` has been called since.
-/
def observeProbes (circuit : RedisCircuitState) (system : System) (label : Label)
    (episode : Option Nat)
    : Option Nat :=
  if label = .call .recordSuccess ∨ label = .call .recordFailure then
    none
  else if system.halfOpens label then
    some (episode.getD 0)
  else if system.admits circuit label then
    episode.map (· + 1)
  else
    episode

/-- No `canExecute` finds its way open in an episode, and when one begins no `canExecute` but
the one that begins it is bound to return `true`.
-/
def Solitary (circuit : RedisCircuitState) (state : System × Option Nat) (label : Label)
    : Prop :=
  (state.2.isSome = true → state.1.findsWay circuit label = false)
  ∧ (state.1.halfOpens label = true → state.1.othersUnbound label = true)

instance (circuit : RedisCircuitState) : DecidableRel (Solitary circuit) :=
  fun _ _ => inferInstanceAs (Decidable (_ ∧ _))

/-- In an episode, the calls that have returned `true` and those that are bound to are at most
one.
-/
def OneProbe (state : System × Option Nat) : Prop :=
  ∀ admitted, state.2 = some admitted → admitted + state.1.inFlight.countP Call.bound ≤ 1

variable {circuit : RedisCircuitState} {state next : System × Option Nat} {label : Label}

/-- The bound calls after a call was replaced by another one. -/
theorem countP_replaced {system : System} {index : Nat} {call other : Call} {rest : List Call}
    {way : Bool} (picked : pick system.inFlight index = some (call, rest))
    (binds : other.bound = (call.bound || way)) (shut : way = false)
    : (other :: rest).countP Call.bound = system.inFlight.countP Call.bound := by
  rw [countP_of_pick Call.bound picked, List.countP_cons, binds, shut, Bool.or_false]

/-- A command that is run, or rejected, keeps the bound of an episode, by cases on whether it
begins one.
-/
theorem oneProbe_of_reply {system : System} {episode : Option Nat} {index : Nat}
    {call other : Call} {rest : List Call} {way : Bool} (label : Label)
    (kept : OneProbe (system, episode))
    (picked : pick system.inFlight index = some (call, rest))
    (binds : other.bound = (call.bound || way))
    (shut : episode.isSome = true → way = false)
    (begins : system.halfOpens label = true → call.bound = true ∧ rest.countP Call.bound = 0)
    (quiet : system.admits circuit label = false)
    (silent : ∀ operation, label ≠ .call operation)
    : ∀ admitted, system.observeProbes circuit label episode = some admitted →
        admitted + (other :: rest).countP Call.bound ≤ 1 := by
  intro admitted observed
  simp only [observeProbes, silent, or_self, if_false, quiet, Bool.false_eq_true] at observed
  split at observed
  · rename_i opens
    obtain ⟨bound, alone⟩ := begins opens
    obtain rfl := Option.some.inj observed
    have one : (other :: rest).countP Call.bound = 1 := by
      rw [List.countP_cons, alone, binds, bound, Bool.true_or, if_pos rfl]
    rw [one]
    cases episode with
    | none => exact Nat.le_refl _
    | some earlier =>
        have before := kept earlier rfl
        simp only [countP_of_pick Call.bound picked, alone, bound, if_true] at before
        simpa using before
  · rw [countP_replaced picked binds (shut (by rw [observed]; rfl))]
    exact kept admitted observed

/-- The bound is kept by each step, by cases on the label. -/
theorem oneProbe_step (kept : OneProbe state) (met : Solitary circuit state label)
    (taken : observing (step circuit) (observeProbes circuit) state label = some next)
    : OneProbe next := by
  obtain ⟨system, episode⟩ := state
  obtain ⟨after, history⟩ := next
  obtain ⟨stepped, rfl⟩ := observing_cases taken
  obtain ⟨shut, alone⟩ := met
  cases step_cases stepped with
  | tick elapsed =>
      intro admitted observed
      exact kept admitted (by simpa [observeProbes, halfOpens, admits] using observed)
  | call operation =>
      intro admitted observed
      have idle : (Call.state operation .awaited).bound = false := by
        cases operation <;> rfl
      simp only [List.countP_cons, idle, Bool.false_eq_true, if_false, Nat.add_zero]
      simp only [observeProbes, halfOpens, admits, Bool.false_eq_true, if_false] at observed
      split at observed
      · cases observed
      · exact kept admitted observed
  | exec index call answered rest keys picked executed =>
      refine oneProbe_of_reply (.exec index) kept picked (RedisCircuitState.exec_bound executed)
        ?_ ?_ rfl nofun
      · intro inside
        simpa [findsWay, picked] using shut inside
      · intro opens
        have others := alone opens
        simp only [halfOpens, picked, Option.any_some, Call.halfOpens, Bool.and_eq_true,
          decide_eq_true_eq] at opens
        simp only [othersUnbound, picked, Option.all_some, decide_eq_true_eq] at others
        obtain ⟨rfl, _⟩ := opens
        exact ⟨rfl, others⟩
  | fail index executed call rejected rest keys picked failed =>
      refine oneProbe_of_reply (.fail index executed) kept picked
        (RedisCircuitState.reject_bound failed) ?_ ?_ rfl nofun
      · intro inside
        simpa [findsWay, picked] using shut inside
      · intro opens
        have others := alone opens
        cases executed with
        | false => cases opens
        | true =>
            simp only [halfOpens, picked, Option.any_some, Call.halfOpens, Bool.and_eq_true,
              decide_eq_true_eq] at opens
            simp only [othersUnbound, picked, Option.all_some, decide_eq_true_eq] at others
            obtain ⟨rfl, _⟩ := opens
            exact ⟨rfl, others⟩
  | resume index call rest following picked resumed =>
      have admits_eq
          : system.admits circuit (.resume index)
            = decide (following = .returns (.admitted true)) := by
        simp only [admits, picked, Option.any_some, resumed, Option.some.injEq]
      intro admitted observed
      simp only [observeProbes, halfOpens, admits_eq, decide_eq_true_eq, reduceCtorEq, or_self,
        if_false, Bool.false_eq_true] at observed
      cases following with
      | waits waiting =>
          simp only [reduceCtorEq, if_false] at observed
          have shut : call.findsDue circuit system.now = false := by
            simpa [findsWay, picked] using shut (by rw [observed]; rfl)
          change admitted + (waiting :: rest).countP Call.bound ≤ 1
          rw [countP_replaced picked (RedisCircuitState.resume_bound resumed) shut]
          exact kept admitted observed
      | returns result =>
          change admitted + rest.countP Call.bound ≤ 1
          have before earlier (open_eq : episode = some earlier) := kept earlier open_eq
          simp only [countP_of_pick Call.bound picked] at before
          split at observed
          · rename_i same
            obtain ⟨earlier, open_eq, rfl⟩ := Option.map_eq_some_iff.mp observed
            have bound := RedisCircuitState.bound_of_admitted (same ▸ resumed)
            have before := before earlier open_eq
            rw [if_pos bound] at before
            omega
          · have before := before admitted observed
            omega

/-- Between the moment the stored state becomes `HALF_OPEN` and the next `recordSuccess` or
`recordFailure` at most one `canExecute` returns `true`, as long as no `canExecute` finds its
way open in between, and none was bound to return `true` before.
-/
theorem admitsOneProbe {start last : System} {episode : Option Nat}
    (run : Run (observing (step circuit) (observeProbes circuit)) (Solitary circuit) (start, none)
      (last, episode))
    : ∀ admitted, episode = some admitted → admitted ≤ 1 := by
  intro admitted inside
  have start_holds : OneProbe (start, none) := nofun
  have bound := run.invariant start_holds oneProbe_step admitted inside
  omega

/-- One probe is admitted. -/
theorem admitsOneProbe_of_first
    : ∃ last episode,
        Run (observing (step ⟨1, 10⟩) (observeProbes ⟨1, 10⟩)) (Solitary ⟨1, 10⟩)
          (.unused 1, none) (last, episode)
        ∧ episode = some 1 ∧ ∀ admitted, episode = some admitted → admitted ≤ 1 := by
  have passes : (execute (observing (step ⟨1, 10⟩) (observeProbes ⟨1, 10⟩)) (Solitary ⟨1, 10⟩)
      (.unused 1, none) Label.firstProbe).any (fun last => decide (last.2 = some 1)) = true := by
    decide +kernel
  obtain ⟨⟨last, episode⟩, run, one⟩ := exists_run_of_any passes
  exact ⟨last, episode, run, of_decide_eq_true one, admitsOneProbe run⟩

/-- A `canExecute` that comes after the first probe reads `HALF_OPEN`, and returns `true`. -/
theorem admitsOneProbe_fails_for_second
    : ¬ ∀ (circuit : RedisCircuitState) (start last : System) (episode : Option Nat),
        Run (observing (step circuit) (observeProbes circuit)) anyStep (start, none)
          (last, episode)
        → ∀ admitted, episode = some admitted → admitted ≤ 1 := by
  intro claim
  have passes : (execute (observing (step ⟨1, 10⟩) (observeProbes ⟨1, 10⟩)) anyStep
      (.unused 1, none) (Label.firstProbe ++ .call .canExecute :: Label.turns 0 3)).any
        (fun last => decide (last.2 = some 2)) = true := by
    decide +kernel
  obtain ⟨⟨last, episode⟩, run, two⟩ := exists_run_of_any passes
  exact absurd (claim _ _ last episode run 2 (of_decide_eq_true two)) (by decide)

end System

end WebIndexer.Redis
