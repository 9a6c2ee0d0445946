import WebIndexer.Library.History
import WebIndexer.Redis.CircuitState

/-! How a distributed circuit closes. A state key that is gone counts as `CLOSED`, so a circuit
that a failure has opened stays open until it is probed only when its key does not expire
before, and no late success overwrites it.
-/

namespace WebIndexer.Redis

open WebIndexer.Library WebIndexer.Runtime
open Circuit (State)

-----------------------------------------------------------------------------------------
-- Reports
-----------------------------------------------------------------------------------------

/-- The state that `getState` reports when it reads the state key now. -/
def System.reported (system : System) : State :=
  (system.keys.live system.now).getD .closed

/-- The state that a `getState` has read, and will report. -/
def Call.heard : Call → Option State
  | .state .getState (.arrived found) => some (found.getD .closed)
  | .failures .getState found .awaited | .failures .getState found (.arrived _) => some found
  | .lastFailure .getState found _ .awaited
  | .lastFailure .getState found _ (.arrived _) => some found
  | _ => none

namespace RedisCircuitState

variable {circuit : RedisCircuitState} {now : Nat} {call : Call} {heard : State}

/-- A `getState` whose first command is run hears what is reported then. -/
theorem heard_of_read {system : System} {keys : CircuitKeys} {answered : Call}
    (executed
      : circuit.exec system.keys system.now (.state .getState .awaited) = some (keys, answered))
    : answered.heard = some system.reported := by
  obtain ⟨_, rfl⟩ := Prod.mk.inj (Option.some.inj executed)
  rfl

/-- The later commands do not change what it has heard. -/
theorem exec_heard {keys keys' : CircuitKeys} {answered : Call}
    (hears : call.heard = some heard)
    (executed : circuit.exec keys now call = some (keys', answered))
    : answered.heard = some heard := by
  cases call with
  | state operation reply =>
      cases operation <;> cases reply <;> cases hears
      cases executed
  | failures operation state reply =>
      cases operation <;> cases reply <;> cases hears <;> cases executed
      rfl
  | lastFailure operation state failures reply =>
      cases operation <;> cases reply <;> cases hears <;> cases executed
      rfl
  | write write reply => cases hears

/-- It goes on with what it has heard, and reports that. -/
theorem resume_heard {next : Next} (hears : call.heard = some heard)
    (resumed : circuit.resume now call = some next)
    : (∃ waiting, next = .waits waiting ∧ waiting.heard = some heard)
      ∨ ∃ failures lastFailure, next = .returns (.status ⟨heard, failures, lastFailure⟩) := by
  cases call with
  | state operation reply =>
      cases operation <;> cases reply <;> cases hears
      cases resumed
      exact .inl ⟨_, rfl, rfl⟩
  | failures operation state reply =>
      cases operation <;> cases reply <;> cases hears
      all_goals cases resumed
      exact .inl ⟨_, rfl, rfl⟩
  | lastFailure operation state failures reply =>
      cases operation <;> cases reply <;> cases hears
      all_goals cases resumed
      exact .inr ⟨_, _, rfl⟩
  | write write reply => cases hears

end RedisCircuitState

-----------------------------------------------------------------------------------------
-- From failure to success
-----------------------------------------------------------------------------------------

/-- What has happened to a circuit: nothing yet, a `recordFailure` has set it to `OPEN`, then a
`canExecute` has moved it to `HALF_OPEN`, then a `recordSuccess` was recorded in `HALF_OPEN`.
-/
inductive Progress where
  | never
  | opened
  | probed
  | closed
  deriving DecidableEq, Repr

/-- A failure was recorded, and no success in `HALF_OPEN` since. -/
def Progress.pending : Progress → Bool
  | .opened | .probed => true
  | .never | .closed => false

/-- A write takes a circuit in the given state further. -/
def Progress.write (live : Option State) (progress : Progress) : Write → Progress
  | .opening => .opened
  | .probing => if progress = .opened ∧ live = some .opened then .probed else progress
  | .closing => if progress = .probed ∧ live = some .halfOpen then .closed else progress
  | .clearing | .counting _ | .timing _ _ | .expiring => progress

namespace System

/-- The write that the server runs in a step. -/
def written (system : System) : Label → Option Write
  | .exec index | .fail index true =>
      (pick system.inFlight index).bind fun picked =>
        match picked.1 with
        | .write write .awaited => some write
        | _ => none
  | _ => none

/-- Follow the writes. -/
def observeProgress (system : System) (label : Label) (progress : Progress) : Progress :=
  match system.written label with
  | some write => progress.write (system.keys.live system.now) write
  | none => progress

/-- Redis is healthy: no command fails. -/
def Healthy (_ : System × Progress) : Label → Prop
  | .fail _ _ => False
  | _ => True

instance (state : System × Progress) : DecidablePred (Healthy state) := fun label =>
  match label with
  | .fail _ _ => inferInstanceAs (Decidable False)
  | .tick _ | .call _ | .exec _ | .resume _ => inferInstanceAs (Decidable True)

/-- No command fails; the state key of a circuit that is opened and not yet closed does not
expire; and no success is written over `OPEN`.
-/
def Lasting (circuit : RedisCircuitState) (state : System × Progress) : Label → Prop
  | .tick elapsed =>
      state.2.pending = true →
        state.1.keys.stateDeadline.all (fun deadline => state.1.now + elapsed < deadline) = true
  | .exec index =>
      (state.1.written (.exec index) = some .closing → state.2 ≠ .opened)
      ∧ (state.1.written (.exec index) = some .expiring → state.2.pending = true →
          0 < circuit.resetTimeout)
  | .fail _ _ => False
  | .call _ | .resume _ => True

instance (circuit : RedisCircuitState) (state : System × Progress)
    : DecidablePred (Lasting circuit state) := fun label =>
  match label with
  | .tick _ => inferInstanceAs (Decidable (_ → _))
  | .exec _ => inferInstanceAs (Decidable (_ ∧ _))
  | .fail _ _ => inferInstanceAs (Decidable False)
  | .call _ | .resume _ => inferInstanceAs (Decidable True)

/-- An opened circuit is `OPEN`, and a probed one is `HALF_OPEN`. -/
structure Upheld (live : Option State) (progress : Progress) : Prop where
  opened : progress = .opened → live = some .opened
  probed : progress = .probed → live = some .halfOpen

/-- A circuit that is opened and not closed yet is not reported to be `CLOSED`. -/
theorem Upheld.not_pending {live : Option State} {progress : Progress}
    (upheld : Upheld live progress) (reports : live.getD .closed = .closed)
    : progress.pending = false := by
  cases progress with
  | never => rfl
  | opened => simp [upheld.opened rfl] at reports
  | probed => simp [upheld.probed rfl] at reports
  | closed => rfl

/-- What is upheld in a state. -/
abbrev UpheldIn (state : System × Progress) : Prop :=
  Upheld (state.1.keys.live state.1.now) state.2

section Steps

variable {circuit : RedisCircuitState} {state next : System × Progress} {label : Label}

/-- A write upholds what it takes the circuit to, by cases on the write. -/
theorem upheld_write {keys : CircuitKeys} {now : Nat} {progress : Progress} {write : Write}
    (upheld : Upheld (keys.live now) progress)
    (closing : write = .closing → progress ≠ .opened)
    (expiring : write = .expiring → progress.pending = true → 0 < circuit.resetTimeout)
    : Upheld ((circuit.run keys now write).live now)
        (progress.write (keys.live now) write) := by
  cases write with
  | closing =>
      have unopened := closing rfl
      simp only [RedisCircuitState.run, Progress.write]
      split
      · exact ⟨nofun, nofun⟩
      · rename_i unlike
        refine ⟨fun same => absurd same unopened, fun same => ?_⟩
        exact absurd ⟨same, upheld.probed same⟩ unlike
  | clearing => exact ⟨upheld.opened, upheld.probed⟩
  | counting status => exact ⟨upheld.opened, upheld.probed⟩
  | timing status time => exact ⟨upheld.opened, upheld.probed⟩
  | opening => exact ⟨fun _ => rfl, nofun⟩
  | expiring =>
      have lasts (pending : progress.pending = true)
          : (circuit.run keys now .expiring).live now = keys.live now :=
        keys.live_expireState now (expiring rfl pending)
      refine ⟨?_, ?_⟩
      · rintro rfl
        exact (lasts rfl).trans (upheld.opened rfl)
      · rintro rfl
        exact (lasts rfl).trans (upheld.probed rfl)
  | probing =>
      simp only [RedisCircuitState.run, Progress.write]
      split
      · exact ⟨nofun, fun _ => rfl⟩
      · rename_i unlike
        refine ⟨fun same => ?_, fun _ => rfl⟩
        exact absurd ⟨same, upheld.opened same⟩ unlike

/-- What is upheld stays upheld in each step, by cases on the label. -/
theorem upheld_step (upheld : UpheldIn state) (met : Lasting circuit state label)
    (taken : observing (step circuit) observeProgress state label = some next)
    : UpheldIn next := by
  obtain ⟨system, progress⟩ := state
  obtain ⟨after, history⟩ := next
  obtain ⟨stepped, rfl⟩ := observing_cases taken
  cases step_cases stepped with
  | tick elapsed =>
      have lasts (pending : progress.pending = true)
          : system.keys.live (system.now + elapsed) = system.keys.live system.now :=
        CircuitKeys.live_of_lasting (Nat.le_add_right ..) (met pending)
      refine ⟨?_, ?_⟩
      · rintro rfl
        exact (lasts rfl).trans (upheld.opened rfl)
      · rintro rfl
        exact (lasts rfl).trans (upheld.probed rfl)
  | call operation => exact upheld
  | exec index call answered rest keys picked executed =>
      obtain ⟨closing, expiring⟩ := met
      simp only [written, picked, Option.bind_some] at closing expiring
      simp only [observeProgress, written, picked, Option.bind_some]
      cases call with
      | write write reply =>
          cases reply <;> cases executed
          exact upheld_write upheld (fun same => closing (by rw [same])) fun same =>
            expiring (by rw [same])
      | state operation reply =>
          cases reply <;> cases executed
          exact upheld
      | failures operation found reply =>
          cases reply <;> cases executed
          exact upheld
      | lastFailure operation found failures reply =>
          cases reply <;> cases executed
          exact upheld
  | fail => cases met
  | resume index call rest following picked resumed => cases following <;> exact upheld

/-- After a `recordFailure` has set the circuit to `OPEN`, `getState` reports `CLOSED` again
only after a `canExecute` moved it to `HALF_OPEN` and a `recordSuccess` was recorded then, as
long as the state key does not expire in between and no success is written over `OPEN`.
-/
theorem staysOpen {start last : System} {progress : Progress}
    (run : Run (observing (step circuit) observeProgress) (Lasting circuit) (start, .never)
      (last, progress))
    (reports : last.reported = .closed)
    : progress = .never ∨ progress = .closed := by
  have start_holds : UpheldIn (start, .never) := ⟨nofun, nofun⟩
  have upheld := run.invariant start_holds upheld_step
  have finished := upheld.not_pending reports
  cases progress with
  | never => exact .inl rfl
  | closed => exact .inr rfl
  | opened => cases finished
  | probed => cases finished

end Steps

/-- A circuit that is opened, probed in time and closed by a success reports `CLOSED`. -/
theorem staysOpen_of_success
    : ∃ last progress,
        Run (observing (step ⟨1, 10⟩) observeProgress) (Lasting ⟨1, 10⟩) (.unused 1, .never)
          (last, progress)
        ∧ last.reported = .closed ∧ progress ≠ .never ∧ progress = .closed := by
  have passes : (execute (observing (step ⟨1, 10⟩) observeProgress) (Lasting ⟨1, 10⟩)
      (.unused 1, .never)
      (Label.firstProbe ++ .call .recordSuccess :: Label.turns 0 5)).any
        (fun last => decide (last.1.reported = .closed ∧ last.2 ≠ .never)) = true := by
    decide +kernel
  obtain ⟨⟨last, progress⟩, run, passed⟩ := exists_run_of_any passes
  obtain ⟨reports, moved⟩ := of_decide_eq_true passed
  exact ⟨last, progress, run, reports, moved, (staysOpen run reports).resolve_left moved⟩

/-- The state key expires with the reset time, and nobody has probed the circuit. -/
theorem staysOpen_fails_on_expiry
    : ¬ ∀ (circuit : RedisCircuitState) (start last : System) (progress : Progress),
        Run (observing (step circuit) observeProgress) Healthy (start, .never) (last, progress)
        → last.reported = .closed → progress = .never ∨ progress = .closed := by
  intro claim
  have passes : (execute (observing (step ⟨1, 10⟩) observeProgress) Healthy (.unused 1, .never)
      (.call .recordFailure :: Label.turns 0 7 ++ [.tick 10])).any
        (fun last => decide (last.1.reported = .closed ∧ last.2 = .opened)) = true := by
    decide +kernel
  obtain ⟨⟨last, progress⟩, run, passed⟩ := exists_run_of_any passes
  obtain ⟨reports, rfl⟩ := of_decide_eq_true passed
  rcases claim _ _ last .opened run reports with same | same <;> cases same

end System

end WebIndexer.Redis
