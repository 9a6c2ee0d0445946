import WebIndexer.Library.History
import WebIndexer.Library.LostUpdate
import WebIndexer.Redis.CircuitState

/-! The failure count of a distributed circuit. Every `recordFailure` reads it and writes back
one more, so the count has all failures exactly when no call writes while another has read.
-/

namespace WebIndexer.Redis

open WebIndexer.Library WebIndexer.Runtime

-----------------------------------------------------------------------------------------
-- Writers of the count
-----------------------------------------------------------------------------------------

/-- The operation that a write is of. -/
def Write.operation : Write → Operation
  | .closing | .clearing => .recordSuccess
  | .counting _ | .timing _ _ | .opening | .expiring => .recordFailure
  | .probing => .canExecute

namespace Call

/-- The operation that a call is of. -/
def operation : Call → Operation
  | .state operation _ | .failures operation _ _ | .lastFailure operation _ _ _ => operation
  | .write kind _ => kind.operation

/-- The command of the call was rejected, which the call has not seen yet. -/
def failed : Call → Bool
  | .state _ reply => reply = .failed
  | .failures _ _ reply => reply = .failed
  | .lastFailure _ _ _ reply => reply = .failed
  | .write _ reply => reply = .failed

/-- The count that a `recordFailure` has read and not yet written back, one more. -/
def pendingRead : Call → Option Nat
  | .failures .recordFailure _ (.arrived found) => some (countOf found)
  | .lastFailure .recordFailure _ read _ => some read
  | .write (.counting status) .awaited => some status.failures
  | _ => none

/-- The call is a `recordFailure` that has not written the count yet. -/
def owes : Call → Bool
  | .write (.counting _) .awaited => true
  | .write _ _ => false
  | call => call.operation = .recordFailure

/-- The call waits for the server to write the count back. -/
def counts : Call → Bool
  | .write (.counting _) .awaited => true
  | _ => false

/-- Who has read the count and not written it back is a `recordFailure` that owes. -/
theorem owes_of_pendingRead {call : Call} {read : Nat} (reads : call.pendingRead = some read)
    : call.owes = true := by
  cases call with
  | state operation reply => cases reads
  | failures operation state reply =>
      cases operation <;> cases reply <;> first | rfl | cases reads
  | lastFailure operation state failures reply =>
      cases operation <;> first | rfl | cases reads
  | write write reply =>
      cases write <;> cases reply <;> first | rfl | cases reads

/-- Who owes nothing has no count to write back. -/
theorem pendingRead_of_paid {call : Call} (paid : call.owes = false)
    : call.pendingRead = none := by
  cases reads : call.pendingRead with
  | none => rfl
  | some read => simp [owes_of_pendingRead reads] at paid

/-- Who owes is a `recordFailure`. -/
theorem operation_of_owes {call : Call} (owing : call.owes = true)
    : call.operation = .recordFailure := by
  cases call with
  | state operation reply => exact of_decide_eq_true owing
  | failures operation state reply => exact of_decide_eq_true owing
  | lastFailure operation state failures reply => exact of_decide_eq_true owing
  | write write reply =>
      cases write <;> cases reply <;> first | rfl | cases owing

end Call

/-- What the command of a call does to the count: the call reads it, or writes back one more
than it has read, or leaves it.
-/
inductive CountCase (keys keys' : CircuitKeys) (call answered : Call) : Prop
  | read (same : keys' = keys) (idle : call.counts = false) (unread : call.pendingRead = none)
    (reads : answered.pendingRead = some (countOf keys.failures))
    (owes : answered.owes = call.owes)
  | wrote (read : Nat) (counting : call.counts = true) (reads : call.pendingRead = some read)
    (counts : countOf keys'.failures = read + 1) (paid : answered.pendingRead = none)
    (owes : answered.owes = false)
  | left (same : keys'.failures = keys.failures) (idle : call.counts = false)
    (reads : answered.pendingRead = call.pendingRead) (owes : answered.owes = call.owes)

namespace RedisCircuitState

variable {circuit : RedisCircuitState} {keys keys' : CircuitKeys} {now : Nat} {call : Call}

/-- The command of a call that is no `recordSuccess`, by cases on the call. -/
theorem exec_count {answered : Call} (calm : call.operation ≠ .recordSuccess)
    (executed : circuit.exec keys now call = some (keys', answered))
    : CountCase keys keys' call answered := by
  cases call with
  | state operation reply =>
      cases reply with
      | awaited =>
          obtain ⟨rfl, rfl⟩ := Prod.mk.inj (Option.some.inj executed)
          exact .left rfl rfl rfl rfl
      | arrived found => cases executed
      | failed => cases executed
  | failures operation state reply =>
      cases reply with
      | awaited =>
          obtain ⟨rfl, rfl⟩ := Prod.mk.inj (Option.some.inj executed)
          cases operation with
          | recordFailure => exact .read rfl rfl rfl rfl rfl
          | _ => exact .left rfl rfl rfl rfl
      | arrived found => cases executed
      | failed => cases executed
  | lastFailure operation state failures reply =>
      cases reply with
      | awaited =>
          obtain ⟨rfl, rfl⟩ := Prod.mk.inj (Option.some.inj executed)
          cases operation <;> exact .left rfl rfl rfl rfl
      | arrived found => cases executed
      | failed => cases executed
  | write write reply =>
      cases reply with
      | awaited =>
          obtain ⟨rfl, rfl⟩ := Prod.mk.inj (Option.some.inj executed)
          cases write with
          | counting status =>
              refine .wrote status.failures rfl rfl ?_ rfl rfl
              simp only [run, countOf, Option.bind_some, parseInt_repr, Option.getD_some]
          | closing => exact absurd rfl calm
          | clearing => exact absurd rfl calm
          | expiring =>
              refine .left ?_ rfl rfl rfl
              simp only [run, CircuitKeys.expireState]
              split <;> rfl
          | timing => exact .left rfl rfl rfl rfl
          | opening => exact .left rfl rfl rfl rfl
          | probing => exact .left rfl rfl rfl rfl
      | arrived found => cases executed
      | failed => cases executed

/-- The server's reply is no error, and goes to the same operation. -/
theorem exec_operation {answered : Call}
    (executed : circuit.exec keys now call = some (keys', answered))
    : answered.operation = call.operation ∧ answered.failed = false := by
  cases call with
  | state operation reply => cases reply <;> cases executed; exact ⟨rfl, rfl⟩
  | failures operation state reply => cases reply <;> cases executed; exact ⟨rfl, rfl⟩
  | lastFailure operation state failures reply =>
      cases reply <;> cases executed; exact ⟨rfl, rfl⟩
  | write write reply => cases reply <;> cases executed; exact ⟨rfl, rfl⟩

/-- A call that goes on to its next command has read and owes what it had, and is of the same
operation.
-/
theorem resume_waits {next : Call} (sound : call.failed = false)
    (resumed : circuit.resume now call = some (.waits next))
    : next.operation = call.operation ∧ next.failed = false
      ∧ next.pendingRead = call.pendingRead ∧ next.owes = call.owes := by
  cases call with
  | state operation reply =>
      cases reply with
      | awaited => cases resumed
      | arrived found =>
          obtain rfl := Next.waits.inj (Option.some.inj resumed)
          cases operation <;> exact ⟨rfl, rfl, rfl, rfl⟩
      | failed => cases sound
  | failures operation state reply =>
      cases reply with
      | awaited => cases resumed
      | arrived found =>
          obtain rfl := Next.waits.inj (Option.some.inj resumed)
          cases operation <;> exact ⟨rfl, rfl, rfl, rfl⟩
      | failed => cases sound
  | lastFailure operation state failures reply =>
      cases reply with
      | awaited => cases resumed
      | arrived found =>
          have proceeded :=
            circuit.proceed_cases now ⟨state, failures, found.bind parseInt⟩ operation
          rw [Option.some.inj resumed] at proceeded
          cases proceeded <;> exact ⟨rfl, rfl, rfl, rfl⟩
      | failed => cases sound
  | write write reply =>
      cases reply with
      | awaited => cases resumed
      | arrived found =>
          have resumed := Option.some.inj resumed
          cases write with
          | timing status time =>
              simp only [afterWrite] at resumed
              split at resumed <;> cases resumed
              exact ⟨rfl, rfl, rfl, rfl⟩
          | _ => cases resumed <;> exact ⟨rfl, rfl, rfl, rfl⟩
      | failed => cases sound

/-- A call that returns owes nothing. -/
theorem resume_returns {result : Result} (sound : call.failed = false)
    (resumed : circuit.resume now call = some (.returns result))
    : call.owes = false := by
  cases call with
  | state operation reply => cases reply <;> first | cases resumed | cases sound
  | failures operation state reply => cases reply <;> first | cases resumed | cases sound
  | lastFailure operation state failures reply =>
      cases reply with
      | awaited => cases resumed
      | arrived found =>
          cases operation with
          | recordFailure => cases Option.some.inj resumed
          | _ => rfl
      | failed => cases sound
  | write write reply =>
      cases reply with
      | awaited => cases resumed
      | arrived found => cases write <;> rfl
      | failed => cases sound

end RedisCircuitState

-----------------------------------------------------------------------------------------
-- Runs
-----------------------------------------------------------------------------------------

/-- The `recordFailure` calls so far, and whether one of them wrote the count back while
another had read it and not written it yet.
-/
structure Tally where
  recorded : Nat := 0
  overlapped : Bool := false
  deriving DecidableEq, Repr

/-- The step is one of a call that writes the count back while another has read it and not
written it yet.
-/
def System.overlaps (system : System) : Label → Bool
  | .exec index =>
      (pick system.inFlight index).any fun picked =>
        picked.1.counts && picked.2.any (·.pendingRead.isSome)
  | _ => false

/-- Count the calls, and remember an overlap. -/
def Tally.observe (system : System) (label : Label) (tally : Tally) : Tally where
  recorded := tally.recorded + if label = .call .recordFailure then 1 else 0
  overlapped := tally.overlapped || system.overlaps label

/-- The step is not the call of a `recordSuccess`, and no command fails. -/
def FailuresOnly (_ : System × Tally) : Label → Prop
  | .call operation => operation ≠ .recordSuccess
  | .fail _ _ => False
  | _ => True

instance (state : System × Tally) : DecidablePred (FailuresOnly state) := fun label => by
  cases label <;> unfold FailuresOnly <;> infer_instance

/-- The count is an account of the calls in flight, which are all sound and no
`recordSuccess`; a call is recorded when it has written or owes.
-/
structure Books (base : Nat) (state : System × Tally) : Prop where
  calm : ∀ call ∈ state.1.inFlight, call.operation ≠ .recordSuccess ∧ call.failed = false
  account : ∃ written,
    Account base (countOf state.1.keys.failures) written
      (state.1.inFlight.filterMap Call.pendingRead) state.2.overlapped
    ∧ state.2.recorded = written + state.1.inFlight.countP Call.owes

namespace System

variable {circuit : RedisCircuitState} {state next : System × Tally} {label : Label} {base : Nat}

/-- The command of a call keeps the account, with the overlap that it makes. -/
theorem exec_account {system : System} {tally : Tally} {index : Nat} {call answered : Call}
    {rest : List Call} {keys : CircuitKeys}
    (books : Books base (system, tally)) (picked : pick system.inFlight index = some (call, rest))
    (executed : circuit.exec system.keys system.now call = some (keys, answered))
    : ∃ written,
        Account base (countOf keys.failures) written
          ((answered :: rest).filterMap Call.pendingRead)
          (tally.overlapped || system.overlaps (.exec index))
        ∧ tally.recorded = written + (answered :: rest).countP Call.owes := by
  obtain ⟨written, account, recorded⟩ := books.account
  have calm := (books.calm call (pick_mem picked)).1
  have account := account.perm ((pick_perm picked).filterMap Call.pendingRead)
  simp only [countP_of_pick Call.owes picked] at recorded
  simp only [filterMap_cons_toList, List.countP_cons] at account ⊢
  have overlap
      : system.overlaps (.exec index)
        = (call.counts && rest.any (·.pendingRead.isSome)) := by
    simp only [overlaps, picked, Option.any_some]
  rw [overlap]
  cases RedisCircuitState.exec_count calm executed with
  | read same idle unread reads owes =>
      rw [unread] at account
      refine ⟨written, ?_, by rw [owes]; exact recorded⟩
      rw [reads, idle, Bool.false_and, Bool.or_false, same]
      exact account.read
  | wrote read counting reads counts paid owes =>
      rw [reads] at account
      rw [Call.owes_of_pendingRead reads, if_pos rfl] at recorded
      refine ⟨written + 1, ?_, by rw [owes]; simpa using by omega⟩
      have pending
          : rest.any (·.pendingRead.isSome) = !(rest.filterMap Call.pendingRead).isEmpty := by
        rw [Bool.eq_iff_iff]
        simp [Option.isSome_iff_exists, List.any_eq_true, ← Option.ne_none_iff_exists']
      rw [paid, counting, counts, Bool.true_and, pending]
      exact account.write
  | left same idle reads owes =>
      refine ⟨written, ?_, by rw [owes]; exact recorded⟩
      rw [reads, idle, Bool.false_and, Bool.or_false, same]
      exact account

/-- The books are kept by each step, by cases on the label. -/
theorem books_step (books : Books base state) (met : FailuresOnly state label)
    (taken : observing (step circuit) Tally.observe state label = some next)
    : Books base next := by
  obtain ⟨system, tally⟩ := state
  obtain ⟨after, history⟩ := next
  obtain ⟨stepped, rfl⟩ := observing_cases taken
  cases step_cases stepped with
  | tick elapsed =>
      obtain ⟨calm, written, account, recorded⟩ := books
      refine ⟨calm, written, ?_, ?_⟩
      · simpa [Tally.observe, overlaps] using account
      · simpa [Tally.observe] using recorded
  | call operation =>
      obtain ⟨calm, written, account, recorded⟩ := books
      refine ⟨?_, written, ?_, ?_⟩
      · intro call member
        rcases List.mem_cons.mp member with rfl | old
        · exact ⟨met, rfl⟩
        · exact calm call old
      · simpa [Tally.observe, overlaps, filterMap_cons_toList, Call.pendingRead] using account
      · have owes
            : (Call.state operation .awaited).owes = decide (operation = .recordFailure) := rfl
        simp only [Tally.observe, Label.call.injEq, List.countP_cons, owes, decide_eq_true_eq]
        simp only at recorded
        omega
  | exec index call answered rest keys picked executed =>
      refine ⟨?_, ?_⟩
      · intro other member
        rcases List.mem_cons.mp member with rfl | old
        · obtain ⟨operation, sound⟩ := RedisCircuitState.exec_operation executed
          exact ⟨operation ▸ (books.calm call (pick_mem picked)).1, sound⟩
        · exact books.calm other (mem_of_mem_rest picked old)
      · obtain ⟨written, account, recorded⟩ := exec_account books picked executed
        exact ⟨written, account, by simpa [Tally.observe] using recorded⟩
  | fail => cases met
  | resume index call rest following picked resumed =>
      obtain ⟨calm, written, account, recorded⟩ := books
      have account := account.perm ((pick_perm picked).filterMap Call.pendingRead)
      simp only [countP_of_pick Call.owes picked] at recorded
      simp only [filterMap_cons_toList] at account
      have sound := (calm call (pick_mem picked)).2
      have others other (member : other ∈ rest) := calm other (mem_of_mem_rest picked member)
      cases following with
      | waits waiting =>
          obtain ⟨operation, kept, reads, owes⟩ := RedisCircuitState.resume_waits sound resumed
          refine ⟨?_, written, ?_, ?_⟩
          · intro other member
            rcases List.mem_cons.mp member with rfl | old
            · exact ⟨operation ▸ (calm call (pick_mem picked)).1, kept⟩
            · exact others other old
          · simpa [Tally.observe, overlaps, System.proceed, filterMap_cons_toList, reads]
              using account
          · simpa [Tally.observe, System.proceed, List.countP_cons, owes] using recorded
      | returns result =>
          have paid := RedisCircuitState.resume_returns sound resumed
          rw [Call.pendingRead_of_paid paid] at account
          refine ⟨others, written, ?_, ?_⟩
          · simpa [Tally.observe, overlaps, System.proceed] using account
          · simpa [Tally.observe, System.proceed, paid] using recorded

/-- The failure count loses no update exactly when no call writes it while another has read
it and not written it yet.
-/
theorem losesNoUpdate_iff {start last : System} {tally : Tally} (idle : start.inFlight = [])
    (run : Run (observing (step circuit) Tally.observe) FailuresOnly (start, {}) (last, tally))
    (finished : ∀ call ∈ last.inFlight, call.operation ≠ .recordFailure)
    : countOf last.keys.failures = countOf start.keys.failures + tally.recorded
      ↔ tally.overlapped = false := by
  have start_books : Books (countOf start.keys.failures) (start, {}) := {
    calm := by simp [idle]
    account := ⟨0, by simpa [idle] using Account.start _, by simp [idle]⟩
  }
  obtain ⟨_, written, account, recorded⟩ :=
    run.invariant start_books books_step
  have paid call (member : call ∈ last.inFlight) : call.owes = false := by
    cases owing : call.owes with
    | false => rfl
    | true => exact absurd (Call.operation_of_owes owing) (finished call member)
  have settled : last.inFlight.countP Call.owes = 0 :=
    List.countP_eq_zero.mpr fun call member => by simp [paid call member]
  have unread : last.inFlight.filterMap Call.pendingRead = [] :=
    List.filterMap_eq_nil_iff.mpr fun call member => Call.pendingRead_of_paid (paid call member)
  simp only [settled, Nat.add_zero] at recorded
  simp only [unread] at account
  rw [recorded]
  exact account.settled

/-- Two calls, one after the other, are both counted. -/
theorem losesNoUpdate_of_turns
    : ∃ last tally,
        Run (observing (step ⟨5, 30000⟩) Tally.observe) FailuresOnly (.unused 1, {}) (last, tally)
        ∧ tally.recorded = 2 ∧ countOf last.keys.failures = 2 := by
  have passes : (execute (observing (step ⟨5, 30000⟩) Tally.observe) FailuresOnly
      (.unused 1, {})
      (.call .recordFailure :: Label.turns 0 5 ++ .call .recordFailure :: Label.turns 0 5)).any
        (fun last => decide (last.1.inFlight = [] ∧ last.2 = ⟨2, false⟩)) = true := by
    decide +kernel
  obtain ⟨⟨last, tally⟩, run, passed⟩ := exists_run_of_any passes
  obtain ⟨idle, rfl⟩ := of_decide_eq_true passed
  have counted := (losesNoUpdate_iff rfl run fun call member => by
    rw [idle] at member
    cases member).mpr rfl
  exact ⟨last, ⟨2, false⟩, run, rfl, counted.trans (by decide)⟩

/-- The second call reads the count before the first has written it, and both write one. -/
theorem losesNoUpdate_fails_of_overlap
    : ¬ ∀ (circuit : RedisCircuitState) (start last : System) (tally : Tally),
        start.inFlight = []
        → Run (observing (step circuit) Tally.observe) FailuresOnly (start, {}) (last, tally)
        → (∀ call ∈ last.inFlight, call.operation ≠ .recordFailure)
        → countOf last.keys.failures = countOf start.keys.failures + tally.recorded := by
  intro claim
  have passes : (execute (observing (step ⟨5, 30000⟩) Tally.observe) FailuresOnly
      (.unused 1, {})
      (.call .recordFailure :: Label.turns 0 3 ++ .call .recordFailure :: Label.turns 0 5
        ++ Label.turns 0 2)).any
        (fun last => decide (last.1.inFlight = [] ∧ last.2.recorded = 2
          ∧ countOf last.1.keys.failures = 1)) = true := by
    decide +kernel
  obtain ⟨⟨last, tally⟩, run, passed⟩ := exists_run_of_any passes
  obtain ⟨idle, recorded, counted⟩ := of_decide_eq_true passed
  have whole := claim _ _ last tally rfl run fun call member => by
    rw [idle] at member
    cases member
  rw [counted, recorded] at whole
  exact absurd whole (by decide)

end System

end WebIndexer.Redis
