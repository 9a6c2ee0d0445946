import WebIndexer.Circuit.CircuitBreaker
import WebIndexer.Library.Pool
import WebIndexer.Library.Runs
import WebIndexer.Runtime.Number

/-! `RedisCircuitState` of `src/redis.ts`, used by any number of processes. An operation is a
sequence of Redis commands, and the server runs the commands of the operations in flight in any
order. Between two commands an operation runs alone, and the clock may have moved on.
-/

namespace WebIndexer.Redis

open WebIndexer.Library WebIndexer.Runtime
open Circuit (State)

-----------------------------------------------------------------------------------------
-- Keys
-----------------------------------------------------------------------------------------

/-- The three keys of a circuit, and the time from which the state key is gone. -/
structure CircuitKeys where
  state : Option State
  stateDeadline : Option Nat
  failures : Option String
  lastFailure : Option String
  deriving DecidableEq, Repr

namespace CircuitKeys

/-- `GET` of the state key. -/
def live (keys : CircuitKeys) (now : Nat) : Option State :=
  keys.state.filter fun _ => keys.stateDeadline.all fun deadline => now < deadline

/-- `SET` of the state key, which ends its time to live. -/
def setState (keys : CircuitKeys) (state : State) : CircuitKeys :=
  { keys with state := some state, stateDeadline := none }

/-- `PEXPIRE` of the state key, which does nothing to a key that is gone. -/
def expireState (keys : CircuitKeys) (now ms : Nat) : CircuitKeys :=
  if (keys.live now).isSome then { keys with stateDeadline := some (now + ms) } else keys

@[simp] theorem live_setState (keys : CircuitKeys) (state : State) (now : Nat)
    : (keys.setState state).live now = some state :=
  rfl

/-- A time to live that is not over at once changes nothing yet. -/
theorem live_expireState (keys : CircuitKeys) (now : Nat) {ms : Nat} (later : 0 < ms)
    : (keys.expireState now ms).live now = keys.live now := by
  unfold expireState
  split
  · rename_i alive
    obtain ⟨state, found⟩ := Option.isSome_iff_exists.mp alive
    have stored : keys.state = some state := (Option.filter_eq_some_iff.mp found).1
    rw [found]
    simp [live, stored, later]
  · rfl

/-- A key whose time to live is not over by then is found until then. -/
theorem live_of_lasting {keys : CircuitKeys} {now later : Nat} (le : now ≤ later)
    (lasts : keys.stateDeadline.all (fun deadline => later < deadline) = true)
    : keys.live later = keys.live now := by
  have lasted : keys.stateDeadline.all (fun deadline => now < deadline) = true := by
    cases same : keys.stateDeadline with
    | none => rfl
    | some deadline =>
        simp only [same, Option.all_some, decide_eq_true_eq] at lasts ⊢
        omega
  simp only [live, lasts, lasted]

end CircuitKeys

-----------------------------------------------------------------------------------------
-- Operations
-----------------------------------------------------------------------------------------

/-- The settings of a circuit. Its name only picks the keys. -/
structure RedisCircuitState where
  failureThreshold : Nat
  resetTimeout : Nat
  deriving DecidableEq, Repr

/-- The methods of a `RedisCircuitState`. -/
inductive Operation where
  | getState
  | recordSuccess
  | recordFailure
  | canExecute
  deriving DecidableEq, Repr

/-- What `getState` resolves with. A `lastFailure` that is no number counts as `null` for
every reader.
-/
structure Status where
  state : State
  failures : Nat
  lastFailure : Option Nat
  deriving DecidableEq, Repr

/-- What `getState` resolves with when a command is rejected. -/
def Status.unknown : Status := ⟨.closed, 0, none⟩

/-- `parseInt(failures!) || 0`. -/
def countOf (failures : Option String) : Nat := (failures.bind parseInt).getD 0

/-- The write that an operation waits for, with what it has read. The `failures` of
`recordFailure` are one more than those of the status.
-/
inductive Write where
  | closing
  | clearing
  | counting (status : Status)
  | timing (status : Status) (time : Nat)
  | opening
  | expiring
  | probing
  deriving DecidableEq, Repr

/-- The reply to a command: still awaited, arrived, or an error. -/
inductive Reply (α : Type) where
  | awaited
  | arrived (value : α)
  | failed
  deriving DecidableEq, Repr

/-- An operation in flight, by the command that it waits for. The three reads are those of
`getState`, which every operation begins with.
-/
inductive Call where
  | state (operation : Operation) (reply : Reply (Option State))
  | failures (operation : Operation) (state : State) (reply : Reply (Option String))
  | lastFailure (operation : Operation) (state : State) (failures : Nat)
    (reply : Reply (Option String))
  | write (write : Write) (reply : Reply Unit)
  deriving DecidableEq, Repr

/-- How an operation ends. -/
inductive Result where
  | status (status : Status)
  | done
  | admitted (admitted : Bool)
  | rejected
  deriving DecidableEq, Repr

/-- What an operation does when the reply to its command is there. -/
inductive Next where
  | waits (call : Call)
  | returns (result : Result)
  deriving DecidableEq, Repr

namespace RedisCircuitState

variable (circuit : RedisCircuitState)

/-- The test of `canExecute` in `OPEN`. A `lastFailure` of zero is falsy. -/
def probeDue (now : Nat) : Option Nat → Bool
  | none | some 0 => false
  | some lastFailure => lastFailure + circuit.resetTimeout ≤ now

/-- An operation from the end of its `getState` on. -/
def proceed (now : Nat) (status : Status) : Operation → Next
  | .getState => .returns (.status status)
  | .recordSuccess =>
      if status.state = .halfOpen then .waits (.write .closing .awaited) else .returns .done
  | .recordFailure => .waits (.write (.counting status) .awaited)
  | .canExecute =>
      match status.state with
      | .closed => .returns (.admitted true)
      | .opened =>
          if circuit.probeDue now status.lastFailure then .waits (.write .probing .awaited)
          else .returns (.admitted false)
      | .halfOpen => .returns (.admitted true)

/-- How each operation goes on after its `getState`. -/
inductive ProceedCase (now : Nat) (status : Status) : Operation → Next → Prop
  | report : ProceedCase now status .getState (.returns (.status status))
  | closing (probed : status.state = .halfOpen)
    : ProceedCase now status .recordSuccess (.waits (.write .closing .awaited))
  | unchanged (other : status.state ≠ .halfOpen)
    : ProceedCase now status .recordSuccess (.returns .done)
  | counting : ProceedCase now status .recordFailure (.waits (.write (.counting status) .awaited))
  | admitted (way : status.state ≠ .opened)
    : ProceedCase now status .canExecute (.returns (.admitted true))
  | probing (opened : status.state = .opened)
    (due : circuit.probeDue now status.lastFailure = true)
    : ProceedCase now status .canExecute (.waits (.write .probing .awaited))
  | refused (opened : status.state = .opened)
    (early : circuit.probeDue now status.lastFailure = false)
    : ProceedCase now status .canExecute (.returns (.admitted false))

/-- The specification of `proceed`. -/
theorem proceed_cases (now : Nat) (status : Status) (operation : Operation)
    : circuit.ProceedCase now status operation (circuit.proceed now status operation) := by
  cases operation with
  | getState => exact .report
  | recordSuccess =>
      simp only [proceed]
      split
      · exact .closing ‹_›
      · exact .unchanged ‹_›
  | recordFailure => exact .counting
  | canExecute =>
      simp only [proceed]
      split
      · exact .admitted (by simp [*])
      · cases due : circuit.probeDue now status.lastFailure with
        | true => exact .probing ‹_› due
        | false => exact .refused ‹_› due
      · exact .admitted (by simp [*])

/-- The server runs a write. -/
def run (keys : CircuitKeys) (now : Nat) : Write → CircuitKeys
  | .closing => keys.setState .closed
  | .clearing => { keys with failures := some "0" }
  | .counting status => { keys with failures := some (status.failures + 1).repr }
  | .timing _ time => { keys with lastFailure := some time.repr }
  | .opening => keys.setState .opened
  | .expiring => keys.expireState now circuit.resetTimeout
  | .probing => keys.setState .halfOpen

/-- An operation after one of its writes. -/
def afterWrite (now : Nat) : Write → Next
  | .closing => .waits (.write .clearing .awaited)
  | .counting status => .waits (.write (.timing status now) .awaited)
  | .timing status _ =>
      if status.state = .halfOpen ∨ circuit.failureThreshold ≤ status.failures + 1 then
        .waits (.write .opening .awaited)
      else
        .returns .done
  | .opening => .waits (.write .expiring .awaited)
  | .clearing | .expiring => .returns .done
  | .probing => .returns (.admitted true)

/-- An operation after a write that is rejected. Only `canExecute` does not catch it. -/
def afterRejection : Write → Result
  | .probing => .rejected
  | _ => .done

/-- The server runs the command of a call and replies. -/
def exec (keys : CircuitKeys) (now : Nat) : Call → Option (CircuitKeys × Call)
  | .state operation .awaited => some (keys, .state operation (.arrived (keys.live now)))
  | .failures operation state .awaited =>
      some (keys, .failures operation state (.arrived keys.failures))
  | .lastFailure operation state failures .awaited =>
      some (keys, .lastFailure operation state failures (.arrived keys.lastFailure))
  | .write write .awaited => some (circuit.run keys now write, .write write (.arrived ()))
  | _ => none

/-- The command of a call is rejected. -/
def reject : Call → Option Call
  | .state operation .awaited => some (.state operation .failed)
  | .failures operation state .awaited => some (.failures operation state .failed)
  | .lastFailure operation state failures .awaited =>
      some (.lastFailure operation state failures .failed)
  | .write write .awaited => some (.write write .failed)
  | _ => none

/-- A call goes on with the reply to its command. -/
def resume (now : Nat) : Call → Option Next
  | .state operation (.arrived found) =>
      some (.waits (.failures operation (found.getD .closed) .awaited))
  | .failures operation state (.arrived found) =>
      some (.waits (.lastFailure operation state (countOf found) .awaited))
  | .lastFailure operation state failures (.arrived found) =>
      some (circuit.proceed now ⟨state, failures, found.bind parseInt⟩ operation)
  | .state operation .failed | .failures operation _ .failed
  | .lastFailure operation _ _ .failed => some (circuit.proceed now .unknown operation)
  | .write write (.arrived _) => some (circuit.afterWrite now write)
  | .write write .failed => some (.returns (afterRejection write))
  | _ => none

end RedisCircuitState

-----------------------------------------------------------------------------------------
-- Steps
-----------------------------------------------------------------------------------------

/-- The keys of a circuit, the clock, and the calls in flight, of all processes. -/
structure System where
  keys : CircuitKeys
  now : Nat
  inFlight : List Call
  deriving DecidableEq, Repr

/-- What can happen next: time passes, a process calls an operation, the server runs the
command of a call, the command of a call is rejected, after the server has run it or not, or a
call goes on with its reply.
-/
inductive Label where
  | tick (elapsed : Nat)
  | call (operation : Operation)
  | exec (index : Nat)
  | fail (index : Nat) (executed : Bool)
  | resume (index : Nat)
  deriving DecidableEq, Repr

/-- The server runs the next commands of a call, which goes on after each of them. It is the
first one in flight from then on.
-/
def Label.turns (index : Nat) : Nat → List Label
  | 0 => []
  | commands + 1 => .exec index :: .resume 0 :: Label.turns 0 commands

/-- A failure opens a circuit with a threshold of one, and its state key gets its ten
milliseconds to live one millisecond later. A `canExecute` then finds the reset time elapsed.
-/
def Label.firstProbe : List Label :=
  .call .recordFailure :: Label.turns 0 6 ++ .tick 1 :: Label.turns 0 1
    ++ .tick 9 :: .call .canExecute :: Label.turns 0 4

/-- A circuit that no process has used yet. -/
def System.unused (now : Nat) : System := ⟨⟨none, none, none, none⟩, now, []⟩

namespace System

/-- Put a call back that has gone on, unless it has returned. -/
def proceed (system : System) (rest : List Call) : Next → System
  | .waits call => { system with inFlight := call :: rest }
  | .returns _ => { system with inFlight := rest }

/-- One step. -/
def step (circuit : RedisCircuitState) (system : System) : Label → Option System
  | .tick elapsed => some { system with now := system.now + elapsed }
  | .call operation =>
      some { system with inFlight := .state operation .awaited :: system.inFlight }
  | .exec index =>
      (pick system.inFlight index).bind fun picked =>
        (circuit.exec system.keys system.now picked.1).map fun answered =>
          { system with keys := answered.1, inFlight := answered.2 :: picked.2 }
  | .fail index executed =>
      (pick system.inFlight index).bind fun picked =>
        (circuit.exec system.keys system.now picked.1).bind fun answered =>
          (RedisCircuitState.reject picked.1).map fun call => {
            system with
            keys := if executed then answered.1 else system.keys
            inFlight := call :: picked.2
          }
  | .resume index =>
      (pick system.inFlight index).bind fun picked =>
        (circuit.resume system.now picked.1).map fun next => system.proceed picked.2 next

/-- The effect of each label, with the call that it picks. -/
inductive StepCase (circuit : RedisCircuitState) (system : System) : Label → System → Prop
  | tick (elapsed : Nat)
    : StepCase circuit system (.tick elapsed) { system with now := system.now + elapsed }
  | call (operation : Operation)
    : StepCase circuit system (.call operation)
        { system with inFlight := .state operation .awaited :: system.inFlight }
  | exec (index : Nat) (call answered : Call) (rest : List Call) (keys : CircuitKeys)
    (picked : pick system.inFlight index = some (call, rest))
    (executed : circuit.exec system.keys system.now call = some (keys, answered))
    : StepCase circuit system (.exec index)
        { system with keys := keys, inFlight := answered :: rest }
  | fail (index : Nat) (executed : Bool) (call rejected : Call) (rest : List Call)
    (keys : CircuitKeys)
    (picked : pick system.inFlight index = some (call, rest))
    (failed : RedisCircuitState.reject call = some rejected)
    : StepCase circuit system (.fail index executed)
        { system with keys := keys, inFlight := rejected :: rest }
  | resume (index : Nat) (call : Call) (rest : List Call) (next : Next)
    (picked : pick system.inFlight index = some (call, rest))
    (resumed : circuit.resume system.now call = some next)
    : StepCase circuit system (.resume index) (system.proceed rest next)

/-- Inversion of a step. -/
theorem step_cases {circuit : RedisCircuitState} {system next : System} {label : Label}
    (taken : system.step circuit label = some next)
    : StepCase circuit system label next := by
  cases label with
  | tick elapsed =>
      obtain rfl := Option.some.inj taken
      exact .tick elapsed
  | call operation =>
      obtain rfl := Option.some.inj taken
      exact .call operation
  | exec index =>
      obtain ⟨⟨call, rest⟩, picked, taken⟩ := Option.bind_eq_some_iff.mp taken
      obtain ⟨⟨keys, answered⟩, executed, rfl⟩ := Option.map_eq_some_iff.mp taken
      exact .exec index call answered rest keys picked executed
  | fail index executed =>
      obtain ⟨⟨call, rest⟩, picked, taken⟩ := Option.bind_eq_some_iff.mp taken
      obtain ⟨answered, _, taken⟩ := Option.bind_eq_some_iff.mp taken
      obtain ⟨rejected, failed, rfl⟩ := Option.map_eq_some_iff.mp taken
      exact .fail index executed call rejected rest _ picked failed
  | resume index =>
      obtain ⟨⟨call, rest⟩, picked, taken⟩ := Option.bind_eq_some_iff.mp taken
      obtain ⟨following, resumed, rfl⟩ := Option.map_eq_some_iff.mp taken
      exact .resume index call rest following picked resumed

end System

end WebIndexer.Redis
