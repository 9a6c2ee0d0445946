import WebIndexer.Server.Supervision

/-! How the server ends: `gracefulShutdown` of `server.ts` with its two timers, on top of the
supervision of the crawler. Times are in milliseconds. The event loop may be late: a timer fires
at most `lag` after it is due.
-/

namespace WebIndexer.Server

open WebIndexer.Library

/-- The clients that the shutdown closes, in this order, each if it is enabled. -/
inductive Client where
  | redis
  | kafka
  | elasticsearch
  deriving DecidableEq, Repr

/-- `REDIS_ENABLED`, `KAFKA_ENABLED` and `ES_ENABLED`, and how late the event loop may be. -/
structure Setting where
  redis : Bool
  kafka : Bool
  elasticsearch : Bool
  lag : Nat

/-- The clients that are enabled. -/
def Setting.enabled (setting : Setting) : List Client :=
  [(setting.redis, Client.redis), (setting.kafka, .kafka),
    (setting.elasticsearch, .elasticsearch)].filterMap fun client =>
      if client.1 then some client.2 else none

/-- The server process. `connections` are the open ones; `began` is when the first signal came, and
`closed` when the callback of `server.close` ran; `awaiting` are the clients that the callback has
not seen closed; `killTimer` is when its timer is due. The signals that were sent are kept with the
child and the time.
-/
structure Process where
  supervisor : Supervisor
  now : Nat
  connections : Nat
  began : Option Nat
  closed : Option Nat
  awaiting : List Client
  killTimer : Option Nat
  terminated : List (Nat × Nat)
  killed : List (Nat × Nat)
  exitCode : Option Nat
  deriving DecidableEq, Repr

/-- What can happen next to the process. -/
inductive ProcessEvent where
  | supervise (event : Event)
  | connect
  | hangUp
  | signal
  | closed
  | settled
  | kill
  | force
  | elapse
  deriving DecidableEq, Repr

namespace Process

/-- The process when its script has run. -/
def boot (outcome : ForkOutcome) : Process where
  supervisor := .boot outcome
  now := 0
  connections := 0
  began := none
  closed := none
  awaiting := []
  killTimer := none
  terminated := []
  killed := []
  exitCode := none

/-- `process.exit(code)` -/
def exit (code : Nat) (process : Process) : Process :=
  { process with exitCode := some code, supervisor := { process.supervisor with up := false } }

/-- The end of the callback: `if (!crawlerWorker) process.exit(0)`. -/
def afterClients (process : Process) : Process :=
  if process.supervisor.crawlerWorker.isNone then process.exit 0 else process

/-- The beginning of the callback: the crawler is asked to end. -/
def terminate (process : Process) : Process :=
  match process.supervisor.crawlerWorker with
  | none => process
  | some child => {
      process with
      terminated := (child, process.now) :: process.terminated
      killTimer := some (process.now + 5000)
    }

/-- The clients that are left to close; without any, the callback goes on to its end. -/
def await (clients : List Client) (process : Process) : Process :=
  let waiting := { process with awaiting := clients }
  if clients = [] then waiting.afterClients else waiting

/-- The callback of `server.close`, up to its first await. -/
def onClosed (setting : Setting) (process : Process) : Process :=
  { process with closed := some process.now }.terminate.await setting.enabled

/-- The crawler is killed, whatever it does. -/
def killWorker (process : Process) : Process :=
  match process.supervisor.crawlerWorker with
  | none => process
  | some child => { process with killed := (child, process.now) :: process.killed }

/-- No timer is later than the event loop may be. -/
def Punctual (lag : Nat) (process : Process) : Prop :=
  (∀ start ∈ process.began, process.now < start + 10000 + lag)
    ∧ ∀ due ∈ process.killTimer, process.now < due + lag

instance (lag : Nat) (process : Process) : Decidable (process.Punctual lag) :=
  inferInstanceAs (Decidable (_ ∧ _))

/-- The handling of an event, if it can happen. -/
def step (setting : Setting) (process : Process) (event : ProcessEvent) : Option Process :=
  if process.exitCode.isSome then
    none
  else
    match event with
    | .supervise .shutdown | .supervise .quit => none
    | .supervise event =>
        (process.supervisor.step event).map fun server => { process with supervisor := server }
    | .connect =>
        if process.supervisor.isShuttingDown then
          none
        else
          some { process with connections := process.connections + 1 }
    | .hangUp =>
        if 0 < process.connections then
          some { process with connections := process.connections - 1 }
        else
          none
    | .signal =>
        if process.supervisor.isShuttingDown then
          some process
        else
          some {
            process with
            supervisor := { process.supervisor with isShuttingDown := true }
            began := some process.now
          }
    | .closed =>
        if process.supervisor.isShuttingDown ∧ process.closed = none ∧ process.connections = 0 then
          some (process.onClosed setting)
        else
          none
    | .settled =>
        match process.awaiting with
        | [] => none
        | _ :: clients => some (process.await clients)
    | .kill =>
        match process.killTimer with
        | none => none
        | some due => if due ≤ process.now then some (process.killWorker.exit 0) else none
    | .force =>
        match process.began with
        | none => none
        | some start => if start + 10000 ≤ process.now then some (process.exit 1) else none
    | .elapse =>
        if process.Punctual setting.lag then
          some { process with now := process.now + 1 }
        else
          none

-----------------------------------------------------------------------------------------
-- What each event does
-----------------------------------------------------------------------------------------

variable {setting : Setting} {process next : Process} {event : ProcessEvent}

/-- The outcomes of the handling of an event. -/
inductive StepCase (setting : Setting) (process : Process) : ProcessEvent → Process → Prop
  | supervise (event : Event) (server : Supervisor)
    (moved : process.supervisor.step event = some server) (others : event ≠ .shutdown)
    : StepCase setting process (.supervise event) { process with supervisor := server }
  | connect (serving : process.supervisor.isShuttingDown = false)
    : StepCase setting process .connect
        { process with connections := process.connections + 1 }
  | hangUp (opened : 0 < process.connections)
    : StepCase setting process .hangUp { process with connections := process.connections - 1 }
  | again (ending : process.supervisor.isShuttingDown = true)
    : StepCase setting process .signal process
  | signal (serving : process.supervisor.isShuttingDown = false)
    : StepCase setting process .signal {
        process with
        supervisor := { process.supervisor with isShuttingDown := true }
        began := some process.now
      }
  | closed (ending : process.supervisor.isShuttingDown = true) (first : process.closed = none)
    (quiet : process.connections = 0)
    : StepCase setting process .closed (process.onClosed setting)
  | settled (client : Client) (clients : List Client)
    (waits : process.awaiting = client :: clients)
    : StepCase setting process .settled (process.await clients)
  | kill (due : Nat) (timer : process.killTimer = some due) (late : due ≤ process.now)
    : StepCase setting process .kill (process.killWorker.exit 0)
  | force (start : Nat) (begun : process.began = some start)
    (late : start + 10000 ≤ process.now)
    : StepCase setting process .force (process.exit 1)
  | elapse (punctual : process.Punctual setting.lag)
    : StepCase setting process .elapse { process with now := process.now + 1 }

/-- Inversion of a step, by the outcomes of its event. Nothing happens after the exit. -/
theorem step_cases (taken : process.step setting event = some next)
    : process.exitCode = none ∧ StepCase setting process event next := by
  unfold step at taken
  split at taken
  · cases taken
  · rename_i alive
    refine ⟨Option.not_isSome_iff_eq_none.mp alive, ?_⟩
    cases event with
    | supervise event =>
        cases event with
        | shutdown | quit => cases taken
        | exit | error | timer =>
            obtain ⟨server, moved, rfl⟩ := Option.map_eq_some_iff.mp taken
            exact .supervise _ server moved nofun
    | connect =>
        obtain ⟨serving, same⟩ := Option.ite_none_left_eq_some.mp taken
        obtain rfl := Option.some.inj same
        exact .connect (Bool.not_eq_true _ ▸ serving)
    | hangUp =>
        obtain ⟨opened, same⟩ := Option.ite_none_right_eq_some.mp taken
        obtain rfl := Option.some.inj same
        exact .hangUp opened
    | signal =>
        simp only at taken
        split at taken <;> obtain rfl := Option.some.inj taken
        · exact .again ‹_›
        · exact .signal (Bool.not_eq_true _ ▸ ‹_›)
    | closed =>
        obtain ⟨⟨ending, first, quiet⟩, same⟩ := Option.ite_none_right_eq_some.mp taken
        obtain rfl := Option.some.inj same
        exact .closed ending first quiet
    | settled =>
        simp only at taken
        split at taken
        · cases taken
        · obtain rfl := Option.some.inj taken
          exact .settled _ _ ‹_›
    | kill =>
        simp only at taken
        split at taken
        · cases taken
        · obtain ⟨late, same⟩ := Option.ite_none_right_eq_some.mp taken
          obtain rfl := Option.some.inj same
          exact .kill _ ‹_› late
    | force =>
        simp only at taken
        split at taken
        · cases taken
        · obtain ⟨late, same⟩ := Option.ite_none_right_eq_some.mp taken
          obtain rfl := Option.some.inj same
          exact .force _ ‹_› late
    | elapse =>
        obtain ⟨punctual, same⟩ := Option.ite_none_right_eq_some.mp taken
        obtain rfl := Option.some.inj same
        exact .elapse punctual

/-- The callback goes on to wait, or it ends, and the process with it if there is no crawler. -/
theorem await_cases (clients : List Client) (process : Process)
    : process.await clients = { process with awaiting := clients }
      ∨ process.supervisor.crawlerWorker = none
        ∧ process.await clients = { process with awaiting := clients }.exit 0 := by
  unfold await
  by_cases done : clients = []
  · simp only [if_pos done, afterClients]
    cases worker : process.supervisor.crawlerWorker with
    | none => exact .inr ⟨rfl, by simp⟩
    | some child => exact .inl (by simp)
  · exact .inl (if_neg done)

-----------------------------------------------------------------------------------------
-- The crawler that the shutdown knows
-----------------------------------------------------------------------------------------

/-- The supervisor knows the crawler process that is alive. -/
structure Tracked (server : Supervisor) : Prop where
  single : server.Single
  known : ∀ child ∈ server.running, server.crawlerWorker = some child

/-- A boot knows the process that it has started. -/
theorem tracked_boot (outcome : ForkOutcome) : Tracked (.boot outcome) := by
  refine ⟨Supervisor.single_boot outcome, ?_⟩
  cases outcome with
  | started =>
      intro child member
      obtain rfl := List.mem_singleton.mp member
      rfl
  | spawnFails | throws => exact nofun

/-- What the supervisor does keeps it so: a process starts when there is none. -/
theorem Tracked.step {server after : Supervisor} {event : Event} (tracked : Tracked server)
    (moved : server.step event = some after)
    : Tracked after := by
  refine ⟨tracked.single.step moved, ?_⟩
  cases Supervisor.step_cases moved with
  | exit child alive =>
      intro other member
      exact tracked.known other (List.mem_of_mem_erase member)
  | error | late | shutdown | quit => exact tracked.known
  | restart outcome pending serving next launched =>
      obtain ⟨free, _⟩ := tracked.single.free pending
      cases launched with
      | exhausted | threw | failed =>
          intro child member
          have alive : child ∈ server.running := member
          rw [free] at alive
          cases alive
      | started =>
          intro child member
          have alive : child ∈ server.children :: server.running := member
          rw [free, List.mem_singleton] at alive
          rw [alive]

/-- During the shutdown the supervisor does not replace its crawler. -/
theorem crawlerWorker_of_ending {server after : Supervisor} {event : Event}
    (ending : server.isShuttingDown = true) (moved : server.step event = some after)
    : after.crawlerWorker = server.crawlerWorker := by
  cases Supervisor.step_cases moved with
  | exit | error | late | quit | shutdown => rfl
  | restart outcome pending serving =>
      rw [ending] at serving
      cases serving

/-- The supervisor does not begin a shutdown by itself. -/
theorem isShuttingDown_step {server after : Supervisor} {event : Event}
    (others : event ≠ .shutdown) (moved : server.step event = some after)
    : after.isShuttingDown = server.isShuttingDown := by
  cases Supervisor.step_cases moved with
  | exit | error | late | quit => rfl
  | shutdown => exact absurd rfl others
  | restart outcome pending serving next launched =>
      cases launched <;> rfl

-----------------------------------------------------------------------------------------
-- The clock and the two timers
-----------------------------------------------------------------------------------------

/-- No timer of the shutdown is later than the event loop may be. -/
structure Timed (lag : Nat) (process : Process) : Prop where
  forced : ∀ start ∈ process.began, process.now ≤ start + 10000 + lag
  killing : ∀ due ∈ process.killTimer, process.now ≤ due + lag

/-- The times of the shutdown are in order, and the timer that kills is set for the crawler that
the callback of `server.close` has asked to end.
-/
structure Closing (process : Process) : Prop where
  begun : process.began.isSome = process.supervisor.isShuttingDown
  past : ∀ start ∈ process.began, start ≤ process.now
  quiet : ∀ time ∈ process.closed, process.connections = 0
    ∧ time ≤ process.now ∧ ∃ start ∈ process.began, start ≤ time
  unset : process.closed = none → process.killTimer = none ∧ process.awaiting = []
  asked : ∀ time ∈ process.closed, ∀ child ∈ process.supervisor.crawlerWorker,
    process.killTimer = some (time + 5000) ∧ (child, time) ∈ process.terminated
  aimed : ∀ due ∈ process.killTimer, process.supervisor.crawlerWorker ≠ none

/-- The exit changes neither the clock nor the timers. -/
theorem Timed.exit {lag : Nat} (timed : Timed lag process) (code : Nat)
    : Timed lag (process.exit code) :=
  ⟨timed.forced, timed.killing⟩

/-- Nor does it change what the shutdown has done. -/
theorem Closing.exit (closing : Closing process) (code : Nat) : Closing (process.exit code) :=
  ⟨closing.begun, closing.past, closing.quiet, closing.unset, closing.asked, closing.aimed⟩

/-- What holds of a process whatever it waits for, and after its exit, holds behind an await. -/
theorem await_keeps {holds : Process → Prop} (clients : List Client)
    (waits : holds { process with awaiting := clients })
    (exits : ∀ {process code}, holds process → holds (process.exit code))
    : holds (process.await clients) := by
  rcases await_cases clients process with same | ⟨_, same⟩
  · rw [same]
    exact waits
  · rw [same]
    exact exits waits

/-- Every event keeps the timers on time. -/
theorem Timed.step (timed : Timed setting.lag process)
    (taken : process.step setting event = some next)
    : Timed setting.lag next := by
  cases (step_cases taken).2 with
  | supervise | connect | hangUp | again => exact ⟨timed.forced, timed.killing⟩
  | signal =>
      refine ⟨?_, timed.killing⟩
      intro start same
      obtain rfl := Option.some.inj same
      exact Nat.le_trans (Nat.le_add_right _ _) (Nat.le_add_right _ _)
  | closed =>
      refine await_keeps _ ?_ fun kept => kept.exit _
      unfold terminate
      split
      · exact ⟨timed.forced, timed.killing⟩
      · refine ⟨timed.forced, ?_⟩
        intro due same
        obtain rfl := Option.some.inj same
        exact Nat.le_trans (Nat.le_add_right _ _) (Nat.le_add_right _ _)
  | settled client clients =>
      exact await_keeps clients ⟨timed.forced, timed.killing⟩ fun kept => kept.exit _
  | kill =>
      unfold killWorker
      split
      · exact timed.exit 0
      · exact ⟨timed.forced, timed.killing⟩
  | force => exact timed.exit 1
  | elapse punctual => exact ⟨punctual.1, punctual.2⟩

/-- Before the shutdown nothing is closed, and no timer that kills is set. -/
theorem Closing.serving (closing : Closing process)
    (serving : process.supervisor.isShuttingDown = false)
    : process.began = none ∧ process.closed = none ∧ process.killTimer = none := by
  have unbegun : process.began = none := by
    have begun := closing.begun
    rw [serving] at begun
    exact Option.not_isSome_iff_eq_none.mp (by simp [begun])
  have unclosed : process.closed = none := by
    cases closed : process.closed with
    | none => rfl
    | some time =>
        obtain ⟨_, _, start, begun, _⟩ := closing.quiet time closed
        rw [unbegun] at begun
        cases begun
  exact ⟨unbegun, unclosed, (closing.unset unclosed).1⟩

/-- The callback of `server.close` asks the crawler to end and sets the timer for it. -/
theorem Closing.onClosed (closing : Closing process)
    (ending : process.supervisor.isShuttingDown = true) (first : process.closed = none)
    (quiet : process.connections = 0)
    : Closing (process.onClosed setting) := by
  have begun : ∃ start ∈ process.began, start ≤ process.now := by
    obtain ⟨start, same⟩ := Option.isSome_iff_exists.mp (closing.begun.trans ending)
    exact ⟨start, same, closing.past start same⟩
  have answered {time : Nat} (same : some process.now = some time)
      : process.connections = 0 ∧ time ≤ process.now
        ∧ ∃ start ∈ process.began, start ≤ time := by
    obtain rfl := Option.some.inj same
    exact ⟨quiet, Nat.le_refl _, begun⟩
  refine await_keeps _ ?_ fun kept => kept.exit _
  unfold terminate
  split
  · rename_i free
    refine ⟨closing.begun, closing.past, fun _ => answered, nofun, ?_, ?_⟩
    · intro time _ child worker
      exact nomatch free.symm.trans worker
    · intro due timer
      exact nomatch (closing.unset first).1.symm.trans timer
  · rename_i child worker
    refine ⟨closing.begun, closing.past, fun _ => answered, nofun, ?_, ?_⟩
    · intro time same other known
      obtain rfl := Option.some.inj same
      obtain rfl := Option.some.inj (worker.symm.trans known)
      exact ⟨rfl, List.mem_cons_self⟩
    · intro due _ free
      exact nomatch free.symm.trans worker

/-- Every event keeps the times of the shutdown in order. -/
theorem Closing.step (closing : Closing process)
    (taken : process.step setting event = some next)
    : Closing next := by
  cases (step_cases taken).2 with
  | supervise event server moved others =>
      have still := isShuttingDown_step others moved
      have begun := closing.begun.trans still.symm
      cases ending : process.supervisor.isShuttingDown with
      | true =>
          have worker := crawlerWorker_of_ending ending moved
          refine ⟨begun, closing.past, closing.quiet, closing.unset, ?_, ?_⟩
          · simpa only [worker] using closing.asked
          · simpa only [worker] using closing.aimed
      | false =>
          obtain ⟨_, unclosed, unset⟩ := closing.serving ending
          refine ⟨begun, closing.past, closing.quiet, closing.unset, ?_, ?_⟩
          · intro time same
            exact nomatch unclosed.symm.trans same
          · intro due timer
            exact nomatch unset.symm.trans timer
  | connect serving =>
      obtain ⟨_, unclosed, _⟩ := closing.serving serving
      refine ⟨closing.begun, closing.past, ?_, closing.unset, closing.asked, closing.aimed⟩
      intro time same
      exact nomatch unclosed.symm.trans same
  | hangUp opened =>
      refine ⟨closing.begun, closing.past, ?_, closing.unset, closing.asked, closing.aimed⟩
      intro time same
      obtain ⟨none_left, times⟩ := closing.quiet time same
      exact absurd opened (by simp [none_left])
  | again => exact closing
  | signal serving =>
      obtain ⟨_, unclosed, unset⟩ := closing.serving serving
      refine ⟨rfl, ?_, ?_, closing.unset, closing.asked, closing.aimed⟩
      · intro start same
        obtain rfl := Option.some.inj same
        exact Nat.le_refl _
      · intro time same
        exact nomatch unclosed.symm.trans same
  | closed ending first quiet => exact closing.onClosed ending first quiet
  | settled client clients waits =>
      refine await_keeps clients ?_ fun kept => kept.exit _
      refine ⟨closing.begun, closing.past, closing.quiet, ?_, closing.asked, closing.aimed⟩
      intro unclosed
      exact nomatch waits.symm.trans (closing.unset unclosed).2
  | kill =>
      unfold killWorker
      split
      · exact closing.exit 0
      · exact ⟨closing.begun, closing.past, closing.quiet, closing.unset, closing.asked,
          closing.aimed⟩
  | force => exact closing.exit 1
  | elapse =>
      refine ⟨closing.begun, ?_, ?_, closing.unset, closing.asked, closing.aimed⟩
      · exact fun start same => Nat.le_succ_of_le (closing.past start same)
      · intro time same
        obtain ⟨none_left, past, start⟩ := closing.quiet time same
        exact ⟨none_left, Nat.le_succ_of_le past, start⟩

-----------------------------------------------------------------------------------------
-- How the process ends
-----------------------------------------------------------------------------------------

/-- What the process has done when it has ended. -/
structure Ended (process : Process) : Prop where
  sparing : process.exitCode = none → process.killed = []
  patient : ∀ kill ∈ process.killed,
    ∃ asked, (kill.1, asked) ∈ process.terminated ∧ asked + 5000 ≤ kill.2
  graceful : process.exitCode = some 0 → process.closed ≠ none
    ∧ ∀ child ∈ process.supervisor.running, child ∈ process.killed.map Prod.fst
  coded : ∀ code ∈ process.exitCode,
    code = 0 ∨ code = 1 ∧ ∃ start ∈ process.began, start + 10000 ≤ process.now

/-- What has not ended and has killed nothing. -/
theorem ended_of_alive (alive : process.exitCode = none) (sparing : process.killed = [])
    : Ended process := by
  refine ⟨fun _ => sparing, ?_, ?_, ?_⟩
  · rw [sparing]
    exact nofun
  · exact fun ended => nomatch alive.symm.trans ended
  · exact fun _ ended => nomatch alive.symm.trans ended

/-- The end of the callback leaves no crawler behind. -/
theorem ended_await (clients : List Client) (alive : process.exitCode = none)
    (sparing : process.killed = []) (tracked : Tracked process.supervisor)
    (closed : process.closed ≠ none)
    : Ended (process.await clients) := by
  rcases await_cases clients process with same | ⟨free, same⟩
  · rw [same]
    exact ended_of_alive alive sparing
  · rw [same]
    refine ⟨nofun, ?_, fun _ => ⟨closed, ?_⟩, ?_⟩
    · intro kill member
      have none_killed : kill ∈ process.killed := member
      rw [sparing] at none_killed
      cases none_killed
    · intro child running
      exact nomatch free.symm.trans (tracked.known child running)
    · intro code ended
      exact .inl (Option.some.inj ended).symm

/-- The timer that kills ends the process without a crawler. -/
theorem Closing.kill (closing : Closing process) (tracked : Tracked process.supervisor)
    (sparing : process.killed = []) {due : Nat} (timer : process.killTimer = some due)
    (late : due ≤ process.now)
    : Ended (process.killWorker.exit 0) := by
  obtain ⟨child, worker⟩ := Option.ne_none_iff_exists'.mp (closing.aimed due timer)
  have closed : process.closed ≠ none := by
    intro unclosed
    exact nomatch (closing.unset unclosed).1.symm.trans timer
  obtain ⟨time, at_time⟩ := Option.ne_none_iff_exists'.mp closed
  obtain ⟨set, asked⟩ := closing.asked time at_time child worker
  obtain rfl := Option.some.inj (timer.symm.trans set)
  have killed : process.killWorker.killed = [(child, process.now)] := by
    unfold killWorker
    rw [worker, ← sparing]
  have others : process.killWorker.terminated = process.terminated
      ∧ process.killWorker.closed = process.closed
      ∧ process.killWorker.supervisor = process.supervisor := by
    unfold killWorker
    rw [worker]
    exact ⟨rfl, rfl, rfl⟩
  refine ⟨nofun, ?_, fun _ => ⟨?_, ?_⟩, ?_⟩
  · intro kill member
    have only : kill ∈ process.killWorker.killed := member
    rw [killed, List.mem_singleton] at only
    subst only
    exact ⟨time, others.1 ▸ asked, late⟩
  · exact fun unclosed => closed (others.2.1.symm.trans unclosed)
  · intro other running
    have alive : other ∈ process.killWorker.supervisor.running := running
    rw [others.2.2] at alive
    obtain rfl := Option.some.inj (worker.symm.trans (tracked.known other alive))
    exact List.mem_map_of_mem (killed ▸ List.mem_singleton_self _)
  · intro code ended
    exact .inl (Option.some.inj ended).symm

/-- Every event leaves an end behind that is right, if it ends the process. -/
theorem Ended.step (ended : Ended process) (closing : Closing process)
    (tracked : Tracked process.supervisor) (taken : process.step setting event = some next)
    : Ended next := by
  obtain ⟨alive, cases⟩ := step_cases taken
  have sparing := ended.sparing alive
  cases cases with
  | supervise | connect | hangUp | again | signal | elapse => exact ended_of_alive alive sparing
  | closed ending first quiet =>
      unfold onClosed terminate
      split
      · exact ended_await _ alive sparing tracked nofun
      · exact ended_await _ alive sparing tracked nofun
  | settled client clients waits =>
      refine ended_await clients alive sparing tracked fun unclosed => ?_
      exact nomatch waits.symm.trans (closing.unset unclosed).2
  | kill due timer late => exact closing.kill tracked sparing timer late
  | force start begun late =>
      refine ⟨nofun, ?_, nofun, ?_⟩
      · intro kill member
        have none_killed : kill ∈ process.killed := member
        rw [sparing] at none_killed
        cases none_killed
      · intro code exits
        exact .inr ⟨(Option.some.inj exits).symm, start, begun, late⟩

/-- The exit starts no crawler. -/
theorem Tracked.exit (tracked : Tracked process.supervisor) (code : Nat)
    : Tracked (process.exit code).supervisor :=
  ⟨⟨tracked.single.one, tracked.single.early⟩, tracked.known⟩

/-- Every event of the process keeps track of the crawler. -/
theorem Tracked.stepped (tracked : Tracked process.supervisor)
    (taken : process.step setting event = some next)
    : Tracked next.supervisor := by
  cases (step_cases taken).2 with
  | supervise event server moved => exact tracked.step moved
  | connect | hangUp | again | elapse => exact tracked
  | signal => exact ⟨⟨tracked.single.one, tracked.single.early⟩, tracked.known⟩
  | closed =>
      refine @await_keeps _ (fun process => Tracked process.supervisor) _ ?_
        fun kept => kept.exit _
      unfold terminate
      split <;> exact tracked
  | settled client clients =>
      exact @await_keeps _ (fun process => Tracked process.supervisor) clients tracked
        fun kept => kept.exit _
  | kill =>
      unfold killWorker
      split <;> exact tracked.exit 0
  | force => exact tracked.exit 1

-----------------------------------------------------------------------------------------
-- What holds in every run
-----------------------------------------------------------------------------------------

/-- All that every event keeps. -/
structure Sane (lag : Nat) (process : Process) : Prop where
  tracked : Tracked process.supervisor
  timed : Timed lag process
  closing : Closing process
  ended : Ended process

/-- It holds of the process that has started. -/
theorem sane_boot (lag : Nat) (outcome : ForkOutcome) : Sane lag (boot outcome) where
  tracked := tracked_boot outcome
  timed := ⟨nofun, nofun⟩
  closing := by
    refine ⟨?_, nofun, nofun, fun _ => ⟨rfl, rfl⟩, nofun, nofun⟩
    cases outcome <;> rfl
  ended := ended_of_alive rfl rfl

/-- It holds in every run. -/
theorem sane_of_reaches {outcome : ForkOutcome}
    (reached : Reaches (step setting) (boot outcome) process)
    : Sane setting.lag process :=
  reached.invariant (sane_boot setting.lag outcome) fun sane _ taken => {
    tracked := sane.tracked.stepped taken
    timed := sane.timed.step taken
    closing := sane.closing.step taken
    ended := sane.ended.step sane.closing sane.tracked taken
  }

/-- An orderly shutdown. There is one crawler at most, and none is forked after the first signal.
The process ends after a signal only: with 0 when its connections have ended and every crawler that
was alive has been killed, with 1 when ten seconds have passed. A crawler is killed five seconds
after it was asked to end, or later.
-/
structure Orderly (process : Process) : Prop where
  one : process.supervisor.OneCrawler
  ending : process.exitCode ≠ none → process.supervisor.isShuttingDown = true
  graceful : process.exitCode = some 0
    → process.connections = 0
      ∧ ∀ child ∈ process.supervisor.running, child ∈ process.killed.map Prod.fst
  coded : ∀ code ∈ process.exitCode,
    code = 0 ∨ code = 1 ∧ ∃ start ∈ process.began, start + 10000 ≤ process.now
  patient : ∀ kill ∈ process.killed,
    ∃ asked, (kill.1, asked) ∈ process.terminated ∧ asked + 5000 ≤ kill.2

/-- Every run of the server shuts down in order, whatever signals come, whenever connections end,
clients are closed, timers fire and the crawler exits.
-/
theorem shutdown_orderly {outcome : ForkOutcome}
    (reached : Reaches (step setting) (boot outcome) process)
    : Orderly process := by
  have sane := sane_of_reaches reached
  have begun_of_closed : process.closed ≠ none → process.began ≠ none := by
    intro closed
    obtain ⟨time, at_time⟩ := Option.ne_none_iff_exists'.mp closed
    obtain ⟨_, _, start, begun, _⟩ := sane.closing.quiet time at_time
    exact fun unbegun => nomatch unbegun.symm.trans begun
  refine ⟨⟨?_, sane.tracked.single.early⟩, ?_, ?_, sane.ended.coded, sane.ended.patient⟩
  · have one := sane.tracked.single.one
    omega
  · intro exited
    obtain ⟨code, exits⟩ := Option.ne_none_iff_exists'.mp exited
    rw [← sane.closing.begun, Option.isSome_iff_ne_none]
    rcases sane.ended.coded code exits with rfl | ⟨_, start, begun, _⟩
    · exact begun_of_closed (sane.ended.graceful exits).1
    · exact fun unbegun => nomatch unbegun.symm.trans begun
  · intro exits
    obtain ⟨closed, killed⟩ := sane.ended.graceful exits
    obtain ⟨time, at_time⟩ := Option.ne_none_iff_exists'.mp closed
    exact ⟨(sane.closing.quiet time at_time).1, killed⟩

/-- Time passes while no timer is late. -/
theorem reaches_wait {count : Nat} (alive : process.exitCode = none)
    (punctual : ∀ passed < count,
      ({ process with now := process.now + passed }).Punctual setting.lag)
    : Reaches (step setting) process { process with now := process.now + count } := by
  induction count with
  | zero => exact .refl _
  | succ count ih =>
      have earlier := ih fun passed less => punctual passed (Nat.lt_succ_of_lt less)
      have passes : ({ process with now := process.now + count }).step setting .elapse
          = some { process with now := process.now + (count + 1) } := by
        rw [step, if_neg (by simp [alive])]
        exact if_pos (punctual count (Nat.lt_succ_self count))
      exact .next earlier trivial passes

/-- A server without clients whose crawler has been asked to end. -/
def asked : Process where
  supervisor := { Supervisor.boot .started with isShuttingDown := true }
  now := 0
  connections := 0
  began := some 0
  closed := some 0
  awaiting := []
  killTimer := some 5000
  terminated := [(0, 0)]
  killed := []
  exitCode := none

/-- Its crawler is killed after five seconds. -/
theorem reaches_killed
    : Reaches (step ⟨false, false, false, 0⟩) (boot .started)
        ({ asked with now := 5000 }.killWorker.exit 0) := by
  have begins : execute (step ⟨false, false, false, 0⟩) anyStep (boot .started)
      [.signal, .closed] = some asked := by
    decide
  have waits : Reaches (step ⟨false, false, false, 0⟩) asked { asked with now := 0 + 5000 } := by
    refine reaches_wait rfl fun passed less => ⟨?_, ?_⟩
    · intro start begun
      obtain rfl := Option.some.inj begun
      change 0 + passed < 0 + 10000 + 0
      omega
    · intro due timer
      obtain rfl := Option.some.inj timer
      change 0 + passed < 5000 + 0
      omega
  have kills : ({ asked with now := 0 + 5000 }).step ⟨false, false, false, 0⟩ .kill
      = some ({ asked with now := 5000 }.killWorker.exit 0) := by
    decide
  exact .next ((run_of_execute begins).trans waits) trivial kills

/-- A server without connections ends in order after five seconds. -/
theorem shutdown_orderly_of_signal
    : Orderly ({ asked with now := 5000 }.killWorker.exit 0)
      ∧ ({ asked with now := 5000 }.killWorker.exit 0).exitCode = some 0 :=
  ⟨shutdown_orderly reaches_killed, rfl⟩

/-- The shutdown ends. Time does not pass by its two timers, and before the exit time can pass or
one of them fires. If the connections end early enough for the timer that kills, the exit is not
forced.
-/
theorem shutdown_ends {outcome : ForkOutcome}
    (reached : Reaches (step setting) (boot outcome) process)
    : (∀ start ∈ process.began, process.now ≤ start + 10000 + setting.lag)
      ∧ (process.exitCode = none →
          (process.step setting .elapse).isSome = true ∨ (process.step setting .kill).isSome = true
            ∨ (process.step setting .force).isSome = true)
      ∧ ∀ start ∈ process.began, ∀ time ∈ process.closed,
          process.supervisor.crawlerWorker ≠ none →
            time + 5000 + setting.lag < start + 10000 → process.exitCode ≠ some 1 := by
  have sane := sane_of_reaches reached
  refine ⟨sane.timed.forced, ?_, ?_⟩
  · intro alive
    have steps : process.exitCode.isSome = false := by rw [alive]; rfl
    by_cases punctual : process.Punctual setting.lag
    · left
      simp [step, steps, punctual]
    · right
      rw [Punctual, Classical.not_and_iff_not_or_not] at punctual
      rcases punctual with forced | killing
      · obtain ⟨start, late⟩ := Classical.not_forall.mp forced
        obtain ⟨begun, late⟩ := Classical.not_imp.mp late
        right
        have due : start + 10000 ≤ process.now := by omega
        simp [step, steps, Option.mem_def.mp begun, due]
      · obtain ⟨due, late⟩ := Classical.not_forall.mp killing
        obtain ⟨timer, late⟩ := Classical.not_imp.mp late
        left
        have due : due ≤ process.now := by omega
        simp [step, steps, Option.mem_def.mp timer, due]
  · intro start begun time at_time worker early exits
    obtain ⟨child, known⟩ := Option.ne_none_iff_exists'.mp worker
    obtain ⟨timer, _⟩ := sane.closing.asked time at_time child known
    have killing := sane.timed.killing _ timer
    rcases sane.ended.coded 1 exits with zero | ⟨_, other, begun', late⟩
    · cases zero
    · obtain rfl := Option.some.inj (begun.symm.trans begun')
      omega

/-- The server without connections is not forced to end. -/
theorem shutdown_ends_of_signal
    : ({ asked with now := 5000 }.killWorker.exit 0).exitCode ≠ some 1 :=
  (shutdown_ends reaches_killed).2.2 0 rfl 0 rfl nofun (by decide)

end Process

end WebIndexer.Server
