import WebIndexer.Library.Runs

/-! How `server.ts` watches its crawler: `setupWorker` with the handlers of the child's `exit` and
`error`, the restart timer, and the flag that `gracefulShutdown` sets. A child counts as running
until its `exit` is dispatched.
-/

namespace WebIndexer.Server

open WebIndexer.Library

/-- `MAX_CRAWLER_RESTARTS`. -/
def maxCrawlerRestarts : Nat := 10

/-- How a call of `fork` ends: the process starts, or the child that is returned will emit `error`
because the spawn failed, or the call throws.
-/
inductive ForkOutcome where
  | started
  | spawnFails
  | throws
  deriving DecidableEq, Repr

/-- The variables of the server that supervise the crawler. Children are numbered; the server is
`up` until its process ends. Of the world outside, `running` holds the children whose process is
alive, `timers` counts the restart timers that are pending, and `forks` has, for each call of
`fork`, whether the shutdown had begun.
-/
structure Supervisor where
  crawlerWorker : Option Nat
  isShuttingDown : Bool
  crawlerRestarts : Nat
  workerAlive : Bool
  children : Nat
  running : List Nat
  timers : Nat
  forks : List Bool
  up : Bool
  deriving DecidableEq, Repr

/-- What can happen next: a child exits, a child emits `error` without exiting, a restart timer
fires, a signal or an uncaught exception begins the shutdown, or the process ends.
-/
inductive Event where
  | exit (child : Nat)
  | error (child : Nat)
  | timer (outcome : ForkOutcome)
  | shutdown
  | quit
  deriving DecidableEq, Repr

namespace Supervisor

/-- The variables before the first call of `setupWorker`. -/
def fresh : Supervisor where
  crawlerWorker := none
  isShuttingDown := false
  crawlerRestarts := 0
  workerAlive := false
  children := 0
  running := []
  timers := 0
  forks := []
  up := true

/-- `setupWorker`, with the child that it returns. -/
def setupWorker (server : Supervisor) (outcome : ForkOutcome) : Supervisor × Option Nat :=
  if maxCrawlerRestarts < server.crawlerRestarts then
    (server, none)
  else
    let forked := { server with forks := server.isShuttingDown :: server.forks }
    match outcome with
    | .throws => (forked, none)
    | .spawnFails =>
        ({ forked with children := server.children + 1, workerAlive := true },
          some server.children)
    | .started =>
        ({
            forked with
            children := server.children + 1
            running := server.children :: server.running
            workerAlive := true
          },
          some server.children)

/-- `crawlerWorker = setupWorker()`. -/
def launch (server : Supervisor) (outcome : ForkOutcome) : Supervisor :=
  let (launched, child) := server.setupWorker outcome
  { launched with crawlerWorker := child }

/-- The server when its script has run. -/
def boot (outcome : ForkOutcome) : Supervisor := fresh.launch outcome

/-- The handling of an event, if it can happen. -/
def step (server : Supervisor) (event : Event) : Option Supervisor :=
  if server.up then
    match event with
    | .exit child =>
        if child ∈ server.running then
          some {
            server with
            workerAlive := false
            crawlerRestarts := server.crawlerRestarts + 1
            running := server.running.erase child
            timers := server.timers + 1
          }
        else
          none
    | .error child =>
        if child < server.children then some { server with workerAlive := false } else none
    | .timer outcome =>
        if 0 < server.timers then
          let fired := { server with timers := server.timers - 1 }
          some (if server.isShuttingDown then fired else fired.launch outcome)
        else
          none
    | .shutdown => some { server with isShuttingDown := true }
    | .quit => if server.isShuttingDown then some { server with up := false } else none
  else
    none

/-- The server is to keep a crawler running. -/
def Supervises (server : Supervisor) : Prop :=
  server.isShuttingDown = false ∧ server.crawlerRestarts ≤ maxCrawlerRestarts

instance (server : Supervisor) : Decidable server.Supervises :=
  inferInstanceAs (Decidable (_ ∧ _))

/-- At most one crawler process is alive, and none was forked after the shutdown had begun. -/
def OneCrawler (server : Supervisor) : Prop :=
  server.running.length ≤ 1 ∧ ∀ late ∈ server.forks, late = false

/-- A server that is to keep a crawler running has one, or a pending restart timer, and knows
which.
-/
def Watches (server : Supervisor) : Prop :=
  server.Supervises
  → (server.running ≠ [] ∨ 0 < server.timers)
    ∧ (server.workerAlive = true ↔ server.running ≠ [])

instance (server : Supervisor) : Decidable server.Watches :=
  inferInstanceAs (Decidable (_ → _))

/-- As long as the server is to keep a crawler running, every `fork` starts its process, and no
child emits `error` while a crawler process is alive.
-/
def Healthy (server : Supervisor) : Event → Prop
  | .timer outcome => server.Supervises → outcome = .started
  | .error _ => server.Supervises → server.running = []
  | .exit _ | .shutdown | .quit => True

instance : DecidableRel Healthy := fun server event =>
  match event with
  | .timer outcome => inferInstanceAs (Decidable (server.Supervises → outcome = .started))
  | .error _ => inferInstanceAs (Decidable (server.Supervises → server.running = []))
  | .exit _ | .shutdown | .quit => .isTrue trivial

-----------------------------------------------------------------------------------------
-- What each event does
-----------------------------------------------------------------------------------------

/-- The outcomes of `crawlerWorker = setupWorker()`. -/
inductive LaunchCase (server : Supervisor) : ForkOutcome → Supervisor → Prop
  | exhausted (outcome : ForkOutcome) (many : maxCrawlerRestarts < server.crawlerRestarts)
    : LaunchCase server outcome { server with crawlerWorker := none }
  | threw (few : server.crawlerRestarts ≤ maxCrawlerRestarts)
    : LaunchCase server .throws {
        server with
        crawlerWorker := none
        forks := server.isShuttingDown :: server.forks
      }
  | failed (few : server.crawlerRestarts ≤ maxCrawlerRestarts)
    : LaunchCase server .spawnFails {
        server with
        crawlerWorker := some server.children
        forks := server.isShuttingDown :: server.forks
        children := server.children + 1
        workerAlive := true
      }
  | started (few : server.crawlerRestarts ≤ maxCrawlerRestarts)
    : LaunchCase server .started {
        server with
        crawlerWorker := some server.children
        forks := server.isShuttingDown :: server.forks
        children := server.children + 1
        running := server.children :: server.running
        workerAlive := true
      }

/-- Every launch has one of the listed outcomes. -/
theorem launch_spec (server : Supervisor) (outcome : ForkOutcome)
    : LaunchCase server outcome (server.launch outcome) := by
  by_cases many : maxCrawlerRestarts < server.crawlerRestarts
  · simpa [launch, setupWorker, many] using LaunchCase.exhausted outcome many
  · have few := Nat.not_lt.mp many
    cases outcome with
    | throws => simpa [launch, setupWorker, many] using LaunchCase.threw few
    | spawnFails => simpa [launch, setupWorker, many] using LaunchCase.failed few
    | started => simpa [launch, setupWorker, many] using LaunchCase.started few

/-- The outcomes of the handling of an event. -/
inductive StepCase (server : Supervisor) : Event → Supervisor → Prop
  | exit (child : Nat) (alive : child ∈ server.running)
    : StepCase server (.exit child) {
        server with
        workerAlive := false
        crawlerRestarts := server.crawlerRestarts + 1
        running := server.running.erase child
        timers := server.timers + 1
      }
  | error (child : Nat) : StepCase server (.error child) { server with workerAlive := false }
  | late (outcome : ForkOutcome) (pending : 0 < server.timers)
    (ending : server.isShuttingDown = true)
    : StepCase server (.timer outcome) { server with timers := server.timers - 1 }
  | restart (outcome : ForkOutcome) (pending : 0 < server.timers)
    (serving : server.isShuttingDown = false) (next : Supervisor)
    (launched : LaunchCase { server with timers := server.timers - 1 } outcome next)
    : StepCase server (.timer outcome) next
  | shutdown : StepCase server .shutdown { server with isShuttingDown := true }
  | quit (ending : server.isShuttingDown = true)
    : StepCase server .quit { server with up := false }

variable {server next : Supervisor} {event : Event} {outcome : ForkOutcome}

/-- Inversion of a step, by the outcomes of its event. -/
theorem step_cases (taken : server.step event = some next) : StepCase server event next := by
  unfold step at taken
  split at taken
  · cases event with
    | exit child =>
        obtain ⟨alive, same⟩ := Option.ite_none_right_eq_some.mp taken
        obtain rfl := Option.some.inj same
        exact .exit child alive
    | error child =>
        obtain ⟨_, same⟩ := Option.ite_none_right_eq_some.mp taken
        obtain rfl := Option.some.inj same
        exact .error child
    | timer outcome =>
        obtain ⟨pending, same⟩ := Option.ite_none_right_eq_some.mp taken
        obtain rfl := Option.some.inj same
        cases ending : server.isShuttingDown with
        | true => simpa [ending] using StepCase.late outcome pending ending
        | false =>
            simpa [ending] using StepCase.restart outcome pending ending _ (launch_spec ..)
    | shutdown =>
        obtain rfl := Option.some.inj taken
        exact .shutdown
    | quit =>
        obtain ⟨ending, same⟩ := Option.ite_none_right_eq_some.mp taken
        obtain rfl := Option.some.inj same
        exact .quit ending
  · cases taken

-----------------------------------------------------------------------------------------
-- What holds in every run
-----------------------------------------------------------------------------------------

/-- There is one crawler process at most, counting those that a timer will fork. -/
structure Single (server : Supervisor) : Prop where
  one : server.running.length + server.timers ≤ 1
  early : ∀ late ∈ server.forks, late = false

/-- A launch forks one process at most, when there is none and no other timer. -/
theorem Single.launched (single : server.Single) (free : server.running = [])
    (due : server.timers = 0) (serving : server.isShuttingDown = false)
    (launched : LaunchCase server outcome next)
    : next.Single := by
  have early : ∀ late ∈ server.isShuttingDown :: server.forks, late = false := by
    simpa [serving] using single.early
  cases launched with
  | exhausted => exact ⟨single.one, single.early⟩
  | threw | failed => exact ⟨single.one, early⟩
  | started => exact ⟨by simp [free, due], early⟩

/-- Every event keeps it so: an exit trades a process for a timer, and a timer that fires trades
itself for a process.
-/
theorem Single.step (single : server.Single) (taken : server.step event = some next)
    : next.Single := by
  have one := single.one
  cases step_cases taken with
  | error | shutdown | quit => exact ⟨one, single.early⟩
  | exit child alive =>
      refine ⟨?_, single.early⟩
      have fewer := List.length_erase_of_mem alive
      have some_ := List.length_pos_of_mem alive
      simp only
      omega
  | late outcome pending => exact ⟨by simp only; omega, single.early⟩
  | restart outcome pending serving next launched =>
      have free : server.running = [] := List.length_eq_zero_iff.mp (by omega)
      have fired : { server with timers := server.timers - 1 }.Single :=
        ⟨by simp only; omega, single.early⟩
      exact fired.launched free (by simp only; omega) serving launched

/-- The server boots with one process at most. -/
theorem single_boot (outcome : ForkOutcome) : (boot outcome).Single := by
  cases outcome <;> exact ⟨by decide, by decide⟩

/-- In every run there is one process at most, and none is forked during the shutdown. -/
theorem single_of_reaches (reached : Reaches step (boot outcome) server) : server.Single :=
  reached.invariant (single_boot outcome) fun single _ taken => single.step taken

-----------------------------------------------------------------------------------------
-- What holds as long as processes start and report their end
-----------------------------------------------------------------------------------------

/-- A timer fires when there is no crawler process and no other timer. -/
theorem Single.free (single : server.Single) (pending : 0 < server.timers)
    : server.running = [] ∧ server.timers = 1 := by
  have one := single.one
  exact ⟨List.length_eq_zero_iff.mp (by omega), by omega⟩

/-- A healthy event keeps the watch: an exit leaves a timer behind, and a timer that fires leaves
a process.
-/
theorem Watches.step (watches : server.Watches) (single : server.Single)
    (healthy : server.Healthy event) (taken : server.step event = some next)
    : next.Watches := by
  intro supervises
  cases step_cases taken with
  | exit child alive =>
      have one := single.one
      have fewer := List.length_erase_of_mem alive
      have gone : server.running.erase child = [] := List.length_eq_zero_iff.mp (by omega)
      simp [gone]
  | error child =>
      have supervised : server.Supervises := supervises
      have gone : server.running = [] := healthy supervised
      simpa [gone] using (watches supervised).1
  | late outcome pending ending | quit ending => simp [Supervises, ending] at supervises
  | shutdown => simp [Supervises] at supervises
  | restart outcome pending serving next launched =>
      cases launched with
      | exhausted _ many => exact absurd supervises.2 (Nat.not_le.mpr many)
      | started => simp
      | threw few | failed few => exact nomatch healthy ⟨serving, few⟩

/-- An event that is not healthy ends the watch at once: the process is alive and taken for dead,
or there is neither a process nor a timer.
-/
theorem not_watches_of_step (single : server.Single) (unhealthy : ¬ server.Healthy event)
    (taken : server.step event = some next)
    : ¬ next.Watches := by
  intro watches
  cases step_cases taken with
  | exit | shutdown | quit => exact unhealthy trivial
  | error child =>
      obtain ⟨supervises, alive⟩ := Classical.not_imp.mp unhealthy
      exact absurd ((watches supervises).2.mpr alive) (by simp)
  | late outcome pending ending =>
      exact unhealthy fun supervises => absurd ending (by simp [supervises.1])
  | restart outcome pending serving next launched =>
      obtain ⟨supervises, other⟩ := Classical.not_imp.mp unhealthy
      obtain ⟨free, one⟩ := single.free pending
      cases launched with
      | started => exact other rfl
      | exhausted _ many => exact absurd supervises.2 (Nat.not_le.mpr many)
      | threw | failed =>
          have kept := (watches supervises).1
          simp [free, one] at kept

/-- The supervision of the crawler. In every run at most one crawler process is alive, and none
is forked after the shutdown has begun. As long as every `fork` starts its process and no child
emits `error` while a crawler process is alive, there is a process or a pending restart timer,
and `workerAlive` tells which; the first time that this fails, the server loses its crawler or
takes a living one for dead.
-/
theorem supervised (outcome : ForkOutcome) (server : Supervisor)
    : (Reaches step (boot outcome) server → server.OneCrawler)
      ∧ (Run step Healthy (boot .started) server → server.Watches)
      ∧ (outcome ≠ .started → ¬ (boot outcome).Watches)
      ∧ ∀ next event,
          Run step Healthy (boot .started) server
          → ¬ server.Healthy event
          → server.step event = some next
          → ¬ next.Watches := by
  refine ⟨fun reached => ?_, fun run => ?_, fun other => ?_, ?_⟩
  · have single := single_of_reaches reached
    exact ⟨Nat.le_of_add_right_le single.one, single.early⟩
  · have kept : server.Single ∧ server.Watches := by
      induction run with
      | refl => exact ⟨single_boot _, by decide⟩
      | next _ healthy taken ih =>
          exact ⟨ih.1.step taken, ih.2.step ih.1 healthy taken⟩
    exact kept.2
  · cases outcome with
    | started => exact absurd rfl other
    | spawnFails | throws => decide
  · intro next event run unhealthy taken
    exact not_watches_of_step (single_of_reaches run.reaches) unhealthy taken

/-- A crawler that exits is replaced when its timer fires. -/
theorem supervised_of_restart
    : ∃ server : Supervisor,
        server.Watches ∧ server.running = [1] ∧ server.crawlerRestarts = 1 := by
  have passes : (execute step Healthy (boot .started) [.exit 0, .timer .started]).any
      (fun server => decide (server.running = [1] ∧ server.crawlerRestarts = 1)) = true := by
    decide
  obtain ⟨server, run, reached⟩ := exists_run_of_any passes
  exact ⟨server, (supervised .started server).2.1 run, of_decide_eq_true reached⟩

/-- A restart whose spawn fails leaves the server without a crawler and without a timer: the child
emits `error`, and nothing else happens.
-/
theorem supervised_fails_for_spawn
    : ¬ ∀ outcome server,
        Reaches step (boot outcome) server → server.OneCrawler ∧ server.Watches := by
  intro claim
  have passes : (execute step anyStep (boot .started) [.exit 0, .timer .spawnFails, .error 1]).any
      (fun server => decide (¬ server.Watches)) = true := by
    decide
  obtain ⟨server, run, lost⟩ := exists_run_of_any passes
  exact of_decide_eq_true lost (claim .started server run).2

end Supervisor

end WebIndexer.Server
