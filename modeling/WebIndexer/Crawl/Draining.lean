import WebIndexer.Crawl.Work
import WebIndexer.Library.History

/-! The work that is left in a crawl pays for its steps, so that the loop cannot spin, and it can
always be done, so that the loop cannot get stuck.
-/

namespace WebIndexer.Crawl

open WebIndexer.Config
open WebIndexer.Fetcher
open WebIndexer.Library
open WebIndexer.Runtime
open WebIndexer.Store

-----------------------------------------------------------------------------------------
-- The work of a crawl
-----------------------------------------------------------------------------------------

/-- The work of an invocation of `processNext`, with its wake-up. -/
def invocationWork : Nat := 1 + Point.entry.work

/-- The work of a tick of the statistics timer. -/
def refreshWork : Nat := 21 + 7 * seedsMost

/-- The work of some threads is that of the first and of the others. -/
theorem waitOf_cons (thread : Thread) (threads : List Thread)
    : waitOf (thread :: threads) = thread.wait + waitOf threads :=
  rfl

/-- Work adds up. -/
theorem waitOf_append (left right : List Thread)
    : waitOf (left ++ right) = waitOf left + waitOf right := by
  simp only [waitOf, List.map_append, List.sum_append]

/-- The order of threads does not matter. -/
theorem waitOf_perm {left right : List Thread} (same : left.Perm right)
    : waitOf left = waitOf right :=
  (same.map Thread.wait).sum_nat

/-- A reply brings no more rows than its query asks for. -/
theorem Executed.rows_le {env : Env} {tables after : Tables} {statement : Statement}
    {ending : Ending} {reply : Option Value} {point : Point}
    (executed : Executed env tables statement ending after reply)
    (waits : point.statement = some statement)
    : point.rowWork * (Input.reply reply).rows ≤ point.rowWork * point.rowsMost := by
  cases executed with
  | lost | rejected => exact Nat.zero_le _
  | done ran =>
      cases point with
      | batchRead cursor =>
          obtain rfl := Option.some.inj waits
          obtain ⟨rfl, rfl⟩ := Prod.mk.inj (Option.some.inj ran)
          unfold Point.rowsMost batchMost
          exact Nat.mul_le_mul_left _ (List.length_take_le _ _)
      | recrawlRead limit =>
          obtain rfl := Option.some.inj waits
          obtain ⟨chosen, same⟩ := Option.ite_none_right_eq_some.mp ran
          obtain ⟨rfl, rfl⟩ := Prod.mk.inj (Option.some.inj same)
          simp only [limits, Bool.and_eq_true, decide_eq_true_eq] at chosen
          exact Nat.mul_le_mul_left _ (Nat.le_trans (Nat.le_of_eq chosen.2) (Nat.min_le_left _ _))
      | _ => exact (Nat.zero_mul _).le.trans (Nat.zero_le _)

namespace State

variable {env : Env} {state next : State} {label : Label}

/-- The most steps that are left until only new invocations of `processNext` remain. -/
def work (state : State) : Nat :=
  (state.running.map Thread.work).getD 0 + waitOf state.pool

/-- The step wakes a new invocation of `processNext`. -/
def invokes (state : State) : Label → Bool
  | .wake index => (pick state.pool index).any fun picked => picked.1.isEntry
  | _ => false

/-- The clock, a timer or a message, apart from the statistics timer. -/
def Label.isEvent : Label → Bool
  | .tick _ | .clearTimer | .diskTimer .. | .message .. => true
  | _ => false

/-- The work that a step brings in. -/
def credit (state : State) (label : Label) : Nat :=
  if state.invokes label then invocationWork
  else if label = .statsTimer then refreshWork
  else if Label.isEvent label then 4
  else 0

/-- A step draws no more seeds than a batch has. -/
def ShortDraw : Label → Prop
  | .run seeds => seeds.length ≤ seedsMost
  | _ => True

/-- An answered thread has less work to do. -/
theorem work_answer {index : Nat} {shared : Shared} {old new : Thread} {rest : List Thread}
    (idle : state.running = none) (picked : pick state.pool index = some (old, rest))
    (less : new.wait < old.wait)
    : State.work ⟨shared, state.running, new :: rest⟩ < state.work := by
  have pool := waitOf_perm (pick_perm picked)
  rw [waitOf_cons] at pool
  simp only [work, idle, Option.map_none, Option.getD_none, waitOf_cons, pool]
  omega

/-- A new thread brings in its work. -/
theorem work_begin (shared : Shared) (thread : Thread)
    : State.work ⟨shared, state.running, thread :: state.pool⟩ = state.work + thread.wait := by
  simp only [work, waitOf_cons]
  omega

/-- A woken thread has less to do, unless it is a new invocation. -/
theorem wait_ready (input : Input) (point : Point)
    : Thread.work ⟨.ready input, point⟩ + 1
      ≤ Thread.wait ⟨.ready input, point⟩
        + if Thread.isEntry ⟨.ready input, point⟩ then invocationWork else 0 := by
  unfold Thread.wait
  split
  · rename_i entry
    cases point with
    | entry =>
        have work : Thread.work ⟨.ready input, .entry⟩ = Point.entry.work :=
          congrArg (Point.entry.work + ·) (Nat.zero_mul input.rows)
        rw [work]
        unfold invocationWork
        omega
    | _ => cases entry
  · omega

/-- An answered request has less to do: five redirects are followed at most. -/
theorem wait_respond {shared after : Shared} {url : String} {redirects : Nat} {point : Point}
    {thread : Thread} {event : HttpEvent}
    (responded : respond env shared url redirects point event = some (after, thread))
    : thread.wait < Thread.wait ⟨.http url redirects, point⟩ := by
  change _ < 1 + (2 + (5 - redirects) + point.work)
  have new := thread.wait_le
  cases event with
  | redirect location =>
      obtain ⟨target, _, same⟩ := Option.map_eq_some_iff.mp responded
      unfold Shared.fetchHtmlRaw at same
      split at same
      · obtain ⟨_, rfl⟩ := Prod.mk.inj same
        simp only [Thread.work] at new
        omega
      · obtain ⟨_, rfl⟩ := Prod.mk.inj same
        simp only [Thread.work] at new
        omega
  | page html =>
      obtain ⟨_, rfl⟩ := Prod.mk.inj (Option.some.inj responded)
      simp only [Thread.work] at new
      omega
  | failure =>
      obtain ⟨_, rfl⟩ := Prod.mk.inj (Option.some.inj responded)
      simp only [Thread.work] at new
      omega

/-- Every step is paid for, by the work that it does or by what it is credited with. -/
theorem step_pays (short : ShortDraw label) (taken : state.step env label = some next)
    : next.work + 1 ≤ state.work + state.credit label := by
  cases label with
  | tick elapsed =>
      obtain rfl := Option.some.inj taken
      exact Nat.add_le_add_left (by decide : 1 ≤ 4) _
  | run seeds =>
      simp only [step] at taken
      split at taken
      · rename_i input point running
        obtain rfl := Option.some.inj taken
        have less := (state.shared.resume_flow env seeds input point).work_lt short
        generalize state.shared.resume env seeds input point = outcome at less
        have left : outcome.next.map (fun point => Thread.work ⟨.ready .nothing, point⟩)
            = outcome.next.map Point.work := rfl
        simp only [work, running, Option.map_some, Option.getD_some, Option.map_map, waitOf_append,
          Function.comp_def, left, Outcome.work] at less ⊢
        omega
      · cases taken
  | exec index ending choice =>
      simp only [step] at taken
      split at taken
      · rename_i point rest idle picked
        obtain ⟨⟨tables, thread⟩, answered, rfl⟩ := Option.map_eq_some_iff.mp taken
        obtain ⟨statement, reply, waits, executed, rfl⟩ := answer_spec answered
        refine Nat.le_add_right_of_le (work_answer idle picked ?_)
        have rows := executed.rows_le waits
        have new : Thread.wait ⟨.ready (.reply reply), point⟩
            ≤ 1 + (point.work + point.rowWork * (Input.reply reply).rows) := Thread.wait_le _
        change Thread.wait ⟨.ready (.reply reply), point⟩
          < 1 + (1 + point.work + point.rowWork * point.rowsMost)
        omega
      · cases taken
  | http index event =>
      simp only [step] at taken
      split at taken
      · rename_i url redirects point rest idle picked
        obtain ⟨⟨shared, thread⟩, responded, rfl⟩ := Option.map_eq_some_iff.mp taken
        exact Nat.le_add_right_of_le (work_answer idle picked (wait_respond responded))
      · cases taken
  | record index =>
      simp only [step] at taken
      split at taken
      · rename_i response point rest idle picked
        obtain rfl := Option.some.inj taken
        refine Nat.le_add_right_of_le (work_answer idle picked ?_)
        have new : Thread.wait ⟨.ready (.response response), point⟩ ≤ 1 + point.work :=
          Thread.wait_le _
        change _ < 1 + (1 + point.work)
        omega
      · cases taken
  | wake index =>
      simp only [step] at taken
      split at taken
      · rename_i input point rest idle picked
        obtain rfl := Option.some.inj taken
        have invoked : state.invokes (.wake index) = Thread.isEntry ⟨.ready input, point⟩ := by
          simp [invokes, picked]
        have pool := waitOf_perm (pick_perm picked)
        rw [waitOf_cons] at pool
        have woken := wait_ready input point
        have before : state.work = waitOf state.pool := by simp [work, idle]
        have credited : state.credit (.wake index)
            = if Thread.isEntry ⟨.ready input, point⟩ then invocationWork else 0 := by
          simp [credit, invoked, Label.isEvent]
        change Thread.work ⟨.ready input, point⟩ + waitOf rest + 1 ≤ _
        rw [before, pool, credited]
        omega
      · cases taken
  | statsTimer =>
      simp only [step] at taken
      split at taken
      · obtain rfl := Option.some.inj taken
        rw [work_begin]
        have credited : state.credit .statsTimer = refreshWork := by simp [credit, invokes]
        have wait (full : Bool)
            : Thread.wait ⟨.statement, .nodesCounted full⟩ + 1 = refreshWork := by
          change 1 + (1 + (18 + 7 * seedsMost) + 0 * 0) + 1 = 21 + 7 * seedsMost
          omega
        rw [credited, Nat.add_assoc, wait]
      · cases taken
  | clearTimer =>
      simp only [step] at taken
      split at taken
      · split at taken
        · obtain rfl := Option.some.inj taken
          exact Nat.add_le_add_left (by decide : 1 ≤ 4) _
        · obtain rfl := Option.some.inj taken
          rw [work_begin]
          exact Nat.le_refl _
      · cases taken
  | diskTimer avail usagePct =>
      simp only [step] at taken
      split at taken
      · obtain rfl := Option.some.inj taken
        exact Nat.add_le_add_left (by decide : 1 ≤ 4) _
      · cases taken
  | message url depth parent =>
      simp only [step] at taken
      split at taken
      · split at taken
        · obtain rfl := Option.some.inj taken
          rw [work_begin]
          exact Nat.le_refl _
        · cases taken
      · cases taken

-----------------------------------------------------------------------------------------
-- Runs
-----------------------------------------------------------------------------------------

/-- What a crawl has done: its steps, the new invocations of `processNext` that it has woken, the
ticks of the statistics timer, and the events besides.
-/
structure Activity where
  steps : Nat
  invocations : Nat
  refreshes : Nat
  events : Nat

/-- Count a step. -/
def observe (state : State) (label : Label) (done : Activity) : Activity where
  steps := done.steps + 1
  invocations := done.invocations + (state.invokes label).toNat
  refreshes := done.refreshes + (decide (label = .statsTimer)).toNat
  events := done.events + (Label.isEvent label).toNat

/-- What the steps of a crawl are credited with. -/
def Activity.credit (done : Activity) : Nat :=
  invocationWork * done.invocations + refreshWork * done.refreshes + 4 * done.events

/-- The credit of a step is added. -/
theorem credit_observe (state : State) (label : Label) (done : Activity)
    : (state.observe label done).credit = done.credit + state.credit label := by
  have sum : (state.observe label done).credit
      = done.credit + (invocationWork * (state.invokes label).toNat
        + refreshWork * (decide (label = .statsTimer)).toNat
        + 4 * (Label.isEvent label).toNat) := by
    simp only [observe, Activity.credit, Nat.mul_add]
    omega
  rw [sum]
  refine congrArg (done.credit + ·) ?_
  cases label with
  | wake index =>
      cases invoked : state.invokes (.wake index) <;>
        simp [credit, invoked, Label.isEvent]
  | _ => simp [credit, invokes, Label.isEvent]

/-- The seeds that a piece of the script draws are those of `getRandomSeeds`. -/
def DrawsSeeds (lists : SeedLists) (label : Label) : Prop :=
  ∀ seeds, label = .run seeds →
    seeds = [] ∨ ∃ draw : Draw lists, seeds = getRandomSeeds draw seedBatch

/-- They are no more than a batch has. -/
theorem DrawsSeeds.short {lists : SeedLists} (draws : DrawsSeeds lists label)
    : ShortDraw label := by
  cases label with
  | run seeds =>
      rcases draws seeds rfl with rfl | ⟨draw, rfl⟩
      · exact Nat.zero_le _
      · exact length_getRandomSeeds draw
  | _ => trivial

/-- The steps so far have been paid for. -/
def Paid (start : State) (observed : State × Activity) : Prop :=
  observed.2.steps + observed.1.work ≤ start.work + observed.2.credit

/-- They stay paid for. -/
theorem Paid.step {start : State} {observed after : State × Activity}
    (paid : Paid start observed) (short : ShortDraw label)
    (taken : observing (step env) observe observed label = some after)
    : Paid start after := by
  obtain ⟨stepped, noted⟩ := observing_cases taken
  have pays := step_pays short stepped
  have credited := credit_observe observed.1 label observed.2
  have counted : (observed.1.observe label observed.2).steps = observed.2.steps + 1 := rfl
  unfold Paid at paid ⊢
  rw [noted, credited, counted]
  omega

/-- The work of a crawl that begins is that of one invocation, and the start-up closure. -/
theorem Begins.work {start : State} (begins : start.Begins) : start.work = 9533 := by
  have entry : start.work = Point.entry.work + (1 + (1 + 1)) := by
    obtain ⟨_, _, _, _, _, _, rfl⟩ := begins
    rfl
  rw [entry]
  simp only [Point.work, seedsMost, seedBatch, batchMost]

/-- The crawl never spins: the steps of every run are bounded by the invocations of `processNext`,
the ticks of the timers, the messages and the moments of the clock that it has seen, whatever the
database and the servers answer.
-/
theorem steps_bounded {start : State} {lists : SeedLists} {done : Activity} (begins : start.Begins)
    (run : Run (observing (step env) observe) (fun _ label => DrawsSeeds lists label)
      (start, ⟨0, 0, 0, 0⟩) (state, done))
    : done.steps
      ≤ 9533 + 9531 * done.invocations + 7791 * done.refreshes + 4 * done.events := by
  have paid : Paid start (state, done) :=
    run.invariant (Nat.le_of_eq (Nat.zero_add _)) fun paid draws taken =>
      paid.step draws.short taken
  have invocation : invocationWork = 9531 := by
    simp only [invocationWork, Point.work, seedsMost, seedBatch, batchMost]
  have refresh : refreshWork = 7791 := by
    simp only [refreshWork, seedsMost, seedBatch]
  simp only [Paid, Activity.credit, begins.work, invocation, refresh] at paid
  omega

/-- A step draws no seeds. -/
def drawsNothing : Label → Bool
  | .run seeds => seeds = []
  | _ => true

/-- The steps of the overlapping invocations are bounded. -/
theorem steps_bounded_of_overlap
    : ∃ state done,
        Run (observing (step plainEnv) observe) (fun _ label => DrawsSeeds ⟨[], [], []⟩ label)
          (plainCrawl overlapPages, ⟨0, 0, 0, 0⟩) (state, done)
        ∧ done.steps = overlap.length
        ∧ done.steps
          ≤ 9533 + 9531 * done.invocations + 7791 * done.refreshes + 4 * done.events := by
  have passes
      : (execute (observing (step plainEnv) observe) (fun _ label => drawsNothing label = true)
          (plainCrawl overlapPages, ⟨0, 0, 0, 0⟩) overlap).any
          (fun observed => observed.2.steps = overlap.length)
        = true := by
    decide +kernel
  obtain ⟨⟨state, done⟩, run, counted⟩ := exists_run_of_any passes
  have draws : Run _ (fun _ label => DrawsSeeds ⟨[], [], []⟩ label) _ _ :=
    run.mono fun _ _ nothing seeds same => by
      subst same
      exact .inl (of_decide_eq_true nothing)
  exact ⟨state, done, draws, of_decide_eq_true counted,
    steps_bounded (plainCrawl_begins overlapPages) draws⟩

-----------------------------------------------------------------------------------------
-- What remains
-----------------------------------------------------------------------------------------

/-- What holds between any two steps of a crawl: a running piece has what it waited for, a thread
that waits for the database has a statement there, and the slots are taken by page fetches.
-/
structure Tidy (state : State) : Prop where
  running : ∀ thread, state.running = some thread → ∃ input, thread.phase = .ready input
  asks : ∀ thread ∈ state.threads, thread.Asks
  active : state.shared.active = state.inFlight

/-- A crawl that begins is tidy. -/
theorem Begins.tidy {start : State} (begins : start.Begins) : start.Tidy := by
  have asks : ∀ thread ∈ start.threads, thread.Asks :=
    begins.forall_threads nofun fun _ => rfl
  obtain ⟨_, _, _, _, _, _, rfl⟩ := begins
  refine ⟨?_, asks, rfl⟩
  rintro _ ⟨⟩
  exact ⟨.nothing, rfl⟩

/-- A running piece has what it waited for. -/
theorem ready_of_step (taken : state.step env label = some next)
    (ready : ∀ thread, state.running = some thread → ∃ input, thread.phase = .ready input)
    : ∀ thread, next.running = some thread → ∃ input, thread.phase = .ready input := by
  cases label with
  | run seeds =>
      simp only [step] at taken
      split at taken
      · obtain rfl := Option.some.inj taken
        intro thread running
        obtain ⟨point, _, rfl⟩ := Option.map_eq_some_iff.mp running
        exact ⟨.nothing, rfl⟩
      · cases taken
  | wake index =>
      simp only [step] at taken
      split at taken
      · rename_i input point _ _ _
        obtain rfl := Option.some.inj taken
        rintro thread ⟨⟩
        exact ⟨input, rfl⟩
      · cases taken
  | tick elapsed =>
      obtain rfl := Option.some.inj taken
      exact ready
  | exec index ending choice | http index event =>
      simp only [step] at taken
      split at taken
      · obtain ⟨_, _, rfl⟩ := Option.map_eq_some_iff.mp taken
        exact ready
      · cases taken
  | record | statsTimer | diskTimer =>
      simp only [step] at taken
      split at taken
      · obtain rfl := Option.some.inj taken
        exact ready
      · cases taken
  | clearTimer | message =>
      simp only [step] at taken
      split at taken
      · split at taken
        · obtain rfl := Option.some.inj taken
          exact ready
        · first
          | obtain rfl := Option.some.inj taken
            exact ready
          | cases taken
      · cases taken

/-- A step leaves threads that ask something. -/
theorem asks_of_step (asks : ∀ thread ∈ state.threads, thread.Asks)
    (taken : state.step env label = some next)
    : ∀ thread ∈ next.threads, thread.Asks := by
  refine forall_threads_of_step taken asks ?begun ?left ?answered ?redirected ?settled ?recorded
  case begun =>
    intro thread background
    cases background <;> exact fun _ => rfl
  case left =>
    intro seeds input point _ _ _ _
    exact (state.shared.resume_flow env seeds input point).asks
  case answered => exact fun _ _ _ _ _ _ _ _ _ waits => by cases waits
  case redirected =>
    intro url redirects target point thread _ fetch _ waits
    generalize next.shared = after at fetch
    cases fetch <;> cases waits
  case settled => exact fun _ _ _ _ _ _ waits => by cases waits
  case recorded => exact fun _ _ _ waits => by cases waits

/-- A step leaves a tidy crawl. -/
theorem Tidy.step (tidy : state.Tidy) (taken : state.step env label = some next) : next.Tidy where
  running := ready_of_step taken tidy.running
  asks := asks_of_step tidy.asks taken
  active := active_of_step tidy.active taken

/-- A step of the crawl itself: no timer ticks, no message arrives, the clock stands still, and no
new invocation of `processNext` begins.
-/
def Quiet (lists : SeedLists) (state : State) (label : Label) : Prop :=
  DrawsSeeds lists label ∧ label ≠ .statsTimer ∧ Label.isEvent label = false
  ∧ state.invokes label = false

/-- Nothing is left but new invocations of `processNext`, and no page fetch is in flight. -/
structure Drained (state : State) : Prop where
  idle : state.running = none
  entries : ∀ thread ∈ state.threads, thread.isEntry = true
  active : state.shared.active = 0

/-- A quiet step is paid for by the work that it does. -/
theorem Quiet.work_lt {lists : SeedLists} (quiet : Quiet lists state label)
    (taken : state.step env label = some next)
    : next.work < state.work := by
  obtain ⟨draws, timer, event, invokes⟩ := quiet
  have pays := step_pays draws.short taken
  have credited : state.credit label = 0 := by simp [credit, timer, event, invokes]
  rw [credited] at pays
  exact pays

/-- Where no quiet step is left, the crawl is drained. -/
theorem Tidy.drained {lists : SeedLists} (tidy : state.Tidy)
    (stuck : ∀ label, Quiet lists state label → state.step env label = none)
    : state.Drained := by
  have idle : state.running = none := by
    cases running : state.running with
    | none => rfl
    | some thread =>
        obtain ⟨phase, point⟩ := thread
        obtain ⟨input, same⟩ := tidy.running _ running
        obtain rfl : phase = .ready input := same
        have quiet : Quiet lists state (.run []) :=
          ⟨fun seeds same => .inl (Label.run.inj same).symm, by rintro ⟨⟩, rfl, rfl⟩
        have stopped := stuck _ quiet
        unfold State.step at stopped
        rw [running] at stopped
        cases stopped
  have entries : ∀ thread ∈ state.threads, thread.isEntry = true := by
    rintro ⟨phase, point⟩ member
    have asks := tidy.asks _ member
    rw [threads_of_idle idle] at member
    obtain ⟨index, rest, picked⟩ := exists_pick member
    cases phase with
    | statement =>
        obtain ⟨statement, waits⟩ := Option.isSome_iff_exists.mp (asks rfl)
        have stopped := stuck (.exec index .rejected {}) ⟨by rintro _ ⟨⟩, by rintro ⟨⟩, rfl, rfl⟩
        simp only [State.step, idle, picked, answer, waits] at stopped
        cases stopped
    | http url redirects =>
        have stopped := stuck (.http index .failure) ⟨by rintro _ ⟨⟩, by rintro ⟨⟩, rfl, rfl⟩
        simp only [State.step, idle, picked] at stopped
        cases stopped
    | settled response =>
        have stopped := stuck (.record index) ⟨by rintro _ ⟨⟩, by rintro ⟨⟩, rfl, rfl⟩
        simp only [State.step, idle, picked] at stopped
        cases stopped
    | ready input =>
        by_contra other
        have invokes : state.invokes (.wake index) = false := by
          simp only [State.invokes, picked, Option.any_some]
          exact Bool.eq_false_iff.mpr other
        have stopped := stuck (.wake index) ⟨by rintro _ ⟨⟩, by rintro ⟨⟩, rfl, invokes⟩
        simp only [State.step, idle, picked] at stopped
        cases stopped
  refine ⟨idle, entries, ?_⟩
  have roles : state.roles = [] := by
    refine List.filterMap_eq_nil_iff.mpr fun thread member => ?_
    have entry := entries thread member
    unfold Thread.isEntry at entry
    split at entry
    · rfl
    · cases entry
  rw [tidy.active, inFlight, fetches, roles]
  rfl

/-- A quiet run is a run of a tidy crawl whose steps are paid for by the work that they do. -/
theorem quiet_run {lists : SeedLists} {later : State} {steps : Nat} (tidy : state.Tidy)
    (run : Run (observing (step env) fun _ _ steps => steps + 1)
      (fun observed => Quiet lists observed.1) (state, 0) (later, steps))
    : later.Tidy ∧ steps + later.work ≤ state.work := by
  refine @Run.invariant _ _ _ _ _ _
    (fun observed => observed.1.Tidy ∧ observed.2 + observed.1.work ≤ state.work)
    ⟨tidy, Nat.le_of_eq (Nat.zero_add _)⟩ ?_ run
  intro before after label kept quiet taken
  obtain ⟨stepped, counted⟩ := observing_cases taken
  have less := Quiet.work_lt quiet stepped
  refine ⟨kept.1.step stepped, ?_⟩
  have paid := kept.2
  rw [counted]
  omega

/-- The crawl never gets stuck: from every reachable state on, whatever the database and the servers
answer, a run in which no timer ticks, no message arrives and no new invocation of `processNext`
begins takes no more steps than there is work, and where it cannot go on, no page fetch is in
flight and nothing is left but new invocations. There is always such a run.
-/
theorem quiet_runs_drain {start : State} {lists : SeedLists} (begins : start.Begins)
    (reached : Reaches (step env) start state)
    : (∀ later steps,
        Run (observing (step env) fun _ _ steps => steps + 1)
          (fun observed => Quiet lists observed.1) (state, 0) (later, steps) →
        steps ≤ state.work
        ∧ ((∀ label, Quiet lists later label → later.step env label = none) → later.Drained))
      ∧ ∃ later, Run (step env) (Quiet lists) state later ∧ later.Drained := by
  have tidy : state.Tidy :=
    reached.invariant begins.tidy fun tidy _ taken => tidy.step taken
  refine ⟨fun later steps run => ?_, ?_⟩
  · obtain ⟨kept, paid⟩ := quiet_run tidy run
    exact ⟨Nat.le_trans (Nat.le_add_right _ _) paid, kept.drained⟩
  · have stops : ∃ later, Run (step env) (Quiet lists) state later
        ∧ ∀ label, Quiet lists later label → later.step env label = none :=
      Run.exists_stuck (fun _ _ _ quiet taken => quiet.work_lt taken) state
    obtain ⟨later, run, stuck⟩ := stops
    have kept : later.Tidy := run.invariant tidy fun tidy _ taken => tidy.step taken
    exact ⟨later, run, kept.drained stuck⟩

/-- The crawl of three pages can always drain. -/
theorem quiet_runs_drain_of_overlap
    : ∃ later,
        Run (step plainEnv) (Quiet ⟨[], [], []⟩) (plainCrawl overlapPages) later
        ∧ later.Drained :=
  (quiet_runs_drain (plainCrawl_begins overlapPages) (.refl _)).2

end State

end WebIndexer.Crawl
