import WebIndexer.Crawl.Turns

/-! What an address is marked as visited for. A fetch that the breaker rejects reaches the same
handler as a dead page, so an address has earned its mark only if the breaker admitted its
fetch, and a request could be made.
-/

namespace WebIndexer.Crawl

open WebIndexer.Circuit
open WebIndexer.Config
open WebIndexer.Fetcher
open WebIndexer.Library
open WebIndexer.Runtime
open WebIndexer.Store

/-- The mark of an address is earned: the address was fetched as a re-crawl, a request was
issued for it, or a rule of its origin's robots.txt blocked it.
-/
inductive Earned (env : Env) (shared : Shared) (url : String) : Prop
  | recrawled {job : FrontierItem} (started : job ∈ shared.started)
    (recrawl : isRecrawl job = true) (same : job.url = url)
  | requested (issued : url ∈ shared.requested)
  | blocked {parsed : Url} {rules : List String}
    (parse : env.api.parse url = some parsed)
    (read : (parsed.origin, rules) ∈ shared.robotsRead)
    (matched : rules.any (startsWith parsed.pathname) = true)

/-- An earned mark stays earned. -/
theorem Earned.mono {env : Env} {before after : Shared} {url : String}
    (remembers : Remembers before after) (earned : Earned env before url)
    : Earned env after url := by
  cases earned with
  | recrawled started recrawl same =>
      exact .recrawled (remembers.started started) recrawl same
  | requested issued => exact .requested (remembers.requested issued)
  | blocked parse read matched => exact .blocked parse (remembers.robotsRead read) matched

/-- The address that a fetch has got to, while it is known: of the request in flight, or of the
page that was received.
-/
def Phase.address? : Phase → Option String
  | .http url _ => some url
  | .settled response | .ready (.response response) => response.map Prod.snd
  | _ => none

/-- What the point waits to mark is earned, and so is the mark of the job it works on. -/
structure Point.EarnsMarks (env : Env) (shared : Shared) (point : Point) : Prop where
  marks : ∀ statement, point.statement = some statement →
    ∀ url ∈ statement.marks, Earned env shared url
  job : ∀ job, point.role? = some (.working job) → Earned env shared job.url

/-- Besides, the address that a fetch has got to has been requested. -/
structure Thread.EarnsMarks (env : Env) (shared : Shared) (thread : Thread) : Prop where
  point : thread.point.EarnsMarks env shared
  address : ∀ url, thread.phase.address? = some url → url ∈ shared.requested

/-- What is earned stays so. -/
theorem Point.EarnsMarks.mono {env : Env} {before after : Shared} {point : Point}
    (remembers : Remembers before after) (earns : point.EarnsMarks env before)
    : point.EarnsMarks env after where
  marks statement waits url marked := (earns.marks statement waits url marked).mono remembers
  job job role := (earns.job job role).mono remembers

/-- What is earned stays so. -/
theorem Thread.EarnsMarks.mono {env : Env} {before after : Shared} {thread : Thread}
    (remembers : Remembers before after) (earns : thread.EarnsMarks env before)
    : thread.EarnsMarks env after where
  point := earns.point.mono remembers
  address url known := remembers.requested (earns.address url known)

/-- A point that neither works on a job nor waits to mark needs nothing. -/
theorem Point.EarnsMarks.of_idle {env : Env} {shared : Shared} {point : Point}
    (marksNone : (point.statement.map Statement.marks).getD [] = [])
    (idle : ∀ job, point.role? ≠ some (.working job))
    : point.EarnsMarks env shared where
  marks statement waits url marked := by
    rw [waits] at marksNone
    have none : statement.marks = [] := marksNone
    rw [none] at marked
    cases marked
  job job role := absurd role (idle job)

/-- A point that works on a job needs the job's mark to be earned. -/
theorem Point.EarnsMarks.of_job {env : Env} {shared : Shared} {point : Point}
    {job : FrontierItem} (role : point.role? = some (.working job))
    (earned : Earned env shared job.url)
    (marks : ∀ statement, point.statement = some statement →
      ∀ url ∈ statement.marks, url = job.url ∨ Earned env shared url)
    : point.EarnsMarks env shared where
  marks statement waits url marked := by
    rcases marks statement waits url marked with rfl | own
    · exact earned
    · exact own
  job other same := by
    obtain rfl := Role.working.inj (Option.some.inj (role.symm.trans same))
    exact earned

/-- A piece that goes on at one point has got to no address. -/
theorem Leads.earnsMarks {env : Env} {after : Shared} {next : Option Point} {outcome : Outcome}
    (leads : Leads after next outcome)
    (target : ∀ point ∈ next, point.EarnsMarks env after)
    : ∀ thread ∈ outcome.threads, thread.EarnsMarks env outcome.shared := by
  rw [leads.shared_eq]
  obtain ⟨phase, unanswered, threads⟩ := leads.threads_eq
  rw [threads]
  intro thread member
  obtain ⟨point, found, rfl⟩ := Option.map_eq_some_iff.mp (Option.mem_toList.mp member)
  refine ⟨target point found, fun url known => ?_⟩
  rcases unanswered with rfl | rfl <;> cases known

/-- A piece that goes on at a point has got to no address, either. -/
theorem Leads.earnsMarks_at {env : Env} {after : Shared} {point : Point} {outcome : Outcome}
    (leads : Leads after (some point) outcome) (target : point.EarnsMarks env after)
    : ∀ thread ∈ outcome.threads, thread.EarnsMarks env outcome.shared :=
  leads.earnsMarks fun _ same => Option.some.inj same ▸ target

/-- A fetch has got to an address only by requesting it. -/
theorem FetchCase.earnsMarks {env : Env} {shared after : Shared} {url : String} {point : Point}
    {thread : Thread} (fetch : FetchCase shared url point (after, thread))
    (target : point.EarnsMarks env after)
    : thread.EarnsMarks env after := by
  cases fetch with
  | refused | thrown => exact ⟨target, nofun⟩
  | sent =>
      refine ⟨target, ?_⟩
      rintro address ⟨⟩
      exact List.mem_cons_self

/-- A plain point marks nothing. -/
theorem Point.EarnsMarks.of_isPlain {env : Env} {shared : Shared} {point : Point}
    (plain : point.isPlain = true)
    : point.EarnsMarks env shared := by
  refine of_idle ?_ fun job role => ?_
  · cases point <;> first | exact Bool.noConfusion plain | rfl
  · rw [role?_of_isPlain plain] at role
    cases role

/-- A page fetch that starts earns the mark of its address: the breaker admits it and it can
be requested, or it is a re-crawl.
-/
theorem Shared.start_earned {env : Env} {shared : Shared} {visit : Visit}
    (sends : isRecrawl visit.item = false →
      (shared.breaker.gate shared.now).2 = CircuitBreaker.Admission.started
        ∧ requestable env.api visit.item.url = true)
    : Earned env (shared.start env visit).shared visit.item.url := by
  cases recrawl : isRecrawl visit.item with
  | true =>
      obtain ⟨_, fetch, _⟩ := shared.start_spec env visit
      exact .recrawled ((Extends.of_fetch fetch).started List.mem_cons_self) recrawl rfl
  | false =>
      obtain ⟨admitted, possible⟩ := sends recrawl
      have taken : ((shared.take env visit).breaker.gate (shared.take env visit).now).2
          = CircuitBreaker.Admission.started :=
        admitted
      exact .requested (Shared.fetchHtml_requested taken possible)

/-- A piece that starts from an earned point leaves threads at earned points, case by case. -/
theorem PieceCase.earnsMarks {env : Env} {shared : Shared} {input : Input} {point : Point}
    {outcome : Outcome} (piece : PieceCase env shared input point outcome)
    (earns : Thread.EarnsMarks env shared ⟨.ready input, point⟩)
    (rules : ∀ origin rules, (origin, some rules) ∈ shared.robotsCache.entries →
      (origin, rules) ∈ shared.robotsRead)
    (sends : ∀ visit, point = .start visit → isRecrawl visit.item = false →
      (shared.breaker.gate shared.now).2 = CircuitBreaker.Admission.started
        ∧ requestable env.api visit.item.url = true)
    : ∀ thread ∈ outcome.threads, thread.EarnsMarks env outcome.shared := by
  have remembers : Remembers shared outcome.shared := (Extends.of_piece piece).toRemembers
  cases piece with
  | leave _ _ leaves =>
      obtain ⟨_, plain, leads⟩ := leaves
      exact leads.earnsMarks fun target member => .of_isPlain (plain target member)
  | ask _ same leads =>
      refine leads.earnsMarks_at ?_
      rw [same]
      split <;> exact .of_idle rfl nofun
  | skipVisited | skipDomain =>
      exact (Leads.await _).earnsMarks_at (.of_idle rfl nofun)
  | vet =>
      exact (Leads.goto _).earnsMarks_at (.of_idle rfl nofun)
  | hold _ _ same =>
      refine (Leads.goto _).earnsMarks_at ?_
      rw [same]
      split <;> exact .of_idle rfl nofun
  | askRobots fetch threads =>
      rw [threads]
      intro thread member
      obtain rfl := List.mem_singleton.mp member
      exact fetch.earnsMarks (.of_idle rfl nofun)
  | carry _ _ _ same leads =>
      refine leads.earnsMarks_at ?_
      rcases same with rfl | rfl <;> exact .of_idle rfl nofun
  | @block visit parsed found parse cached matched =>
      refine (Leads.await _).earnsMarks_at ?_
      refine ⟨?_, nofun⟩
      rintro statement ⟨⟩ url marked
      obtain rfl := List.mem_singleton.mp marked
      exact .blocked parse (rules _ _ (InsertionMap.mem_of_get? cached)) matched
  | unblock =>
      exact (Leads.await _).earnsMarks_at (.of_idle rfl nofun)
  | @start visit =>
      have earned := Shared.start_earned (sends visit rfl)
      obtain ⟨fetching, fetch, threads⟩ := shared.start_spec env visit
      rw [threads]
      intro thread member
      rcases List.mem_pair.mp member with rfl | rfl
      · exact ⟨.of_idle rfl nofun, nofun⟩
      · exact fetch.earnsMarks (.of_job rfl earned nofun)
  | @save job html url _ page _ =>
      have earned := earns.point.job job rfl
      have issued : url ∈ shared.requested := earns.address url (by rw [page]; rfl)
      refine (Leads.await _).earnsMarks_at ?_
      refine .of_job rfl earned ?_
      rintro statement ⟨⟩ marked member
      rcases List.mem_pair.mp member with rfl | rfl
      · exact .inr (.requested issued)
      · exact .inl rfl
  | @mark job next _ recount same =>
      have earned := (earns.point.job job rfl).mono remembers
      refine (Leads.await next).earnsMarks_at ?_
      rcases same with rfl | rfl
      all_goals
        refine .of_job rfl earned ?_
        rintro statement ⟨⟩ url marked
        exact .inl (List.mem_singleton.mp marked)
  | @delete job _ _ _ marked =>
      refine (Leads.await _).earnsMarks_at ?_
      rcases marked with ⟨rfl, rfl⟩ | ⟨rfl, rfl⟩
      all_goals
        refine .of_job rfl (earns.point.job job rfl) ?_
        rintro statement ⟨⟩ url ⟨⟩
  | @close job _ _ after _ role recount same leads =>
      have earned : Earned env after job.url :=
        (earns.point.job job role).mono (Extends.of_recount recount).toRemembers
      refine leads.earnsMarks_at ?_
      rcases same with rfl | ⟨items, rfl⟩
      · exact .of_job rfl earned nofun
      · refine .of_job rfl earned ?_
        rintro statement ⟨⟩ url ⟨⟩
  | finalise =>
      exact (Leads.schedule _).earnsMarks_at (.of_idle rfl nofun)

/-- What the pieces know of robots.txt has been read, and only re-crawls have been refused. -/
structure Shared.Recorded (shared : Shared) : Prop where
  rules : ∀ origin rules, (origin, some rules) ∈ shared.robotsCache.entries →
    (origin, rules) ∈ shared.robotsRead
  refused : ∀ job ∈ shared.refused, isRecrawl job = true

namespace Shared.Recorded

variable {shared after : Shared}

/-- A fetch records nothing. -/
theorem of_fetch {url : String} {point : Point} {thread : Thread} (recorded : shared.Recorded)
    (fetch : FetchCase shared url point (after, thread))
    : after.Recorded := by
  cases fetch <;> exact { recorded with }

/-- The cursor and the counts are no record. -/
theorem of_recount (recorded : shared.Recorded) (recount : Recount shared after)
    : after.Recorded := by
  cases recount
  exact { recorded with }

/-- A recorded robots.txt has been read. -/
theorem of_record (recorded : shared.Recorded) (record : RobotsRecord shared after)
    : after.Recorded := by
  obtain ⟨_, _, _, grows, backed⟩ := record
  refine { recorded with rules := fun origin rules cached => ?_ }
  rcases backed origin rules cached with old | read
  · exact grows (recorded.rules origin rules old)
  · exact read

/-- A piece keeps the record, if the breaker admits the first fetch that it starts. -/
theorem of_piece {env : Env} {input : Input} {point : Point} {outcome : Outcome}
    (recorded : shared.Recorded) (piece : PieceCase env shared input point outcome)
    (admits : ∀ visit, point = .start visit → isRecrawl visit.item = false →
      (shared.breaker.gate shared.now).2 = CircuitBreaker.Admission.started)
    : outcome.shared.Recorded := by
  cases piece with
  | leave _ _ leaves =>
      obtain ⟨recount, _, leads⟩ := leaves
      exact leads.shared_eq ▸ recorded.of_recount recount
  | ask _ _ leads => exact leads.shared_eq ▸ recorded
  | skipVisited | vet | skipDomain | hold | block | unblock | save | delete => exact recorded
  | finalise => exact { recorded with }
  | @askRobots _ _ checked _ _ fetch =>
      have noted : ({ shared with domainsChecked := checked } : Shared).Recorded :=
        { recorded with }
      exact noted.of_fetch fetch
  | carry _ _ record _ leads => exact leads.shared_eq ▸ recorded.of_record record
  | @start visit =>
      have taken : (shared.take env visit).Recorded := by
        refine { recorded with refused := fun job member => ?_ }
        simp only [take] at member
        split at member
        · exact recorded.refused job member
        · rename_i rejected
          rcases List.mem_cons.mp member with rfl | old
          · cases recrawl : isRecrawl visit.item with
            | true => rfl
            | false => exact absurd (admits visit rfl recrawl) rejected
          · exact recorded.refused job old
      obtain ⟨_, fetch, _⟩ := shared.start_spec env visit
      exact taken.of_fetch fetch
  | mark recount => exact recorded.of_recount recount
  | close _ recount _ leads => exact leads.shared_eq ▸ recorded.of_recount recount

end Shared.Recorded

namespace State

variable {env : Env} {state next : State} {old : List String}

/-- A first fetch that starts is admitted by the breaker, and a request can be made for its
address.
-/
def Sends (env : Env) (state : State) (label : Label) : Prop :=
  ∀ visit ∈ state.starting label, isRecrawl visit.item = false →
    (state.shared.breaker.gate state.shared.now).2 = CircuitBreaker.Admission.started
      ∧ requestable env.api visit.item.url = true

instance : DecidableRel (Sends env) :=
  fun _ _ => inferInstanceAs (Decidable (∀ _ ∈ _, _))

/-- Marks are earned since the addresses in `old` were visited, and pages whose fetch the
breaker refused are still to be crawled.
-/
structure OutageSafe (env : Env) (old : List String) (state : State) : Prop where
  earned : ∀ url ∈ state.shared.tables.visited, url ∈ old ∨ Earned env state.shared url
  refused : ∀ job ∈ state.shared.refused, isRecrawl job = false →
    job.url ∈ state.shared.tables.frontier.urls ∧ job.url ∉ state.shared.tables.visited

/-- The marks made are earned, and those still to be made as well. -/
structure MarksEarned (env : Env) (old : List String) (state : State) : Prop where
  visited : ∀ url ∈ state.shared.tables.visited, url ∈ old ∨ Earned env state.shared url
  threads : ∀ thread ∈ state.threads, thread.EarnsMarks env state.shared
  recorded : state.shared.Recorded

/-- Earned marks are safe: no first fetch has been refused. -/
theorem MarksEarned.outageSafe (earned : state.MarksEarned env old)
    : state.OutageSafe env old where
  earned := earned.visited
  refused job member first := by
    rw [earned.recorded.refused job member] at first
    cases first

/-- No step forgets its history. -/
theorem step_remembers {label : Label} (taken : state.step env label = some next)
    : Remembers state.shared next.shared := by
  cases step_cases taken with
  | still _ _ _ shared | begin _ _ _ shared | settle _ shared | record shared =>
      rw [shared]
      exact { Remembers.refl state.shared with }
  | exec _ _ _ shared =>
      rw [shared]
      exact { Remembers.refl state.shared with }
  | run _ shared =>
      rw [shared]
      exact (Extends.of_piece (Shared.resume_cases ..)).toRemembers
  | redirect fetch => exact (Extends.of_fetch fetch).toRemembers

/-- A piece that runs sends the first fetch that it starts. -/
theorem Sends.of_running {seeds : List String} {input : Input} {point : Point}
    (sends : Sends env state (.run seeds))
    (running : state.running = some ⟨.ready input, point⟩)
    : ∀ visit, point = .start visit → isRecrawl visit.item = false →
        (state.shared.breaker.gate state.shared.now).2 = CircuitBreaker.Admission.started
          ∧ requestable env.api visit.item.url = true := by
  rintro visit rfl first
  exact sends visit (by simp [starting, running]) first

/-- The threads stay at earned points: a step moves one of them, by a piece, an answer or a
request.
-/
theorem step_threads_earned {label : Label} (earned : state.MarksEarned env old)
    (sends : Sends env state label) (taken : state.step env label = some next)
    : ∀ thread ∈ next.threads, thread.EarnsMarks env next.shared := by
  have remembers := step_remembers taken
  refine forall_threads_of_step taken
    (fun thread member => (earned.threads thread member).mono remembers) ?begun ?left ?answered
    ?redirected ?settled ?recorded
  case begun =>
    intro thread background
    cases background <;> exact ⟨.of_isPlain rfl, nofun⟩
  case left =>
    intro seeds input point same running member shared thread new
    subst same
    rw [shared]
    exact (Shared.resume_cases ..).earnsMarks (earned.threads _ member) earned.recorded.rules
      (sends.of_running running) thread new
  case answered =>
    intro point statement ending tables reply _ _ _ waiting
    exact ⟨waiting.point, nofun⟩
  case redirected =>
    intro url redirects target point thread _ fetch waiting
    exact fetch.earnsMarks waiting.point
  case settled =>
    intro url redirects point response received waiting
    refine ⟨waiting.point, fun address known => ?_⟩
    obtain ⟨page, found, rfl⟩ := Option.map_eq_some_iff.mp known
    rw [received page found]
    exact waiting.address url rfl
  case recorded =>
    intro point response waiting
    exact ⟨waiting.point, waiting.address⟩

/-- A step keeps the record. -/
theorem step_recorded {label : Label} (recorded : state.shared.Recorded)
    (sends : Sends env state label) (taken : state.step env label = some next)
    : next.shared.Recorded := by
  cases step_cases taken with
  | still _ _ _ shared | begin _ _ _ shared | settle _ shared | record shared =>
      rw [shared]
      exact { recorded with }
  | exec _ _ _ shared =>
      rw [shared]
      exact { recorded with }
  | run running shared =>
      rw [shared]
      exact recorded.of_piece (Shared.resume_cases ..) fun visit start first =>
        (sends.of_running running visit start first).1
  | redirect fetch => exact recorded.of_fetch fetch

/-- A step whose first fetches are sent keeps the marks earned: what a statement marks, its
thread has earned.
-/
theorem step_marksEarned {label : Label} (earned : state.MarksEarned env old)
    (sends : Sends env state label) (taken : state.step env label = some next)
    : next.MarksEarned env old := by
  have remembers := step_remembers taken
  refine ⟨fun url visited => ?_, step_threads_earned earned sends taken,
    step_recorded earned.recorded sends taken⟩
  have before : url ∈ state.shared.tables.visited → url ∈ old ∨ Earned env next.shared url :=
    fun visited => (earned.visited url visited).imp_right fun earned => earned.mono remembers
  cases step_cases taken with
  | still _ _ _ shared | begin _ _ _ shared | settle _ shared | record shared =>
      exact before (by simpa [shared] using visited)
  | run _ shared =>
      rw [shared, Shared.tables_resume] at visited
      exact before visited
  | redirect fetch =>
      rw [(Extends.of_fetch fetch).tables] at visited
      exact before visited
  | @exec _ _ _ _ point statement _ _ _ _ waits executed shared threads =>
      have waiting := earned.threads _ (threads.mem_iff.mpr List.mem_cons_self)
      rw [shared] at visited
      rcases executed.visited_of_mem visited with ⟨_, marked⟩ | visited
      · exact .inr ((waiting.point.marks statement waits url marked).mono remembers)
      · exact before visited

/-- In a run whose first fetches are all admitted by the breaker, and can be requested, an
address is marked as visited only for a request, a rule of robots.txt, or a re-crawl.
-/
theorem outageKeepsFrontier {start : State} (begins : start.Begins)
    (run : Run (step env) (Sends env) start state)
    : state.OutageSafe env start.shared.tables.visited.items := by
  have earned : state.MarksEarned env start.shared.tables.visited.items := by
    refine run.invariant ?_ fun earned sends taken => step_marksEarned earned sends taken
    have threads : ∀ thread ∈ start.threads, thread.EarnsMarks env start.shared :=
      begins.forall_threads ⟨.of_isPlain rfl, nofun⟩ ⟨.of_isPlain rfl, nofun⟩
    obtain ⟨_, _, _, _, _, _, rfl⟩ := begins
    exact ⟨fun url visited => .inl visited, threads, ⟨nofun, nofun⟩⟩
  exact earned.outageSafe

/-- A crawl whose only page is being fetched has refused nothing. -/
theorem outageKeepsFrontier_of_one
    : ∃ state, Run (step plainEnv) (Sends plainEnv)
          (plainCrawl [⟨"https://a.example/1", 0, none⟩]) state
        ∧ state.shared.tables.visited.items = ["https://a.example/1"]
        ∧ state.OutageSafe plainEnv [] := by
  let labels : List Label := boot ++ readBatch 2 ++ vet ++ turn 0 3 ++ ending 0
  have passes
      : (execute (step plainEnv) (Sends plainEnv)
          (plainCrawl [⟨"https://a.example/1", 0, none⟩]) labels).any
            (fun state => decide (state.shared.tables.visited.items = ["https://a.example/1"]))
          = true := by
    decide +kernel
  obtain ⟨state, run, visited⟩ := exists_run_of_any passes
  exact ⟨state, run, of_decide_eq_true visited,
    outageKeepsFrontier (plainCrawl_begins _) run⟩

/-- One page of each of the hosts `a` to `z`. -/
def outagePages : List FrontierItem :=
  "abcdefghijklmnopqrstuvwxyz".toList.map fun host =>
    ⟨"http://" ++ String.ofList [host] ++ "/", 0, none⟩

/-- An outage: all requests fail, those for robots.txt and those for the pages. After fifty
failures the breaker is open when the last page is fetched, and refuses it.
-/
def outage : List Label :=
  -- two pages are started; each ends, and wakes an invocation that reads the next batch
  let two := readBatch 2 ++ vet ++ turn 0 3 ++ vet ++ turn 0 3
    ++ ending 1 ++ turn 0 1 ++ readBatch 2 ++ ending 0 ++ turn 0 1
  boot ++ (List.replicate 12 two).flatten
    -- the last page but one fails, while the last is vetted
    ++ readBatch 2 ++ vet ++ turn 0 3 ++ failure 1
    -- the last is refused its robots.txt and its page, and is marked
    ++ [reply 1] ++ turn 0 3 ++ turn 0 1 ++ turn 0 3 ++ turn 0 1 ++ [reply 0]

/-- In an outage, the last page is marked as visited although the open breaker refused it, and
no request was ever made for it.
-/
theorem outageKeepsFrontier_fails_when_open
    : ¬ ∀ (env : Env) (start state : State), start.Begins → Reaches (step env) start state →
        state.OutageSafe env start.shared.tables.visited.items := by
  intro claim
  have passes
      : (execute (step plainEnv) anyStep (plainCrawl outagePages) outage).any
          (fun state => decide (
            "http://z/" ∈ state.shared.tables.visited
            ∧ "http://z/" ∉ state.shared.requested
            ∧ state.shared.robotsRead = []
            ∧ ∀ job ∈ state.shared.started, isRecrawl job = false)) = true := by
    decide +kernel
  obtain ⟨state, run, reached⟩ := exists_run_of_any passes
  obtain ⟨visited, unrequested, unread, first⟩ := of_decide_eq_true reached
  have safe := claim plainEnv _ state (plainCrawl_begins outagePages) run
  have fresh : (plainCrawl outagePages).shared.tables.visited.items = [] := by decide +kernel
  rw [fresh] at safe
  rcases safe.earned "http://z/" visited with old | earned
  · cases old
  · cases earned with
    | recrawled started recrawl =>
        rw [first _ started] at recrawl
        cases recrawl
    | requested issued => exact unrequested issued
    | blocked _ read =>
        rw [unread] at read
        cases read

end State

end WebIndexer.Crawl
