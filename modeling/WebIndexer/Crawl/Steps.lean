import WebIndexer.Crawl.Loop
import WebIndexer.Store.Effects

/-! What one step of the crawl can do to the shared state and to the threads. Every invariant
of the crawl is carried through these cases.
-/

namespace WebIndexer.Crawl

open WebIndexer.Circuit
open WebIndexer.Config
open WebIndexer.Fetcher
open WebIndexer.Library
open WebIndexer.Runtime
open WebIndexer.Store

-----------------------------------------------------------------------------------------
-- Fetches
-----------------------------------------------------------------------------------------

/-- How a fetch leaves the piece that calls it: the breaker rejects the call, no request can
be made, or a request is sent.
-/
inductive FetchCase (shared : Shared) (url : String) (point : Point)
    : Shared × Thread → Prop
  | refused (breaker : CircuitBreaker)
    : FetchCase shared url point
        ({ shared with breaker := breaker }, ⟨.ready (.response none), point⟩)
  | thrown (breaker : CircuitBreaker)
    : FetchCase shared url point
        ({ shared with breaker := breaker }, ⟨.settled none, point⟩)
  | sent (breaker : CircuitBreaker) (redirects : Nat)
    : FetchCase shared url point
        ({ shared with breaker := breaker, requested := url :: shared.requested },
          ⟨.http url redirects, point⟩)

/-- The thread of a fetch stands at the point that waits for it. -/
theorem FetchCase.point_eq {shared after : Shared} {url : String} {point : Point}
    {thread : Thread} (fetch : FetchCase shared url point (after, thread))
    : thread.point = point := by
  cases fetch <;> rfl

/-- A fetch moves none of the counts. -/
theorem FetchCase.crawl_eq {shared after : Shared} {url : String} {point : Point}
    {thread : Thread} (fetch : FetchCase shared url point (after, thread))
    : after.crawl = shared.crawl := by
  cases fetch <;> rfl

namespace Shared

/-- `fetchHtmlRaw` does not ask the breaker. -/
theorem fetchHtmlRaw_spec (env : Env) (shared : Shared) (url : String) (redirects : Nat)
    (point : Point)
    : FetchCase shared url point (shared.fetchHtmlRaw env url redirects point) := by
  unfold fetchHtmlRaw
  split
  · exact .thrown shared.breaker
  · exact .sent shared.breaker redirects

/-- `fetchHtml` asks the breaker first. -/
theorem fetchHtml_spec (env : Env) (shared : Shared) (url : String) (point : Point)
    : FetchCase shared url point (shared.fetchHtml env url point) := by
  unfold fetchHtml
  split
  · exact .refused _
  · rename_i breaker _
    unfold fetchHtmlRaw
    split
    · exact .thrown breaker
    · exact .sent breaker 0

/-- A fetch of an address that a request can be made to sends one if the breaker admits it.
-/
theorem fetchHtml_requested {env : Env} {shared : Shared} {url : String} {point : Point}
    (admitted : (shared.breaker.gate shared.now).2 = CircuitBreaker.Admission.started)
    (possible : requestable env.api url = true)
    : url ∈ (shared.fetchHtml env url point).1.requested := by
  unfold fetchHtml
  split
  · rename_i same
    rw [same] at admitted
    cases admitted
  · simp [fetchHtmlRaw, possible]

/-- Its thread waits for the answer. -/
theorem fetchHtml_waits {env : Env} {shared : Shared} {url : String} {point : Point}
    (admitted : (shared.breaker.gate shared.now).2 = CircuitBreaker.Admission.started)
    (possible : requestable env.api url = true)
    : (shared.fetchHtml env url point).2 = ⟨.http url 0, point⟩ := by
  unfold fetchHtml
  split
  · rename_i same
    rw [same] at admitted
    cases admitted
  · simp [fetchHtmlRaw, possible]

end Shared

-----------------------------------------------------------------------------------------
-- Statements
-----------------------------------------------------------------------------------------

/-- How the database leaves a statement, and what the script learns: it takes effect and its
value is returned, it takes effect and its value is lost, or it is rejected.
-/
inductive Executed (env : Env) (tables : Tables) (statement : Statement)
    : Ending → Tables → Option Value → Prop
  | done {choice : Choice} {after : Tables} {value : Value}
    (ran : tables.run env.backend choice statement = some (after, value))
    : Executed env tables statement .succeeds after (some value)
  | lost {choice : Choice} {after : Tables} {value : Value}
    (ran : tables.run env.backend choice statement = some (after, value))
    : Executed env tables statement .answerLost after none
  | rejected : Executed env tables statement .rejected tables none

namespace Executed

variable {env : Env} {tables after : Tables} {statement : Statement} {ending : Ending}
  {reply : Option Value} {url : String}

/-- Only the addresses that a statement marks become visited, and none if it is rejected. -/
theorem visited_of_mem (executed : Executed env tables statement ending after reply)
    (visited : url ∈ after.visited)
    : (ending ≠ .rejected ∧ url ∈ statement.marks) ∨ url ∈ tables.visited := by
  cases executed with
  | done ran | lost ran =>
      exact ((Tables.mem_visited_run ran).mp visited).imp_left fun marked => ⟨nofun, marked⟩
  | rejected => exact .inr visited

/-- Visited addresses stay visited. -/
theorem visited_mono (executed : Executed env tables statement ending after reply)
    (visited : url ∈ tables.visited)
    : url ∈ after.visited := by
  cases executed with
  | done ran | lost ran => exact (Tables.mem_visited_run ran).mpr (.inr visited)
  | rejected => exact visited

/-- An address stays on the frontier, is visited afterwards, or was deleted by name. -/
theorem frontier_kept (executed : Executed env tables statement ending after reply)
    (listed : url ∈ tables.frontier.urls)
    : url ∈ after.frontier.urls
      ∨ url ∈ after.visited
      ∨ statement = .deleteFromFrontier url := by
  cases executed with
  | done ran | lost ran => exact Tables.mem_urls_run ran listed
  | rejected => exact .inl listed

/-- A mark that the script sees succeed has been made. -/
theorem marked (executed : Executed env tables (.markVisited url) ending after reply)
    (answered : reply.isSome)
    : url ∈ after.visited := by
  cases executed with
  | done ran => exact (Tables.mem_visited_run ran).mpr (.inl (List.mem_singleton.mpr rfl))
  | lost | rejected => cases answered

/-- The answer to `isVisited` says whether the address is visited. -/
theorem found {present : Bool}
    (executed : Executed env tables (.isVisited url) ending after (some (.found present)))
    : present = decide (url ∈ tables.visited) ∧ after = tables ∧ ending = .succeeds := by
  cases executed with
  | done ran =>
      obtain ⟨rfl, same⟩ := Prod.mk.inj (Option.some.inj ran)
      exact ⟨(Value.found.inj same).symm, rfl, rfl⟩

end Executed

-----------------------------------------------------------------------------------------
-- Steps
-----------------------------------------------------------------------------------------

/-- The threads that timers and Kafka messages begin. -/
inductive Background (env : Env) : Label → Thread → Prop
  | stats (full : Bool) : Background env .statsTimer ⟨.statement, .nodesCounted full⟩
  | clear : Background env .clearTimer ⟨.statement, .cleared⟩
  | consume (url : String) (depth : Option Int) (parent : Option String)
    (enabled : env.kafkaEnabled = true)
    : Background env (.message url depth parent)
        ⟨.statement, .consumed ⟨url, depth.getD 0, parent.filter fun text => text ≠ ""⟩⟩

/-- The thread that a label moves on, unless the label only wakes it. -/
def State.acting (state : State) : Label → Option Thread
  | .run _ => state.running
  | .exec index _ _ | .http index _ | .record index => (pick state.pool index).map Prod.fst
  | _ => none

/-- The point whose request a label redirects, with the address that it goes on to. -/
def State.redirecting (env : Env) (state : State) : Label → Option (Point × String)
  | .http index (.redirect location) =>
      match pick state.pool index with
      | some (⟨.http url _, point⟩, _) =>
          (redirectTarget env.api location url).map fun target => (point, target)
      | _ => none
  | _ => none

/-- Each label's effect: the clock or the pause flag moves, a thread begins, a piece runs, or
a waiting thread is answered. Threads are given up to order.
-/
inductive StepCase (env : Env) (state : State) : Label → State → Prop
  | still {label : Label} {next : State} (now : Nat) (paused : Bool)
    (quiet : ∀ seeds, label ≠ .run seeds)
    (shared : next.shared = {
      state.shared with
      now := now
      crawl := { state.shared.crawl with diskPaused := paused }
    })
    (after : next.threads.Perm state.threads)
    (flag : paused = state.shared.crawl.diskPaused
      ∨ ∃ avail usagePct, label = .diskTimer avail usagePct
          ∧ paused = decide (avail < minDiskMb ∨ diskMaxUsagePct ≤ usagePct))
    : StepCase env state label next
  | begin {label : Label} {next : State} (ticks : Nat) {thread : Thread}
    (quiet : ∀ seeds, label ≠ .run seeds)
    (background : Background env label thread)
    (shared : next.shared = { state.shared with refreshTicks := ticks })
    (after : next.threads = thread :: state.threads)
    : StepCase env state label next
  | run {seeds : List String} {input : Input} {point : Point} {next : State}
    (running : state.running = some ⟨.ready input, point⟩)
    (shared : next.shared = (state.shared.resume env seeds input point).shared)
    (before : state.threads = ⟨.ready input, point⟩ :: state.pool)
    (after : next.threads = (state.shared.resume env seeds input point).threads ++ state.pool)
    : StepCase env state (.run seeds) next
  | exec {index : Nat} {ending : Ending} {choice : Choice} {next : State} {point : Point}
    {statement : Statement} {tables : Tables} {reply : Option Value} {rest : List Thread}
    (acting : state.acting (.exec index ending choice) = some ⟨.statement, point⟩)
    (waits : point.statement = some statement)
    (executed : Executed env state.shared.tables statement ending tables reply)
    (shared : next.shared = { state.shared with tables := tables })
    (before : state.threads.Perm (⟨.statement, point⟩ :: rest))
    (after : next.threads = ⟨.ready (.reply reply), point⟩ :: rest)
    : StepCase env state (.exec index ending choice) next
  | redirect {index : Nat} {location url target : String} {redirects : Nat} {next : State}
    {point : Point} {thread : Thread} {rest : List Thread}
    (fetch : FetchCase state.shared target point (next.shared, thread))
    (before : state.threads.Perm (⟨.http url redirects, point⟩ :: rest))
    (after : next.threads = thread :: rest)
    (redirecting
      : state.redirecting env (.http index (.redirect location)) = some (point, target))
    : StepCase env state (.http index (.redirect location)) next
  | settle {index : Nat} {event : HttpEvent} {url : String} {redirects : Nat} {next : State}
    {point : Point} {response : Response} {rest : List Thread}
    (received : ∀ page, response = some page → page.2 = url)
    (shared : next.shared = state.shared)
    (before : state.threads.Perm (⟨.http url redirects, point⟩ :: rest))
    (after : next.threads = ⟨.settled response, point⟩ :: rest)
    : StepCase env state (.http index event) next
  | record {index : Nat} {next : State} {point : Point} {response : Response}
    {rest : List Thread}
    (shared : next.shared = {
      state.shared with
      breaker := state.shared.breaker.settle state.shared.now response.isSome
    })
    (before : state.threads.Perm (⟨.settled response, point⟩ :: rest))
    (after : next.threads = ⟨.ready (.response response), point⟩ :: rest)
    : StepCase env state (.record index) next

namespace State

variable {env : Env} {state next : State}

/-- While no piece runs, the threads are those of the pool. -/
theorem threads_of_idle (idle : state.running = none) : state.threads = state.pool := by
  simp [threads, idle]

/-- While no piece runs, a picked thread is one of the threads. -/
theorem threads_of_pick {index : Nat} {thread : Thread} {rest : List Thread}
    (idle : state.running = none) (picked : pick state.pool index = some (thread, rest))
    : state.threads.Perm (thread :: rest) := by
  rw [threads_of_idle idle]
  exact pick_perm picked

/-- A thread that begins while no piece runs joins the others. -/
theorem threads_begin (idle : state.running = none) (shared : Shared) (thread : Thread)
    : State.threads ⟨shared, state.running, thread :: state.pool⟩ = thread :: state.threads := by
  simp [threads, idle]

/-- The answer to a statement is one of the ways in which the database can leave it. -/
theorem answer_spec {point : Point} {ending : Ending} {choice : Choice} {tables after : Tables}
    {thread : Thread}
    (answered : answer env tables point ending choice = some (after, thread))
    : ∃ statement reply,
        point.statement = some statement
        ∧ Executed env tables statement ending after reply
        ∧ thread = ⟨.ready (.reply reply), point⟩ := by
  obtain ⟨statement, waits, ended⟩ := Option.bind_eq_some_iff.mp answered
  cases ending with
  | rejected =>
      obtain ⟨rfl, rfl⟩ := Prod.mk.inj (Option.some.inj ended)
      exact ⟨statement, none, waits, .rejected, rfl⟩
  | succeeds =>
      obtain ⟨⟨tables, value⟩, ran, same⟩ := Option.map_eq_some_iff.mp ended
      obtain ⟨rfl, rfl⟩ := Prod.mk.inj same
      exact ⟨statement, some value, waits, .done ran, rfl⟩
  | answerLost =>
      obtain ⟨⟨tables, value⟩, ran, same⟩ := Option.map_eq_some_iff.mp ended
      obtain ⟨rfl, rfl⟩ := Prod.mk.inj same
      exact ⟨statement, none, waits, .lost ran, rfl⟩

/-- Inversion of the end of a statement. -/
theorem step_exec {index : Nat} {ending : Ending} {choice : Choice}
    (taken : state.step env (.exec index ending choice) = some next)
    : ∃ point statement tables reply rest,
        state.running = none
        ∧ pick state.pool index = some (⟨.statement, point⟩, rest)
        ∧ point.statement = some statement
        ∧ Executed env state.shared.tables statement ending tables reply
        ∧ next.shared = { state.shared with tables := tables }
        ∧ next.threads = ⟨.ready (.reply reply), point⟩ :: rest := by
  simp only [step] at taken
  split at taken
  · rename_i point rest idle picked
    obtain ⟨⟨tables, thread⟩, answered, rfl⟩ := Option.map_eq_some_iff.mp taken
    obtain ⟨statement, reply, waits, executed, rfl⟩ := answer_spec answered
    exact ⟨point, statement, tables, reply, rest, idle, picked, waits, executed, rfl,
      by simp [threads, idle]⟩
  · cases taken

/-- Inversion of a step, label by label. -/
theorem step_cases {label : Label} (taken : state.step env label = some next)
    : StepCase env state label next := by
  cases label with
  | tick elapsed =>
      obtain rfl := Option.some.inj taken
      exact .still (state.shared.now + elapsed) state.shared.crawl.diskPaused nofun rfl (.refl _)
        (.inl rfl)
  | run seeds =>
      simp only [step] at taken
      split at taken
      · rename_i input point running
        obtain rfl := Option.some.inj taken
        refine .run running rfl ?_ ?_
        · simp [threads, running]
        · cases next : (state.shared.resume env seeds input point).next <;>
            simp [threads, Outcome.threads, next]
      · cases taken
  | exec index ending choice =>
      obtain ⟨_, _, _, _, _, idle, picked, waits, executed, shared, after⟩ := step_exec taken
      exact .exec (by simp [acting, picked]) waits executed shared (threads_of_pick idle picked)
        after
  | http index event =>
      simp only [step] at taken
      split at taken
      · rename_i url redirects point rest idle picked
        obtain ⟨⟨shared, thread⟩, responded, rfl⟩ := Option.map_eq_some_iff.mp taken
        have before := threads_of_pick idle picked
        cases event with
        | redirect location =>
            obtain ⟨target, resolves, same⟩ := Option.map_eq_some_iff.mp responded
            have fetch := state.shared.fetchHtmlRaw_spec env target (redirects + 1) point
            rw [same] at fetch
            exact .redirect fetch before (by simp [threads, idle])
              (by simp [redirecting, picked, resolves])
        | page html =>
            obtain ⟨rfl, rfl⟩ := Prod.mk.inj (Option.some.inj responded)
            have received : ∀ page, some (html, url) = some page → page.2 = url := by
              rintro page ⟨⟩
              rfl
            exact .settle received rfl before (by simp [threads, idle])
        | failure =>
            obtain ⟨rfl, rfl⟩ := Prod.mk.inj (Option.some.inj responded)
            have received : ∀ page, (none : Response) = some page → page.2 = url := nofun
            exact .settle received rfl before (by simp [threads, idle])
      · cases taken
  | record index =>
      simp only [step] at taken
      split at taken
      · rename_i response point rest idle picked
        obtain rfl := Option.some.inj taken
        exact .record rfl (threads_of_pick idle picked) (by simp [threads, idle])
      · cases taken
  | wake index =>
      simp only [step] at taken
      split at taken
      · rename_i input point rest idle picked
        obtain rfl := Option.some.inj taken
        exact .still state.shared.now state.shared.crawl.diskPaused nofun rfl
          (threads_of_pick idle picked).symm (.inl rfl)
      · cases taken
  | statsTimer =>
      simp only [step] at taken
      split at taken
      · rename_i idle
        obtain rfl := Option.some.inj taken
        exact .begin (state.shared.refreshTicks + 1) nofun (.stats _) rfl (threads_begin idle _ _)
      · cases taken
  | clearTimer =>
      simp only [step] at taken
      split at taken
      · rename_i idle
        split at taken
        · obtain rfl := Option.some.inj taken
          exact .still state.shared.now state.shared.crawl.diskPaused nofun rfl (.refl _)
            (.inl rfl)
        · obtain rfl := Option.some.inj taken
          exact .begin state.shared.refreshTicks nofun .clear rfl (threads_begin idle _ _)
      · cases taken
  | diskTimer avail usagePct =>
      simp only [step] at taken
      split at taken
      · obtain rfl := Option.some.inj taken
        exact .still state.shared.now _ nofun rfl (.refl _)
          (.inr ⟨avail, usagePct, rfl, rfl⟩)
      · cases taken
  | message url depth parent =>
      simp only [step] at taken
      split at taken
      · rename_i idle
        split at taken
        · rename_i enabled
          obtain rfl := Option.some.inj taken
          exact .begin state.shared.refreshTicks nofun (.consume url depth parent enabled) rfl
            (threads_begin idle _ _)
        · cases taken
      · cases taken

/-- Inversion of the answer to a request. -/
theorem step_http {index : Nat} {event : HttpEvent}
    (taken : state.step env (.http index event) = some next)
    : ∃ url redirects point rest thread,
        state.running = none
        ∧ pick state.pool index = some (⟨.http url redirects, point⟩, rest)
        ∧ respond env state.shared url redirects point event = some (next.shared, thread)
        ∧ state.threads.Perm (⟨.http url redirects, point⟩ :: rest)
        ∧ next.threads = thread :: rest := by
  simp only [step] at taken
  split at taken
  · rename_i url redirects point rest idle picked
    obtain ⟨⟨shared, thread⟩, responded, rfl⟩ := Option.map_eq_some_iff.mp taken
    exact ⟨url, redirects, point, rest, thread, idle, picked, responded,
      threads_of_pick idle picked, by simp [threads, idle]⟩
  · cases taken

/-- The rule for facts about each thread: a step moves at most one, so what holds of the old
threads holds of the new ones as soon as it holds of the one that begins, of those that a
piece leaves, or of the one that is answered.
-/
theorem forall_threads_of_step {label : Label} {holds : Thread → Prop}
    (taken : state.step env label = some next)
    (kept : ∀ thread ∈ state.threads, holds thread)
    (begun : ∀ thread, Background env label thread → holds thread)
    (left : ∀ seeds input point, label = .run seeds →
      state.running = some ⟨.ready input, point⟩ → ⟨.ready input, point⟩ ∈ state.threads →
      next.shared = (state.shared.resume env seeds input point).shared →
      ∀ thread ∈ (state.shared.resume env seeds input point).threads, holds thread)
    (answered : ∀ point statement ending tables reply, point.statement = some statement →
      Executed env state.shared.tables statement ending tables reply →
      next.shared = { state.shared with tables := tables } →
      holds ⟨.statement, point⟩ → holds ⟨.ready (.reply reply), point⟩)
    (redirected : ∀ url redirects target point thread,
      state.redirecting env label = some (point, target) →
      FetchCase state.shared target point (next.shared, thread) →
      holds ⟨.http url redirects, point⟩ → holds thread)
    (settled : ∀ url redirects point response,
      (∀ page, response = some page → page.2 = url) →
      holds ⟨.http url redirects, point⟩ → holds ⟨.settled response, point⟩)
    (recorded : ∀ point response,
      holds ⟨.settled response, point⟩ → holds ⟨.ready (.response response), point⟩)
    : ∀ thread ∈ next.threads, holds thread := by
  intro thread member
  -- the thread that a step takes out of the pool was one of the old ones, as are the others
  have moved {old new : Thread} {rest : List Thread} (turns : holds old → holds new)
      (before : state.threads.Perm (old :: rest)) (after : next.threads = new :: rest)
      : holds thread := by
    rw [after] at member
    rcases List.mem_cons.mp member with rfl | other
    · exact turns (kept old (before.mem_iff.mpr List.mem_cons_self))
    · exact kept thread (before.mem_iff.mpr (List.mem_cons_of_mem _ other))
  cases step_cases taken with
  | still _ _ _ _ after => exact kept thread (after.mem_iff.mp member)
  | begin _ _ background _ after =>
      rw [after] at member
      rcases List.mem_cons.mp member with rfl | old
      · exact begun _ background
      · exact kept thread old
  | run running shared before after =>
      rw [after] at member
      rcases List.mem_append.mp member with new | old
      · exact left _ _ _ rfl running (before ▸ List.mem_cons_self) shared thread new
      · exact kept thread (before ▸ List.mem_cons_of_mem _ old)
  | exec _ waits executed shared before after =>
      exact moved (answered _ _ _ _ _ waits executed shared) before after
  | redirect fetch before after redirecting =>
      exact moved (redirected _ _ _ _ _ redirecting fetch) before after
  | settle received _ before after => exact moved (settled _ _ _ _ received) before after
  | record _ before after => exact moved (recorded _ _) before after

end State

end WebIndexer.Crawl
