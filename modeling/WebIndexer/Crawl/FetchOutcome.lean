import WebIndexer.Crawl.Steps
import WebIndexer.Fetcher.Exchange

/-! What the crawl makes of a page fetch. The events of a fetch's requests are, for the crawl, a
redirect, a page or a failure; a failure is counted, and its address only marked and deleted. Which
of the two a response leads to is decided by its status as far as it is a redirect or at least 500,
and otherwise by its content type.
-/

namespace WebIndexer.Crawl

open WebIndexer.Fetcher
open WebIndexer.Library
open WebIndexer.Runtime
open WebIndexer.Store

-----------------------------------------------------------------------------------------
-- The requests of a fetch and the phases of its thread
-----------------------------------------------------------------------------------------

/-- The result of a fetch that has settled. -/
def responseOf : Exchange.Outcome → Response
  | .resolved result => some (result.html, result.finalUrl)
  | .rejected _ => none

/-- How far the crawl sees a fetch to have come. -/
def phaseOf (fetch : Exchange.State) : Phase :=
  match fetch.outcome with
  | some outcome => .settled (responseOf outcome)
  | none => .http fetch.latest.url fetch.latest.depth

/-- A settlement counts if it is the first. -/
theorem phaseOf_settle {fetch : Exchange.State} (pending : fetch.outcome = none)
    (outcome : Exchange.Outcome)
    : phaseOf (fetch.settle outcome) = .settled (responseOf outcome) := by
  simp [phaseOf, Exchange.State.settle, pending]

/-- The crawl's `fetchHtmlRaw` leaves its thread as the requests of the fetch are. -/
theorem phaseOf_follow (env : Env) (shared : Shared) {fetch : Exchange.State}
    (pending : fetch.outcome = none) (url : String) (depth : Nat) (point : Point)
    : (shared.fetchHtmlRaw env url depth point).2
      = ⟨phaseOf (fetch.follow env.api url depth), point⟩ := by
  obtain ⟨deep, same⟩ | ⟨outcome, shallow, same, ends⟩ :=
    Exchange.State.follow_cases env.api fetch url depth
  · rw [same, phaseOf_settle pending]
    simp [Shared.fetchHtmlRaw, deep, responseOf]
  · rw [same]
    obtain ⟨sent, rfl⟩ | ⟨thrown, rfl⟩ := ends
    · simp [Shared.fetchHtmlRaw, sent, phaseOf, pending, Exchange.State.send,
        Nat.not_lt_of_le shallow]
    · simp [Shared.fetchHtmlRaw, thrown, phaseOf, pending, responseOf]

/-- Each event of the requests of a pending fetch leaves the phase of its thread, or is one of the
events that the crawl knows. An exception that escapes is a redirect that ends the process.
-/
theorem respond_of_step {env : Env} {decoders : Exchange.Decoders} {fetch next : Exchange.State}
    {label : Exchange.Label} (chained : fetch.Chained env.api) (pending : fetch.outcome = none)
    (taken : fetch.step ⟨env.api, decoders⟩ label = some next) (shared : Shared) (point : Point)
    : (next.escaped = true
        ∧ ∃ location, State.respond env shared fetch.latest.url fetch.latest.depth point
            (.redirect location) = none)
      ∨ (next.escaped = false
        ∧ (phaseOf next = phaseOf fetch
          ∨ ∃ event, (State.respond env shared fetch.latest.url fetch.latest.depth point
              event).map Prod.snd = some ⟨phaseOf next, point⟩)) := by
  obtain ⟨alive, happened⟩ := Exchange.State.step_cases taken
  have fails (state : Exchange.State) (failure : Exchange.Failure)
      (pending : state.outcome = none)
      : (State.respond env shared fetch.latest.url fetch.latest.depth point .failure).map Prod.snd
        = some ⟨phaseOf (state.settle (.rejected failure)), point⟩ := by
    simp [State.respond, phaseOf_settle pending, responseOf]
  cases happened with
  | tick quiet => exact .inr ⟨alive, .inl rfl⟩
  | latest happens =>
      cases happens with
      | timer | refused | error | timeout =>
          exact .inr ⟨alive, .inr ⟨.failure, fails _ _ pending⟩⟩
      | accepted | data =>
          exact .inr ⟨alive, .inl (by simp [phaseOf, pending, Exchange.State.apply])⟩
      | @finish ct body receiving running =>
          refine .inr ⟨alive, .inr ⟨.page (Exchange.htmlOf decoders ct body.buffer), ?_⟩⟩
          simp [State.respond, Exchange.State.apply, phaseOf, Exchange.State.settle, pending,
            responseOf]
      | @escaped res awaiting redirects throws =>
          exact .inl ⟨rfl, res.location, by simpa [State.respond] using throws⟩
      | @followed res target awaiting redirects resolves =>
          refine .inr ⟨?_, .inr ⟨.redirect res.location, ?_⟩⟩
          · rw [Exchange.State.apply, Exchange.State.escaped_follow]
            exact alive
          · simp only [State.respond, resolves, Option.map_some, Exchange.State.apply]
            have unsettled
                : ({ fetch with latest := fetch.latest.drop res } : Exchange.State).outcome
                  = none :=
              pending
            rw [phaseOf_follow env shared unsettled]
  | @earlier index event front back request acted effect parts happens =>
      have member := parts ▸ List.mem_append_right front List.mem_cons_self
      obtain ⟨failure, rfl, -⟩ := Exchange.State.late_cases (chained.closed _ member)
        (chained.unarmed _ member) happens
      exact .inr ⟨alive, .inr ⟨.failure, fails _ _ pending⟩⟩

/-- The thread of a fetch hears of its requests, one event after the other. -/
inductive Hears (env : Env) (point : Point) (start : Shared × Thread) : Shared × Thread → Prop
  | begins : Hears env point start start
  | event {shared : Shared} {url : String} {redirects : Nat} {event : HttpEvent}
    {next : Shared × Thread}
    (earlier : Hears env point start (shared, ⟨.http url redirects, point⟩))
    (responded : State.respond env shared url redirects point event = some next)
    : Hears env point start next

/-- The crawl hears of every run of a fetch, unless an exception has escaped, by induction on the
run. What comes after the promise has settled it does not hear of.
-/
theorem hears_of_run {env : Env} {decoders : Exchange.Decoders} {fetch : Exchange.State}
    {now : Nat} {url : String}
    (run : Reaches (Exchange.State.step ⟨env.api, decoders⟩) (.start env.api now url) fetch)
    (alive : fetch.escaped = false) (shared : Shared) (point : Point)
    : ∃ after,
        Hears env point (shared.fetchHtmlRaw env url 0 point)
          (after, ⟨phaseOf fetch, point⟩) := by
  induction run with
  | refl =>
      have begins : (shared.fetchHtmlRaw env url 0 point).2
          = ⟨phaseOf (.start env.api now url), point⟩ := by
        cases sent : requestable env.api url <;>
          simp [Shared.fetchHtmlRaw, sent, phaseOf, Exchange.State.start, Exchange.State.send,
            responseOf]
      refine ⟨(shared.fetchHtmlRaw env url 0 point).1, ?_⟩
      rw [← begins]
      exact .begins
  | @next fetch next label run _ taken ih =>
      obtain ⟨before, heard⟩ := ih (Exchange.State.step_cases taken).1
      cases pending : fetch.outcome with
      | some outcome =>
          have settled := Exchange.State.outcome_step pending taken
          have same : phaseOf next = phaseOf fetch := by simp only [phaseOf, pending, settled]
          exact ⟨before, same ▸ heard⟩
      | none =>
          have chained := Exchange.State.chained_of_run run
          obtain ⟨escaped, -⟩ | ⟨-, same | ⟨event, responded⟩⟩ :=
            respond_of_step chained pending taken before point
          · exact absurd (alive.symm.trans escaped) Bool.false_ne_true
          · exact ⟨before, same ▸ heard⟩
          · obtain ⟨⟨after, thread⟩, responds, rfl⟩ := Option.map_eq_some_iff.mp responded
            have waits : phaseOf fetch = .http fetch.latest.url fetch.latest.depth := by
              simp only [phaseOf, pending]
            rw [waits] at heard
            exact ⟨after, .event heard responds⟩

-----------------------------------------------------------------------------------------
-- Failures
-----------------------------------------------------------------------------------------

/-- The points at which the handlers of a failed fetch continue. -/
inductive FailPath (job : FrontierItem) : Point → Prop
  | marked : FailPath job (.failMarked job)
  | deleted : FailPath job (.failDeleted job)
  | finalise : FailPath job (.finalise job)

/-- After a failure the address is marked and deleted: no page is saved, and no link inserted. -/
theorem FailPath.statement {job : FrontierItem} {point : Point} {statement : Statement}
    (path : FailPath job point) (waits : point.statement = some statement)
    : statement = .markVisited job.url ∨ statement = .deleteFromFrontier job.url := by
  cases path with
  | marked => exact .inl (Option.some.inj waits).symm
  | deleted => exact .inr (Option.some.inj waits).symm
  | finalise => cases waits

/-- The handlers of a failure go on to their own points, and at last to another invocation. -/
theorem FailPath.resume {job : FrontierItem} {point : Point} (path : FailPath job point) (env : Env)
    (shared : Shared) (seeds : List String) (input : Input)
    : ∀ thread ∈ (shared.resume env seeds input point).threads,
      FailPath job thread.point ∨ thread.point = .entry := by
  cases path with
  | marked =>
      simp only [Shared.resume]
      split <;> simp [Shared.await, Shared.schedule, Outcome.threads, FailPath.deleted,
        FailPath.finalise]
  | deleted => simp [Shared.resume, Shared.schedule, Outcome.threads, FailPath.finalise]
  | finalise => simp [Shared.resume, Shared.finalise, Shared.schedule, Outcome.threads]

/-- The handlers of a fetch take its result for a failure: they count it, and go on at the points
of a failure.
-/
def HandledAsFailure (env : Env) (response : Response) : Prop :=
  ∀ (shared : Shared) (seeds : List String) (job : FrontierItem),
    (shared.resume env seeds (.response response) (.fetched job)).shared.crawl.fail
      = shared.crawl.fail + 1
    ∧ ∀ thread ∈ (shared.resume env seeds (.response response) (.fetched job)).threads,
        FailPath job thread.point

/-- Rejections are handled as failures, and pages are not. -/
theorem handledAsFailure_iff (env : Env) (outcome : Exchange.Outcome)
    : HandledAsFailure env (responseOf outcome) ↔ ∃ failure, outcome = .rejected failure := by
  cases outcome with
  | rejected failure =>
      refine iff_of_true (fun shared seeds job => ⟨rfl, ?_⟩) ⟨failure, rfl⟩
      simp [responseOf, Shared.resume, Shared.fetched, Input.page?, Shared.await, Outcome.threads,
        FailPath.marked]
  | resolved result =>
      refine iff_of_false (fun handled => ?_) (by simp)
      have counted := (handled (State.plainCrawl []).shared [] ⟨"", 0, none⟩).1
      exact absurd counted (by simp [responseOf, Shared.resume, Shared.fetched, Input.page?,
        isRecrawl, Shared.await])

-----------------------------------------------------------------------------------------
-- HTTP errors
-----------------------------------------------------------------------------------------

/-- The status of a response is one of success. -/
def isOk (res : Exchange.Answer) : Bool :=
  200 ≤ res.statusCode && res.statusCode < 300

/-- A fetch whose last response is an error is rejected, and the crawl handles it as a failure. -/
def RejectsErrors (env : Env) (fetch : Exchange.State) : Prop :=
  ∀ res, fetch.latest.answer = some res → isOk res = false
    → ∃ failure, fetch.outcome = some (.rejected failure)
        ∧ HandledAsFailure env (responseOf (.rejected failure))

/-- An error has not been rejected and never will be: an exception has escaped, which ends the
process, or the promise is resolved.
-/
def MissesErrors (fetch : Exchange.State) : Prop :=
  ∃ res, fetch.latest.answer = some res ∧ isOk res = false
    ∧ (fetch.outcome = none ∧ fetch.escaped = true
      ∨ ∃ result, fetch.outcome = some (.resolved result))

/-- A response that comes in time is one of success, a redirect that can be resolved, or one that
the handler refuses, by its status or by its content type.
-/
def RefusesErrors (api : UrlApi) (fetch : Exchange.State) : Exchange.Label → Prop
  | .latest (.response res) =>
      fetch.outcome = none → isOk res = false
        → if res.redirects then
            (redirectTarget api res.location fetch.latest.url).isSome = true
          else
            res.accepted = false
  | _ => True

instance (api : UrlApi) : DecidableRel (RefusesErrors api) := fun fetch label =>
  match label with
  | .latest (.response res) =>
      inferInstanceAs (Decidable (_ → _ → if res.redirects then
        (redirectTarget api res.location fetch.latest.url).isSome = true else _))
  | .tick _ | .earlier .. | .latest .timer | .latest (.data _) | .latest .finish
  | .latest (.error _) | .latest .timeout => .isTrue trivial

/-- The promise is rejected already when the last response is an error. -/
def Rejected (fetch : Exchange.State) : Prop :=
  ∀ res, fetch.latest.answer = some res → isOk res = false
    → ∃ failure, fetch.outcome = some (.rejected failure)

section Steps

variable {env : Env} {decoders : Exchange.Decoders} {fetch next : Exchange.State}
  {label : Exchange.Label}

/-- A promise that is rejected stays so. -/
theorem rejected_settle {failure : Exchange.Failure} (outcome : Exchange.Outcome)
    (rejected : fetch.outcome = some (.rejected failure))
    : (fetch.settle outcome).outcome = some (.rejected failure) := by
  simp [Exchange.State.settle, rejected]

/-- A promise that is not resolved is rejected by a failure. -/
theorem exists_rejected_settle (unresolved : ∀ result, fetch.outcome ≠ some (.resolved result))
    (failure : Exchange.Failure)
    : ∃ failure', (fetch.settle (.rejected failure)).outcome = some (.rejected failure') := by
  cases before : fetch.outcome with
  | none => exact ⟨failure, by simp [Exchange.State.settle, before]⟩
  | some outcome =>
      cases outcome with
      | resolved result => exact absurd before (unresolved result)
      | rejected earlier => exact ⟨earlier, by simp [Exchange.State.settle, before]⟩

/-- A promise that has settled, but is not resolved, is rejected. -/
theorem exists_rejected_of_some (unresolved : ∀ result, fetch.outcome ≠ some (.resolved result))
    (settled : fetch.outcome ≠ none)
    : ∃ failure, fetch.outcome = some (.rejected failure) := by
  obtain ⟨outcome, same⟩ := Option.ne_none_iff_exists'.mp settled
  cases outcome with
  | resolved result => exact absurd same (unresolved result)
  | rejected failure => exact ⟨failure, same⟩

/-- Each step that refuses errors keeps the promise rejected. -/
theorem rejected_step (chained : fetch.Chained env.api) (rejected : Rejected fetch)
    (refuses : RefusesErrors env.api fetch label)
    (taken : fetch.step ⟨env.api, decoders⟩ label = some next)
    : Rejected next := by
  obtain ⟨-, happened⟩ := Exchange.State.step_cases taken
  have settles (state : Exchange.State) (outcome : Exchange.Outcome)
      (same : state.outcome = fetch.outcome) (answer : state.latest.answer = fetch.latest.answer)
      : Rejected (state.settle outcome) := by
    intro res answered bad
    obtain ⟨failure, before⟩ := rejected res (answer.symm.trans answered) bad
    exact ⟨failure, rejected_settle outcome (same.trans before)⟩
  cases happened with
  | tick quiet => exact rejected
  | latest happens =>
      cases happens with
      | timer | finish | error | timeout => exact settles _ _ rfl rfl
      | data => exact rejected
      | refused awaiting =>
          intro res answered bad
          exact exists_rejected_settle (chained.unresolved awaiting) _
      | @accepted res awaiting redirects accepted =>
          rintro _ ⟨⟩ bad
          refine exists_rejected_of_some (chained.unresolved awaiting) fun pending => ?_
          have refused := refuses pending bad
          rw [redirects, if_neg Bool.false_ne_true, accepted] at refused
          cases refused
      | @escaped res awaiting redirects throws =>
          rintro _ ⟨⟩ bad
          refine exists_rejected_of_some (chained.unresolved awaiting) fun pending => ?_
          have resolvable := refuses pending bad
          rw [if_pos redirects, throws] at resolvable
          cases resolvable
      | @followed res target awaiting redirects resolves =>
          obtain ⟨-, same⟩ | ⟨outcome, -, same, -⟩ := Exchange.State.follow_cases env.api
            { fetch with latest := fetch.latest.drop res } target (fetch.latest.depth + 1)
          · rw [Exchange.State.apply, same]
            intro _ _ _
            exact exists_rejected_settle (chained.unresolved awaiting) _
          · rw [Exchange.State.apply, same]
            intro _ answered
            cases answered
  | @earlier index event front back request acted effect parts happens =>
      have member := parts ▸ List.mem_append_right front List.mem_cons_self
      obtain ⟨failure, rfl, -⟩ := Exchange.State.late_cases (chained.closed _ member)
        (chained.unarmed _ member) happens
      exact settles _ _ rfl rfl

/-- Where the promise is rejected, the crawl handles the error as a failure. -/
theorem Rejected.handled (rejected : Rejected fetch) : RejectsErrors env fetch := by
  intro res answered bad
  obtain ⟨failure, settled⟩ := rejected res answered bad
  exact ⟨failure, settled, (handledAsFailure_iff env _).mpr ⟨failure, rfl⟩⟩

/-- An error that is missed is not rejected. -/
theorem MissesErrors.not_rejects (misses : MissesErrors fetch) : ¬RejectsErrors env fetch := by
  intro rejects
  obtain ⟨res, answered, bad, missed⟩ := misses
  obtain ⟨failure, settled, _⟩ := rejects res answered bad
  rcases missed with ⟨pending, _⟩ | ⟨result, resolved⟩
  · exact nomatch settled.symm.trans pending
  · exact nomatch settled.symm.trans resolved

/-- A body that is being received may end, which resolves the promise. -/
theorem finish_step (decoders : Exchange.Decoders) (api : UrlApi) {ct : String} {body : Body}
    (receiving : fetch.latest.stage = .receiving ct body) (whole : body.destroyed = false)
    (alive : fetch.escaped = false)
    : ∃ result, fetch.step ⟨api, decoders⟩ (.latest .finish)
        = some (({
            fetch with
            latest := { fetch.latest with timer := none, stage := .ended }
          } : Exchange.State).settle (.resolved result)) := by
  refine ⟨⟨Exchange.htmlOf decoders ct body.buffer, fetch.latest.url⟩, ?_⟩
  simp [Exchange.State.step, Exchange.Request.on, Exchange.State.apply, alive, receiving, whole]

/-- A step that does not refuse an error lets an exception escape, or leads to a fetch that a run
resolves.
-/
theorem missesErrors_of_step (taken : fetch.step ⟨env.api, decoders⟩ label = some next)
    (accepts : ¬RefusesErrors env.api fetch label)
    : ∃ after, Reaches (Exchange.State.step ⟨env.api, decoders⟩) next after
        ∧ MissesErrors after := by
  obtain ⟨alive, happened⟩ := Exchange.State.step_cases taken
  cases happened with
  | tick | earlier => exact absurd trivial accepts
  | latest happens =>
      cases happens with
      | timer | finish | error | timeout | data => exact absurd trivial accepts
      | @refused res failure awaiting redirects accepted =>
          exact absurd (fun _ _ => by simp [redirects, accepted]) accepts
      | @followed res target awaiting redirects resolves =>
          exact absurd (fun _ _ => by simp [redirects, resolves]) accepts
      | @escaped res awaiting redirects throws =>
          obtain ⟨pending, others⟩ := Classical.not_imp.mp accepts
          obtain ⟨bad, _⟩ := Classical.not_imp.mp others
          exact ⟨_, .refl _, res, rfl, bad, .inl ⟨pending, rfl⟩⟩
      | @accepted res awaiting redirects accepted =>
          obtain ⟨pending, others⟩ := Classical.not_imp.mp accepts
          obtain ⟨bad, _⟩ := Classical.not_imp.mp others
          have receiving
              : ({ fetch with
                  latest := {
                    fetch.latest with
                    stage := .receiving res.contentType.toLower .empty
                    answer := some res
                  } } : Exchange.State).latest.stage
                = .receiving res.contentType.toLower .empty :=
            rfl
          obtain ⟨result, ends⟩ := finish_step decoders env.api receiving rfl alive
          refine ⟨_, .next (.refl _) trivial ends, res, rfl, bad, .inr ⟨result, ?_⟩⟩
          simp [Exchange.State.settle, pending]

end Steps

/-- The crawl of plain addresses whose pages lie in folders. -/
def folderEnv : Env :=
  { State.plainEnv with api := Exchange.folderUrlApi }

end WebIndexer.Crawl
