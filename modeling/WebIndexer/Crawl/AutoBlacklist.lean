import WebIndexer.Crawl.Addresses
import WebIndexer.Crawl.Integrity
import WebIndexer.Crawl.Turns
import WebIndexer.Library.History

/-! The automatic blacklist of domains. The counters that decide about a domain count more
than answered requests as failures, and not all of them as successes. They agree with the
requests as long as every fetch sends one, every save succeeds, no re-crawl receives a page,
and no failure is counted while a page that has been received is not.
-/

namespace WebIndexer.Crawl

open WebIndexer.Circuit
open WebIndexer.Config
open WebIndexer.Fetcher
open WebIndexer.Library
open WebIndexer.Store

-----------------------------------------------------------------------------------------
-- Attempts
-----------------------------------------------------------------------------------------

/-- A page fetch that has sent a request and is over, with a page or without. -/
structure Attempt where
  job : FrontierItem
  succeeded : Bool
  deriving DecidableEq

/-- The attempts at a domain with a given result. -/
def resultsOf (env : Env) (history : List Attempt) (domain : String) (succeeded : Bool) : Nat :=
  history.countP fun attempt =>
    env.domainOf attempt.job = domain ∧ attempt.succeeded = succeeded

/-- At least twenty attempts at the domain are over, and more than 90% of them have failed. -/
structure Dead (env : Env) (history : List Attempt) (domain : String) : Prop where
  tried : 20 ≤ resultsOf env history domain true + resultsOf env history domain false
  failed
    : 9 * (resultsOf env history domain true + resultsOf env history domain false)
      < 10 * resultsOf env history domain false

/-- A new attempt counts for its domain. -/
theorem resultsOf_cons (env : Env) (attempt : Attempt) (history : List Attempt)
    (domain : String) (succeeded : Bool)
    : resultsOf env (attempt :: history) domain succeeded
      = resultsOf env history domain succeeded
        + if env.domainOf attempt.job = domain ∧ attempt.succeeded = succeeded then 1 else 0 := by
  simp [resultsOf, List.countP_cons]

/-- The counter of a domain that `recordDomainSuccess` or `recordDomainFail` moves. -/
def CrawlState.counted (crawl : CrawlState) (domain : String) (succeeded : Bool) : Nat :=
  if succeeded then crawl.domainSuccess domain else crawl.domainFail domain

namespace State

/-- The attempt that a label ends, if it ends one. -/
def finishing (env : Env) (state : State) : Label → Option Attempt
  | .http index event =>
      match pick state.pool index with
      | some (⟨.http url redirects, .fetched job⟩, _) =>
          match respond env state.shared url redirects (.fetched job) event with
          | some (_, ⟨.settled response, _⟩) => some ⟨job, response.isSome⟩
          | _ => none
      | _ => none
  | _ => none

/-- The history of attempts, newest first. -/
def note (env : Env) (state : State) (label : Label) (history : List Attempt)
    : List Attempt :=
  (state.finishing env label).toList ++ history

/-- The step of a crawl, with the history of its attempts. -/
def attempting (env : Env) : State × List Attempt → Label → Option (State × List Attempt) :=
  observing (step env) (note env)

end State

-----------------------------------------------------------------------------------------
-- Results that wait to be counted
-----------------------------------------------------------------------------------------

/-- The response that a fetch has settled with. -/
def Phase.response? : Phase → Option Response
  | .settled response | .ready (.response response) => some response
  | _ => none

/-- The result of a page fetch that the thread has, and has not counted. -/
def Thread.result? : Thread → Option Attempt
  | ⟨phase, .fetched job⟩ => phase.response?.map fun response => ⟨job, response.isSome⟩
  | ⟨_, .saved job _ _⟩ => some ⟨job, true⟩
  | _ => none

/-- The results that some threads have, and have not counted. -/
def owedBy (threads : List Thread) : List Attempt :=
  threads.filterMap Thread.result?

/-- A page fetch waits for a request, or has its result; one that has a page is no re-crawl. A
page is being saved, or has been.
-/
structure Thread.Regular (thread : Thread) : Prop where
  fetched
    : ∀ job, thread.point = .fetched job →
        (∃ url redirects, thread.phase = .http url redirects)
        ∨ ∃ response, thread.phase.response? = some response
            ∧ (response.isSome = true → isRecrawl job = false)
  saved
    : ∀ job page links, thread.point = .saved job page links →
        thread.phase = .statement ∨ ∃ value, thread.phase = .ready (.reply (some value))

variable {env : Env}

/-- Other threads have no result. -/
theorem Thread.result?_of_other {thread : Thread} (other : thread.point.isPage = false)
    : thread.result? = none := by
  obtain ⟨phase, point⟩ := thread
  cases point <;> first | rfl | cases other

/-- A piece with a failed result has been told that its fetch was rejected. -/
theorem Thread.eq_of_result?_failed {input : Input} {point : Point} {job : FrontierItem}
    (failed : (Thread.mk (.ready input) point).result? = some ⟨job, false⟩)
    : point = .fetched job ∧ input.page? = none := by
  cases point with
  | fetched other =>
      cases input with
      | response response =>
          cases response with
          | none =>
              cases failed
              exact ⟨rfl, rfl⟩
          | some page => cases failed
      | nothing | reply => cases failed
  | _ => cases failed

/-- Other threads are regular. -/
theorem Thread.Regular.of_other {thread : Thread} (other : thread.point.isPage = false)
    : thread.Regular := by
  constructor
  · intro job waits
    rw [waits] at other
    cases other
  · intro job page links waits
    rw [waits] at other
    cases other

@[simp] theorem owedBy_nil : owedBy [] = [] := rfl

@[simp] theorem owedBy_cons (thread : Thread) (threads : List Thread)
    : owedBy (thread :: threads) = thread.result?.toList ++ owedBy threads :=
  filterMap_cons_toList thread threads

@[simp] theorem owedBy_append (left right : List Thread)
    : owedBy (left ++ right) = owedBy left ++ owedBy right :=
  List.filterMap_append

/-- Threads without results owe nothing. -/
theorem owedBy_eq_nil {threads : List Thread}
    (others : ∀ thread ∈ threads, thread.point.isPage = false)
    : owedBy threads = [] :=
  List.filterMap_eq_nil_iff.mpr fun thread member => Thread.result?_of_other (others thread member)

-----------------------------------------------------------------------------------------
-- Pieces
-----------------------------------------------------------------------------------------

/-- The counters of the domains, and the blacklist that they decide about. -/
structure SameRatings (before after : CrawlState) : Prop where
  success : after.domainSuccess = before.domainSuccess
  fail : after.domainFail = before.domainFail
  blacklist : after.domainBlacklist = before.domainBlacklist

/-- What a piece does to the counters: nothing, or it counts the result that it has. -/
inductive Rating (env : Env) (before after : CrawlState) (old new : List Attempt) : Prop
  | keeps (same : SameRatings before after) (owed : new = old)
  | succeeds {job : FrontierItem}
    (owed : old = ⟨job, true⟩ :: new)
    (success : after.domainSuccess
      = assign before.domainSuccess (env.domainOf job)
          (before.domainSuccess (env.domainOf job) + 1))
    (fail : after.domainFail = before.domainFail)
    (blacklist : after.domainBlacklist = before.domainBlacklist)
  | fails {job : FrontierItem}
    (owed : old = ⟨job, false⟩ :: new)
    (counts : after = { before with fail := before.fail + 1 }.recordDomainFail (env.domainOf job))

/-- Each branch of the script keeps the counters, or counts a result, unless it starts a fetch.
-/
theorem Flow.rating {shared : Shared} {seeds : List String} {input : Input} {point : Point}
    {outcome : Outcome} (flow : Flow env shared seeds input point outcome)
    (regular : (Thread.mk (.ready input) point).Regular)
    (unstarted : ∀ visit, point ≠ .start visit)
    : Rating env shared.crawl outcome.shared.crawl
        (Thread.mk (.ready input) point).result?.toList (owedBy outcome.threads) := by
  cases flow with
  | started => exact absurd rfl (unstarted _)
  | pageFetched page first =>
      subst page
      exact .keeps ⟨rfl, rfl, rfl⟩ rfl
  | recrawlFetched page recrawl =>
      subst page
      obtain ⟨_, _, ⟨⟩⟩ | ⟨_, ⟨⟩, first⟩ := regular.fetched _ rfl
      rw [first rfl] at recrawl
      cases recrawl
  | @fetchFailed job failed =>
      obtain ⟨_, _, ⟨⟩⟩ | ⟨response, settled, _⟩ := regular.fetched _ rfl
      cases input with
      | response response =>
          obtain rfl : response = none := failed
          exact .fails rfl rfl
      | nothing | reply => cases settled
  | savedLeaf | savedLinks => exact .succeeds rfl rfl rfl rfl
  | saveFailed failed =>
      obtain ⟨⟨⟩⟩ | ⟨value, ⟨⟩⟩ := regular.saved _ _ _ rfl
      cases failed
  | lost unguarded _ =>
      refine .keeps ⟨rfl, rfl, rfl⟩ ?_
      rw [Thread.result?_of_other]
      · rfl
      · cases point <;> first | rfl | cases unguarded
  | thrown parses _ => rcases parses with rfl | rfl <;> exact .keeps ⟨rfl, rfl, rfl⟩ rfl
  | asking _ _ _ fetch =>
      refine .keeps ?_ (owedBy_eq_nil (Outcome.forall_single rfl (fetch.point_eq ▸ rfl)))
      have same := fetch.crawl_eq
      simp only at same ⊢
      rw [same]
      exact ⟨rfl, rfl, rfl⟩
  | seeded ended => rcases ended with rfl | rfl <;> exact .keeps ⟨rfl, rfl, rfl⟩ rfl
  | refilled _ ended =>
      rcases ended with rfl | rfl | rfl <;> exact .keeps ⟨rfl, rfl, rfl⟩ rfl
  | recrawled ended => rcases ended with rfl | rfl <;> exact .keeps ⟨rfl, rfl, rfl⟩ rfl
  | failed ended => rcases ended with rfl | rfl <;> exact .keeps ⟨rfl, rfl, rfl⟩ rfl
  | refreshFailed ended =>
      rcases ended with rfl | rfl | rfl <;> exact .keeps ⟨rfl, rfl, rfl⟩ rfl
  | _ => exact .keeps ⟨rfl, rfl, rfl⟩ rfl

/-- A piece leaves regular threads, unless it starts a fetch. -/
theorem Flow.regular {shared : Shared} {seeds : List String} {input : Input} {point : Point}
    {outcome : Outcome} (flow : Flow env shared seeds input point outcome)
    (unstarted : ∀ visit, point ≠ .start visit)
    : ∀ thread ∈ outcome.threads, thread.Regular := by
  cases flow with
  | started => exact absurd rfl (unstarted _)
  | pageFetched =>
      refine Outcome.forall_single rfl ⟨?_, fun _ _ _ _ => .inl rfl⟩
      intro _ waits
      cases waits
  | asking _ _ _ fetch => exact Outcome.forall_single rfl (.of_other (fetch.point_eq ▸ rfl))
  | lost | thrown | cursorRead | done | busy | loopOver | refilled | cleared | consumed =>
      exact Outcome.forall_none rfl
  | _ => exact Outcome.forall_single rfl (.of_other rfl)

/-- The breaker admits a fetch of the item, and a request can be made to its address. -/
def Shared.sends (env : Env) (shared : Shared) (item : FrontierItem) : Prop :=
  (shared.breaker.gate shared.now).2 = CircuitBreaker.Admission.started
  ∧ requestable env.api item.url = true

instance (env : Env) (shared : Shared) (item : FrontierItem) : Decidable (shared.sends env item) :=
  inferInstanceAs (Decidable (_ ∧ _))

/-- Such a fetch has its request in flight when the piece that starts it goes on. -/
theorem Shared.start_of_sends {shared : Shared} {visit : Visit}
    (sends : shared.sends env visit.item)
    : (shared.start env visit).threads
        = [⟨.ready .nothing, .forItem visit.rest true⟩,
          ⟨.http visit.item.url 0, .fetched visit.item⟩] := by
  have waits : ((shared.take env visit).fetchHtml env visit.item.url (.fetched visit.item)).2
      = ⟨.http visit.item.url 0, .fetched visit.item⟩ :=
    fetchHtml_waits sends.1 sends.2
  simp only [start, Outcome.threads, Option.map_some, Option.toList_some, waits,
    List.cons_append, List.nil_append]

/-- The start of a fetch leaves the counters. -/
theorem Shared.start_sameRatings (env : Env) (shared : Shared) (visit : Visit)
    : SameRatings shared.crawl (shared.start env visit).shared.crawl := by
  obtain ⟨thread, fetch, _⟩ := shared.start_spec env visit
  rw [fetch.crawl_eq]
  exact ⟨rfl, rfl, rfl⟩

-----------------------------------------------------------------------------------------
-- Steps
-----------------------------------------------------------------------------------------

/-- An answer to a request settles the fetch, or leaves it with another request. -/
theorem State.respond_cases {shared after : Shared} {url : String} {redirects : Nat}
    {point : Point} {event : HttpEvent} {thread : Thread}
    (responded : State.respond env shared url redirects point event = some (after, thread))
    : after.crawl = shared.crawl
      ∧ ((∃ response, thread = ⟨.settled response, point⟩)
        ∨ ∃ target hops, thread = ⟨.http target hops, point⟩) := by
  cases event with
  | redirect location =>
      obtain ⟨target, _, same⟩ := Option.map_eq_some_iff.mp responded
      unfold Shared.fetchHtmlRaw at same
      split at same
      · obtain ⟨rfl, rfl⟩ := Prod.mk.inj same
        exact ⟨rfl, .inl ⟨_, rfl⟩⟩
      · obtain ⟨rfl, rfl⟩ := Prod.mk.inj same
        exact ⟨rfl, .inr ⟨_, _, rfl⟩⟩
  | page | failure =>
      obtain ⟨rfl, rfl⟩ := Prod.mk.inj (Option.some.inj responded)
      exact ⟨rfl, .inl ⟨_, rfl⟩⟩

namespace State

variable {state next : State} {label : Label}

/-- The thread whose statement fails, or loses its answer, at a label. -/
def unanswered (state : State) : Label → Option Thread
  | .exec index ending choice =>
      if ending = .succeeds then none else state.acting (.exec index ending choice)
  | _ => none

/-- The job whose failed fetch a label counts, if it counts one. -/
def failing (state : State) : Label → Option FrontierItem
  | .run _ =>
      match state.running with
      | some ⟨.ready input, .fetched job⟩ => if input.page? = none then some job else none
      | _ => none
  | _ => none

/-- The counters move with the attempts: each fetch that starts sends a request, no save
fails, no re-crawl receives a page, and a failure is counted only when no page of its domain
waits to be counted.
-/
def CountsAttempts (env : Env) (state : State) (label : Label) : Prop :=
  (∀ visit ∈ state.starting label, state.shared.sends env visit.item)
  ∧ (∀ thread ∈ state.unanswered label, thread.point.isSaved = false)
  ∧ (∀ attempt ∈ state.finishing env label,
      attempt.succeeded = true → isRecrawl attempt.job = false)
  ∧ ∀ job ∈ state.failing label,
      resultsOf env (owedBy state.threads) (env.domainOf job) true = 0

instance : DecidableRel (CountsAttempts env) := fun state label =>
  inferInstanceAs (Decidable ((∀ _ ∈ state.starting label, _) ∧ (∀ _ ∈ state.unanswered label, _)
    ∧ (∀ _ ∈ state.finishing env label, _) ∧ ∀ _ ∈ state.failing label, _))

/-- What a step does to the counters and to the results that wait: nothing, an attempt ends,
or a piece counts a result.
-/
inductive RatingCase (env : Env) (state : State) (label : Label) (next : State) : Prop
  | keeps (quiet : state.finishing env label = none)
    (same : SameRatings state.shared.crawl next.shared.crawl)
    (owed : (owedBy next.threads).Perm (owedBy state.threads))
  | ends {attempt : Attempt} (ended : state.finishing env label = some attempt)
    (same : SameRatings state.shared.crawl next.shared.crawl)
    (owed : (owedBy next.threads).Perm (attempt :: owedBy state.threads))
  | counts {input : Input} {point : Point} {new rest : List Attempt}
    (quiet : state.finishing env label = none)
    (failing : ∀ job, point = .fetched job → input.page? = none →
      state.failing label = some job)
    (rating : Rating env state.shared.crawl next.shared.crawl
      (Thread.mk (.ready input) point).result?.toList new)
    (before : owedBy state.threads
      = (Thread.mk (.ready input) point).result?.toList ++ rest)
    (after : owedBy next.threads = new ++ rest)

/-- A piece that runs keeps the counters or counts its result. -/
theorem RatingCase.of_run {seeds : List String} {input : Input} {point : Point}
    (regular : (Thread.mk (.ready input) point).Regular)
    (met : CountsAttempts env state (.run seeds))
    (running : state.running = some ⟨.ready input, point⟩)
    (shared : next.shared = (state.shared.resume env seeds input point).shared)
    (before : state.threads = ⟨.ready input, point⟩ :: state.pool)
    (after : next.threads = (state.shared.resume env seeds input point).threads ++ state.pool)
    : RatingCase env state (.run seeds) next := by
  have owed : owedBy state.threads
      = (Thread.mk (.ready input) point).result?.toList ++ owedBy state.pool := by
    rw [before, owedBy_cons]
  have left : owedBy next.threads
      = owedBy (state.shared.resume env seeds input point).threads ++ owedBy state.pool := by
    rw [after, owedBy_append]
  have failing : ∀ job, point = .fetched job → input.page? = none →
      state.failing (.run seeds) = some job := by
    rintro job rfl failed
    simp [State.failing, running, failed]
  refine .counts rfl failing ?_ owed left
  rw [shared]
  by_cases starts : ∃ visit, point = .start visit
  · obtain ⟨visit, rfl⟩ := starts
    have sends := met.1 visit (by simp [starting, running])
    refine .keeps (state.shared.start_sameRatings env visit) ?_
    change owedBy (state.shared.start env visit).threads = _
    rw [Shared.start_of_sends sends]
    rfl
  · exact (state.shared.resume_flow env seeds input point).rating regular
      fun visit same => starts ⟨visit, same⟩

/-- The answer to a request ends an attempt, if it settles a page fetch. -/
theorem RatingCase.of_http {index : Nat} {event : HttpEvent}
    (regular : ∀ thread ∈ state.threads, thread.Regular)
    (taken : state.step env (.http index event) = some next)
    : RatingCase env state (.http index event) next := by
  obtain ⟨url, redirects, point, rest, thread, _, picked, responded, before, after⟩ :=
    step_http taken
  obtain ⟨crawl, shape⟩ := respond_cases responded
  have same : SameRatings state.shared.crawl next.shared.crawl := by
    rw [crawl]
    exact ⟨rfl, rfl, rfl⟩
  have unchanged (kept : thread.result? = (Thread.mk (.http url redirects) point).result?)
      (quiet : state.finishing env (.http index event) = none)
      : RatingCase env state (.http index event) next :=
    .keeps quiet same (filterMap_perm_of_replace before after kept)
  cases point with
  | fetched job =>
      rcases shape with ⟨response, rfl⟩ | ⟨target, hops, rfl⟩
      · have ended : state.finishing env (.http index event) = some ⟨job, response.isSome⟩ := by
          simp [finishing, picked, responded]
        refine .ends ended same ?_
        have held : (owedBy state.threads).Perm (owedBy rest) := before.filterMap _
        rw [after, owedBy_cons]
        exact held.symm.cons _
      · exact unchanged rfl (by simp [finishing, picked, responded])
  | saved job page links =>
      have waiting := regular _ (before.mem_iff.mpr List.mem_cons_self)
      rcases waiting.saved _ _ _ rfl with held | ⟨_, held⟩ <;> cases held
  | _ =>
      refine unchanged ?_ (by simp [finishing, picked])
      rcases shape with ⟨response, rfl⟩ | ⟨target, hops, rfl⟩ <;> rfl

/-- Other labels end no attempt. -/
theorem finishing_of_other (other : ∀ index event, label ≠ .http index event)
    : state.finishing env label = none := by
  cases label with
  | http index event => exact absurd rfl (other index event)
  | _ => rfl

/-- Every step of a regular state keeps the counters, ends an attempt or counts a result. -/
theorem step_rating (regular : ∀ thread ∈ state.threads, thread.Regular)
    (met : CountsAttempts env state label) (taken : state.step env label = some next)
    : RatingCase env state label next := by
  by_cases answered : ∃ index event, label = .http index event
  · obtain ⟨index, event, rfl⟩ := answered
    exact .of_http regular taken
  · have quiet : state.finishing env label = none :=
      finishing_of_other fun index event same => answered ⟨index, event, same⟩
    cases step_cases taken with
    | still _ _ _ shared after =>
        exact .keeps quiet (shared ▸ ⟨rfl, rfl, rfl⟩) (after.filterMap _)
    | begin _ _ background shared after =>
        refine .keeps quiet (shared ▸ ⟨rfl, rfl, rfl⟩) ?_
        rw [after]
        cases background <;> exact .refl _
    | run running shared before after =>
        exact .of_run (regular _ (before ▸ List.mem_cons_self)) met running shared before after
    | @exec _ _ _ _ point _ _ reply _ _ waits _ shared before after =>
        refine .keeps quiet (shared ▸ ⟨rfl, rfl, rfl⟩) ?_
        refine filterMap_perm_of_replace before after ?_
        cases point <;> rfl
    | redirect => exact absurd ⟨_, _, rfl⟩ answered
    | settle => exact absurd ⟨_, _, rfl⟩ answered
    | @record _ _ point response _ shared before after =>
        refine .keeps quiet (shared ▸ ⟨rfl, rfl, rfl⟩) ?_
        refine filterMap_perm_of_replace before after ?_
        cases point <;> rfl

/-- The answer to a request leaves regular threads. -/
theorem regular_http {index : Nat} {event : HttpEvent}
    (regular : ∀ thread ∈ state.threads, thread.Regular)
    (met : CountsAttempts env state (.http index event))
    (taken : state.step env (.http index event) = some next)
    : ∀ thread ∈ next.threads, thread.Regular := by
  obtain ⟨url, redirects, point, rest, thread, _, picked, responded, before, after⟩ :=
    step_http taken
  obtain ⟨_, shape⟩ := respond_cases responded
  have moved : thread.Regular := by
    cases point with
    | fetched job =>
        rcases shape with ⟨response, rfl⟩ | ⟨target, hops, rfl⟩
        · have ended : state.finishing env (.http index event) = some ⟨job, response.isSome⟩ := by
            simp [finishing, picked, responded]
          have first := met.2.2.1 _ ended
          constructor
          · intro other same
            cases same
            exact .inr ⟨response, rfl, first⟩
          · intro _ _ _ waits
            cases waits
        · constructor
          · intro _ _
            exact .inl ⟨target, hops, rfl⟩
          · intro _ _ _ waits
            cases waits
    | saved job page links =>
        have waiting := regular _ (before.mem_iff.mpr List.mem_cons_self)
        rcases waiting.saved _ _ _ rfl with held | ⟨_, held⟩ <;> cases held
    | _ => rcases shape with ⟨response, rfl⟩ | ⟨target, hops, rfl⟩ <;> exact .of_other rfl
  rw [after]
  exact List.forall_mem_cons.mpr
    ⟨moved, fun other member => regular other (before.mem_iff.mpr (.tail _ member))⟩

/-- Every step leaves regular threads. -/
theorem regular_step (regular : ∀ thread ∈ state.threads, thread.Regular)
    (met : CountsAttempts env state label) (taken : state.step env label = some next)
    : ∀ thread ∈ next.threads, thread.Regular := by
  by_cases answered : ∃ index event, label = .http index event
  · obtain ⟨index, event, rfl⟩ := answered
    exact regular_http regular met taken
  · have others {old : Thread} {rest : List Thread} (before : state.threads.Perm (old :: rest))
        : ∀ thread ∈ rest, thread.Regular :=
      fun thread member => regular thread (before.mem_iff.mpr (.tail _ member))
    cases step_cases taken with
    | still _ _ _ _ after => exact fun thread member => regular thread (after.mem_iff.mp member)
    | begin _ _ background _ after =>
        rw [after]
        refine List.forall_mem_cons.mpr ⟨.of_other ?_, regular⟩
        cases background <;> rfl
    | @run seeds input point _ running _ before after =>
        rw [after]
        refine List.forall_mem_append.mpr ⟨?_, others (.of_eq before)⟩
        by_cases starts : ∃ visit, point = .start visit
        · obtain ⟨visit, rfl⟩ := starts
          have sends := met.1 visit (by simp [starting, running])
          change ∀ thread ∈ (state.shared.start env visit).threads, thread.Regular
          rw [Shared.start_of_sends sends]
          refine List.forall_mem_cons.mpr ⟨.of_other rfl, List.forall_mem_singleton.mpr ?_⟩
          constructor
          · intro _ _
            exact .inl ⟨_, _, rfl⟩
          · intro _ _ _ waits
            cases waits
        · exact (state.shared.resume_flow env seeds input point).regular
            fun visit same => starts ⟨visit, same⟩
    | @exec index ending choice _ point _ _ reply _ acting waits executed _ before after =>
        rw [after]
        refine List.forall_mem_cons.mpr ⟨⟨?_, ?_⟩, others before⟩
        · intro job same
          cases same
          cases waits
        · intro job page links same
          cases same
          have succeeds : ending = .succeeds := by
            by_contra fails
            have lost : state.unanswered (.exec index ending choice)
                = some ⟨.statement, .saved job page links⟩ := by
              rw [unanswered, if_neg fails, acting]
            cases met.2.1 _ lost
          subst succeeds
          cases executed
          exact .inr ⟨_, rfl⟩
    | redirect => exact absurd ⟨_, _, rfl⟩ answered
    | settle => exact absurd ⟨_, _, rfl⟩ answered
    | @record _ _ point response _ _ before after =>
        rw [after]
        have waiting := regular _ (before.mem_iff.mpr List.mem_cons_self)
        refine List.forall_mem_cons.mpr ⟨⟨?_, ?_⟩, others before⟩
        · intro job same
          rcases waiting.fetched job same with ⟨_, _, held⟩ | held
          · cases held
          · exact .inr held
        · intro job page links same
          rcases waiting.saved job page links same with held | ⟨_, held⟩ <;> cases held

end State

-----------------------------------------------------------------------------------------
-- Runs
-----------------------------------------------------------------------------------------

/-- Attempts in another order have the same results. -/
theorem resultsOf_perm {left right : List Attempt} (same : left.Perm right) (domain : String)
    (succeeded : Bool)
    : resultsOf env left domain succeeded = resultsOf env right domain succeeded :=
  same.countP_eq _

/-- The results of two histories add up. -/
theorem resultsOf_append (left right : List Attempt) (domain : String) (succeeded : Bool)
    : resultsOf env (left ++ right) domain succeeded
      = resultsOf env left domain succeeded + resultsOf env right domain succeeded :=
  List.countP_append

/-- The counters of each domain are the same. -/
theorem SameRatings.counted {before after : CrawlState} (same : SameRatings before after)
    (domain : String) (succeeded : Bool)
    : after.counted domain succeeded = before.counted domain succeeded := by
  rw [CrawlState.counted, CrawlState.counted, same.success, same.fail]

/-- A result is owed until it is counted. -/
theorem Rating.counted {before after : CrawlState} {old new : List Attempt}
    (rating : Rating env before after old new) (domain : String) (succeeded : Bool)
    : after.counted domain succeeded + resultsOf env new domain succeeded
      = before.counted domain succeeded + resultsOf env old domain succeeded := by
  cases rating with
  | keeps same owed => rw [same.counted, owed]
  | @succeeds job owed success fail _ =>
      rw [owed, resultsOf_cons]
      unfold CrawlState.counted
      rw [success, fail, assign_succ]
      cases succeeded with
      | true => simp; omega
      | false => simp
  | @fails job owed counts =>
      subst counts
      rw [owed, resultsOf_cons]
      unfold CrawlState.counted CrawlState.recordDomainFail
      simp only [assign_succ]
      cases succeeded with
      | true => simp
      | false => simp; omega

/-- A domain that `recordDomainFail` blacklists has failed often enough, by the counters. -/
theorem CrawlState.of_mem_blacklist_recordDomainFail {crawl : CrawlState}
    {domain listed : String}
    (member : listed ∈ (crawl.recordDomainFail domain).domainBlacklist)
    : listed ∈ crawl.domainBlacklist
      ∨ listed = domain
        ∧ 20 ≤ crawl.domainSuccess domain + (crawl.domainFail domain + 1)
        ∧ 9 * (crawl.domainSuccess domain + (crawl.domainFail domain + 1))
          < 10 * (crawl.domainFail domain + 1) := by
  unfold recordDomainFail at member
  simp only at member
  split at member
  · rename_i reached
    rcases List.mem_append.mp member with old | new
    · exact .inl old
    · exact .inr ⟨List.mem_singleton.mp new, reached.1, reached.2.1⟩
  · exact .inl member

namespace State

variable {start : State} {state next : State × List Attempt} {label : Label}

/-- The threads are regular, and every result of the history is counted or owed. -/
structure Tallied (env : Env) (state : State × List Attempt) : Prop where
  regular : ∀ thread ∈ state.1.threads, thread.Regular
  results
    : ∀ domain succeeded,
        resultsOf env state.2 domain succeeded
          = state.1.shared.crawl.counted domain succeeded
            + resultsOf env (owedBy state.1.threads) domain succeeded

/-- Nothing is attempted when a crawl begins. -/
theorem Begins.tallied (begins : start.Begins) : Tallied env (start, []) := by
  refine ⟨begins.forall_threads (.of_other rfl) (.of_other rfl), ?_⟩
  obtain ⟨_, _, _, _, _, _, rfl⟩ := begins
  intro domain succeeded
  cases succeeded <;> rfl

/-- A step that ends no attempt leaves the history. -/
theorem note_of_none {state : State} {history : List Attempt}
    (quiet : state.finishing env label = none)
    : state.note env label history = history := by
  rw [note, quiet]
  rfl

/-- The results stay counted or owed, step by step. -/
theorem Tallied.step (tallied : Tallied env state) (met : CountsAttempts env state.1 label)
    (taken : attempting env state label = some next)
    : Tallied env next := by
  obtain ⟨stepped, noted⟩ := observing_cases taken
  refine ⟨regular_step tallied.regular met stepped, fun domain succeeded => ?_⟩
  have results := tallied.results domain succeeded
  rw [noted]
  cases step_rating tallied.regular met stepped with
  | keeps quiet same owed =>
      rw [note_of_none quiet, same.counted, resultsOf_perm owed]
      exact results
  | @ends attempt ended same owed =>
      have history : state.1.note env label state.2 = attempt :: state.2 := by
        rw [note, ended]
        rfl
      rw [history, same.counted, resultsOf_perm owed, resultsOf_cons, resultsOf_cons]
      omega
  | counts quiet _ rating before after =>
      have counted := rating.counted domain succeeded
      rw [note_of_none quiet, after, resultsOf_append]
      rw [before, resultsOf_append] at results
      omega

/-- Every domain that a step blacklists is dead by then. -/
def BlacklistsDead (env : Env) (before after : State × List Attempt) : Prop :=
  ∀ domain ∈ after.1.shared.crawl.domainBlacklist,
    domain ∉ before.1.shared.crawl.domainBlacklist → Dead env after.2 domain

/-- A blacklisted domain is dead when all its successes have been counted: the failures that
wait only add to those that decide.
-/
theorem Tallied.dead (tallied : Tallied env state) {job : FrontierItem} {rest : List Attempt}
    (owed : owedBy state.1.threads = ⟨job, false⟩ :: rest)
    (none : resultsOf env (owedBy state.1.threads) (env.domainOf job) true = 0)
    (tried : 20 ≤ state.1.shared.crawl.domainSuccess (env.domainOf job)
      + (state.1.shared.crawl.domainFail (env.domainOf job) + 1))
    (failed : 9 * (state.1.shared.crawl.domainSuccess (env.domainOf job)
        + (state.1.shared.crawl.domainFail (env.domainOf job) + 1))
      < 10 * (state.1.shared.crawl.domainFail (env.domainOf job) + 1))
    : Dead env state.2 (env.domainOf job) := by
  have successes : resultsOf env state.2 (env.domainOf job) true
      = state.1.shared.crawl.domainSuccess (env.domainOf job) + 0 :=
    none ▸ tallied.results (env.domainOf job) true
  have failures : resultsOf env state.2 (env.domainOf job) false
      = state.1.shared.crawl.domainFail (env.domainOf job)
        + (resultsOf env rest (env.domainOf job) false + 1) := by
    have results := tallied.results (env.domainOf job) false
    rw [owed, resultsOf_cons, if_pos ⟨rfl, rfl⟩] at results
    exact results
  constructor <;> omega

/-- In every run in which the counters move with the attempts, a step blacklists only domains
that are dead.
-/
theorem blacklistsDead_of_countsAttempts (begins : start.Begins)
    (run : Run (attempting env) (fun state => CountsAttempts env state.1) (start, []) state)
    (met : CountsAttempts env state.1 label) (taken : attempting env state label = some next)
    : BlacklistsDead env state next := by
  have tallied : Tallied env state :=
    run.invariant begins.tallied fun tallied met taken => tallied.step met taken
  obtain ⟨stepped, noted⟩ := observing_cases taken
  intro domain listed unlisted
  cases step_rating tallied.regular met stepped with
  | keeps _ same _ => exact absurd (same.blacklist ▸ listed) unlisted
  | ends _ same _ => exact absurd (same.blacklist ▸ listed) unlisted
  | @counts input point _ rest quiet failing rating before _ =>
      cases rating with
      | keeps same _ => exact absurd (same.blacklist ▸ listed) unlisted
      | succeeds _ _ _ blacklist => exact absurd (blacklist ▸ listed) unlisted
      | @fails job owed counts =>
          rw [counts] at listed
          obtain old | ⟨rfl, tried, failed⟩ :=
            CrawlState.of_mem_blacklist_recordDomainFail listed
          · exact absurd old unlisted
          · have result : (Thread.mk (.ready input) point).result? = some ⟨job, false⟩ := by
              cases held : (Thread.mk (.ready input) point).result? with
              | none =>
                  rw [held] at owed
                  cases owed
              | some attempt =>
                  rw [held] at owed
                  rw [(List.cons.inj owed).1]
            obtain ⟨rfl, rejected⟩ := Thread.eq_of_result?_failed result
            have none := met.2.2.2 job (failing job rfl rejected)
            rw [owed] at before
            rw [noted, note_of_none quiet]
            exact tallied.dead before none tried failed

/-- Two pages of one domain. -/
def twoPages : List FrontierItem :=
  [⟨"https://a.io/1", 0, none⟩, ⟨"https://a.io/2", 0, none⟩]

/-- The loop starts, and both pages are requested. -/
def firstTwo : List Label :=
  boot ++ readBatch 2 ++ vet ++ turn 0 3 ++ [reply 0] ++ turn 0 6

/-- A request is answered, and the statement after it rejected, so that the row of the page
stays; the fetch is finalised.
-/
def attempt (index : Nat) (event : HttpEvent) : List Label :=
  [.http index event, .record 0] ++ turn 0 1 ++ [.exec 0 .rejected {}] ++ turn 0 1 ++ turn 0 1

/-- The next invocation finds no more rows and wraps around, and both pages are requested
again.
-/
def nextTwo : List Label :=
  turn 0 1 ++ readBatch 1 ++ turn 0 1 ++ readBatch 2 ++ [reply 0] ++ turn 0 6 ++ [reply 0]
    ++ turn 0 6

/-- Nineteen attempts, while the request of the twentieth is in flight. -/
def nineteen (event : HttpEvent) : List Label :=
  firstTwo
    ++ (List.replicate 9 (attempt 0 event ++ attempt 1 event ++ nextTwo)).flatten
    ++ attempt 0 event

/-- Twenty requests that fail blacklist the domain. -/
theorem blacklistsDead_of_failures
    : ∃ state next,
        Run (attempting plainEnv) (fun state => CountsAttempts plainEnv state.1)
            (plainCrawl twoPages, []) state
        ∧ attempting plainEnv state (.run []) = some next
        ∧ "a.io" ∈ next.1.shared.crawl.domainBlacklist
        ∧ BlacklistsDead plainEnv state next := by
  have executed
      : (execute (attempting plainEnv) (fun state => CountsAttempts plainEnv state.1)
          (plainCrawl twoPages, [])
          (nineteen .failure ++ [.http 1 .failure, .record 0, .wake 0])).any
          (fun state => CountsAttempts plainEnv state.1 (.run [])
            ∧ (attempting plainEnv state (.run [])).any
              fun next => "a.io" ∈ next.1.shared.crawl.domainBlacklist)
        = true := by
    decide +kernel
  obtain ⟨state, run, reached⟩ := exists_run_of_any executed
  obtain ⟨met, listed⟩ := of_decide_eq_true reached
  obtain ⟨next, taken, member⟩ := (Option.any_eq_true _ _).mp listed
  exact ⟨state, next, run, taken, of_decide_eq_true member,
    blacklistsDead_of_countsAttempts (plainCrawl_begins _) run met taken⟩

/-- Twenty pages that the server delivers, and that the database fails to save, blacklist the
domain as well.
-/
theorem blacklistsDead_fails_for_saves
    : ¬ ∀ (env : Env) (start : State) (state next : State × List Attempt) (label : Label),
        start.Begins → Reaches (attempting env) (start, []) state →
          attempting env state label = some next → BlacklistsDead env state next := by
  intro claim
  have executed
      : (execute (attempting plainEnv) anyStep (plainCrawl twoPages, [])
          (nineteen (.page "")
            ++ [.http 1 (.page ""), .record 0] ++ turn 0 1
            ++ [.exec 0 .rejected {}, .wake 0])).any
          (fun state => "a.io" ∉ state.1.shared.crawl.domainBlacklist
            ∧ (attempting plainEnv state (.run [])).any
              fun next => "a.io" ∈ next.1.shared.crawl.domainBlacklist
                ∧ resultsOf plainEnv next.2 "a.io" false = 0)
        = true := by
    decide +kernel
  obtain ⟨state, run, reached⟩ := exists_run_of_any executed
  obtain ⟨unlisted, listed⟩ := of_decide_eq_true reached
  obtain ⟨next, taken, reached⟩ := (Option.any_eq_true _ _).mp listed
  obtain ⟨listed, delivered⟩ := of_decide_eq_true reached
  have dead := claim plainEnv _ state next _ (plainCrawl_begins twoPages) run taken
    "a.io" listed unlisted
  have failed := dead.failed
  rw [delivered] at failed
  omega

end State

end WebIndexer.Crawl
