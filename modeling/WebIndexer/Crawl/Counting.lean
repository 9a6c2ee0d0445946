import WebIndexer.Crawl.Flow
import WebIndexer.Library.Runs

/-! Every page fetch is counted once, as a success or as a failure, before its slot is
released. The fetches in flight are split into those that are not counted yet and those that
are, and each step of the crawl moves at most one of them on.
-/

namespace WebIndexer.Crawl

open WebIndexer.Library
open WebIndexer.Store

/-- A page fetch that has been started and not released, counted or not. -/
inductive Tally where
  | pending (job : FrontierItem)
  | counted (job : FrontierItem)
  deriving DecidableEq

/-- The fetch that a point works on. -/
def Point.tally? : Point → Option Tally
  | .fetched job | .saved job _ _ | .recrawlMarked job | .recrawlDeleted job =>
      some (.pending job)
  | .linksInserted job _ | .failMarked job | .failDeleted job | .finalise job =>
      some (.counted job)
  | _ => none

/-- The fetches that some threads work on. -/
def talliesOf (threads : List Thread) : List Tally :=
  threads.filterMap fun thread => thread.point.tally?

/-- The fetches in flight. -/
def State.tallies (state : State) : List Tally :=
  talliesOf state.threads

/-- The fetch is not counted yet. -/
def Tally.isPending : Tally → Bool
  | .pending _ => true
  | .counted _ => false

@[simp] theorem talliesOf_nil : talliesOf [] = [] := rfl

@[simp] theorem talliesOf_cons (thread : Thread) (threads : List Thread)
    : talliesOf (thread :: threads) = thread.point.tally?.toList ++ talliesOf threads :=
  filterMap_cons_toList thread threads

@[simp] theorem talliesOf_append (left right : List Thread)
    : talliesOf (left ++ right) = talliesOf left ++ talliesOf right :=
  List.filterMap_append

/-- No fetch is lost where no handler surrounds an await. -/
theorem Point.tally?_of_isUnguarded {point : Point} (unguarded : point.isUnguarded = true)
    : point.tally? = none := by
  cases point <;> first | rfl | cases unguarded

/-- The counters that a step reads and writes: the results, the slots and the history of the
fetches started.
-/
structure SameCounters (before after : Shared) : Prop where
  success : after.crawl.success = before.crawl.success
  fail : after.crawl.fail = before.crawl.fail
  active : after.active = before.active
  started : after.started = before.started

/-- Nothing has changed. -/
theorem SameCounters.refl (shared : Shared) : SameCounters shared shared :=
  ⟨rfl, rfl, rfl, rfl⟩

/-- Sending a request keeps the counters. -/
theorem SameCounters.of_fetch {shared after : Shared} {url : String} {point : Point}
    {thread : Thread} (fetch : FetchCase shared url point (after, thread))
    : SameCounters shared after := by
  cases fetch <;> exact ⟨rfl, rfl, rfl, rfl⟩

/-- Exactly one of the two results has gone up by one. -/
structure CountsOne (before after : Shared) : Prop where
  result
    : after.crawl.success = before.crawl.success + 1 ∧ after.crawl.fail = before.crawl.fail
      ∨ after.crawl.success = before.crawl.success
        ∧ after.crawl.fail = before.crawl.fail + 1
  active : after.active = before.active
  started : after.started = before.started

/-- What happens to the fetches in flight and to the counters: nothing, or one fetch is
started, counted, or released once it has been counted. The lists are given up to order.
-/
inductive TallyCase (before after : Shared) (old new : List Tally) : Prop
  | keeps (fetches : new.Perm old) (same : SameCounters before after)
  | starts {job : FrontierItem}
    (fetches : new.Perm (.pending job :: old))
    (started : after.started = job :: before.started)
    (active : after.active = before.active + 1)
    (success : after.crawl.success = before.crawl.success)
    (fail : after.crawl.fail = before.crawl.fail)
  | counts {job : FrontierItem} {rest : List Tally}
    (was : old.Perm (.pending job :: rest)) (fetches : new.Perm (.counted job :: rest))
    (one : CountsOne before after)
  | releases {job : FrontierItem}
    (was : old.Perm (.counted job :: new))
    (active : after.active = before.active - 1)
    (success : after.crawl.success = before.crawl.success)
    (fail : after.crawl.fail = before.crawl.fail)
    (started : after.started = before.started)

namespace TallyCase

variable {before after : Shared} {old new : List Tally}

/-- Other fetches do not matter. -/
theorem frame (tally : TallyCase before after old new) (rest : List Tally)
    : TallyCase before after (old ++ rest) (new ++ rest) := by
  cases tally with
  | keeps fetches same => exact .keeps (fetches.append_right rest) same
  | starts fetches started active success fail =>
      exact .starts (fetches.append_right rest) started active success fail
  | counts was fetches one =>
      exact .counts (was.append_right rest) (fetches.append_right rest) one
  | releases was active success fail started =>
      exact .releases (was.append_right rest) active success fail started

end TallyCase

/-- A failed fetch or save is counted once. -/
theorem Shared.countsOne_countFailure (env : Env) (shared : Shared) (job : FrontierItem)
    : CountsOne shared (shared.countFailure env job) :=
  ⟨.inr ⟨rfl, rfl⟩, rfl, rfl⟩

/-- Each branch of the script keeps, starts, counts or releases a fetch. -/
theorem Flow.tallyCase {env : Env} {shared : Shared} {seeds : List String} {input : Input}
    {point : Point} {outcome : Outcome} (flow : Flow env shared seeds input point outcome)
    : TallyCase shared outcome.shared point.tally?.toList (talliesOf outcome.threads) := by
  cases flow with
  | lost unguarded _ =>
      rw [Point.tally?_of_isUnguarded unguarded]
      exact .keeps (.refl _) (.refl shared)
  | thrown parses _ =>
      rcases parses with rfl | rfl <;> exact .keeps (.refl _) (.refl shared)
  | asking _ _ _ fetch =>
      have same := SameCounters.of_fetch fetch
      refine .keeps ?_ ⟨same.success, same.fail, same.active, same.started⟩
      simp [Outcome.threads, fetch.point_eq, Point.tally?]
  | started fetch =>
      have same := SameCounters.of_fetch fetch
      refine .starts ?_ same.started same.active same.success same.fail
      simp [Outcome.threads, fetch.point_eq, Point.tally?]
  | seeded ended => rcases ended with rfl | rfl <;> exact .keeps (.refl _) (.refl shared)
  | refilled _ ended =>
      rcases ended with rfl | rfl | rfl <;> exact .keeps (.refl _) ⟨rfl, rfl, rfl, rfl⟩
  | fetchFailed => exact .counts (.refl _) (.refl _) (shared.countsOne_countFailure env _)
  | savedLeaf | savedLinks =>
      exact .counts (.refl _) (.refl _) ⟨.inl ⟨rfl, rfl⟩, rfl, rfl⟩
  | saveFailed => exact .counts (.refl _) (.refl _) (shared.countsOne_countFailure env _)
  | recrawled ended =>
      rcases ended with rfl | rfl <;>
        exact .counts (.refl _) (.refl _) ⟨.inl ⟨rfl, rfl⟩, rfl, rfl⟩
  | failed ended => rcases ended with rfl | rfl <;> exact .keeps (.refl _) (.refl shared)
  | finalised => exact .releases (.refl _) rfl rfl rfl rfl
  | refreshFailed ended =>
      rcases ended with rfl | rfl | rfl <;> exact .keeps (.refl _) (.refl shared)
  | _ => exact .keeps (.refl _) ⟨rfl, rfl, rfl, rfl⟩

namespace State

variable {env : Env} {start state next : State} {label : Label}

/-- Threads that are the same up to order work on the same fetches up to order. -/
theorem talliesOf_perm {left right : List Thread} (same : left.Perm right)
    : (talliesOf left).Perm (talliesOf right) :=
  same.filterMap _

/-- An answer leaves a thread at its point, so that it works on the same fetch. -/
theorem tallies_of_answer {old new : Thread} {rest : List Thread}
    (before : state.threads.Perm (old :: rest)) (after : next.threads = new :: rest)
    (same : new.point = old.point)
    : next.tallies.Perm state.tallies :=
  filterMap_perm_of_replace before after (congrArg Point.tally? same)

/-- Each step keeps, starts, counts or releases a fetch. -/
theorem step_counts (taken : state.step env label = some next)
    : TallyCase state.shared next.shared state.tallies next.tallies := by
  cases step_cases taken with
  | still _ _ _ shared after =>
      exact .keeps (talliesOf_perm after) (shared ▸ ⟨rfl, rfl, rfl, rfl⟩)
  | begin _ _ background shared after =>
      refine .keeps ?_ (shared ▸ ⟨rfl, rfl, rfl, rfl⟩)
      unfold tallies
      rw [after]
      cases background <;> exact .refl _
  | @run seeds input point _ _ shared before after =>
      unfold tallies
      rw [before, after, shared, talliesOf_cons, talliesOf_append]
      exact (state.shared.resume_flow env seeds input point).tallyCase.frame _
  | exec _ _ _ shared before after =>
      exact .keeps (tallies_of_answer before after rfl) (shared ▸ ⟨rfl, rfl, rfl, rfl⟩)
  | redirect fetch before after =>
      exact .keeps (tallies_of_answer before after fetch.point_eq) (.of_fetch fetch)
  | settle _ shared before after | record shared before after =>
      exact .keeps (tallies_of_answer before after rfl) (shared ▸ ⟨rfl, rfl, rfl, rfl⟩)

/-- The results account for the fetches started, apart from those that are not counted yet,
and the slots are taken by the fetches in flight.
-/
structure Accounted (state : State) : Prop where
  results
    : state.shared.crawl.success + state.shared.crawl.fail
        + state.tallies.countP Tally.isPending
      = state.shared.started.length
  slots : state.shared.active = state.tallies.length

/-- A crawl that begins has started nothing. -/
theorem Begins.accounted (begins : start.Begins) : start.Accounted := by
  obtain ⟨_, _, _, _, _, _, rfl⟩ := begins
  exact ⟨rfl, rfl⟩

/-- A step keeps the account, case by case. -/
theorem Accounted.step (accounted : state.Accounted) (taken : state.step env label = some next)
    : next.Accounted := by
  obtain ⟨results, slots⟩ := accounted
  cases step_counts taken with
  | keeps fetches same =>
      constructor
      · rw [same.success, same.fail, same.started, fetches.countP_eq, results]
      · rw [same.active, fetches.length_eq, slots]
  | @starts job fetches started active success fail =>
      constructor
      · rw [success, fail, started, fetches.countP_eq]
        simp only [List.countP_cons, Tally.isPending, if_true, List.length_cons]
        omega
      · rw [active, fetches.length_eq, List.length_cons, slots]
  | @counts job rest was fetches one =>
      have pending := was.countP_eq Tally.isPending
      have moved := fetches.countP_eq Tally.isPending
      have lengths := was.length_eq
      simp only [List.countP_cons, Tally.isPending, if_true, Bool.false_eq_true, if_false,
        List.length_cons] at pending moved lengths
      constructor
      · rw [one.started]
        rcases one.result with ⟨success, fail⟩ | ⟨success, fail⟩ <;> omega
      · rw [one.active, fetches.length_eq, List.length_cons]
        omega
  | @releases job was active success fail started =>
      have pending := was.countP_eq Tally.isPending
      have lengths := was.length_eq
      simp only [List.countP_cons, Tally.isPending, Bool.false_eq_true, if_false,
        List.length_cons] at pending lengths
      constructor
      · rw [success, fail, started]
        omega
      · rw [active]
        omega

/-- In every run each step moves at most one fetch on, which is counted exactly once between
its start and the release of its slot; so with no slot taken, the results add up to the
fetches started.
-/
theorem fetches_counted_once (begins : start.Begins) (run : Reaches (step env) start state)
    : (∀ label next,
        state.step env label = some next →
          TallyCase state.shared next.shared state.tallies next.tallies)
      ∧ state.shared.crawl.success + state.shared.crawl.fail
          + state.tallies.countP Tally.isPending
        = state.shared.started.length
      ∧ (state.shared.active = 0 →
          state.shared.crawl.success + state.shared.crawl.fail
            = state.shared.started.length) := by
  have accounted : state.Accounted :=
    run.invariant begins.accounted fun accounted _ taken => accounted.step taken
  refine ⟨fun _ _ taken => step_counts taken, accounted.results, fun idle => ?_⟩
  have none : state.tallies = [] :=
    List.eq_nil_of_length_eq_zero (accounted.slots.symm.trans idle)
  have results := accounted.results
  rwa [none, List.countP_nil, Nat.add_zero] at results

/-- Two invocations overlap, and the first page has failed while the second is in flight. -/
theorem fetches_counted_once_of_overlap
    : ∃ state,
        Reaches (step plainEnv) (plainCrawl overlapPages) state
        ∧ state.shared.crawl.fail = 1
        ∧ state.shared.crawl.success + state.shared.crawl.fail
            + state.tallies.countP Tally.isPending
          = state.shared.started.length := by
  have executed
      : (execute (step plainEnv) anyStep (plainCrawl overlapPages) overlap).any
          (fun state => state.shared.crawl.fail = 1)
        = true := by
    decide +kernel
  obtain ⟨state, run, failed⟩ := exists_run_of_any executed
  exact ⟨state, run, of_decide_eq_true failed,
    (fetches_counted_once (plainCrawl_begins overlapPages) run).2.1⟩

end State

end WebIndexer.Crawl
