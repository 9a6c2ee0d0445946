import WebIndexer.Crawl.Pieces

/-! Inversion of the pieces of the script, branch by branch: which conditions lead a piece
from its point to which outcome. Invariants that speak of the counters of `CrawlState`, of
the history or of the items that points carry are derived from these cases.
-/

namespace WebIndexer.Crawl

open WebIndexer.Config
open WebIndexer.Fetcher
open WebIndexer.Library
open WebIndexer.Runtime
open WebIndexer.Store

-----------------------------------------------------------------------------------------
-- The threads of an outcome
-----------------------------------------------------------------------------------------

namespace Outcome

variable {outcome : Outcome} {holds : Thread → Prop}

/-- A piece that ends leaves no thread. -/
theorem forall_none (none : outcome.threads = [])
    : ∀ thread ∈ outcome.threads, holds thread := by
  rw [none]
  exact List.forall_mem_nil holds

/-- What holds of the only thread that a piece leaves holds of all. -/
theorem forall_single {only : Thread} (single : outcome.threads = [only]) (held : holds only)
    : ∀ thread ∈ outcome.threads, holds thread := by
  rw [single]
  exact List.forall_mem_singleton.mpr held

/-- What holds of the piece that goes on and of the fetch that it leaves holds of all. -/
theorem forall_pair {first second : Thread} (pair : outcome.threads = [first, second])
    (goes : holds first) (held : holds second)
    : ∀ thread ∈ outcome.threads, holds thread := by
  rw [pair]
  exact List.forall_mem_cons.mpr ⟨goes, List.forall_mem_singleton.mpr held⟩

end Outcome

-----------------------------------------------------------------------------------------
-- Answers
-----------------------------------------------------------------------------------------

/-- The value is one that the statement of the point returns. -/
def Point.accepts (point : Point) (value : Value) : Prop :=
  ∃ statement, point.statement = some statement ∧ value.answers statement = true

/-- No error handler surrounds the await: a rejection ends the piece. -/
def Point.isUnguarded : Point → Bool
  | .batchRead _ | .recrawlRead _ | .visitedRead .. | .blockedMarked _ | .blockedDeleted _
  | .seedVisited .. | .seedCounted _ => true
  | _ => false

-----------------------------------------------------------------------------------------
-- The branches
-----------------------------------------------------------------------------------------

/-- The counters after a page has been saved. -/
def Shared.countSuccess (env : Env) (shared : Shared) (job : FrontierItem) (page : PageData)
    : Shared :=
  let crawl := (shared.crawl.incrementDomainCount page.dom).recordDomainSuccess
    (env.domainOf job)
  { shared with crawl := { crawl with success := crawl.success + 1 } }

/-- What each branch of the script requires, and how it leaves. -/
inductive Flow (env : Env) (shared : Shared) (seeds : List String) (input : Input)
    : Point → Outcome → Prop
  -- an await without a handler whose statement was rejected, and a `URL` that throws
  | lost {point : Point}
    (unguarded : point.isUnguarded = true)
    (rejected : ∀ value, input = .reply (some value) → ¬ point.accepts value)
    : Flow env shared seeds input point shared.stop
  | thrown {point : Point} {visit : Visit}
    (parses : point = .checkRobots visit ∨ point = .robotsGate visit)
    (invalid : env.api.parse visit.item.url = none)
    : Flow env shared seeds input point shared.stop
  -- the start-up closure
  | cursorRead (cursor : Nat)
    : Flow env shared seeds input .cursorRead { shared with frontierCursor := cursor }.stop
  -- `processNext`, up to its batch
  | done (full : maxNodes ≤ shared.crawl.nodeCount)
    : Flow env shared seeds input .entry shared.stop
  | yielding (below : shared.crawl.nodeCount < maxNodes)
    : Flow env shared seeds input .entry (shared.schedule .yielded)
  | busy (full : concurrency ≤ shared.active)
    : Flow env shared seeds input .yielded shared.stop
  | reading (free : shared.active < concurrency)
    : Flow env shared seeds input .yielded (shared.await (.batchRead shared.frontierCursor))
  | recrawling {cursor : Nat}
    (empty : input = .reply (some (.rows [])))
    (idle : shared.active = 0)
    (low : shared.crawl.frontierCount < queueLowWater)
    : Flow env shared seeds input (.batchRead cursor)
        ({ shared with
          frontierCursor := 0
          crawl := { shared.crawl with recrawlAttempted := true } }.await
          (.recrawlRead (min shared.crawl.nodeCount 15)))
  | seeding {cursor : Nat}
    (empty : input = .reply (some (.rows [])))
    (idle : shared.active = 0)
    (low : shared.crawl.frontierCount < queueLowWater)
    : Flow env shared seeds input (.batchRead cursor)
        ({ shared with
          frontierCursor := 0
          crawl := { shared.crawl with recrawlAttempted := false } }.goto
          (.seedLoop seeds 0 .processNext))
  | waiting {cursor : Nat}
    (empty : input = .reply (some (.rows [])))
    (idle : shared.active = 0)
    (high : queueLowWater ≤ shared.crawl.frontierCount)
    : Flow env shared seeds input (.batchRead cursor)
        ({ shared with frontierCursor := 0 }.schedule .entry)
  | batch {cursor next : Nat} {rows : List FrontierRow}
    (read : input = .reply (some (.rows rows)))
    (work : rows ≠ [] ∨ 0 < shared.active)
    : Flow env shared seeds input (.batchRead cursor)
        ({ shared with frontierCursor := next }.goto
          (.forItem (rows.map FrontierRow.toFrontierItem) false))
  -- `processNext`, the injection of pages to re-crawl
  | targets {limit : Nat} {targets : List String}
    (read : input = .reply (some (.urls targets)))
    : Flow env shared seeds input (.recrawlRead limit) (shared.goto (.recrawlLoop targets))
  | recrawlDone
    : Flow env shared seeds input (.recrawlLoop []) (shared.schedule .entry)
  | recrawlNext {url : String} {targets : List String}
    : Flow env shared seeds input (.recrawlLoop (url :: targets))
        (shared.await (.recrawlInserted url targets))
  | recrawlInserted {url : String} {targets : List String}
    : Flow env shared seeds input (.recrawlInserted url targets)
        (shared.goto (.recrawlLoop targets))
  -- `processNext`, the admission loop
  | loopIdle {items : List FrontierItem}
    (ended : items = [] ∨ concurrency ≤ shared.active)
    (idle : shared.active = 0)
    : Flow env shared seeds input (.forItem items false) (shared.schedule .entry)
  | loopOver {items : List FrontierItem} {startedAny : Bool}
    (ended : items = [] ∨ concurrency ≤ shared.active)
    (work : startedAny = true ∨ 0 < shared.active)
    : Flow env shared seeds input (.forItem items startedAny) shared.stop
  | ask {item : FrontierItem} {rest : List FrontierItem} {startedAny : Bool}
    (free : shared.active < concurrency)
    (first : isRecrawl item = false)
    : Flow env shared seeds input (.forItem (item :: rest) startedAny)
        (shared.await (.visitedRead item rest startedAny))
  | askRecrawl {item : FrontierItem} {rest : List FrontierItem} {startedAny : Bool}
    (free : shared.active < concurrency)
    (recrawl : isRecrawl item = true)
    : Flow env shared seeds input (.forItem (item :: rest) startedAny)
        (shared.goto (.examine item rest startedAny))
  | seen {item : FrontierItem} {rest : List FrontierItem} {startedAny : Bool}
    (found : input = .reply (some (.found true)))
    : Flow env shared seeds input (.visitedRead item rest startedAny)
        (shared.await (.skipped item.url rest startedAny))
  | unseen {item : FrontierItem} {rest : List FrontierItem} {startedAny : Bool}
    (found : input = .reply (some (.found false)))
    : Flow env shared seeds input (.visitedRead item rest startedAny)
        (shared.goto (.examine item rest startedAny))
  | dropped {item : FrontierItem} {rest : List FrontierItem} {startedAny : Bool}
    (settled : env.domainOf item = "" ∨ env.domainOf item ∈ shared.crawl.domainBlacklist)
    : Flow env shared seeds input (.examine item rest startedAny)
        (shared.await (.skipped item.url rest startedAny))
  | crowded {item : FrontierItem} {rest : List FrontierItem} {startedAny : Bool}
    (full : domainLimit ≤ shared.crawl.domainInflight (env.domainOf item))
    : Flow env shared seeds input (.examine item rest startedAny)
        (shared.goto (.forItem rest startedAny))
  | admitRecrawl {visit : Visit}
    (admits : shared.admits env visit.item)
    (recrawl : isRecrawl visit.item = true)
    : Flow env shared seeds input (.examine visit.item visit.rest visit.startedAny)
        (shared.goto (.start visit))
  | admitted {visit : Visit}
    (admits : shared.admits env visit.item)
    (first : isRecrawl visit.item = false)
    : Flow env shared seeds input (.examine visit.item visit.rest visit.startedAny)
        (shared.goto (.checkRobots visit))
  | skipped {url : String} {rest : List FrontierItem} {startedAny : Bool}
    : Flow env shared seeds input (.skipped url rest startedAny)
        (shared.goto (.forItem rest startedAny))
  | known {visit : Visit} {parsed : Url}
    (parse : env.api.parse visit.item.url = some parsed)
    (checked : parsed.origin ∈ shared.domainsChecked)
    : Flow env shared seeds input (.checkRobots visit) (shared.goto (.robotsGate visit))
  | cached {visit : Visit} {parsed : Url}
    (parse : env.api.parse visit.item.url = some parsed)
    (new : parsed.origin ∉ shared.domainsChecked)
    (found : (shared.robotsCache.get? parsed.origin).isSome)
    : Flow env shared seeds input (.checkRobots visit)
        ({ shared with domainsChecked := parsed.origin :: shared.domainsChecked }.schedule
          (.robotsGate visit))
  | asking {visit : Visit} {parsed : Url} {after : Shared} {thread : Thread}
    (parse : env.api.parse visit.item.url = some parsed)
    (new : parsed.origin ∉ shared.domainsChecked)
    (uncached : shared.robotsCache.get? parsed.origin = none)
    (fetch : FetchCase
      { shared with domainsChecked := parsed.origin :: shared.domainsChecked }
      (parsed.origin ++ "/robots.txt") (.robotsFetched visit) (after, thread))
    : Flow env shared seeds input (.checkRobots visit) ⟨after, none, [thread]⟩
  | rulesRead {visit : Visit} {parsed : Url} {html finalUrl : String}
    (parse : env.api.parse visit.item.url = some parsed)
    (page : input = .response (some (html, finalUrl)))
    : Flow env shared seeds input (.robotsFetched visit)
        ((shared.cacheRobots parsed.origin (parseRobotsTxt html)).schedule (.robotsGate visit))
  | rulesFailed {visit : Visit}
    (failed : env.api.parse visit.item.url = none ∨ input.page? = none)
    : Flow env shared seeds input (.robotsFetched visit)
        ({ shared with robotsCache := shared.robotsCache.set visit.item.url none }.schedule
          (.robotsGate visit))
  | blocked {visit : Visit} {parsed : Url} {rules : List String}
    (parse : env.api.parse visit.item.url = some parsed)
    (found : shared.robotsCache.get? parsed.origin = some (some rules))
    (matched : rules.any (startsWith parsed.pathname) = true)
    : Flow env shared seeds input (.robotsGate visit) (shared.await (.blockedMarked visit))
  | passed {visit : Visit} {parsed : Url}
    (parse : env.api.parse visit.item.url = some parsed)
    (free : ∀ rules, shared.robotsCache.get? parsed.origin = some (some rules) →
      rules.any (startsWith parsed.pathname) = false)
    : Flow env shared seeds input (.robotsGate visit) (shared.goto (.start visit))
  | blockedMarked {visit : Visit} {value : Value}
    (answered : input = .reply (some value))
    : Flow env shared seeds input (.blockedMarked visit) (shared.await (.blockedDeleted visit))
  | blockedDeleted {visit : Visit} {value : Value}
    (answered : input = .reply (some value))
    : Flow env shared seeds input (.blockedDeleted visit)
        (shared.goto (.forItem visit.rest visit.startedAny))
  | started {visit : Visit} {after : Shared} {thread : Thread}
    (fetch : FetchCase (shared.take env visit) visit.item.url (.fetched visit.item)
      (after, thread))
    : Flow env shared seeds input (.start visit)
        ⟨after, some (.forItem visit.rest true), [thread]⟩
  -- `addSeedBatch`
  | seedNext {url : String} {rest : List String} {added : Nat} {caller : SeedCaller}
    : Flow env shared seeds input (.seedLoop (url :: rest) added caller)
        (shared.await (.seedVisited url rest added caller))
  | seedsAdded {added : Nat} {caller : SeedCaller}
    (some : 0 < added)
    : Flow env shared seeds input (.seedLoop [] added caller)
        (shared.await (.seedCounted caller))
  | seedSeen {url : String} {rest : List String} {added : Nat} {caller : SeedCaller}
    (found : input = .reply (some (.found true)))
    : Flow env shared seeds input (.seedVisited url rest added caller)
        (shared.goto (.seedLoop rest added caller))
  | seedUnseen {url : String} {rest : List String} {added : Nat} {caller : SeedCaller}
    (found : input = .reply (some (.found false)))
    : Flow env shared seeds input (.seedVisited url rest added caller)
        (shared.await (.seedInserted url rest added caller))
  | seedInserted {url : String} {rest : List String} {added total : Nat} {caller : SeedCaller}
    : Flow env shared seeds input (.seedInserted url rest added caller)
        (shared.goto (.seedLoop rest total caller))
  | seeded {point : Point}
    (ended : point = .seedLoop [] 0 .processNext ∨ point = .seedCounted .processNext)
    : Flow env shared seeds input point (shared.schedule .entry)
  | refilled {point : Point} (attempted : Bool)
    (ended : point = .seedLoop [] 0 .interval ∨ point = .seedCounted .interval
      ∨ point = .statsBody)
    : Flow env shared seeds input point
        { shared with crawl := { shared.crawl with recrawlAttempted := attempted } }.stop
  -- the handlers of a page fetch
  | recrawlFetched {job : FrontierItem} {html finalUrl : String}
    (page : input = .response (some (html, finalUrl)))
    (recrawl : isRecrawl job = true)
    : Flow env shared seeds input (.fetched job) (shared.await (.recrawlMarked job))
  | pageFetched {job : FrontierItem} {html finalUrl : String}
    (page : input = .response (some (html, finalUrl)))
    (first : isRecrawl job = false)
    : Flow env shared seeds input (.fetched job)
        (shared.await (.saved job
          (shared.pageData env job finalUrl (env.parsePage html finalUrl))
          (env.parsePage html finalUrl).links))
  | fetchFailed {job : FrontierItem}
    (failed : input.page? = none)
    : Flow env shared seeds input (.fetched job)
        ((shared.countFailure env job).await (.failMarked job))
  | savedLeaf {job : FrontierItem} {page : PageData} {links : List String} {value : Value}
    (answered : input = .reply (some value))
    : Flow env shared seeds input (.saved job page links)
        ((shared.countSuccess env job page).schedule (.finalise job))
  | savedLinks {job : FrontierItem} {page : PageData} {links : List String} {value : Value}
    (answered : input = .reply (some value))
    : Flow env shared seeds input (.saved job page links)
        ((shared.countSuccess env job page).await
          (.linksInserted job
            ((shared.countSuccess env job page).keptLinks env job page.url links)))
  | saveFailed {job : FrontierItem} {page : PageData} {links : List String}
    (failed : input.value? = none)
    : Flow env shared seeds input (.saved job page links)
        ((shared.countFailure env job).schedule (.finalise job))
  | linksInserted {job : FrontierItem} {items : List FrontierItem}
    : Flow env shared seeds input (.linksInserted job items) (shared.schedule (.finalise job))
  | recrawlMarked {job : FrontierItem}
    : Flow env shared seeds input (.recrawlMarked job) (shared.await (.recrawlDeleted job))
  | recrawled {job : FrontierItem} {point : Point}
    (ended : point = .recrawlMarked job ∨ point = .recrawlDeleted job)
    : Flow env shared seeds input point (shared.recrawled job)
  | failMarked {job : FrontierItem}
    : Flow env shared seeds input (.failMarked job) (shared.await (.failDeleted job))
  | failed {job : FrontierItem} {point : Point}
    (ended : point = .failMarked job ∨ point = .failDeleted job)
    : Flow env shared seeds input point (shared.schedule (.finalise job))
  | finalised {job : FrontierItem}
    : Flow env shared seeds input (.finalise job) (shared.finalise env job)
  -- the timers and the Kafka consumer
  | nodesCounted {full : Bool} {count : Nat}
    (read : input = .reply (some (.count count)))
    : Flow env shared seeds input (.nodesCounted full)
        ({ shared with crawl := { shared.crawl with nodeCount := count } }.await
          (.frontierCounted full))
  | frontierCounted {full : Bool} {count : Nat}
    (read : input = .reply (some (.count count)))
    : Flow env shared seeds input (.frontierCounted full)
        ({ shared with crawl := { shared.crawl with frontierCount := count } }.await
          (.popRead full))
  | popRead {full : Bool} {counts : List (String × Nat)}
    (read : input = .reply (some (.counts counts)))
    : Flow env shared seeds input (.popRead full)
        ({ shared with crawl := { shared.crawl with domainPop := counts } }.schedule
          (.refreshed full))
  | refreshFailed {full : Bool} {point : Point}
    (ended : point = .nodesCounted full ∨ point = .frontierCounted full ∨ point = .popRead full)
    : Flow env shared seeds input point (shared.schedule (.refreshed full))
  | refreshed
    : Flow env shared seeds input (.refreshed true) (shared.await .countsRead)
  | refreshedHalf
    : Flow env shared seeds input (.refreshed false) (shared.goto .statsBody)
  | countsRead (counts : String → Nat)
    : Flow env shared seeds input .countsRead
        ({ shared with crawl := { shared.crawl with domainNodeCount := counts } }.schedule
          .statsBody)
  | refilling
    (low : shared.crawl.frontierCount < queueLowWater)
    (below : shared.crawl.nodeCount < maxNodes)
    (writable : shared.crawl.diskPaused = false)
    : Flow env shared seeds input .statsBody (shared.goto (.seedLoop seeds 0 .interval))
  | cleared
    : Flow env shared seeds input .cleared shared.stop
  | consumed {item : FrontierItem}
    : Flow env shared seeds input (.consumed item) shared.stop

namespace Shared

variable {env : Env} {seeds : List String} {input : Input}

/-- An await without a handler ends the piece, unless a value of the statement arrives. -/
theorem lost_flow (shared : Shared) {point : Point} (unguarded : point.isUnguarded = true)
    (other : ∀ value, point.accepts value → input.value? ≠ some value)
    : Flow env shared seeds input point shared.stop := by
  refine .lost unguarded fun value replied accepts => ?_
  subst replied
  exact other value accepts rfl

/-- An await without a handler ends the piece at a rejection. -/
theorem rejected_flow (shared : Shared) {point : Point} (unguarded : point.isUnguarded = true)
    (rejected : input.value? = none)
    : Flow env shared seeds input point shared.stop := by
  refine shared.lost_flow unguarded fun value _ found => ?_
  rw [rejected] at found
  cases found

-----------------------------------------------------------------------------------------
-- `addSeedBatch` and the batch
-----------------------------------------------------------------------------------------

/-- The caller of `addSeedBatch` goes on when the seeds are over. -/
theorem afterSeeds_flow (shared : Shared) {point : Point} {caller : SeedCaller}
    (ended : point = .seedLoop [] 0 caller ∨ point = .seedCounted caller
      ∨ point = .statsBody ∧ caller = .interval)
    : Flow env shared seeds input point (shared.afterSeeds caller) := by
  cases caller with
  | processNext =>
      refine .seeded (ended.imp_right fun counted => counted.resolve_right ?_)
      rintro ⟨_, same⟩
      cases same
  | interval =>
      have ended := ended.imp_right (Or.imp_right And.left)
      simp only [afterSeeds]
      split
      · exact .refilled false ended
      · exact .refilled shared.crawl.recrawlAttempted ended

/-- The loop over the seeds. -/
theorem seedLoop_flow (shared : Shared) (added : Nat) (caller : SeedCaller)
    (rest : List String)
    : Flow env shared seeds input (.seedLoop rest added caller)
        (shared.seedLoop added caller rest) := by
  cases rest with
  | nil =>
      simp only [seedLoop]
      split
      · rename_i some
        exact .seedsAdded some
      · rename_i none
        obtain rfl : added = 0 := Nat.eq_zero_of_not_pos none
        exact shared.afterSeeds_flow (.inl rfl)
  | cons url rest => exact .seedNext

/-- The batch is worked through, unless it is empty and no fetch is in flight. -/
theorem batchRead_flow (shared : Shared) (cursor : Nat)
    : Flow env shared seeds input (.batchRead cursor) (shared.batchRead seeds input) := by
  unfold batchRead
  split
  · rename_i rows found
    have read := Input.eq_of_value? found
    simp only
    split
    · rename_i quiet
      obtain ⟨rfl, idle⟩ := quiet
      unfold Shared.idle
      split
      · rename_i low
        split
        · exact .recrawling read idle low
        · exact .seeding read idle low
      · rename_i high
        exact .waiting read idle (Nat.not_lt.mp high)
    · rename_i work
      refine .batch read ?_
      by_cases empty : rows = []
      · exact .inr (Nat.pos_of_ne_zero fun idle => work ⟨empty, idle⟩)
      · exact .inl empty
  · rename_i other
    refine shared.lost_flow rfl fun value accepts found => ?_
    obtain ⟨_, ⟨⟩, answers⟩ := accepts
    cases value with
    | rows rows => exact other rows found
    | _ => cases answers

-----------------------------------------------------------------------------------------
-- The admission loop
-----------------------------------------------------------------------------------------

/-- The end of the admission loop. -/
theorem afterLoop_flow (shared : Shared) {items : List FrontierItem} (startedAny : Bool)
    (ended : items = [] ∨ concurrency ≤ shared.active)
    : Flow env shared seeds input (.forItem items startedAny)
        (shared.afterLoop startedAny) := by
  unfold afterLoop
  split
  · rename_i quiet
    obtain rfl : startedAny = false := Bool.eq_false_iff.mpr quiet.1
    exact .loopIdle ended quiet.2
  · rename_i work
    refine .loopOver ended ?_
    cases startedAny with
    | true => exact .inl rfl
    | false => exact .inr (Nat.pos_of_ne_zero fun idle => work ⟨Bool.false_ne_true, idle⟩)

/-- The head of the admission loop. -/
theorem forItem_flow (shared : Shared) (startedAny : Bool) (items : List FrontierItem)
    : Flow env shared seeds input (.forItem items startedAny)
        (shared.forItem startedAny items) := by
  cases items with
  | nil => exact shared.afterLoop_flow startedAny (.inl rfl)
  | cons item rest =>
      simp only [forItem]
      split
      · rename_i full
        exact shared.afterLoop_flow startedAny (.inr full)
      · rename_i room
        have free : shared.active < concurrency := Nat.not_le.mp room
        split
        · rename_i recrawl
          exact .askRecrawl free recrawl
        · rename_i first
          exact .ask free (Bool.eq_false_iff.mpr first)

/-- The answer to `isVisited`. -/
theorem visitedRead_flow (shared : Shared) (item : FrontierItem) (rest : List FrontierItem)
    (startedAny : Bool)
    : Flow env shared seeds input (.visitedRead item rest startedAny)
        (shared.visitedRead item rest startedAny input) := by
  unfold visitedRead
  split
  · rename_i found
    exact .seen (Input.eq_of_value? found)
  · rename_i found
    exact .unseen (Input.eq_of_value? found)
  · rename_i visited unvisited
    refine shared.lost_flow rfl fun value accepts found => ?_
    obtain ⟨_, ⟨⟩, answers⟩ := accepts
    cases value with
    | found present =>
        cases present with
        | true => exact visited found
        | false => exact unvisited found
    | _ => cases answers

/-- The checks of an item's domain. -/
theorem examine_flow (shared : Shared) (item : FrontierItem) (rest : List FrontierItem)
    (startedAny : Bool)
    : Flow env shared seeds input (.examine item rest startedAny)
        (shared.examine env item rest startedAny) := by
  unfold examine
  simp only
  split
  · rename_i invalid
    exact .dropped (.inl invalid)
  · rename_i valid
    split
    · rename_i listed
      exact .dropped (.inr listed)
    · rename_i unlisted
      split
      · rename_i full
        exact .crowded full
      · rename_i room
        let visit : Visit :=
          ⟨item, shared.crawl.domainInflight (env.domainOf item), rest, startedAny⟩
        have admits : shared.admits env visit.item := ⟨valid, unlisted, Nat.not_le.mp room⟩
        split
        · rename_i recrawl
          exact @Flow.admitRecrawl env shared seeds input visit admits recrawl
        · rename_i first
          exact @Flow.admitted env shared seeds input visit admits (Bool.eq_false_iff.mpr first)

/-- The first visit of an origin asks for its robots.txt, unless it is cached. -/
theorem checkRobots_flow (shared : Shared) (visit : Visit)
    : Flow env shared seeds input (.checkRobots visit) (shared.checkRobots env visit) := by
  unfold checkRobots
  split
  · rename_i invalid
    exact .thrown (.inl rfl) invalid
  · rename_i parsed parse
    split
    · rename_i checked
      exact .known parse checked
    · rename_i new
      unfold checkRobotsTxt
      split
      · rename_i entry found
        exact .cached parse new (Option.isSome_iff_exists.mpr ⟨entry, found⟩)
      · rename_i uncached
        exact .asking parse new uncached (fetchHtml_spec env _ _ _)

/-- A robots.txt is cached under its origin, a failure under the address. -/
theorem robotsFetched_flow (shared : Shared) (visit : Visit)
    : Flow env shared seeds input (.robotsFetched visit)
        (shared.robotsFetched env visit input) := by
  unfold robotsFetched
  split
  · rename_i parse page
    exact .rulesRead parse (Input.eq_of_page? page)
  · rename_i other
    refine .rulesFailed ?_
    cases parse : env.api.parse visit.item.url with
    | none => exact .inl rfl
    | some parsed =>
        cases page : input.page? with
        | none => exact .inr rfl
        | some page => exact absurd page (other parsed _ _ parse)

/-- A cached rule blocks the item, or it can start. -/
theorem robotsGate_flow (shared : Shared) (visit : Visit)
    : Flow env shared seeds input (.robotsGate visit) (shared.robotsGate env visit) := by
  unfold robotsGate
  split
  · rename_i invalid
    exact .thrown (.inr rfl) invalid
  · rename_i parsed parse
    split
    · rename_i rules found
      split
      · rename_i matched
        exact .blocked parse found matched
      · rename_i unmatched
        refine .passed parse fun other cached => ?_
        obtain rfl := Option.some.inj (Option.some.inj (found.symm.trans cached))
        exact Bool.eq_false_iff.mpr unmatched
    · rename_i other
      exact .passed parse fun rules cached => absurd cached (other rules)

-----------------------------------------------------------------------------------------
-- All branches
-----------------------------------------------------------------------------------------

/-- Every piece takes one of the branches, point by point. -/
theorem resume_flow (env : Env) (shared : Shared) (seeds : List String) (input : Input)
    (point : Point)
    : Flow env shared seeds input point (shared.resume env seeds input point) := by
  cases point with
  | cursorRead =>
      simp only [resume]
      split
      · exact .cursorRead _
      · exact .cursorRead shared.frontierCursor
  | entry =>
      simp only [resume]
      split
      · rename_i full
        exact .done full
      · rename_i below
        exact .yielding (Nat.not_le.mp below)
  | yielded =>
      simp only [resume]
      split
      · rename_i full
        exact .busy full
      · rename_i free
        exact .reading (Nat.not_le.mp free)
  | batchRead cursor => exact shared.batchRead_flow cursor
  | recrawlRead limit =>
      simp only [resume]
      split
      · rename_i found
        exact .targets (Input.eq_of_value? found)
      · rename_i other
        refine shared.lost_flow rfl fun value accepts found => ?_
        obtain ⟨_, ⟨⟩, answers⟩ := accepts
        cases value with
        | urls targets => exact other targets found
        | _ => cases answers
  | recrawlLoop targets =>
      cases targets with
      | nil => exact .recrawlDone
      | cons url targets => exact .recrawlNext
  | recrawlInserted url targets => exact .recrawlInserted
  | forItem items startedAny => exact shared.forItem_flow startedAny items
  | visitedRead item rest startedAny => exact shared.visitedRead_flow item rest startedAny
  | examine item rest startedAny => exact shared.examine_flow item rest startedAny
  | skipped url rest startedAny => exact .skipped
  | checkRobots visit => exact shared.checkRobots_flow visit
  | robotsFetched visit => exact shared.robotsFetched_flow visit
  | robotsGate visit => exact shared.robotsGate_flow visit
  | blockedMarked visit =>
      simp only [resume]
      split
      · rename_i answered
        exact .blockedMarked (Input.eq_of_value? answered)
      · rename_i rejected
        exact shared.rejected_flow rfl rejected
  | blockedDeleted visit =>
      simp only [resume]
      split
      · rename_i answered
        exact .blockedDeleted (Input.eq_of_value? answered)
      · rename_i rejected
        exact shared.rejected_flow rfl rejected
  | start visit => exact .started (fetchHtml_spec env _ _ _)
  | seedLoop rest added caller => exact shared.seedLoop_flow added caller rest
  | seedVisited url rest added caller =>
      simp only [resume]
      split
      · rename_i found
        exact .seedSeen (Input.eq_of_value? found)
      · rename_i found
        exact .seedUnseen (Input.eq_of_value? found)
      · rename_i visited unvisited
        refine shared.lost_flow rfl fun value accepts found => ?_
        obtain ⟨_, ⟨⟩, answers⟩ := accepts
        cases value with
        | found present =>
            cases present with
            | true => exact visited found
            | false => exact unvisited found
        | _ => cases answers
  | seedInserted url rest added caller =>
      simp only [resume]
      split
      · exact .seedInserted
      · exact .seedInserted
  | seedCounted caller =>
      simp only [resume]
      split
      · exact shared.afterSeeds_flow (.inr (.inl rfl))
      · rename_i rejected
        exact shared.rejected_flow rfl rejected
  | fetched job =>
      simp only [resume, Shared.fetched]
      split
      · rename_i page
        split
        · rename_i recrawl
          exact .recrawlFetched (Input.eq_of_page? page) recrawl
        · rename_i first
          exact .pageFetched (Input.eq_of_page? page) (Bool.eq_false_iff.mpr first)
      · rename_i failed
        exact .fetchFailed failed
  | saved job page links =>
      simp only [resume, Shared.saved]
      split
      · rename_i answered
        have answered := Input.eq_of_value? answered
        split
        · exact .savedLeaf answered
        · exact .savedLinks answered
      · rename_i failed
        exact .saveFailed failed
  | linksInserted job items => exact .linksInserted
  | recrawlMarked job =>
      simp only [resume]
      split
      · exact .recrawlMarked
      · exact .recrawled (.inl rfl)
  | recrawlDeleted job => exact .recrawled (.inr rfl)
  | failMarked job =>
      simp only [resume]
      split
      · exact .failMarked
      · exact .failed (.inl rfl)
  | failDeleted job => exact .failed (.inr rfl)
  | finalise job => exact .finalised
  | nodesCounted full =>
      simp only [resume]
      split
      · rename_i found
        exact .nodesCounted (Input.eq_of_value? found)
      · exact .refreshFailed (.inl rfl)
  | frontierCounted full =>
      simp only [resume]
      split
      · rename_i found
        exact .frontierCounted (Input.eq_of_value? found)
      · exact .refreshFailed (.inr (.inl rfl))
  | popRead full =>
      simp only [resume]
      split
      · rename_i found
        exact .popRead (Input.eq_of_value? found)
      · exact .refreshFailed (.inr (.inr rfl))
  | refreshed full =>
      cases full with
      | true => exact .refreshed
      | false => exact .refreshedHalf
  | countsRead =>
      simp only [resume]
      split
      · exact .countsRead _
      · exact .countsRead shared.crawl.domainNodeCount
  | statsBody =>
      simp only [resume, Shared.statsBody]
      split
      · rename_i refill
        exact .refilling refill.1 refill.2.1 (Bool.eq_false_iff.mpr refill.2.2)
      · exact shared.afterSeeds_flow (.inr (.inr ⟨rfl, rfl⟩))
  | cleared => exact .cleared
  | consumed item => exact .consumed

end Shared

end WebIndexer.Crawl
