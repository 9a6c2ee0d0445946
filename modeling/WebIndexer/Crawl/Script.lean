import WebIndexer.Crawl.State
import WebIndexer.Fetcher.Robots

/-! The pieces of `startCrawlLoop` between two awaits, with the functions of `src/seeds.ts`
and `src/fetcher.ts` that they call. A piece ends at an await, by returning, or at a point
that it continues with at once.
-/

namespace WebIndexer.Crawl

open WebIndexer.Circuit
open WebIndexer.Config
open WebIndexer.Fetcher
open WebIndexer.Library
open WebIndexer.Runtime
open WebIndexer.Store

/-- Where a piece leaves the script: the shared state, the point at which the same piece goes
on without a pause, if any, and the threads that wait for a statement, a fetch or their turn.
-/
structure Outcome where
  shared : Shared
  next : Option Point
  spawned : List Thread

/-- The threads that a piece leaves behind. -/
def Outcome.threads (outcome : Outcome) : List Thread :=
  (outcome.next.map fun point => ⟨.ready .nothing, point⟩).toList ++ outcome.spawned

/-- The value of a reply, unless the statement was rejected. -/
def Input.value? : Input → Option Value
  | .reply result => result
  | _ => none

/-- The response of a fetch, unless it was rejected. -/
def Input.page? : Input → Response
  | .response page => page
  | _ => none

/-- The domain that limits and counters of an item go by. -/
def Env.domainOf (env : Env) (item : FrontierItem) : String :=
  getDomain env.api item.url

namespace Shared

/-- The piece returns, or its promise is rejected and nothing waits for it. Such a rejection is one
that nothing handles, which ends the process; here the others go on without the piece.
-/
def stop (shared : Shared) : Outcome := ⟨shared, none, []⟩

/-- The piece goes on at a point. -/
def goto (shared : Shared) (point : Point) : Outcome := ⟨shared, some point, []⟩

/-- The piece runs the statement of a point and waits for its result. -/
def await (shared : Shared) (point : Point) : Outcome :=
  ⟨shared, none, [⟨.statement, point⟩]⟩

/-- The piece leaves a point to a later turn of the event loop. -/
def schedule (shared : Shared) (point : Point) : Outcome :=
  ⟨shared, none, [⟨.ready .nothing, point⟩]⟩

-----------------------------------------------------------------------------------------
-- `src/fetcher.ts`
-----------------------------------------------------------------------------------------

/-- `fetchHtmlRaw` for a point that waits for it. Past five redirects, or when `http.get`
throws, the promise is rejected without a request.
-/
def fetchHtmlRaw (env : Env) (shared : Shared) (url : String) (redirects : Nat)
    (point : Point)
    : Shared × Thread :=
  if 5 < redirects ∨ ¬ requestable env.api url then
    (shared, ⟨.settled none, point⟩)
  else
    ({ shared with requested := url :: shared.requested }, ⟨.http url redirects, point⟩)

/-- `fetchHtml` for a point that waits for it: the breaker rejects the call or starts it. -/
def fetchHtml (env : Env) (shared : Shared) (url : String) (point : Point)
    : Shared × Thread :=
  match shared.breaker.gate shared.now with
  | (breaker, .rejected _) =>
      ({ shared with breaker := breaker }, ⟨.ready (.response none), point⟩)
  | (breaker, .started) =>
      fetchHtmlRaw env { shared with breaker := breaker } url 0 point

/-- `robotsCache.set(origin, ...)` and the eviction after it. -/
def cacheRobots (shared : Shared) (origin : String) (rules : List String) : Shared :=
  let cache := shared.robotsCache.set origin (if rules = [] then none else some rules)
  {
    shared with
    robotsCache :=
      if robotsCacheMax < cache.size then
        cache.dropOldest ((robotsCacheMax + 1) / 2)
      else
        cache
    robotsRead := (origin, rules) :: shared.robotsRead
  }

/-- `checkRobotsTxt` up to its await: an origin in the cache needs no fetch. -/
def checkRobotsTxt (env : Env) (shared : Shared) (origin : String) (visit : Visit)
    : Outcome :=
  match shared.robotsCache.get? origin with
  | some _ => shared.schedule (.robotsGate visit)
  | none =>
      let (fetching, thread) :=
        shared.fetchHtml env (origin ++ "/robots.txt") (.robotsFetched visit)
      ⟨fetching, none, [thread]⟩

/-- The rest of `checkRobotsTxt`. A failure is cached under the address, not the origin. -/
def robotsFetched (env : Env) (shared : Shared) (visit : Visit) (input : Input) : Outcome :=
  match env.api.parse visit.item.url, input.page? with
  | some parsed, some (html, _) =>
      (shared.cacheRobots parsed.origin (parseRobotsTxt html)).schedule (.robotsGate visit)
  | _, _ =>
      { shared with robotsCache := shared.robotsCache.set visit.item.url none }.schedule
        (.robotsGate visit)

-----------------------------------------------------------------------------------------
-- `addSeedBatch`
-----------------------------------------------------------------------------------------

/-- What the caller does when `addSeedBatch` has returned. -/
def afterSeeds (shared : Shared) : SeedCaller → Outcome
  | .processNext => shared.schedule .entry
  | .interval =>
      if 0 < shared.crawl.frontierCount then
        { shared with crawl := { shared.crawl with recrawlAttempted := false } }.stop
      else
        shared.stop

/-- The loop over the seeds, and the count that is logged when some were added. -/
def seedLoop (shared : Shared) (added : Nat) (caller : SeedCaller) : List String → Outcome
  | [] => if 0 < added then shared.await (.seedCounted caller) else shared.afterSeeds caller
  | url :: seeds => shared.await (.seedVisited url seeds added caller)

-----------------------------------------------------------------------------------------
-- `processNext`
-----------------------------------------------------------------------------------------

/-- An empty batch with no fetch in flight: pages to re-crawl or seeds are injected when the
frontier runs low, and the next invocation is scheduled.
-/
def idle (shared : Shared) (seeds : List String) : Outcome :=
  if shared.crawl.frontierCount < queueLowWater then
    if 0 < shared.crawl.nodeCount ∧ ¬ shared.crawl.recrawlAttempted then
      { shared with crawl := { shared.crawl with recrawlAttempted := true } }.await
        (.recrawlRead (min shared.crawl.nodeCount 15))
    else
      { shared with crawl := { shared.crawl with recrawlAttempted := false } }.goto
        (.seedLoop seeds 0 .processNext)
  else
    shared.schedule .entry

/-- The cursor moves to the end of the batch, or back to the start when it is empty. -/
def batchRead (shared : Shared) (seeds : List String) (input : Input) : Outcome :=
  match input.value? with
  | some (.rows batch) =>
      let moved := {
        shared with
        frontierCursor := (batch.getLast?.map FrontierRow.id).getD 0
      }
      if batch = [] ∧ moved.active = 0 then
        moved.idle seeds
      else
        moved.goto (.forItem (batch.map FrontierRow.toFrontierItem) false)
  | _ => shared.stop

/-- The end of the admission loop. -/
def afterLoop (shared : Shared) (startedAny : Bool) : Outcome :=
  if ¬ startedAny ∧ shared.active = 0 then shared.schedule .entry else shared.stop

/-- The head of the admission loop: it stops at the concurrency limit, and asks whether an
item that is no re-crawl has been visited.
-/
def forItem (shared : Shared) (startedAny : Bool) : List FrontierItem → Outcome
  | [] => shared.afterLoop startedAny
  | item :: rest =>
      if concurrency ≤ shared.active then
        shared.afterLoop startedAny
      else if isRecrawl item then
        shared.goto (.examine item rest startedAny)
      else
        shared.await (.visitedRead item rest startedAny)

/-- A visited item is deleted, any other is examined. -/
def visitedRead (shared : Shared) (item : FrontierItem) (rest : List FrontierItem)
    (startedAny : Bool) (input : Input)
    : Outcome :=
  match input.value? with
  | some (.found true) => shared.await (.skipped item.url rest startedAny)
  | some (.found false) => shared.goto (.examine item rest startedAny)
  | _ => shared.stop

/-- The checks of an item's domain that let it in. -/
def admits (env : Env) (shared : Shared) (item : FrontierItem) : Prop :=
  env.domainOf item ≠ ""
  ∧ env.domainOf item ∉ shared.crawl.domainBlacklist
  ∧ shared.crawl.domainInflight (env.domainOf item) < domainLimit

instance (env : Env) (shared : Shared) (item : FrontierItem)
    : Decidable (shared.admits env item) :=
  inferInstanceAs (Decidable (_ ∧ _ ∧ _))

/-- The checks of an item's domain. Its fetches in flight are read here. -/
def examine (env : Env) (shared : Shared) (item : FrontierItem) (rest : List FrontierItem)
    (startedAny : Bool)
    : Outcome :=
  let domain := env.domainOf item
  if domain = "" then
    shared.await (.skipped item.url rest startedAny)
  else if domain ∈ shared.crawl.domainBlacklist then
    shared.await (.skipped item.url rest startedAny)
  else
    let inflight := shared.crawl.domainInflight domain
    if domainLimit ≤ inflight then
      shared.goto (.forItem rest startedAny)
    else if isRecrawl item then
      shared.goto (.start ⟨item, inflight, rest, startedAny⟩)
    else
      shared.goto (.checkRobots ⟨item, inflight, rest, startedAny⟩)

/-- The first item of an origin waits for its robots.txt. -/
def checkRobots (env : Env) (shared : Shared) (visit : Visit) : Outcome :=
  match env.api.parse visit.item.url with
  | none => shared.stop
  | some parsed =>
      if parsed.origin ∈ shared.domainsChecked then
        shared.goto (.robotsGate visit)
      else
        { shared with
          domainsChecked := parsed.origin :: shared.domainsChecked }.checkRobotsTxt env
          parsed.origin visit

/-- An item that a cached rule of its origin blocks is marked as visited, any other starts. -/
def robotsGate (env : Env) (shared : Shared) (visit : Visit) : Outcome :=
  match env.api.parse visit.item.url with
  | none => shared.stop
  | some parsed =>
      match shared.robotsCache.get? parsed.origin with
      | some (some rules) =>
          if rules.any (startsWith parsed.pathname) then
            shared.await (.blockedMarked visit)
          else
            shared.goto (.start visit)
      | _ => shared.goto (.start visit)

/-- The slot of a visit is taken, with the count that was read before. -/
def take (env : Env) (shared : Shared) (visit : Visit) : Shared := {
  shared with
  active := shared.active + 1
  crawl := shared.crawl.setInflight (env.domainOf visit.item) (visit.inflight + 1)
  started := visit.item :: shared.started
  refused :=
    if (shared.breaker.gate shared.now).2 = CircuitBreaker.Admission.started then
      shared.refused
    else
      visit.item :: shared.refused
}

/-- The slot is taken, the fetch begins, and the admission loop goes on. -/
def start (env : Env) (shared : Shared) (visit : Visit) : Outcome :=
  let (fetching, thread) :=
    (shared.take env visit).fetchHtml env visit.item.url (.fetched visit.item)
  ⟨fetching, some (.forItem visit.rest true), [thread]⟩

-----------------------------------------------------------------------------------------
-- The handlers of a page fetch
-----------------------------------------------------------------------------------------

/-- The argument of `saveNode` for a fetched page. -/
def pageData (env : Env) (shared : Shared) (job : FrontierItem) (finalUrl : String)
    (page : ParsedPage)
    : PageData :=
  let dom := getDomain env.api finalUrl
  {
    url := finalUrl
    title := page.title
    desc := if page.metaDescription ≠ "" then page.metaDescription else page.ogDescription
    dom := dom
    depth := job.depth
    parent := job.parent
    pop := shared.crawl.popularity env.backend dom
    lang := page.lang
    https := if startsWith finalUrl "https" then 1 else 0
    metaDescription := page.metaDescription
    ogTitle := page.ogTitle
    ogDescription := page.ogDescription
    contentLength := page.contentLength
    crawledAt := shared.now
    origUrl := job.url
  }

/-- The links of a page that the loop keeps. -/
def keptLinks (env : Env) (shared : Shared) (job : FrontierItem) (finalUrl : String)
    : List String → List FrontierItem
  | [] => []
  | link :: links =>
      if isBlacklisted env.api link then
        shared.keptLinks env job finalUrl links
      else if maxDepth < job.depth + 1 then
        shared.keptLinks env job finalUrl links
      else if maxNodes ≤ shared.crawl.nodeCount then
        []
      else if maxFrontier ≤ shared.crawl.frontierCount then
        []
      else if shared.crawl.diskPaused then
        []
      else
        let domain := getDomain env.api link
        if domain ≠ ""
            ∧ (domainMax ≤ shared.crawl.domainNodeCount domain
              ∨ domain ∈ shared.crawl.domainBlacklist) then
          shared.keptLinks env job finalUrl links
        else
          ⟨link, job.depth + 1, some finalUrl⟩ :: shared.keptLinks env job finalUrl links

/-- A failed fetch or save is counted against the domain of its item. -/
def countFailure (env : Env) (shared : Shared) (job : FrontierItem) : Shared := {
  shared with
  crawl := { shared.crawl with fail := shared.crawl.fail + 1 }.recordDomainFail
    (env.domainOf job)
}

/-- The handlers of `then` and `catch` up to their first await. -/
def fetched (env : Env) (shared : Shared) (job : FrontierItem) (input : Input) : Outcome :=
  match input.page? with
  | some (html, finalUrl) =>
      if isRecrawl job then
        shared.await (.recrawlMarked job)
      else
        let page := env.parsePage html finalUrl
        shared.await (.saved job (shared.pageData env job finalUrl page) page.links)
  | none => (shared.countFailure env job).await (.failMarked job)

/-- After `saveNode`: a saved page is counted, and the links that the loop keeps are queued.
-/
def saved (env : Env) (shared : Shared) (job : FrontierItem) (page : PageData)
    (links : List String) (input : Input)
    : Outcome :=
  match input.value? with
  | some _ =>
      let crawl := (shared.crawl.incrementDomainCount page.dom).recordDomainSuccess
        (env.domainOf job)
      let counted := { shared with crawl := { crawl with success := crawl.success + 1 } }
      let items := counted.keptLinks env job page.url links
      if items = [] then
        counted.schedule (.finalise job)
      else
        counted.await (.linksInserted job items)
  | none => (shared.countFailure env job).schedule (.finalise job)

/-- The success of a re-crawl, whether its row could be removed or not. -/
def recrawled (shared : Shared) (job : FrontierItem) : Outcome :=
  { shared with crawl := { shared.crawl with success := shared.crawl.success + 1 } }.schedule
    (.finalise job)

/-- `finally`: the slot is released, and the next invocation is scheduled. -/
def finalise (env : Env) (shared : Shared) (job : FrontierItem) : Outcome :=
  let domain := env.domainOf job
  {
    shared with
    active := shared.active - 1
    crawl := shared.crawl.setInflight domain (shared.crawl.domainInflight domain - 1)
  }.schedule .entry

-----------------------------------------------------------------------------------------
-- The statistics timer
-----------------------------------------------------------------------------------------

/-- The timer's body after the refresh. -/
def statsBody (shared : Shared) (seeds : List String) : Outcome :=
  if shared.crawl.frontierCount < queueLowWater ∧ shared.crawl.nodeCount < maxNodes
      ∧ ¬ shared.crawl.diskPaused then
    shared.goto (.seedLoop seeds 0 .interval)
  else
    shared.afterSeeds .interval

/-- The map that `fullRefresh` builds from the counts it reads; a later row wins. -/
def countsMap (counts : List (String × Nat)) : String → Nat :=
  counts.foldl (fun map entry => assign map entry.1 entry.2) fun _ => 0

-----------------------------------------------------------------------------------------
-- All pieces
-----------------------------------------------------------------------------------------

/-- Run a piece from a point with its input. The seeds are what `getRandomSeeds` returns if
the piece calls it.
-/
def resume (env : Env) (shared : Shared) (seeds : List String) (input : Input)
    : Point → Outcome
  | .cursorRead =>
      match input.value? with
      | some (.minId (some (id + 1))) => { shared with frontierCursor := id }.stop
      | _ => shared.stop
  | .entry =>
      if maxNodes ≤ shared.crawl.nodeCount then shared.stop else shared.schedule .yielded
  | .yielded =>
      if concurrency ≤ shared.active then
        shared.stop
      else
        shared.await (.batchRead shared.frontierCursor)
  | .batchRead _ => shared.batchRead seeds input
  | .recrawlRead _ =>
      match input.value? with
      | some (.urls targets) => shared.goto (.recrawlLoop targets)
      | _ => shared.stop
  | .recrawlLoop [] => shared.schedule .entry
  | .recrawlLoop (url :: targets) => shared.await (.recrawlInserted url targets)
  | .recrawlInserted _ targets => shared.goto (.recrawlLoop targets)
  | .forItem items startedAny => shared.forItem startedAny items
  | .visitedRead item rest startedAny => shared.visitedRead item rest startedAny input
  | .examine item rest startedAny => shared.examine env item rest startedAny
  | .skipped _ rest startedAny => shared.goto (.forItem rest startedAny)
  | .checkRobots visit => shared.checkRobots env visit
  | .robotsFetched visit => shared.robotsFetched env visit input
  | .robotsGate visit => shared.robotsGate env visit
  | .blockedMarked visit =>
      match input.value? with
      | some _ => shared.await (.blockedDeleted visit)
      | none => shared.stop
  | .blockedDeleted visit =>
      match input.value? with
      | some _ => shared.goto (.forItem visit.rest visit.startedAny)
      | none => shared.stop
  | .start visit => shared.start env visit
  | .seedLoop seeds added caller => shared.seedLoop added caller seeds
  | .seedVisited url seeds added caller =>
      match input.value? with
      | some (.found true) => shared.goto (.seedLoop seeds added caller)
      | some (.found false) => shared.await (.seedInserted url seeds added caller)
      | _ => shared.stop
  | .seedInserted _ seeds added caller =>
      match input.value? with
      | some _ => shared.goto (.seedLoop seeds (added + 1) caller)
      | none => shared.goto (.seedLoop seeds added caller)
  | .seedCounted caller =>
      match input.value? with
      | some _ => shared.afterSeeds caller
      | none => shared.stop
  | .fetched job => shared.fetched env job input
  | .saved job page links => shared.saved env job page links input
  | .linksInserted job _ => shared.schedule (.finalise job)
  | .recrawlMarked job =>
      match input.value? with
      | some _ => shared.await (.recrawlDeleted job)
      | none => shared.recrawled job
  | .recrawlDeleted job => shared.recrawled job
  | .failMarked job =>
      match input.value? with
      | some _ => shared.await (.failDeleted job)
      | none => shared.schedule (.finalise job)
  | .failDeleted job => shared.schedule (.finalise job)
  | .finalise job => shared.finalise env job
  | .nodesCounted full =>
      match input.value? with
      | some (.count count) =>
          { shared with crawl := { shared.crawl with nodeCount := count } }.await
            (.frontierCounted full)
      | _ => shared.schedule (.refreshed full)
  | .frontierCounted full =>
      match input.value? with
      | some (.count count) =>
          { shared with crawl := { shared.crawl with frontierCount := count } }.await
            (.popRead full)
      | _ => shared.schedule (.refreshed full)
  | .popRead full =>
      match input.value? with
      | some (.counts counts) =>
          { shared with crawl := { shared.crawl with domainPop := counts } }.schedule
            (.refreshed full)
      | _ => shared.schedule (.refreshed full)
  | .refreshed full => if full then shared.await .countsRead else shared.goto .statsBody
  | .countsRead =>
      match input.value? with
      | some (.counts counts) =>
          { shared with
            crawl := { shared.crawl with domainNodeCount := countsMap counts } }.schedule
            .statsBody
      | _ => shared.schedule .statsBody
  | .statsBody => shared.statsBody seeds
  | .cleared => shared.stop
  | .consumed _ => shared.stop

end Shared

end WebIndexer.Crawl
