import WebIndexer.Circuit.CircuitBreaker
import WebIndexer.Fetcher.Domain
import WebIndexer.Store.Tables

/-! The state of `startCrawlLoop` in `src/queue.ts`. The script is single-threaded: at any
time one piece of it runs, up to its next await, while the others are suspended with the
point at which they continue.
-/

namespace WebIndexer.Crawl

open WebIndexer.Circuit
open WebIndexer.Config
open WebIndexer.Library
open WebIndexer.Runtime
open WebIndexer.Store

/-- The settings and functions that a run of the crawl is given: the `URL` class, the
environment's switches, and `parsePage`.
-/
structure Env where
  api : UrlApi
  backend : Backend
  kafkaEnabled : Bool
  parsePage : String → String → ParsedPage

-----------------------------------------------------------------------------------------
-- The counters shared by all pieces of the script
-----------------------------------------------------------------------------------------

/-- `CrawlState` of `src/db.ts`, and `PgCrawlState`. The maps are only read with a default
of zero, so they are total functions.
-/
structure CrawlState where
  nodeCount : Nat
  frontierCount : Nat
  domainPop : List (String × Nat)
  domainNodeCount : String → Nat
  domainInflight : String → Nat
  domainSuccess : String → Nat
  domainFail : String → Nat
  domainBlacklist : List String
  success : Nat
  fail : Nat
  diskPaused : Bool
  recrawlAttempted : Bool

/-- `map.set(key, value)` on a total function. -/
def assign (map : String → Nat) (key : String) (value : Nat) : String → Nat :=
  fun other => if other = key then value else map other

@[simp] theorem assign_same (map : String → Nat) (key : String) (value : Nat)
    : assign map key value key = value := by
  simp [assign]

theorem assign_of_ne {map : String → Nat} {key other : String} (value : Nat)
    (differs : other ≠ key)
    : assign map key value other = map other := by
  simp [assign, differs]

/-- Assigning the successor adds one to the value of the key. -/
theorem assign_succ (map : String → Nat) (key other : String)
    : assign map key (map key + 1) other = map other + if key = other then 1 else 0 := by
  by_cases same : other = key
  · subst same
    simp
  · rw [assign_of_ne _ same, if_neg (Ne.symm same)]
    rfl

namespace CrawlState

/-- The constructor, followed by a `fullRefresh` that read the given counts. -/
def load (nodeCount frontierCount : Nat) (domainPop : List (String × Nat))
    (domainNodeCount : String → Nat)
    : CrawlState where
  nodeCount := nodeCount
  frontierCount := frontierCount
  domainPop := domainPop
  domainNodeCount := domainNodeCount
  domainInflight _ := 0
  domainSuccess _ := 0
  domainFail _ := 0
  domainBlacklist := []
  success := 0
  fail := 0
  diskPaused := false
  recrawlAttempted := false

/-- `incrementDomainCount`. -/
def incrementDomainCount (state : CrawlState) (domain : String) : CrawlState := {
  state with
  domainNodeCount := assign state.domainNodeCount domain (state.domainNodeCount domain + 1)
}

/-- A counted domain has one page more. -/
theorem domainNodeCount_incrementDomainCount (state : CrawlState) (domain other : String)
    : (state.incrementDomainCount domain).domainNodeCount other
      = state.domainNodeCount other + if domain = other then 1 else 0 :=
  assign_succ state.domainNodeCount domain other

/-- `recordDomainSuccess`. -/
def recordDomainSuccess (state : CrawlState) (domain : String) : CrawlState :=
  { state with domainSuccess := assign state.domainSuccess domain (state.domainSuccess domain + 1) }

/-- `recordDomainFail`. The quotient of two counts exceeds 0.9 in floating point exactly when
it does as a fraction.
-/
def recordDomainFail (state : CrawlState) (domain : String) : CrawlState :=
  let fails := state.domainFail domain + 1
  let total := state.domainSuccess domain + fails
  {
    state with
    domainFail := assign state.domainFail domain fails
    domainBlacklist :=
      if 20 ≤ total ∧ 9 * total < 10 * fails ∧ domain ∉ state.domainBlacklist then
        state.domainBlacklist ++ [domain]
      else
        state.domainBlacklist
  }

/-- `setInflight`. A caller that subtracts one is clamped at zero, as natural numbers are. -/
def setInflight (state : CrawlState) (domain : String) (value : Nat) : CrawlState :=
  { state with domainInflight := assign state.domainInflight domain value }

/-- The popularity of the next page of a domain. The counts that PostgreSQL returns are
strings, and adding one to a string appends the digit.
-/
def popularity (backend : Backend) (state : CrawlState) (domain : String) : Nat :=
  match state.domainPop.find? fun entry => entry.1 = domain with
  | some (_, count) =>
      match backend with
      | .sqlite => count + 1
      | .pg => count * 10 + 1
  | none => 1

end CrawlState

/-- What the pieces of the script share: the database, the variables of `startCrawlLoop` and
of the modules it uses, and the clock. The last four fields are history that no code reads:
the addresses that requests were issued for, the rules read from each origin's robots.txt,
the page fetches started, and those that the breaker refused.
-/
structure Shared where
  tables : Tables
  crawl : CrawlState
  active : Nat
  frontierCursor : Nat
  refreshTicks : Nat
  domainsChecked : List String
  robotsCache : InsertionMap String (Option (List String))
  breaker : CircuitBreaker
  now : Nat
  requested : List String
  robotsRead : List (String × List String)
  started : List FrontierItem
  refused : List FrontierItem

-----------------------------------------------------------------------------------------
-- The points at which a suspended piece continues
-----------------------------------------------------------------------------------------

/-- An item that the admission loop has let past the limit of its domain, with the number of
fetches of the domain that it read then, and what the loop does after it.
-/
structure Visit where
  item : FrontierItem
  inflight : Nat
  rest : List FrontierItem
  startedAny : Bool

/-- The callers of `addSeedBatch`. -/
inductive SeedCaller where
  | processNext
  | interval
  deriving DecidableEq

/-- The points of the script. A point after an await carries what it needs to name the
statement it waits for.
-/
inductive Point where
  -- the start-up closure that sets the cursor
  | cursorRead
  -- `processNext`, up to its batch
  | entry
  | yielded
  | batchRead (cursor : Nat)
  -- `processNext`, the injection of pages to re-crawl
  | recrawlRead (limit : Nat)
  | recrawlLoop (targets : List String)
  | recrawlInserted (url : String) (targets : List String)
  -- `processNext`, the admission loop
  | forItem (items : List FrontierItem) (startedAny : Bool)
  | visitedRead (item : FrontierItem) (rest : List FrontierItem) (startedAny : Bool)
  | examine (item : FrontierItem) (rest : List FrontierItem) (startedAny : Bool)
  | skipped (url : String) (rest : List FrontierItem) (startedAny : Bool)
  | checkRobots (visit : Visit)
  | robotsFetched (visit : Visit)
  | robotsGate (visit : Visit)
  | blockedMarked (visit : Visit)
  | blockedDeleted (visit : Visit)
  | start (visit : Visit)
  -- `addSeedBatch`
  | seedLoop (seeds : List String) (added : Nat) (caller : SeedCaller)
  | seedVisited (url : String) (seeds : List String) (added : Nat) (caller : SeedCaller)
  | seedInserted (url : String) (seeds : List String) (added : Nat) (caller : SeedCaller)
  | seedCounted (caller : SeedCaller)
  -- the handlers of a page fetch
  | fetched (job : FrontierItem)
  | saved (job : FrontierItem) (page : PageData) (links : List String)
  | linksInserted (job : FrontierItem) (items : List FrontierItem)
  | recrawlMarked (job : FrontierItem)
  | recrawlDeleted (job : FrontierItem)
  | failMarked (job : FrontierItem)
  | failDeleted (job : FrontierItem)
  | finalise (job : FrontierItem)
  -- the timers and the Kafka consumer
  | nodesCounted (full : Bool)
  | frontierCounted (full : Bool)
  | popRead (full : Bool)
  | refreshed (full : Bool)
  | countsRead
  | statsBody
  | cleared
  | consumed (item : FrontierItem)

/-- The statement whose result a point waits for, if it waits for one. -/
def Point.statement : Point → Option Statement
  | .cursorRead => some .getMinId
  | .batchRead cursor => some (.getBatch cursor 50)
  | .recrawlRead limit => some (.recrawlTargets limit)
  | .recrawlInserted url _ => some (.insertFrontier ⟨url, -1, none⟩)
  | .visitedRead item _ _ => some (.isVisited item.url)
  | .skipped url _ _ => some (.deleteFromFrontier url)
  | .blockedMarked visit => some (.markVisited visit.item.url)
  | .blockedDeleted visit => some (.deleteFromFrontier visit.item.url)
  | .seedVisited url _ _ _ => some (.isVisited url)
  | .seedInserted url _ _ _ => some (.insertFrontier ⟨url, 0, none⟩)
  | .seedCounted _ => some .frontierCount
  | .saved _ page _ => some (.saveNode page)
  | .linksInserted _ items => some (.insertManyFrontier items)
  | .recrawlMarked job | .failMarked job => some (.markVisited job.url)
  | .recrawlDeleted job | .failDeleted job => some (.deleteFromFrontier job.url)
  | .nodesCounted _ => some .nodeCount
  | .frontierCounted _ => some .frontierCount
  | .popRead _ => some .domainPop
  | .countsRead => some .domainCount
  | .cleared => some .clearProcessed
  | .consumed item => some (.insertFrontier item)
  | .entry | .yielded | .recrawlLoop _ | .forItem .. | .examine .. | .checkRobots _
  | .robotsFetched _ | .robotsGate _ | .start _ | .seedLoop .. | .fetched _ | .finalise _
  | .refreshed _ | .statsBody => none

/-- The result of `fetchHtml`: the text and the final address of a page, or a rejection. -/
abbrev Response := Option (String × String)

/-- What a point continues with: nothing, the result of its statement (nothing if it was
rejected), or that of its fetch.
-/
inductive Input where
  | nothing
  | reply (value : Option Value)
  | response (response : Response)

/-- How far the wait of a suspended piece has come: its statement is with the database, its
fetch has a request to an address in flight after some redirects, `fetchHtmlRaw` has settled
and the breaker has not recorded it yet, or the piece can continue.
-/
inductive Phase where
  | statement
  | http (url : String) (redirects : Nat)
  | settled (response : Response)
  | ready (input : Input)

/-- A suspended piece of the script. -/
structure Thread where
  phase : Phase
  point : Point

/-- The whole state: the shared part, the piece that runs if there is one, and the others. -/
structure State where
  shared : Shared
  running : Option Thread
  pool : List Thread

/-- All pieces, running and suspended. -/
def State.threads (state : State) : List Thread :=
  state.running.toList ++ state.pool

/-- An item that the re-crawl branch injected: `item.depth === -1`. -/
def isRecrawl (item : FrontierItem) : Bool :=
  item.depth = -1

end WebIndexer.Crawl
