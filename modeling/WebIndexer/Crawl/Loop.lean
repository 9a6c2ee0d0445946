import WebIndexer.Crawl.Script
import WebIndexer.Library.Pool
import WebIndexer.Library.Runs

/-! The steps of a crawl. The event loop wakes one suspended piece at a time, and the piece
runs until it awaits; between two pieces the database answers statements, servers answer
requests, timers fire and messages arrive, in any order.
-/

namespace WebIndexer.Crawl

open WebIndexer.Circuit
open WebIndexer.Config
open WebIndexer.Fetcher
open WebIndexer.Library
open WebIndexer.Runtime
open WebIndexer.Store

/-- How a statement ends: it succeeds, it is rejected without effect, or its effect takes
place but the answer is lost and the script sees a rejection.
-/
inductive Ending where
  | succeeds
  | rejected
  | answerLost
  deriving DecidableEq

/-- What the server or the network does with a request: a redirect, a page, or a failure of
any kind (a time-out, a status of 500 or more, another content type). A time-out only rejects: the
request goes on, and a redirect that comes late is still followed, as the exchanges of the fetcher
have it. Nothing waits for what comes of that any more, and such a hop does nothing beyond its
request, or ends the process if its `Location` cannot be resolved. It is left out here.
-/
inductive HttpEvent where
  | redirect (location : String)
  | page (html : String)
  | failure
  deriving DecidableEq

/-- What can happen next. Indices pick a thread of the pool. -/
inductive Label where
  | tick (elapsed : Nat)
  | exec (index : Nat) (ending : Ending) (choice : Choice)
  | http (index : Nat) (event : HttpEvent)
  | record (index : Nat)
  | wake (index : Nat)
  | run (seeds : List String)
  | statsTimer
  | clearTimer
  | diskTimer (avail usagePct : Nat)
  | message (url : String) (depth : Option Int) (parent : Option String)
  deriving DecidableEq

namespace State

/-- The loop has just been started: the first invocation of `processNext` runs, and the
start-up closure has asked for the least id.
-/
def initial (tables : Tables) (crawl : CrawlState) (now : Nat) : State where
  shared := {
    tables := tables
    crawl := crawl
    active := 0
    frontierCursor := 0
    refreshTicks := 0
    domainsChecked := []
    robotsCache := .empty
    breaker := .create
      { name := some "http-fetch", failureThreshold := some 50, resetTimeout := some 8000 } now
    now := now
    requested := []
    robotsRead := []
    started := []
    refused := []
  }
  running := some ⟨.ready .nothing, .entry⟩
  pool := [⟨.statement, .cursorRead⟩]

/-- The database runs the statement of a point. -/
def answer (env : Env) (tables : Tables) (point : Point) (ending : Ending) (choice : Choice)
    : Option (Tables × Thread) :=
  point.statement.bind fun statement =>
    match ending with
    | .rejected => some (tables, ⟨.ready (.reply none), point⟩)
    | .succeeds =>
        (tables.run env.backend choice statement).map fun result =>
          (result.1, ⟨.ready (.reply (some result.2)), point⟩)
    | .answerLost =>
        (tables.run env.backend choice statement).map fun result =>
          (result.1, ⟨.ready (.reply none), point⟩)

/-- The callbacks of a request to `url`. A `Location` that cannot be resolved throws out of
the callback, which ends the process: there is no next state.
-/
def respond (env : Env) (shared : Shared) (url : String) (redirects : Nat) (point : Point)
    : HttpEvent → Option (Shared × Thread)
  | .redirect location =>
      (redirectTarget env.api location url).map fun target =>
        shared.fetchHtmlRaw env target (redirects + 1) point
  | .page html => some (shared, ⟨.settled (some (html, url)), point⟩)
  | .failure => some (shared, ⟨.settled none, point⟩)

/-- One step of the crawl. While a piece runs, only that piece and the clock move. -/
def step (env : Env) (state : State) : Label → Option State
  | .tick elapsed =>
      some { state with
        shared := { state.shared with now := state.shared.now + elapsed } }
  | .run seeds =>
      match state.running with
      | some ⟨.ready input, point⟩ =>
          let outcome := state.shared.resume env seeds input point
          some {
            shared := outcome.shared
            running := outcome.next.map fun point => ⟨.ready .nothing, point⟩
            pool := outcome.spawned ++ state.pool
          }
      | _ => none
  | .exec index ending choice =>
      match state.running, pick state.pool index with
      | none, some (⟨.statement, point⟩, rest) =>
          (answer env state.shared.tables point ending choice).map fun result => {
            state with
            shared := { state.shared with tables := result.1 }
            pool := result.2 :: rest
          }
      | _, _ => none
  | .http index event =>
      match state.running, pick state.pool index with
      | none, some (⟨.http url redirects, point⟩, rest) =>
          (respond env state.shared url redirects point event).map fun result =>
            { state with shared := result.1, pool := result.2 :: rest }
      | _, _ => none
  | .record index =>
      match state.running, pick state.pool index with
      | none, some (⟨.settled response, point⟩, rest) =>
          some {
            state with
            shared := {
              state.shared with
              breaker := state.shared.breaker.settle state.shared.now response.isSome
            }
            pool := ⟨.ready (.response response), point⟩ :: rest
          }
      | _, _ => none
  | .wake index =>
      match state.running, pick state.pool index with
      | none, some (⟨.ready input, point⟩, rest) =>
          some { state with running := some ⟨.ready input, point⟩, pool := rest }
      | _, _ => none
  | .statsTimer =>
      match state.running with
      | none =>
          let ticks := state.shared.refreshTicks + 1
          some {
            state with
            shared := { state.shared with refreshTicks := ticks }
            pool := ⟨.statement, .nodesCounted (ticks % 6 = 0)⟩ :: state.pool
          }
      | some _ => none
  | .clearTimer =>
      match state.running with
      | none =>
          if env.backend = .pg then
            some state
          else
            some { state with pool := ⟨.statement, .cleared⟩ :: state.pool }
      | some _ => none
  | .diskTimer avail usagePct =>
      match state.running with
      | none =>
          let paused := decide (avail < minDiskMb ∨ diskMaxUsagePct ≤ usagePct)
          some { state with
            shared := {
              state.shared with crawl := { state.shared.crawl with diskPaused := paused } } }
      | some _ => none
  | .message url depth parent =>
      match state.running with
      | none =>
          if env.kafkaEnabled then
            let item : FrontierItem := ⟨url, depth.getD 0, parent.filter fun text => text ≠ ""⟩
            some { state with pool := ⟨.statement, .consumed item⟩ :: state.pool }
          else
            none
      | some _ => none

/-- A crawl that begins: the tables are as earlier runs left them, and the counters of
fetches are new.
-/
def Begins (state : State) : Prop :=
  ∃ tables nodeCount frontierCount domainPop domainNodeCount now,
    state = initial tables (.load nodeCount frontierCount domainPop domainNodeCount) now

/-- What holds of the first invocation and of the start-up closure holds of all threads of a
crawl that begins.
-/
theorem Begins.forall_threads {state : State} {holds : Thread → Prop} (begins : state.Begins)
    (entry : holds ⟨.ready .nothing, .entry⟩) (cursor : holds ⟨.statement, .cursorRead⟩)
    : ∀ thread ∈ state.threads, holds thread := by
  obtain ⟨_, _, _, _, _, _, rfl⟩ := begins
  intro thread member
  rcases List.mem_pair.mp member with rfl | rfl
  · exact entry
  · exact cursor

-----------------------------------------------------------------------------------------
-- A small crawl
-----------------------------------------------------------------------------------------

/-- Plain addresses, pages without links, and PostgreSQL. -/
def plainEnv : Env where
  api := plainUrlApi
  backend := .pg
  kafkaEnabled := false
  parsePage _ _ := ⟨"", "", "", "", "", [], 0⟩

/-- The crawl of some pages from empty tables, with enough rows counted to need no seeds. -/
def plainCrawl (items : List FrontierItem) : State :=
  initial
    (Tables.insertManyFrontier ⟨.empty, .empty, .empty, []⟩ items)
    (.load 0 queueLowWater [] fun _ => 0)
    0

/-- Wake a thread, and run it through some points. -/
def turn (index points : Nat) : List Label :=
  .wake index :: List.replicate points (.run [])

/-- The database answers a thread. -/
def reply (index : Nat) : Label :=
  .exec index .succeeds {}

/-- The request of a thread fails, and the breaker records it. -/
def failure (index : Nat) : List Label :=
  [.http index .failure, .record 0]

/-- The loop starts: the first invocation yields, and the least id is read. -/
def boot : List Label :=
  [.run [], reply 1] ++ turn 0 1

/-- The first thread, an invocation that has yielded, reads its batch and runs on. -/
def readBatch (points : Nat) : List Label :=
  turn 0 1 ++ [reply 0] ++ turn 0 points

/-- The first thread is told that its item is unvisited, and asks in vain for robots.txt. -/
def vet : List Label :=
  [reply 0] ++ turn 0 3 ++ failure 0 ++ turn 0 1

/-- A page fetch fails: its address is marked and deleted, and the fetch is finalised. -/
def ending (index : Nat) : List Label :=
  failure index ++ turn 0 1 ++ [reply 0] ++ turn 0 1 ++ [reply 0] ++ turn 0 1 ++ turn 0 1

/-- Three pages, two of them of one origin. -/
def overlapPages : List FrontierItem := [
  ⟨"https://a.example/1", 0, none⟩,
  ⟨"https://b.example/2", 0, none⟩,
  ⟨"https://b.example/3", 0, none⟩
]

/-- Two invocations of `processNext` overlap: one has started the first page and waits for the
robots.txt of the second, until it is about to start the second page too; meanwhile the first
page ends, and the invocation after it starts the second page and asks about the third.
-/
def overlap : List Label :=
  -- the first page is started, and the second waits for robots.txt
  boot ++ readBatch 2 ++ vet ++ turn 0 3 ++ [reply 0] ++ turn 0 3
    -- the first page ends; the next invocation finds no more rows, and wraps around
    ++ ending 1 ++ turn 0 1 ++ readBatch 1
    -- it starts the second page without a pause, and asks about the third
    ++ turn 0 1 ++ readBatch 2 ++ [reply 0] ++ turn 0 6
    -- the robots.txt of the second page fails
    ++ failure 2 ++ turn 0 1 ++ turn 0 1

/-- The small crawl is one that begins. -/
theorem plainCrawl_begins (items : List FrontierItem) : (plainCrawl items).Begins :=
  ⟨_, _, _, _, _, _, rfl⟩

end State

end WebIndexer.Crawl
