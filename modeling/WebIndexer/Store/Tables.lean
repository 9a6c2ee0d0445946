import WebIndexer.Config
import WebIndexer.Types
import WebIndexer.Library.InsertionMap
import WebIndexer.Library.InsertionSet

/-! The tables of the database and the statements that the crawl prepares on them, each of which is
one change here. On SQLite the two transactions are one change too. On PostgreSQL they are several
queries, which other clients can come between, and of two that overlap the one with the lower ids
may commit last; here each of them happens when it commits, with ids in that order.
-/

namespace WebIndexer.Store

open WebIndexer.Config
open WebIndexer.Library

/-- A row of `frontier`. -/
structure FrontierRow extends FrontierItem where
  id : Nat
  deriving DecidableEq, Repr

/-- The columns of a row of `nodes`, apart from its key `url`. -/
structure NodeRow where
  title : String
  description : String
  domain : String
  depth : Int
  parent : Option String
  popularity : Nat
  lang : String
  https : Nat
  metaDescription : String
  ogTitle : String
  ogDescription : String
  contentLength : Nat
  crawledAt : Nat
  deriving DecidableEq, Repr

/-- A row of `nodes_fts`, the search index of the SQLite backend. -/
structure FtsRow where
  url : String
  title : String
  description : String
  metaDescription : String
  ogTitle : String
  ogDescription : String
  domain : String
  deriving DecidableEq, Repr

/-- The table `frontier`, in the order of its ids, with the id that its sequence yields next.
Ids and addresses are unique.
-/
structure Frontier where
  rows : List FrontierRow
  nextId : Nat
  urls_nodup : (rows.map fun row => row.url).Nodup
  ids_sorted : (rows.map FrontierRow.id).Pairwise (· < ·)
  ids_lt : ∀ row ∈ rows, row.id < nextId

/-- The tables. The keys of `nodes` and the members of `visited` are addresses. -/
structure Tables where
  nodes : InsertionMap String NodeRow
  visited : InsertionSet String
  frontier : Frontier
  nodesFts : List FtsRow

/-- The statements and transactions, with the arguments they are run with. -/
inductive Statement where
  | getMinId
  | getBatch (cursor limit : Nat)
  | isVisited (url : String)
  | markVisited (url : String)
  | insertFrontier (item : FrontierItem)
  | deleteFromFrontier (url : String)
  | clearProcessed
  | nodeCount
  | frontierCount
  | domainPop
  | domainCount
  | recrawlTargets (limit : Nat)
  | saveNode (page : PageData)
  | insertManyFrontier (items : List FrontierItem)
  deriving DecidableEq

/-- What a statement that succeeds returns. -/
inductive Value where
  | unit
  | minId (id : Option Nat)
  | rows (rows : List FrontierRow)
  | found (present : Bool)
  | urls (urls : List String)
  | count (count : Nat)
  | counts (counts : List (String × Nat))
  deriving DecidableEq

/-- The choices that SQL leaves to the database: which rows a `LIMIT` without an order keeps,
in `clearProcessed` by their ids and in `recrawlTargets` by their addresses, and whether the
search index refuses a row.
-/
structure Choice where
  ids : List Nat := []
  urls : List String := []
  ftsFails : Bool := false
  deriving DecidableEq

/-- `LIMIT count` without a fixed order: the chosen items are distinct candidates, and as many
as the limit allows.
-/
def limits {α : Type} [DecidableEq α] (candidates : List α) (count : Nat)
    (chosen : List α)
    : Bool :=
  decide chosen.Nodup
  && chosen.all (fun item => item ∈ candidates)
  && chosen.length = min count candidates.length

namespace Frontier

/-- The table with no rows. -/
def empty : Frontier where
  rows := []
  nextId := 1
  urls_nodup := .nil
  ids_sorted := .nil
  ids_lt := by simp

/-- The addresses of the rows. -/
def urls (frontier : Frontier) : List String :=
  frontier.rows.map fun row => row.url

/-- Keep the rows that pass a test. -/
def filter (frontier : Frontier) (keep : FrontierRow → Bool) : Frontier where
  rows := frontier.rows.filter keep
  nextId := frontier.nextId
  urls_nodup := frontier.urls_nodup.sublist (List.filter_sublist.map _)
  ids_sorted := frontier.ids_sorted.sublist (List.filter_sublist.map _)
  ids_lt := fun row member => frontier.ids_lt row (List.mem_of_mem_filter member)

/-- Draw an id from the sequence without using it. -/
def drawId (frontier : Frontier) : Frontier where
  rows := frontier.rows
  nextId := frontier.nextId + 1
  urls_nodup := frontier.urls_nodup
  ids_sorted := frontier.ids_sorted
  ids_lt := fun row member => Nat.lt_succ_of_lt (frontier.ids_lt row member)

/-- Append a row with the next id. -/
def append (frontier : Frontier) (item : FrontierItem) (absent : item.url ∉ frontier.urls)
    : Frontier where
  rows := frontier.rows ++ [{ item with id := frontier.nextId }]
  nextId := frontier.nextId + 1
  urls_nodup := by
    rw [List.map_append]
    exact frontier.urls_nodup.append (List.nodup_singleton item.url)
      (by simpa [urls] using absent)
  ids_sorted := by
    rw [List.map_append, List.pairwise_append]
    refine ⟨frontier.ids_sorted, List.pairwise_singleton .., ?_⟩
    intro id member next same
    obtain ⟨row, present, rfl⟩ := List.mem_map.mp member
    obtain rfl := List.mem_singleton.mp same
    exact frontier.ids_lt row present
  ids_lt := by
    intro row member
    rcases List.mem_append.mp member with old | new
    · exact Nat.lt_succ_of_lt (frontier.ids_lt row old)
    · obtain rfl := List.mem_singleton.mp new
      exact Nat.lt_succ_self _

/-- `INSERT INTO frontier` that ignores a conflict on the address. Both backends draw the id of an
ignored row from their sequence all the same.
-/
def insert (frontier : Frontier) (item : FrontierItem) : Frontier :=
  if absent : item.url ∉ frontier.urls then frontier.append item absent else frontier.drawId

end Frontier

namespace Tables

/-- The tables of a new database. -/
def empty : Tables := ⟨.empty, .empty, .empty, []⟩

/-- `INSERT OR IGNORE INTO visited`. -/
def markVisited (tables : Tables) (url : String) : Tables :=
  { tables with visited := tables.visited.add url }

/-- `DELETE FROM frontier WHERE url = ?`. -/
def deleteFromFrontier (tables : Tables) (url : String) : Tables :=
  { tables with frontier := tables.frontier.filter fun row => row.url ≠ url }

/-- `INSERT INTO frontier`, one row. -/
def insertFrontier (tables : Tables) (item : FrontierItem) : Tables :=
  { tables with frontier := tables.frontier.insert item }

/-- The row that `saveNode` writes. -/
def nodeRow (page : PageData) : NodeRow where
  title := page.title
  description := page.desc
  domain := page.dom
  depth := page.depth
  parent := page.parent
  popularity := page.pop
  lang := page.lang
  https := page.https
  metaDescription := page.metaDescription
  ogTitle := page.ogTitle
  ogDescription := page.ogDescription
  contentLength := page.contentLength
  crawledAt := page.crawledAt

/-- `INSERT INTO nodes ... ON CONFLICT(url) DO UPDATE` of every other column. -/
def upsertNode (tables : Tables) (page : PageData) : Tables :=
  { tables with nodes := tables.nodes.set page.url (nodeRow page) }

/-- `INSERT INTO nodes_fts`, which has no key. -/
def insertFts (tables : Tables) (page : PageData) : Tables := {
  tables with
  nodesFts := tables.nodesFts ++ [{
    url := page.url
    title := page.title
    description := page.desc
    metaDescription := page.metaDescription
    ogTitle := page.ogTitle
    ogDescription := page.ogDescription
    domain := page.dom
  }]
}

/-- Mark an address as visited, then take it off the frontier. -/
def settle (tables : Tables) (url : String) : Tables :=
  (tables.markVisited url).deleteFromFrontier url

/-- `saveNode`. SQLite writes the search index last, and keeps the page if that fails;
PostgreSQL has no separate index.
-/
def saveNode (backend : Backend) (tables : Tables) (page : PageData) (ftsFails : Bool)
    : Tables :=
  let saved := (tables.upsertNode page).settle page.url
  let settled := if page.origUrl ≠ page.url then saved.settle page.origUrl else saved
  match backend with
  | .sqlite => if ftsFails then settled else settled.insertFts page
  | .pg => settled

/-- `insertManyFrontier`. -/
def insertManyFrontier (tables : Tables) (items : List FrontierItem) : Tables :=
  items.foldl insertFrontier tables

/-- `SELECT domain, COUNT(*) FROM nodes GROUP BY domain`. -/
def domainCount (tables : Tables) : List (String × Nat) :=
  let domains := tables.nodes.entries.map fun entry => entry.2.domain
  domains.eraseDups.map fun domain => (domain, domains.count domain)

/-- The twenty largest of these counts, largest first. -/
def domainPop (tables : Tables) : List (String × Nat) :=
  (tables.domainCount.mergeSort fun left right => right.2 ≤ left.2).take 20

/-- The ids of the frontier rows whose address is in `visited`. -/
def processedIds (tables : Tables) : List Nat :=
  (tables.frontier.rows.filter fun row => row.url ∈ tables.visited).map FrontierRow.id

/-- Run a statement: the tables after it and its result, or nothing if the database cannot
make the given choice.
-/
def run (backend : Backend) (choice : Choice) (tables : Tables)
    : Statement → Option (Tables × Value)
  | .getMinId => some (tables, .minId (tables.frontier.rows.map FrontierRow.id).min?)
  | .getBatch cursor limit =>
      some (tables, .rows ((tables.frontier.rows.filter fun row => cursor < row.id).take limit))
  | .isVisited url => some (tables, .found (url ∈ tables.visited))
  | .markVisited url => some (tables.markVisited url, .unit)
  | .insertFrontier item => some (tables.insertFrontier item, .unit)
  | .deleteFromFrontier url => some (tables.deleteFromFrontier url, .unit)
  | .clearProcessed =>
      if limits tables.processedIds 10000 choice.ids then
        some ({ tables with
          frontier := tables.frontier.filter fun row => row.id ∉ choice.ids }, .unit)
      else
        none
  | .nodeCount => some (tables, .count tables.nodes.size)
  | .frontierCount => some (tables, .count tables.frontier.rows.length)
  | .domainPop => some (tables, .counts tables.domainPop)
  | .domainCount => some (tables, .counts tables.domainCount)
  | .recrawlTargets limit =>
      if limits (tables.nodes.entries.map Prod.fst) limit choice.urls then
        some (tables, .urls choice.urls)
      else
        none
  | .saveNode page => some (tables.saveNode backend page choice.ftsFails, .unit)
  | .insertManyFrontier items => some (tables.insertManyFrontier items, .unit)

end Tables

end WebIndexer.Store
