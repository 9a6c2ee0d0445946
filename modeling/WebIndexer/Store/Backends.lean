import WebIndexer.Library.Runs
import WebIndexer.Store.Effects

/-! The two backends side by side. Both refine one store, whose frontier is a list of items
without ids, except that PostgreSQL's `insertNode` leaves some columns of a row that is there.
-/

namespace WebIndexer.Store

open WebIndexer.Config
open WebIndexer.Library

-----------------------------------------------------------------------------------------
-- The operations of both backends
-----------------------------------------------------------------------------------------

/-- The operations that change the store and that both backends offer. -/
inductive Operation where
  | insertNode (url : String) (row : NodeRow)
  | markVisited (url : String)
  | insertFrontier (item : FrontierItem)
  | deleteFromFrontier (url : String)
  | clearProcessed
  | saveNode (page : PageData)
  | insertManyFrontier (items : List FrontierItem)
  deriving DecidableEq

/-- The columns that PostgreSQL's `insertNode` updates when the row is there. -/
def NodeRow.refresh (old row : NodeRow) : NodeRow := {
  old with
  title := row.title
  description := row.description
  popularity := row.popularity
  crawledAt := row.crawledAt
}

namespace Tables

/-- `insertNode`. When the row is there, SQLite updates every other column, and PostgreSQL
only those of `refresh`.
-/
def insertNode (backend : Backend) (tables : Tables) (url : String) (row : NodeRow)
    : Tables :=
  match backend with
  | .sqlite => { tables with nodes := tables.nodes.set url row }
  | .pg =>
      match tables.nodes.get? url with
      | none => { tables with nodes := tables.nodes.set url row }
      | some old => { tables with nodes := tables.nodes.set url (old.refresh row) }

/-- Apply an operation, or nothing if the database cannot make the given choice. -/
def apply (backend : Backend) (choice : Choice) (tables : Tables)
    : Operation → Option Tables
  | .insertNode url row => some (tables.insertNode backend url row)
  | .markVisited url => (tables.run backend choice (.markVisited url)).map Prod.fst
  | .insertFrontier item => (tables.run backend choice (.insertFrontier item)).map Prod.fst
  | .deleteFromFrontier url =>
      (tables.run backend choice (.deleteFromFrontier url)).map Prod.fst
  | .clearProcessed => (tables.run backend choice .clearProcessed).map Prod.fst
  | .saveNode page => (tables.run backend choice (.saveNode page)).map Prod.fst
  | .insertManyFrontier items =>
      (tables.run backend choice (.insertManyFrontier items)).map Prod.fst

end Tables

-----------------------------------------------------------------------------------------
-- The store that both refine
-----------------------------------------------------------------------------------------

/-- What a reader of the store sees, apart from ids and the search index. -/
structure View where
  nodes : InsertionMap String NodeRow
  visited : InsertionSet String
  frontier : List FrontierItem

namespace View

/-- Write a row, over the one that is there. -/
def insertNode (view : View) (url : String) (row : NodeRow) : View :=
  { view with nodes := view.nodes.set url row }

/-- Mark an address. -/
def markVisited (view : View) (url : String) : View :=
  { view with visited := view.visited.add url }

/-- Queue an item, unless its address is queued. -/
def insertFrontier (view : View) (item : FrontierItem) : View :=
  if item.url ∈ view.frontier.map FrontierItem.url then
    view
  else
    { view with frontier := view.frontier ++ [item] }

/-- Drop an address from the queue. -/
def deleteFromFrontier (view : View) (url : String) : View :=
  { view with frontier := view.frontier.filter fun item => item.url ≠ url }

/-- Mark an address and drop it. -/
def settle (view : View) (url : String) : View :=
  (view.markVisited url).deleteFromFrontier url

/-- Drop the addresses that are marked. -/
def clearProcessed (view : View) : View :=
  { view with frontier := view.frontier.filter fun item => item.url ∉ view.visited }

/-- Write a page, and settle its address and the one that led to it. -/
def saveNode (view : View) (page : PageData) : View :=
  let saved := (view.insertNode page.url (Tables.nodeRow page)).settle page.url
  if page.origUrl ≠ page.url then saved.settle page.origUrl else saved

/-- What each operation means. -/
def apply (view : View) : Operation → View
  | .insertNode url row => view.insertNode url row
  | .markVisited url => view.markVisited url
  | .insertFrontier item => view.insertFrontier item
  | .deleteFromFrontier url => view.deleteFromFrontier url
  | .clearProcessed => view.clearProcessed
  | .saveNode page => view.saveNode page
  | .insertManyFrontier items => items.foldl insertFrontier view

end View

-----------------------------------------------------------------------------------------
-- Each backend refines it
-----------------------------------------------------------------------------------------

/-- The items of a frontier, in the order of their ids. -/
def Frontier.items (frontier : Frontier) : List FrontierItem :=
  frontier.rows.map FrontierRow.toFrontierItem

namespace Tables

variable {backend : Backend} {choice : Choice} {tables after : Tables}

/-- The store that the tables hold. -/
def view (tables : Tables) : View := ⟨tables.nodes, tables.visited, tables.frontier.items⟩

/-- The addresses of a frontier are those of its items. -/
theorem map_url_items (frontier : Frontier)
    : frontier.items.map FrontierItem.url = frontier.urls := by
  simp [Frontier.items, Frontier.urls]

/-- Keeping rows by a test of their items keeps those items. -/
theorem items_filter {frontier : Frontier} {keep : FrontierRow → Bool}
    {test : FrontierItem → Bool}
    (same : ∀ row ∈ frontier.rows, keep row = test row.toFrontierItem)
    : (frontier.filter keep).items = frontier.items.filter test := by
  unfold Frontier.items Frontier.filter
  rw [List.filter_map]
  exact congrArg _ (List.filter_congr same)

/-- Marking refines marking. -/
theorem view_markVisited (url : String)
    : (tables.markVisited url).view = tables.view.markVisited url :=
  rfl

/-- Deleting by name refines dropping. -/
theorem view_deleteFromFrontier (url : String)
    : (tables.deleteFromFrontier url).view = tables.view.deleteFromFrontier url := by
  have kept : (tables.deleteFromFrontier url).frontier.items
      = tables.frontier.items.filter fun item => item.url ≠ url :=
    items_filter fun _ _ => rfl
  simp only [view, View.deleteFromFrontier, kept]
  rfl

/-- Settling refines settling. -/
theorem view_settle (url : String) : (tables.settle url).view = tables.view.settle url := by
  unfold settle View.settle
  rw [view_deleteFromFrontier, view_markVisited]

/-- Queueing refines queueing on either backend, conflict or not. -/
theorem view_insertFrontier (item : FrontierItem)
    : (tables.insertFrontier item).view = tables.view.insertFrontier item := by
  unfold insertFrontier View.insertFrontier Frontier.insert
  have listed : item.url ∈ tables.view.frontier.map FrontierItem.url
      ↔ item.url ∈ tables.frontier.urls :=
    iff_of_eq (congrArg (item.url ∈ ·) (map_url_items tables.frontier))
  by_cases present : item.url ∈ tables.frontier.urls
  · rw [if_pos (listed.mpr present), dif_neg (not_not.mpr present)]
    rfl
  · rw [if_neg (mt listed.mp present), dif_pos present]
    simp [view, Frontier.append, Frontier.items]

/-- Queueing many refines queueing them in turn, by induction over the items. -/
theorem view_insertManyFrontier (items : List FrontierItem)
    : (tables.insertManyFrontier items).view
      = items.foldl View.insertFrontier tables.view := by
  unfold insertManyFrontier
  induction items generalizing tables with
  | nil => rfl
  | cons item rest ih =>
      rw [List.foldl_cons, List.foldl_cons, ih, view_insertFrontier]

/-- Saving a page refines saving it, on either backend. -/
theorem view_saveNode (backend : Backend) (page : PageData) (ftsFails : Bool)
    : (tables.saveNode backend page ftsFails).view = tables.view.saveNode page := by
  have upserted : (tables.upsertNode page).view
      = tables.view.insertNode page.url (nodeRow page) :=
    rfl
  have unindexed : (tables.saveNode backend page ftsFails).view
      = (if page.origUrl ≠ page.url then
          ((tables.upsertNode page).settle page.url).settle page.origUrl
        else
          (tables.upsertNode page).settle page.url).view := by
    cases backend <;> cases ftsFails <;> rfl
  rw [unindexed, View.saveNode]
  split
  · rw [view_settle, view_settle, upserted]
  · rw [view_settle, upserted]

/-- Clearing refines dropping what is marked, as long as one statement can clear it all. -/
theorem view_clearProcessed {ids : List Nat} (few : tables.processedIds.length ≤ 10000)
    (valid : limits tables.processedIds 10000 ids = true)
    : view { tables with frontier := tables.frontier.filter fun row => row.id ∉ ids }
      = tables.view.clearProcessed := by
  have kept : (tables.frontier.filter fun row => row.id ∉ ids).items
      = tables.frontier.items.filter fun item => item.url ∉ tables.visited := by
    apply items_filter
    intro row member
    have processed := mem_processedIds_iff member
    exact decide_eq_decide.mpr
      (not_congr ((mem_chosen_of_limits few valid).trans processed))
  unfold view View.clearProcessed
  exact congrArg (View.mk tables.nodes tables.visited) kept

/-- The columns that PostgreSQL's `insertNode` leaves are as the new row has them. -/
def RepeatsRest (old row : NodeRow) : Prop :=
  old.domain = row.domain
  ∧ old.depth = row.depth
  ∧ old.parent = row.parent
  ∧ old.lang = row.lang
  ∧ old.https = row.https
  ∧ old.metaDescription = row.metaDescription
  ∧ old.ogTitle = row.ogTitle
  ∧ old.ogDescription = row.ogDescription
  ∧ old.contentLength = row.contentLength

instance (old row : NodeRow) : Decidable (RepeatsRest old row) :=
  inferInstanceAs (Decidable (_ ∧ _))

/-- A refreshed row is the new one exactly when the columns that were left are the same. -/
theorem refresh_eq_iff {old row : NodeRow} : old.refresh row = row ↔ RepeatsRest old row := by
  cases old
  cases row
  simp [NodeRow.refresh, RepeatsRest]

/-- The arguments and the state before an operation under which a backend refines it. -/
def Refinable (backend : Backend) (tables : Tables) : Operation → Prop
  | .insertNode url row =>
      backend = .pg → ∀ old ∈ tables.nodes.get? url, RepeatsRest old row
  | .clearProcessed => tables.processedIds.length ≤ 10000
  | _ => True

/-- Writing a row refines writing it, if PostgreSQL leaves no column behind. -/
theorem view_insertNode {url : String} {row : NodeRow}
    (whole : backend = .pg → ∀ old ∈ tables.nodes.get? url, RepeatsRest old row)
    : (tables.insertNode backend url row).view = tables.view.insertNode url row := by
  unfold insertNode
  cases backend with
  | sqlite => rfl
  | pg =>
      cases found : tables.nodes.get? url with
      | none => rfl
      | some old =>
          have same : old.refresh row = row := refresh_eq_iff.mpr (whole rfl old found)
          simp only [same]
          rfl

/-- Each operation of a backend refines what it means. -/
theorem view_apply {operation : Operation} (refinable : tables.Refinable backend operation)
    (applied : tables.apply backend choice operation = some after)
    : after.view = tables.view.apply operation := by
  cases operation with
  | insertNode url row =>
      obtain rfl := Option.some.inj applied
      exact view_insertNode refinable
  | markVisited url =>
      obtain rfl := Option.some.inj applied
      exact view_markVisited url
  | insertFrontier item =>
      obtain rfl := Option.some.inj applied
      exact view_insertFrontier item
  | deleteFromFrontier url =>
      obtain rfl := Option.some.inj applied
      exact view_deleteFromFrontier url
  | clearProcessed =>
      obtain ⟨⟨_, _⟩, ran, rfl⟩ := Option.map_eq_some_iff.mp applied
      simp only [run, Option.ite_none_right_eq_some] at ran
      obtain ⟨valid, same⟩ := ran
      obtain ⟨rfl, rfl⟩ := Prod.mk.inj (Option.some.inj same)
      exact view_clearProcessed refinable valid
  | saveNode page =>
      obtain rfl := Option.some.inj applied
      exact view_saveNode backend page choice.ftsFails
  | insertManyFrontier items =>
      obtain rfl := Option.some.inj applied
      exact view_insertManyFrontier items

end Tables

-----------------------------------------------------------------------------------------
-- Ids from the sequence
-----------------------------------------------------------------------------------------

/-- The sequence and the rows have left zero behind, from which a batch is read at first. -/
structure Frontier.Positive (frontier : Frontier) : Prop where
  next : 0 < frontier.nextId
  rows : ∀ row ∈ frontier.rows, 0 < row.id

namespace Frontier

variable {frontier : Frontier}

/-- Keeping rows keeps their ids. -/
theorem Positive.filter {keep : FrontierRow → Bool} (positive : frontier.Positive)
    : (frontier.filter keep).Positive :=
  ⟨positive.next, fun row member => positive.rows row (List.mem_of_mem_filter member)⟩

/-- An insertion draws the next id. -/
theorem Positive.insert {item : FrontierItem} (positive : frontier.Positive)
    : (frontier.insert item).Positive := by
  unfold Frontier.insert
  split
  · refine ⟨Nat.succ_pos _, fun row member => ?_⟩
    rcases List.mem_append.mp member with old | new
    · exact positive.rows row old
    · obtain rfl := List.mem_singleton.mp new
      exact positive.next
  · exact ⟨Nat.succ_pos _, positive.rows⟩

end Frontier

namespace Tables

variable {backend : Backend} {choice : Choice} {tables after : Tables}

/-- Queueing many draws ids only from the sequence, by induction over the items. -/
theorem positive_insertManyFrontier {items : List FrontierItem}
    (positive : tables.frontier.Positive)
    : (tables.insertManyFrontier items).frontier.Positive := by
  unfold insertManyFrontier
  induction items generalizing tables with
  | nil => exact positive
  | cons item rest ih => exact ih positive.insert

/-- Each operation keeps the ids positive. -/
theorem positive_apply {operation : Operation} (positive : tables.frontier.Positive)
    (applied : tables.apply backend choice operation = some after)
    : after.frontier.Positive := by
  cases operation with
  | insertNode url row =>
      obtain rfl := Option.some.inj applied
      unfold insertNode
      split
      · exact positive
      · split <;> exact positive
  | markVisited url =>
      obtain rfl := Option.some.inj applied
      exact positive
  | insertFrontier item =>
      obtain rfl := Option.some.inj applied
      exact positive.insert
  | deleteFromFrontier url =>
      obtain rfl := Option.some.inj applied
      exact positive.filter
  | clearProcessed =>
      obtain ⟨⟨_, _⟩, ran, rfl⟩ := Option.map_eq_some_iff.mp applied
      simp only [run, Option.ite_none_right_eq_some] at ran
      obtain ⟨_, same⟩ := ran
      obtain ⟨rfl, rfl⟩ := Prod.mk.inj (Option.some.inj same)
      exact positive.filter
  | saveNode page =>
      obtain rfl := Option.some.inj applied
      obtain ⟨settled, _, kept, ⟨_, rfl⟩ | rfl⟩ :=
        saveNode_cases backend tables page choice.ftsFails
      · rw [kept]
        exact positive.filter
      · rw [kept]
        exact positive.filter.filter
  | insertManyFrontier items =>
      obtain rfl := Option.some.inj applied
      exact positive_insertManyFrontier positive

/-- The first batch is the head of the frontier. -/
theorem items_getBatch (limit : Nat) (positive : tables.frontier.Positive)
    : ((tables.frontier.rows.filter fun row => 0 < row.id).take limit).map
        FrontierRow.toFrontierItem
      = tables.view.frontier.take limit := by
  have all : (tables.frontier.rows.filter fun row => 0 < row.id) = tables.frontier.rows :=
    List.filter_eq_self.mpr fun row member => decide_eq_true (positive.rows row member)
  rw [all, List.map_take]
  rfl

end Tables

-----------------------------------------------------------------------------------------
-- Both backends, fed the same operations
-----------------------------------------------------------------------------------------

/-- The tables of two databases, one for each backend. -/
structure Backends where
  sqlite : Tables
  pg : Tables

/-- An operation, with the choices that each database makes. -/
structure Call where
  operation : Operation
  sqliteChoice : Choice := {}
  pgChoice : Choice := {}

namespace Backends

variable {refuses : Operation → Bool} {backends next : Backends} {call : Call}

/-- Two new databases. -/
def initial : Backends := ⟨.empty, .empty⟩

/-- Both databases apply an operation. PostgreSQL may refuse arguments that its types and
indexes do not take (a text with a zero byte, a number or a key that is too large), and is
left as it was.
-/
def step (refuses : Operation → Bool) (backends : Backends) (call : Call) : Option Backends :=
  (backends.sqlite.apply .sqlite call.sqliteChoice call.operation).bind fun sqlite =>
    if refuses call.operation then
      some ⟨sqlite, backends.pg⟩
    else
      (backends.pg.apply .pg call.pgChoice call.operation).map fun pg => ⟨sqlite, pg⟩

/-- PostgreSQL takes the arguments, at most 10000 rows are cleared at once, and a row that
is inserted again repeats the columns that PostgreSQL's `insertNode` leaves.
-/
def Repeats (refuses : Operation → Bool) (backends : Backends) (call : Call) : Prop :=
  refuses call.operation = false
  ∧ match call.operation with
    | .insertNode url row =>
        ∀ old ∈ backends.pg.nodes.get? url, Tables.RepeatsRest old row
    | .clearProcessed => backends.sqlite.processedIds.length ≤ 10000
    | _ => True

/-- The answer to `isVisited`. -/
def answer (backend : Backend) (tables : Tables) (choice : Choice) (url : String)
    : Option Value :=
  (tables.run backend choice (.isVisited url)).map Prod.snd

/-- The items of the answer to `getBatch` from the start. -/
def firstBatch (backend : Backend) (tables : Tables) (choice : Choice) (limit : Nat)
    : Option (List FrontierItem) :=
  (tables.run backend choice (.getBatch 0 limit)).map fun result =>
    match result.2 with
    | .rows rows => rows.map FrontierRow.toFrontierItem
    | _ => []

/-- The databases hold the same rows, apart from the ids of the frontier, and answer alike.
-/
structure Agree (backends : Backends) : Prop where
  nodes : backends.sqlite.nodes = backends.pg.nodes
  visited : backends.sqlite.visited = backends.pg.visited
  frontier : backends.sqlite.frontier.items = backends.pg.frontier.items
  isVisited
    : ∀ choice other url,
        answer .sqlite backends.sqlite choice url = answer .pg backends.pg other url
  getBatch
    : ∀ choice other limit,
        firstBatch .sqlite backends.sqlite choice limit
          = firstBatch .pg backends.pg other limit

/-- Both databases hold the same store, with ids from their sequences. -/
structure Simulate (backends : Backends) : Prop where
  view : backends.sqlite.view = backends.pg.view
  sqlite : backends.sqlite.frontier.Positive
  pg : backends.pg.frontier.Positive

/-- Databases that hold the same store agree. -/
theorem Simulate.agree (simulate : backends.Simulate) : backends.Agree where
  nodes := congrArg View.nodes simulate.view
  visited := congrArg View.visited simulate.view
  frontier := congrArg View.frontier simulate.view
  isVisited := by
    intro _ _ url
    have visited := congrArg View.visited simulate.view
    change some (Value.found (decide (url ∈ backends.sqlite.view.visited)))
      = some (Value.found (decide (url ∈ backends.pg.view.visited)))
    rw [visited]
  getBatch := by
    intro _ _ limit
    refine congrArg some ?_
    refine (Tables.items_getBatch limit simulate.sqlite).trans ?_
    rw [simulate.view]
    exact (Tables.items_getBatch limit simulate.pg).symm

/-- Databases that agree have the same processed rows to clear. -/
theorem Simulate.processed (simulate : backends.Simulate)
    : backends.sqlite.processedIds.length = backends.pg.processedIds.length := by
  have count (tables : Tables) : tables.processedIds.length
      = tables.view.frontier.countP fun item => item.url ∈ tables.view.visited := by
    rw [Tables.processedIds, List.length_map, ← List.countP_eq_length_filter]
    simp only [Tables.view, Frontier.items, List.countP_map]
    rfl
  rw [count, count, simulate.view]

/-- An operation whose arguments repeat what they should keeps the databases together. -/
theorem Simulate.step (simulate : backends.Simulate) (repeats : Repeats refuses backends call)
    (taken : backends.step refuses call = some next)
    : next.Simulate := by
  obtain ⟨accepted, repeats⟩ := repeats
  obtain ⟨sqlite, first, second⟩ := Option.bind_eq_some_iff.mp taken
  rw [if_neg (ne_true_of_eq_false accepted)] at second
  obtain ⟨pg, applied, rfl⟩ := Option.map_eq_some_iff.mp second
  obtain ⟨operation, sqliteChoice, pgChoice⟩ := call
  have sqliteRefinable : backends.sqlite.Refinable .sqlite operation := by
    cases operation with
    | insertNode => exact nofun
    | clearProcessed => exact repeats
    | _ => trivial
  have pgRefinable : backends.pg.Refinable .pg operation := by
    cases operation with
    | insertNode => exact fun _ => repeats
    | clearProcessed => exact Nat.le_trans (Nat.le_of_eq simulate.processed.symm) repeats
    | _ => trivial
  constructor
  · change sqlite.view = pg.view
    rw [Tables.view_apply sqliteRefinable first, Tables.view_apply pgRefinable applied,
      simulate.view]
  · exact Tables.positive_apply simulate.sqlite first
  · exact Tables.positive_apply simulate.pg applied

/-- Two new databases hold the same store. -/
theorem simulate_initial : initial.Simulate where
  view := rfl
  sqlite := ⟨by decide, fun _ member => nomatch member⟩
  pg := ⟨by decide, fun _ member => nomatch member⟩

/-- Runs of repeated rows keep the databases together. -/
theorem simulate_run (run : Run (step refuses) (Repeats refuses) initial backends)
    : backends.Simulate :=
  run.invariant simulate_initial fun simulate repeats taken => simulate.step repeats taken

/-- A row that PostgreSQL takes, and that does not repeat the columns it leaves, sets the
databases apart.
-/
theorem repeatsRest_of_agree {url : String} {row old : NodeRow}
    {sqliteChoice pgChoice : Choice}
    (accepted : refuses (.insertNode url row) = false)
    (found : backends.pg.nodes.get? url = some old)
    (taken : backends.step refuses ⟨.insertNode url row, sqliteChoice, pgChoice⟩ = some next)
    (agree : next.Agree)
    : Tables.RepeatsRest old row := by
  obtain ⟨sqlite, first, second⟩ := Option.bind_eq_some_iff.mp taken
  rw [if_neg (ne_true_of_eq_false accepted)] at second
  obtain ⟨pg, applied, rfl⟩ := Option.map_eq_some_iff.mp second
  obtain rfl := Option.some.inj first
  obtain rfl := Option.some.inj applied
  have written : (backends.pg.insertNode .pg url row).nodes
      = backends.pg.nodes.set url (old.refresh row) := by
    simp only [Tables.insertNode, found]
  have same : backends.sqlite.nodes.set url row
      = backends.pg.nodes.set url (old.refresh row) :=
    agree.nodes.trans written
  have read := congrArg (fun nodes => nodes.get? url) same
  rw [InsertionMap.get?_set_self, InsertionMap.get?_set_self] at read
  exact Tables.refresh_eq_iff.mp (Option.some.inj read).symm

/-- The databases agree in every run whose rows repeat what PostgreSQL's `insertNode` leaves,
and an accepted row that does not repeat it sets them apart at once.
-/
theorem backendsAgree (refuses : Operation → Bool) (backends : Backends)
    (run : Run (step refuses) (Repeats refuses) initial backends)
    : backends.Agree
      ∧ ∀ url row call next,
          call.operation = .insertNode url row →
          refuses call.operation = false →
          backends.step refuses call = some next →
          (next.Agree ↔ ∀ old ∈ backends.pg.nodes.get? url, Tables.RepeatsRest old row) := by
  have simulate := simulate_run run
  refine ⟨simulate.agree, fun url row call next inserts accepted taken => ?_⟩
  obtain ⟨operation, sqliteChoice, pgChoice⟩ := call
  obtain rfl : operation = .insertNode url row := inserts
  constructor
  · intro agree old found
    exact repeatsRest_of_agree accepted found taken agree
  · intro repeats
    exact (simulate.step ⟨accepted, repeats⟩ taken).agree

instance : DecidableRel (Repeats refuses) := fun backends call =>
  match call with
  | ⟨.insertNode url _, _, _⟩ =>
      inferInstanceAs (Decidable (_ ∧ ∀ old ∈ backends.pg.nodes.get? url, _))
  | ⟨.clearProcessed, _, _⟩ => inferInstanceAs (Decidable (_ ∧ _ ≤ 10000))
  | ⟨.markVisited _, _, _⟩ => inferInstanceAs (Decidable (_ ∧ True))
  | ⟨.insertFrontier _, _, _⟩ => inferInstanceAs (Decidable (_ ∧ True))
  | ⟨.deleteFromFrontier _, _, _⟩ => inferInstanceAs (Decidable (_ ∧ True))
  | ⟨.saveNode _, _, _⟩ => inferInstanceAs (Decidable (_ ∧ True))
  | ⟨.insertManyFrontier _, _, _⟩ => inferInstanceAs (Decidable (_ ∧ True))

/-- A row with the given domain and title, as both backends would write it. -/
def plainRow (domain title : String) : NodeRow :=
  ⟨title, "", domain, 0, none, 1, "en", 1, "", "", "", 0, 0⟩

/-- Two pages, the first of which is inserted again with another title. -/
def titleChanges : List Call := [
  ⟨.insertFrontier ⟨"https://a.example/1", 0, none⟩, {}, {}⟩,
  ⟨.insertNode "https://a.example/1" (plainRow "a.example" "Old"), {}, {}⟩,
  ⟨.insertNode "https://a.example/2" (plainRow "a.example" "Other"), {}, {}⟩,
  ⟨.markVisited "https://a.example/1", {}, {}⟩,
  ⟨.insertNode "https://a.example/1" (plainRow "a.example" "New"), {}, {}⟩,
  ⟨.clearProcessed, { ids := [1] }, { ids := [1] }⟩
]

/-- The databases agree on both pages, once the first has its new title. -/
theorem backendsAgree_of_titleChanges
    : ∃ backends,
        Run (step fun _ => false) (Repeats fun _ => false) initial backends
        ∧ backends.Agree
        ∧ backends.pg.nodes.get? "https://a.example/1" = some (plainRow "a.example" "New") := by
  have executed
      : (execute (step fun _ => false) (Repeats fun _ => false) initial titleChanges).any
          (fun backends => decide
            (backends.pg.nodes.get? "https://a.example/1" = some (plainRow "a.example" "New")))
        = true := by
    decide +kernel
  obtain ⟨backends, run, titled⟩ := exists_run_of_any executed
  exact ⟨backends, run, (backendsAgree _ backends run).1, of_decide_eq_true titled⟩

/-- A page that is inserted again under another domain. -/
def domainChanges : List Call := [
  ⟨.insertNode "https://a.example/1" (plainRow "a.example" "Old"), {}, {}⟩,
  ⟨.insertNode "https://a.example/1" (plainRow "b.example" "Old"), {}, {}⟩
]

/-- A page that is inserted again under another domain keeps its domain on one backend. -/
theorem backendsAgree_fails_for_another_domain
    : ¬ ∀ backends, Reaches (step fun _ => false) initial backends → backends.Agree := by
  intro claim
  have executed
      : (execute (step fun _ => false) anyStep initial domainChanges).any
          (fun backends => decide
            (backends.sqlite.nodes.get? "https://a.example/1"
              ≠ backends.pg.nodes.get? "https://a.example/1"))
        = true := by
    decide +kernel
  obtain ⟨backends, run, different⟩ := exists_run_of_any executed
  have same := congrArg (fun nodes => nodes.get? "https://a.example/1") (claim _ run).nodes
  exact of_decide_eq_true different same

end Backends

end WebIndexer.Store
