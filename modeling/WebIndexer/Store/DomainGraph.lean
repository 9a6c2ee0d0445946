import WebIndexer.Library.Queries
import WebIndexer.Store.Tables

/-! `refreshTreeCache` of `src/tree.ts`, with its queries as SQL defines them. On SQLite they run
in one turn, so that they all see the same tables; on PostgreSQL the last of them is missing.
-/

namespace WebIndexer.Store

open WebIndexer.Config
open WebIndexer.Library

/-- The names of the statements that `createStatements` prepares. -/
def createStatements : List String := [
  "insertNode", "updatePop", "markVisited", "isVisited", "insertFrontier", "getBatch", "getMinId",
  "clearProcessed", "deleteFromFrontier", "nodeCount", "frontierCount", "domainPopStmt",
  "totalNodes", "insertFts", "domainCountStmt", "treeLight", "rebuildFts", "ftsCount",
  "recrawlTargets"
]

/-- The names of the statements that `createPgStatements` returns. -/
def createPgStatements : List String := [
  "insertNode", "markVisited", "isVisited", "insertFrontier", "getBatch", "getMinId",
  "deleteFromFrontier", "clearProcessed", "nodeCount", "frontierCount", "domainPopStmt",
  "domainCountStmt", "insertFts", "ftsCount", "rebuildFts", "treeLight", "searchFts",
  "recrawlTargets"
]

/-- The names of the `stmts` that `createBackend` returns. -/
def stmts : Backend → List String
  | .sqlite => createStatements
  | .pg => createPgStatements

/-- The queries of `refreshTreeCache`. -/
inductive TreeQuery where
  | domainNodes
  | rawEdges
  | treeLight
  | totalNodes
  deriving DecidableEq

/-- What `refreshTreeCache` catches. -/
inductive TreeError where
  | failed (query : TreeQuery)
  | undefinedStatement (name : String)
  deriving DecidableEq

/-- The order in which the database comes upon the rows of each query, before it orders them. -/
structure TreeOrders where
  partitions : Shuffle TreeNode
  domainNodes : Shuffle TreeNode
  rawEdges : Shuffle TreeEdge
  treeLight : Shuffle (String × NodeRow)

/-- The columns of a row that the tree shows. -/
def treeNode (entry : String × NodeRow) : TreeNode where
  url := entry.1
  title := entry.2.title
  domain := entry.2.domain
  depth := entry.2.depth
  parent := entry.2.parent
  popularity := entry.2.popularity
  https := entry.2.https

/-- A query, which throws if it is the one that fails. -/
def query {α : Type} (failing : Option TreeQuery) (kind : TreeQuery) (result : α)
    : Except TreeError α :=
  if failing = some kind then .error (.failed kind) else .ok result

/-- A query through `stmts`, which throws where the backend has no such statement. -/
def statement {α : Type} (backend : Backend) (failing : Option TreeQuery) (name : String)
    (kind : TreeQuery) (result : α)
    : Except TreeError α :=
  if name ∈ stmts backend then query failing kind result else .error (.undefinedStatement name)

namespace Tables

variable (backend : Backend) (failing : Option TreeQuery) (orders : TreeOrders)
  (tables : Tables)

/-- The rows of `nodes`, in the order of their row ids. -/
def treeRows : List TreeNode := tables.nodes.entries.map treeNode

/-- The first query: of each domain a row with its greatest popularity. -/
def domainNodes : List TreeNode :=
  (orderByDesc TreeNode.popularity orders.domainNodes
    (topOfEach TreeNode.domain TreeNode.popularity orders.partitions tables.treeRows)).take 200

/-- The rows joined with their parents, as the two domains, where these differ. -/
def crossings : List (String × String) :=
  tables.treeRows.flatMap fun n =>
    (tables.treeRows.filter fun p => n.parent = some p.url ∧ n.domain ≠ p.domain).map fun p =>
      (p.domain, n.domain)

/-- The second query: how often the pages of one domain lead to pages of another. -/
def rawEdges : List TreeEdge :=
  (orderByDesc TreeEdge.w orders.rawEdges
    ((countGroups tables.crossings).map fun counted =>
      ⟨counted.1.1, counted.1.2, counted.2⟩)).take 300

/-- The statement `treeLight`, in the order of the row ids or of the column `crawled_at`. -/
def treeLight (limit : Nat) : List TreeNode :=
  match backend with
  | .sqlite => tables.treeRows.reverse.take limit
  | .pg =>
      ((orderByDesc (fun entry => entry.2.crawledAt) orders.treeLight
        tables.nodes.entries).map treeNode).take limit

/-- The data of the message that `refreshTreeCache` puts together. -/
def treeData : Except TreeError TreeData := do
  let domainNodes ← query failing .domainNodes (tables.domainNodes orders)
  if domainNodes.length > 0 then
    let domainSet := domainNodes.map TreeNode.domain
    let rawEdges ← query failing .rawEdges (tables.rawEdges orders)
    let edges := rawEdges.filter fun edge => edge.src ∈ domainSet ∧ edge.dst ∈ domainSet
    let total ← statement backend failing "totalNodes" .totalNodes tables.nodes.size
    return { nodes := domainNodes, edges := edges, total := total, domains := domainNodes.length }
  else
    let fallback ←
      statement backend failing "treeLight" .treeLight (tables.treeLight backend orders 150)
    let total ← statement backend failing "totalNodes" .totalNodes tables.nodes.size
    return { nodes := fallback, edges := [], total := total, domains := 0 }

/-- `refreshTreeCache`: the tree messages that it sends, if it has whom to send them to. -/
def refreshTreeCache (sendToServer : Bool) : List TreeData :=
  match tables.treeData backend failing orders with
  | .ok data => if sendToServer then [data] else []
  | .error _ => []

end Tables

/-- A graph of the domains of some pages: a node for a domain is a page of the greatest
popularity there, and edges join different domains that have nodes.
-/
structure DomainGraph (rows : List TreeNode) (data : TreeData) : Prop where
  domains_nodup : (data.nodes.map TreeNode.domain).Nodup
  nodes_subset : data.nodes ⊆ rows
  greatest
    : ∀ node ∈ data.nodes, ∀ row ∈ rows, row.domain = node.domain →
        row.popularity ≤ node.popularity
  edges_join
    : ∀ edge ∈ data.edges,
        edge.src ≠ edge.dst
        ∧ edge.src ∈ data.nodes.map TreeNode.domain
        ∧ edge.dst ∈ data.nodes.map TreeNode.domain
  total_eq : data.total = rows.length

namespace Tables

variable {backend : Backend} {failing : Option TreeQuery} {orders : TreeOrders}
  {tables : Tables}

/-- A run with a server, without a query that fails, sends one message: a graph of the domains. -/
def SendsDomainGraph (backend : Backend) (orders : TreeOrders) (tables : Tables) : Prop :=
  ∃ data,
    tables.refreshTreeCache backend none orders true = [data]
    ∧ DomainGraph tables.treeRows data

-----------------------------------------------------------------------------------------
-- The queries
-----------------------------------------------------------------------------------------

@[simp] theorem length_treeRows (tables : Tables) : tables.treeRows.length = tables.nodes.size :=
  List.length_map _

theorem mem_topOfEach_of_mem_domainNodes {node : TreeNode}
    (member : node ∈ tables.domainNodes orders)
    : node ∈ topOfEach TreeNode.domain TreeNode.popularity orders.partitions tables.treeRows :=
  mem_orderByDesc.mp (List.mem_of_mem_take member)

theorem nodup_domainNodes (orders : TreeOrders) (tables : Tables)
    : ((tables.domainNodes orders).map TreeNode.domain).Nodup := by
  have tops := nodup_map_firstOfEach TreeNode.domain
    (orderByDesc TreeNode.popularity orders.partitions tables.treeRows)
  have ordered := (perm_orderByDesc TreeNode.popularity orders.domainNodes
    (topOfEach TreeNode.domain TreeNode.popularity orders.partitions tables.treeRows)).map
      TreeNode.domain
  exact (ordered.nodup_iff.mpr tops).sublist ((List.take_sublist ..).map _)

theorem domainNodes_eq_nil : tables.domainNodes orders = [] ↔ tables.treeRows = [] := by
  simp [domainNodes, List.take_eq_nil_iff]

theorem crossing_domains_ne {crossing : String × String} (member : crossing ∈ tables.crossings)
    : crossing.1 ≠ crossing.2 := by
  obtain ⟨n, _, joined⟩ := List.mem_flatMap.mp member
  obtain ⟨p, kept, rfl⟩ := List.mem_map.mp joined
  have differ := (of_decide_eq_true (List.mem_filter.mp kept).2).2
  exact differ.symm

theorem rawEdge_domains_ne {edge : TreeEdge} (member : edge ∈ tables.rawEdges orders)
    : edge.src ≠ edge.dst := by
  have counted := mem_orderByDesc.mp (List.mem_of_mem_take member)
  obtain ⟨group, present, rfl⟩ := List.mem_map.mp counted
  exact crossing_domains_ne (mem_of_mem_countGroups present)

/-- Without rows, the statement `treeLight` has nothing to return. -/
theorem treeLight_eq_nil (none_there : tables.treeRows = []) (limit : Nat)
    : tables.treeLight backend orders limit = [] := by
  cases backend with
  | sqlite => simp [treeLight, none_there]
  | pg =>
      have entries : tables.nodes.entries = [] := List.map_eq_nil_iff.mp none_there
      simp [treeLight, entries, orderByDesc_eq_nil.mpr]

-----------------------------------------------------------------------------------------
-- The message
-----------------------------------------------------------------------------------------

/-- The graph that the queries make when none of them throws. -/
def graph (orders : TreeOrders) (tables : Tables) : TreeData :=
  let domainNodes := tables.domainNodes orders
  let domainSet := domainNodes.map TreeNode.domain
  {
    nodes := domainNodes
    edges := (tables.rawEdges orders).filter fun edge =>
      edge.src ∈ domainSet ∧ edge.dst ∈ domainSet
    total := tables.nodes.size
    domains := domainNodes.length
  }

/-- The queries' results fit together: the nodes come from the first, so that the edges' domains
are among theirs.
-/
theorem domainGraph_graph (orders : TreeOrders) (tables : Tables)
    : DomainGraph tables.treeRows (graph orders tables) where
  domains_nodup := nodup_domainNodes orders tables
  nodes_subset := fun _ shown =>
    mem_of_mem_topOfEach (mem_topOfEach_of_mem_domainNodes shown)
  greatest := fun _ shown _ member same =>
    le_of_mem_topOfEach (mem_topOfEach_of_mem_domainNodes shown) member same
  edges_join := by
    intro edge kept
    obtain ⟨member, ends⟩ := List.mem_filter.mp kept
    exact ⟨rawEdge_domains_ne member, of_decide_eq_true ends⟩
  total_eq := (length_treeRows tables).symm

theorem ok_of_query {α : Type} {kind : TreeQuery} {result value : α}
    (answered : query failing kind result = .ok value)
    : value = result := by
  unfold query at answered
  split at answered
  · exact absurd answered nofun
  · exact (Except.ok.inj answered).symm

theorem ok_of_statement {α : Type} {name : String} {kind : TreeQuery} {result value : α}
    (answered : statement backend failing name kind result = .ok value)
    : name ∈ stmts backend ∧ value = result := by
  unfold statement at answered
  split at answered
  case isTrue present => exact ⟨present, ok_of_query answered⟩
  case isFalse => exact absurd answered nofun

theorem ok_of_bind {α β : Type} {first : Except TreeError α} {next : α → Except TreeError β}
    {result : β} (completed : first >>= next = .ok result)
    : ∃ value, first = .ok value ∧ next value = .ok result := by
  cases first with
  | error _ => exact absurd completed nofun
  | ok value => exact ⟨value, rfl, completed⟩

/-- Whatever fails, data that is put together is the graph, by the statement `totalNodes`. The
branch for no domains runs only if there are no rows, and then has nothing to show either.
-/
theorem eq_graph_of_treeData {data : TreeData}
    (completed : tables.treeData backend failing orders = .ok data)
    : data = graph orders tables ∧ "totalNodes" ∈ stmts backend := by
  obtain ⟨_, answered, completed⟩ := ok_of_bind completed
  cases ok_of_query answered
  split at completed
  case isTrue =>
    obtain ⟨_, answered, completed⟩ := ok_of_bind completed
    cases ok_of_query answered
    obtain ⟨_, answered, completed⟩ := ok_of_bind completed
    obtain ⟨present, rfl⟩ := ok_of_statement answered
    exact ⟨(Except.ok.inj completed).symm, present⟩
  case isFalse none_shown =>
    have no_domains : tables.domainNodes orders = [] :=
      List.length_eq_zero_iff.mp (Nat.eq_zero_of_not_pos none_shown)
    have no_rows := domainNodes_eq_nil.mp no_domains
    obtain ⟨_, answered, completed⟩ := ok_of_bind completed
    obtain ⟨_, rfl⟩ := ok_of_statement answered
    obtain ⟨_, answered, completed⟩ := ok_of_bind completed
    obtain ⟨present, rfl⟩ := ok_of_statement answered
    refine ⟨?_, present⟩
    rw [← Except.ok.inj completed, treeLight_eq_nil no_rows]
    simp [graph, no_domains]

/-- Where all queries succeed and all statements exist, the data is put together. -/
theorem treeData_eq_ok (orders : TreeOrders) (tables : Tables)
    : tables.treeData .sqlite none orders = .ok (graph orders tables) := by
  have completed : ∃ data, tables.treeData .sqlite none orders = .ok data := by
    unfold treeData
    by_cases some_shown : (tables.domainNodes orders).length > 0
    · exact ⟨_, if_pos some_shown⟩
    · exact ⟨_, if_neg some_shown⟩
  obtain ⟨data, completed⟩ := completed
  rw [completed, (eq_graph_of_treeData completed).1]

/-- Whatever fails, a message that is sent is a graph of the domains. -/
theorem domainGraph_of_sent {sendToServer : Bool} {data : TreeData}
    (sent : data ∈ tables.refreshTreeCache backend failing orders sendToServer)
    : DomainGraph tables.treeRows data := by
  unfold refreshTreeCache at sent
  split at sent
  case h_1 built completed =>
    cases sendToServer with
    | false => exact absurd sent List.not_mem_nil
    | true =>
        rw [List.mem_singleton.mp sent, (eq_graph_of_treeData completed).1]
        exact domainGraph_graph orders tables
  case h_2 => exact absurd sent List.not_mem_nil

/-- On PostgreSQL the statement `totalNodes` is missing, and nothing is ever sent. -/
theorem refreshTreeCache_pg (failing : Option TreeQuery) (orders : TreeOrders)
    (sendToServer : Bool) (tables : Tables)
    : tables.refreshTreeCache .pg failing orders sendToServer = [] := by
  unfold refreshTreeCache
  split
  case h_1 data completed =>
    have present := (eq_graph_of_treeData completed).2
    exact absurd present (by decide)
  case h_2 => rfl

/-- Whatever `nodes` holds and in whatever order the database comes upon its rows: with queries that
succeed, a refresh sends one message, a graph of the domains, if and only if the backend is
SQLite.
-/
theorem sendsDomainGraph_iff (backend : Backend) (orders : TreeOrders) (tables : Tables)
    : SendsDomainGraph backend orders tables ↔ backend = .sqlite := by
  cases backend with
  | sqlite =>
      refine iff_of_true ⟨graph orders tables, ?_, domainGraph_graph orders tables⟩ rfl
      rw [refreshTreeCache, treeData_eq_ok]
      rfl
  | pg =>
      refine iff_of_false ?_ nofun
      rintro ⟨data, sent, _⟩
      rw [refreshTreeCache_pg] at sent
      exact absurd sent nofun

/-- Two pages of two domains, of which the one leads to the other. -/
def twoDomains : Tables := {
  empty with
  nodes := ((InsertionMap.empty.set "https://a.example/" ⟨"", "", "a.example", 0, none, 2, "", 1,
    "", "", "", 0, 0⟩).set "https://b.example/" ⟨"", "", "b.example", 1,
    some "https://a.example/", 1, "", 1, "", "", "", 0, 0⟩)
}

/-- Orders that leave the rows as the tables have them. -/
def tableOrders : TreeOrders := ⟨.tableOrder, .tableOrder, .tableOrder, .tableOrder⟩

example
    : (twoDomains.refreshTreeCache .sqlite none tableOrders true).map TreeData.edges
      = [[⟨"a.example", "b.example", 1⟩]] := by
  decide

/-- The two backends do not both send a graph of the same pages. -/
theorem sendsDomainGraph_fails_for_pg
    : ¬ ∀ (backend : Backend) (orders : TreeOrders) (tables : Tables),
        SendsDomainGraph backend orders tables := by
  intro claim
  obtain ⟨data, sent, _⟩ := claim .pg tableOrders twoDomains
  have nothing : twoDomains.refreshTreeCache .pg none tableOrders true = [] := by decide
  rw [nothing] at sent
  exact absurd sent nofun

end Tables

end WebIndexer.Store
