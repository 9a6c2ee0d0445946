import Mathlib.Data.List.Perm.Subperm
import WebIndexer.Store.Tables

/-! What a statement can do to the frontier and to the visited addresses. Addresses leave
the frontier by a deletion that names them, or because they are marked as visited.
-/

namespace WebIndexer.Store

open WebIndexer.Config
open WebIndexer.Library

/-- The addresses that a statement marks as visited. -/
def Statement.marks : Statement → List String
  | .markVisited url => [url]
  | .saveNode page => [page.url, page.origUrl]
  | _ => []

namespace Frontier

/-- An insertion adds its row at most. -/
theorem mem_rows_insert {frontier : Frontier} {item : FrontierItem} {row : FrontierRow}
    (member : row ∈ (frontier.insert item).rows)
    : row ∈ frontier.rows ∨ row.toFrontierItem = item := by
  unfold insert at member
  split at member
  · rcases List.mem_append.mp member with old | new
    · exact .inl old
    · obtain rfl := List.mem_singleton.mp new
      exact .inr rfl
  · exact .inl member

@[simp] theorem mem_urls_filter {frontier : Frontier} {keep : FrontierRow → Bool} {url : String}
    : url ∈ (frontier.filter keep).urls
      ↔ ∃ row ∈ frontier.rows, keep row = true ∧ row.url = url := by
  simp [urls, filter, and_assoc]

/-- A row is determined by its id, since the ids are strictly sorted. -/
theorem row_unique {frontier : Frontier} {row other : FrontierRow}
    (member : row ∈ frontier.rows) (otherMember : other ∈ frontier.rows)
    (same : row.id = other.id)
    : row = other := by
  have distinct : (frontier.rows.map FrontierRow.id).Nodup :=
    frontier.ids_sorted.imp Nat.ne_of_lt
  exact List.inj_on_of_nodup_map distinct member otherMember same

/-- An insertion keeps the rows that were there, whether it conflicts or not. -/
theorem mem_urls_insert {frontier : Frontier} {item : FrontierItem} {url : String}
    (listed : url ∈ frontier.urls)
    : url ∈ (frontier.insert item).urls := by
  unfold insert
  split
  · obtain ⟨row, member, same⟩ := List.mem_map.mp listed
    exact List.mem_map.mpr ⟨row, List.mem_append_left _ member, same⟩
  · exact listed

/-- An inserted address is listed, whether it was before or not. -/
theorem mem_urls_insert_self (frontier : Frontier) (item : FrontierItem)
    : item.url ∈ (frontier.insert item).urls := by
  unfold insert
  split
  · refine List.mem_map.mpr ⟨{ item with id := frontier.nextId }, ?_, rfl⟩
    exact List.mem_append_right _ (List.mem_singleton.mpr rfl)
  · rename_i present
    exact not_not.mp present

end Frontier

namespace Frontier

variable {before middle after : Frontier}

/-- A later state of the table: the rows that are new have ids that had not been drawn. -/
structure Later (before after : Frontier) : Prop where
  nextId : before.nextId ≤ after.nextId
  rows : ∀ row ∈ after.rows, row ∈ before.rows ∨ before.nextId ≤ row.id

namespace Later

/-- Nothing has changed. -/
theorem refl (frontier : Frontier) : Later frontier frontier :=
  ⟨Nat.le_refl _, fun _ => .inl⟩

/-- What comes later stays later. -/
theorem trans (first : Later before middle) (second : Later middle after)
    : Later before after := by
  refine ⟨Nat.le_trans first.nextId second.nextId, fun row member => ?_⟩
  rcases second.rows row member with old | new
  · exact first.rows row old
  · exact .inr (Nat.le_trans first.nextId new)

/-- Rows are deleted. -/
theorem filter (frontier : Frontier) (keep : FrontierRow → Bool)
    : Later frontier (frontier.filter keep) :=
  ⟨Nat.le_refl _, fun _ member => .inl (List.mem_of_mem_filter member)⟩

/-- A row is inserted, or conflicts. -/
theorem insert (frontier : Frontier) (item : FrontierItem)
    : Later frontier (frontier.insert item) := by
  unfold Frontier.insert
  split
  · refine ⟨Nat.le_succ _, fun row member => ?_⟩
    rcases List.mem_append.mp member with old | new
    · exact .inl old
    · obtain rfl := List.mem_singleton.mp new
      exact .inr (Nat.le_refl _)
  · exact ⟨Nat.le_succ _, fun _ => .inl⟩

end Later

end Frontier

/-- The rows that a statement adds to the frontier, unless their addresses are there. -/
def Statement.inserts : Statement → List FrontierItem
  | .insertFrontier item => [item]
  | .insertManyFrontier items => items
  | _ => []

/-- Whether an address that is not visited is listed after a statement. -/
def Statement.lists (url : String) (listed : Bool) : Statement → Bool
  | .deleteFromFrontier deleted => listed && decide (deleted ≠ url)
  | statement => listed || decide (url ∈ statement.inserts.map FrontierItem.url)

/-- The value is of the kind that the statement returns. -/
def Value.answers : Value → Statement → Bool
  | .minId _, .getMinId => true
  | .rows _, .getBatch _ _ => true
  | .found _, .isVisited _ => true
  | .urls _, .recrawlTargets _ => true
  | .count _, .nodeCount | .count _, .frontierCount => true
  | .counts _, .domainPop | .counts _, .domainCount => true
  | .unit, .markVisited _ | .unit, .insertFrontier _ | .unit, .deleteFromFrontier _ => true
  | .unit, .clearProcessed | .unit, .saveNode _ | .unit, .insertManyFrontier _ => true
  | _, _ => false

namespace Tables

variable {backend : Backend} {choice : Choice} {tables after : Tables} {statement : Statement}
  {value : Value} {url other : String}

-----------------------------------------------------------------------------------------
-- The visited addresses
-----------------------------------------------------------------------------------------

@[simp] theorem visited_markVisited
    : other ∈ (tables.markVisited url).visited ↔ other = url ∨ other ∈ tables.visited :=
  InsertionSet.mem_add

@[simp] theorem visited_deleteFromFrontier
    : (tables.deleteFromFrontier url).visited = tables.visited :=
  rfl

@[simp] theorem visited_settle
    : other ∈ (tables.settle url).visited ↔ other = url ∨ other ∈ tables.visited := by
  simp [settle]

/-- Up to the search index, a page is settled under its own address, and under the address
that led to it when that is another one.
-/
theorem saveNode_cases (backend : Backend) (tables : Tables) (page : PageData) (ftsFails : Bool)
    : ∃ settled,
        (tables.saveNode backend page ftsFails).visited = settled.visited
        ∧ (tables.saveNode backend page ftsFails).frontier = settled.frontier
        ∧ (page.origUrl = page.url ∧ settled = (tables.upsertNode page).settle page.url
          ∨ settled = ((tables.upsertNode page).settle page.url).settle page.origUrl) := by
  refine ⟨
    if page.origUrl ≠ page.url then
      ((tables.upsertNode page).settle page.url).settle page.origUrl
    else
      (tables.upsertNode page).settle page.url, ?_, ?_, ?_⟩
  · cases backend <;> cases ftsFails <;> rfl
  · cases backend <;> cases ftsFails <;> rfl
  · split
    · exact .inr rfl
    · rename_i same
      exact .inl ⟨not_not.mp same, rfl⟩

/-- A saved page is upserted, whatever happens to the frontier and to the index. -/
@[simp] theorem nodes_saveNode {page : PageData} {ftsFails : Bool}
    : (tables.saveNode backend page ftsFails).nodes = tables.nodes.set page.url (nodeRow page) := by
  unfold saveNode
  by_cases moved : page.origUrl ≠ page.url
  · simp only [if_pos moved]
    cases backend <;> cases ftsFails <;> rfl
  · simp only [if_neg moved]
    cases backend <;> cases ftsFails <;> rfl

/-- A saved page has both its addresses marked. -/
@[simp] theorem visited_saveNode {page : PageData} {ftsFails : Bool}
    : url ∈ (tables.saveNode backend page ftsFails).visited
      ↔ url = page.url ∨ url = page.origUrl ∨ url ∈ tables.visited := by
  obtain ⟨settled, marked, _, ⟨same, rfl⟩ | rfl⟩ := saveNode_cases backend tables page ftsFails
  · simp [marked, same, upsertNode]
  · simp only [marked, visited_settle, upsertNode]
    exact or_left_comm

/-- Queueing links marks nothing, by induction over the links. -/
@[simp] theorem visited_insertManyFrontier {items : List FrontierItem}
    : (tables.insertManyFrontier items).visited = tables.visited := by
  unfold insertManyFrontier
  induction items generalizing tables with
  | nil => rfl
  | cons item rest ih => exact (ih : _ = (tables.insertFrontier item).visited)

/-- A statement marks the addresses that it names, and no others. -/
theorem mem_visited_run (ran : tables.run backend choice statement = some (after, value))
    : url ∈ after.visited ↔ url ∈ statement.marks ∨ url ∈ tables.visited := by
  cases statement with
  | markVisited marked =>
      obtain ⟨rfl, rfl⟩ := Prod.mk.inj (Option.some.inj ran)
      simp [Statement.marks]
  | saveNode page =>
      obtain ⟨rfl, rfl⟩ := Prod.mk.inj (Option.some.inj ran)
      simp [Statement.marks, or_assoc]
  | insertManyFrontier items =>
      obtain ⟨rfl, rfl⟩ := Prod.mk.inj (Option.some.inj ran)
      simp [Statement.marks]
  | clearProcessed | recrawlTargets limit =>
      simp only [run, Option.ite_none_right_eq_some] at ran
      obtain ⟨_, same⟩ := ran
      obtain ⟨rfl, rfl⟩ := Prod.mk.inj (Option.some.inj same)
      simp [Statement.marks]
  | insertFrontier | deleteFromFrontier | getMinId | getBatch | isVisited | nodeCount
  | frontierCount | domainPop | domainCount =>
      obtain ⟨rfl, rfl⟩ := Prod.mk.inj (Option.some.inj ran)
      simp [Statement.marks, insertFrontier]

-----------------------------------------------------------------------------------------
-- The frontier
-----------------------------------------------------------------------------------------

/-- A deletion removes the address that it names. -/
theorem mem_urls_deleteFromFrontier (url : String) (listed : other ∈ tables.frontier.urls)
    : other ∈ (tables.deleteFromFrontier url).frontier.urls ∨ other = url := by
  by_cases same : other = url
  · exact .inr same
  · obtain ⟨row, member, rfl⟩ := List.mem_map.mp listed
    exact .inl (Frontier.mem_urls_filter.mpr ⟨row, member, by simpa using same, rfl⟩)

/-- Settling an address removes it and marks it. -/
theorem mem_urls_settle (url : String) (listed : other ∈ tables.frontier.urls)
    : other ∈ (tables.settle url).frontier.urls ∨ other = url := by
  have marked : other ∈ (tables.markVisited url).frontier.urls := listed
  exact mem_urls_deleteFromFrontier url marked

/-- A saved page removes its two addresses at most. -/
theorem mem_urls_saveNode (backend : Backend) (page : PageData) (ftsFails : Bool)
    (listed : other ∈ tables.frontier.urls)
    : other ∈ (tables.saveNode backend page ftsFails).frontier.urls
      ∨ other = page.url ∨ other = page.origUrl := by
  have upserted : other ∈ (tables.upsertNode page).frontier.urls := listed
  have first := mem_urls_settle page.url upserted
  obtain ⟨settled, _, kept, ⟨_, rfl⟩ | rfl⟩ := saveNode_cases backend tables page ftsFails
  · rw [kept]
    exact first.imp_right .inl
  · rw [kept]
    rcases first with first | same
    · exact (mem_urls_settle page.origUrl first).imp_right .inr
    · exact .inr (.inl same)

/-- Queueing links keeps the rows that were there, by induction over the links. -/
theorem mem_urls_insertManyFrontier {items : List FrontierItem}
    (listed : url ∈ tables.frontier.urls)
    : url ∈ (tables.insertManyFrontier items).frontier.urls := by
  unfold insertManyFrontier
  induction items generalizing tables with
  | nil => exact listed
  | cons item rest ih => exact ih (Frontier.mem_urls_insert listed)

/-- Every inserted address is listed, by induction over the items before it. -/
theorem mem_urls_of_mem_items {items : List FrontierItem} {item : FrontierItem}
    (member : item ∈ items)
    : item.url ∈ (tables.insertManyFrontier items).frontier.urls := by
  unfold insertManyFrontier
  induction items generalizing tables with
  | nil => cases member
  | cons first rest ih =>
      rcases List.mem_cons.mp member with rfl | later
      · have inserted : item.url ∈ (tables.insertFrontier item).frontier.urls :=
          Frontier.mem_urls_insert_self tables.frontier item
        change item.url ∈ ((tables.insertFrontier item).insertManyFrontier
          rest).frontier.urls
        exact mem_urls_insertManyFrontier inserted
      · exact ih later

/-- The processed ids are those of the rows whose address is marked, since an id determines its
row.
-/
theorem mem_processedIds_iff {row : FrontierRow} (member : row ∈ tables.frontier.rows)
    : row.id ∈ tables.processedIds ↔ row.url ∈ tables.visited := by
  constructor
  · intro processed
    obtain ⟨other, chosen, same⟩ := List.mem_map.mp processed
    obtain ⟨otherMember, visited⟩ := List.mem_filter.mp chosen
    obtain rfl := Frontier.row_unique otherMember member same
    exact of_decide_eq_true visited
  · intro visited
    exact List.mem_map_of_mem (List.mem_filter.mpr ⟨member, decide_eq_true visited⟩)

/-- As many distinct ids as there are, chosen among them, are all of them. -/
theorem mem_chosen_of_limits {candidates chosen : List Nat} {count id : Nat}
    (few : candidates.length ≤ count) (valid : limits candidates count chosen = true)
    : id ∈ chosen ↔ id ∈ candidates := by
  simp only [limits, Bool.and_eq_true, decide_eq_true_eq, List.all_eq_true] at valid
  obtain ⟨⟨unique, among⟩, length⟩ := valid
  have all : chosen.Perm candidates := by
    refine (unique.subperm among).perm_of_length_le ?_
    exact Nat.le_of_eq (length.trans (Nat.min_eq_right few)).symm
  exact all.mem_iff

/-- An address stays on the frontier through a statement, unless the statement deletes it by
name or it is visited afterwards.
-/
theorem mem_urls_run (ran : tables.run backend choice statement = some (after, value))
    (listed : url ∈ tables.frontier.urls)
    : url ∈ after.frontier.urls
      ∨ url ∈ after.visited
      ∨ statement = .deleteFromFrontier url := by
  cases statement with
  | deleteFromFrontier deleted =>
      obtain ⟨rfl, rfl⟩ := Prod.mk.inj (Option.some.inj ran)
      rcases mem_urls_deleteFromFrontier deleted listed with kept | rfl
      · exact .inl kept
      · exact .inr (.inr rfl)
  | clearProcessed =>
      simp only [run, Option.ite_none_right_eq_some] at ran
      obtain ⟨chosen, same⟩ := ran
      obtain ⟨rfl, rfl⟩ := Prod.mk.inj (Option.some.inj same)
      obtain ⟨row, member, rfl⟩ := List.mem_map.mp listed
      by_cases removed : row.id ∈ choice.ids
      · simp only [limits, Bool.and_eq_true, List.all_eq_true] at chosen
        have processed := of_decide_eq_true (chosen.1.2 row.id removed)
        have visited : row.url ∈ tables.visited := (mem_processedIds_iff member).mp processed
        exact .inr (.inl visited)
      · exact .inl (Frontier.mem_urls_filter.mpr ⟨row, member, by simpa using removed, rfl⟩)
  | saveNode page =>
      obtain ⟨rfl, rfl⟩ := Prod.mk.inj (Option.some.inj ran)
      rcases mem_urls_saveNode backend page choice.ftsFails listed with kept | same | same
      · exact .inl kept
      · exact .inr (.inl (visited_saveNode.mpr (.inl same)))
      · exact .inr (.inl (visited_saveNode.mpr (.inr (.inl same))))
  | insertFrontier item =>
      obtain ⟨rfl, rfl⟩ := Prod.mk.inj (Option.some.inj ran)
      exact .inl (Frontier.mem_urls_insert listed)
  | insertManyFrontier items =>
      obtain ⟨rfl, rfl⟩ := Prod.mk.inj (Option.some.inj ran)
      exact .inl (mem_urls_insertManyFrontier listed)
  | recrawlTargets limit =>
      simp only [run, Option.ite_none_right_eq_some] at ran
      obtain ⟨_, same⟩ := ran
      obtain ⟨rfl, rfl⟩ := Prod.mk.inj (Option.some.inj same)
      exact .inl listed
  | markVisited | getMinId | getBatch | isVisited | nodeCount | frontierCount | domainPop
  | domainCount =>
      obtain ⟨rfl, rfl⟩ := Prod.mk.inj (Option.some.inj ran)
      exact .inl listed

/-- A statement that runs returns a value of its kind. -/
theorem answers_run (ran : tables.run backend choice statement = some (after, value))
    : value.answers statement = true := by
  cases statement with
  | clearProcessed | recrawlTargets =>
      simp only [Tables.run, Option.ite_none_right_eq_some] at ran
      obtain ⟨_, same⟩ := ran
      obtain ⟨_, rfl⟩ := Prod.mk.inj (Option.some.inj same)
      rfl
  | _ =>
      obtain ⟨_, rfl⟩ := Prod.mk.inj (Option.some.inj ran)
      rfl

-----------------------------------------------------------------------------------------
-- The rows
-----------------------------------------------------------------------------------------

variable {row : FrontierRow}

/-- Queueing many adds their rows at most, by induction over them. -/
theorem mem_rows_insertManyFrontier {items : List FrontierItem}
    (member : row ∈ (tables.insertManyFrontier items).frontier.rows)
    : row ∈ tables.frontier.rows ∨ row.toFrontierItem ∈ items := by
  unfold insertManyFrontier at member
  induction items generalizing tables with
  | nil => exact .inl member
  | cons item rest ih =>
      rcases ih member with old | new
      · rcases Frontier.mem_rows_insert old with older | same
        · exact .inl older
        · exact .inr (same ▸ List.mem_cons_self)
      · exact .inr (List.mem_cons_of_mem _ new)

/-- Saving a page adds no row. -/
theorem mem_rows_saveNode {page : PageData} {ftsFails : Bool}
    (member : row ∈ (tables.saveNode backend page ftsFails).frontier.rows)
    : row ∈ tables.frontier.rows := by
  obtain ⟨settled, _, kept, ⟨_, rfl⟩ | rfl⟩ := saveNode_cases backend tables page ftsFails
  · rw [kept] at member
    exact List.mem_of_mem_filter member
  · rw [kept] at member
    exact List.mem_of_mem_filter (List.mem_of_mem_filter member)

/-- The rows after a statement are old ones and those that it inserts. -/
theorem mem_rows_run (ran : tables.run backend choice statement = some (after, value))
    (member : row ∈ after.frontier.rows)
    : row ∈ tables.frontier.rows ∨ row.toFrontierItem ∈ statement.inserts := by
  cases statement with
  | insertFrontier item =>
      obtain ⟨rfl, rfl⟩ := Prod.mk.inj (Option.some.inj ran)
      exact (Frontier.mem_rows_insert member).imp_right fun same =>
        List.mem_singleton.mpr same
  | insertManyFrontier items =>
      obtain ⟨rfl, rfl⟩ := Prod.mk.inj (Option.some.inj ran)
      exact mem_rows_insertManyFrontier member
  | deleteFromFrontier =>
      obtain ⟨rfl, rfl⟩ := Prod.mk.inj (Option.some.inj ran)
      exact .inl (List.mem_of_mem_filter member)
  | saveNode page =>
      obtain ⟨rfl, rfl⟩ := Prod.mk.inj (Option.some.inj ran)
      exact .inl (mem_rows_saveNode member)
  | clearProcessed | recrawlTargets =>
      simp only [run, Option.ite_none_right_eq_some] at ran
      obtain ⟨_, same⟩ := ran
      obtain ⟨rfl, rfl⟩ := Prod.mk.inj (Option.some.inj same)
      first | exact .inl member | exact .inl (List.mem_of_mem_filter member)
  | markVisited | getMinId | getBatch | isVisited | nodeCount | frontierCount | domainPop
  | domainCount =>
      obtain ⟨rfl, rfl⟩ := Prod.mk.inj (Option.some.inj ran)
      exact .inl member

/-- Queueing many draws new ids only, by induction over them. -/
theorem later_insertManyFrontier {items : List FrontierItem}
    : Frontier.Later tables.frontier (tables.insertManyFrontier items).frontier := by
  unfold insertManyFrontier
  induction items generalizing tables with
  | nil => exact .refl _
  | cons item rest ih =>
      have first := Frontier.Later.insert tables.frontier item
      exact first.trans (ih : Frontier.Later (tables.insertFrontier item).frontier _)

/-- A statement gives new rows new ids. -/
theorem later_run (ran : tables.run backend choice statement = some (after, value))
    : Frontier.Later tables.frontier after.frontier := by
  cases statement with
  | insertFrontier item =>
      obtain ⟨rfl, rfl⟩ := Prod.mk.inj (Option.some.inj ran)
      exact .insert tables.frontier item
  | insertManyFrontier items =>
      obtain ⟨rfl, rfl⟩ := Prod.mk.inj (Option.some.inj ran)
      exact later_insertManyFrontier
  | deleteFromFrontier =>
      obtain ⟨rfl, rfl⟩ := Prod.mk.inj (Option.some.inj ran)
      exact .filter tables.frontier _
  | saveNode page =>
      obtain ⟨rfl, rfl⟩ := Prod.mk.inj (Option.some.inj ran)
      obtain ⟨settled, _, kept, ⟨_, rfl⟩ | rfl⟩ :=
        saveNode_cases backend tables page choice.ftsFails
      · rw [kept]
        exact .filter tables.frontier _
      · rw [kept]
        exact (Frontier.Later.filter tables.frontier _).trans (.filter _ _)
  | clearProcessed | recrawlTargets =>
      simp only [run, Option.ite_none_right_eq_some] at ran
      obtain ⟨_, same⟩ := ran
      obtain ⟨rfl, rfl⟩ := Prod.mk.inj (Option.some.inj same)
      first | exact .refl _ | exact .filter tables.frontier _
  | markVisited | getMinId | getBatch | isVisited | nodeCount | frontierCount | domainPop
  | domainCount =>
      obtain ⟨rfl, rfl⟩ := Prod.mk.inj (Option.some.inj ran)
      exact .refl _

/-- A batch has every row of the frontier between the cursor and its own last row. -/
theorem mem_getBatch {cursor limit : Nat} {rows : List FrontierRow} {row last : FrontierRow}
    (ran : tables.run backend choice (.getBatch cursor limit) = some (after, .rows rows))
    (ends : last ∈ rows.getLast?) (member : row ∈ tables.frontier.rows)
    (above : cursor < row.id) (below : row.id ≤ last.id)
    : row ∈ rows := by
  obtain ⟨_, same⟩ := Prod.mk.inj (Option.some.inj ran)
  obtain rfl := Value.rows.inj same
  generalize candidates : (tables.frontier.rows.filter fun row => cursor < row.id) = passing
    at ends ⊢
  have sorted : passing.Pairwise fun left right => left.id < right.id := by
    rw [← candidates]
    exact (List.pairwise_map.mp tables.frontier.ids_sorted).filter _
  have listed : row ∈ passing := by
    rw [← candidates]
    exact List.mem_filter.mpr ⟨member, decide_eq_true above⟩
  rw [← List.take_append_drop limit passing] at sorted listed
  rcases List.mem_append.mp listed with taken | left
  · exact taken
  · have later := (List.pairwise_append.mp sorted).2.2 last (List.mem_of_mem_getLast? ends) row left
    omega

/-- The rows that a statement inserts are listed after it. -/
theorem mem_urls_of_inserts {item : FrontierItem}
    (ran : tables.run backend choice statement = some (after, value))
    (member : item ∈ statement.inserts)
    : item.url ∈ after.frontier.urls := by
  cases statement with
  | insertFrontier inserted =>
      obtain ⟨rfl, rfl⟩ := Prod.mk.inj (Option.some.inj ran)
      obtain rfl := List.mem_singleton.mp member
      exact Frontier.mem_urls_insert_self tables.frontier item
  | insertManyFrontier items =>
      obtain ⟨rfl, rfl⟩ := Prod.mk.inj (Option.some.inj ran)
      exact mem_urls_of_mem_items member
  | _ => cases member

/-- An address that is not visited is listed after a statement as the statement says. -/
theorem mem_urls_run_iff (ran : tables.run backend choice statement = some (after, value))
    (unvisited : url ∉ after.visited)
    : url ∈ after.frontier.urls
      ↔ statement.lists url (decide (url ∈ tables.frontier.urls)) = true := by
  by_cases deletes : ∃ deleted, statement = .deleteFromFrontier deleted
  · obtain ⟨deleted, rfl⟩ := deletes
    obtain ⟨rfl, rfl⟩ := Prod.mk.inj (Option.some.inj ran)
    simp only [Statement.lists, Bool.and_eq_true, decide_eq_true_eq]
    constructor
    · intro listed
      obtain ⟨row, member, kept, rfl⟩ := Frontier.mem_urls_filter.mp listed
      exact ⟨List.mem_map_of_mem member, Ne.symm (of_decide_eq_true kept)⟩
    · rintro ⟨listed, other⟩
      exact (mem_urls_deleteFromFrontier deleted listed).resolve_right (Ne.symm other)
  · have lists : statement.lists url (decide (url ∈ tables.frontier.urls)) = true
        ↔ url ∈ tables.frontier.urls ∨ url ∈ statement.inserts.map FrontierItem.url := by
      cases statement with
      | deleteFromFrontier deleted => exact absurd ⟨deleted, rfl⟩ deletes
      | _ => simp only [Statement.lists, Bool.or_eq_true, decide_eq_true_eq]
    rw [lists]
    constructor
    · intro listed
      obtain ⟨row, member, rfl⟩ := List.mem_map.mp listed
      rcases mem_rows_run ran member with old | new
      · exact .inl (List.mem_map_of_mem old)
      · exact .inr (List.mem_map_of_mem new)
    · rintro (listed | inserted)
      · rcases mem_urls_run ran listed with kept | visited | deleted
        · exact kept
        · exact absurd visited unvisited
        · exact absurd ⟨url, deleted⟩ deletes
      · obtain ⟨item, member, rfl⟩ := List.mem_map.mp inserted
        exact mem_urls_of_inserts ran member

/-- Queueing many writes no page, by induction over them. -/
theorem nodes_insertManyFrontier {items : List FrontierItem}
    : (tables.insertManyFrontier items).nodes = tables.nodes := by
  unfold insertManyFrontier
  induction items generalizing tables with
  | nil => rfl
  | cons item rest ih => exact (ih : _ = (tables.insertFrontier item).nodes)

/-- A statement writes the page that it saves, and no other. -/
theorem nodes_run (ran : tables.run backend choice statement = some (after, value))
    : after.nodes = tables.nodes
      ∨ ∃ page,
          statement = .saveNode page
          ∧ after.nodes = tables.nodes.set page.url (nodeRow page) := by
  cases statement with
  | saveNode page =>
      obtain ⟨rfl, rfl⟩ := Prod.mk.inj (Option.some.inj ran)
      exact .inr ⟨page, rfl, nodes_saveNode⟩
  | insertManyFrontier items =>
      obtain ⟨rfl, rfl⟩ := Prod.mk.inj (Option.some.inj ran)
      exact .inl nodes_insertManyFrontier
  | clearProcessed | recrawlTargets =>
      simp only [run, Option.ite_none_right_eq_some] at ran
      obtain ⟨_, same⟩ := ran
      obtain ⟨rfl, rfl⟩ := Prod.mk.inj (Option.some.inj same)
      exact .inl rfl
  | insertFrontier | deleteFromFrontier | markVisited | getMinId | getBatch | isVisited
  | nodeCount | frontierCount | domainPop | domainCount =>
      obtain ⟨rfl, rfl⟩ := Prod.mk.inj (Option.some.inj ran)
      exact .inl rfl

/-- Saved pages stay. -/
theorem mem_keys_run (ran : tables.run backend choice statement = some (after, value))
    (saved : url ∈ tables.nodes.keys)
    : url ∈ after.nodes.keys := by
  rcases nodes_run ran with same | ⟨page, _, written⟩
  · exact same ▸ saved
  · rw [written, InsertionMap.mem_keys_set]
    exact .inr saved

/-- A batch consists of rows of the frontier. -/
theorem rows_getBatch {cursor limit : Nat} {rows : List FrontierRow}
    (ran : tables.run backend choice (.getBatch cursor limit) = some (after, .rows rows))
    (member : row ∈ rows)
    : row ∈ tables.frontier.rows := by
  obtain ⟨_, same⟩ := Prod.mk.inj (Option.some.inj ran)
  obtain rfl := Value.rows.inj same
  exact List.mem_of_mem_filter (List.mem_of_mem_take member)

/-- The pages to re-crawl are saved ones. -/
theorem urls_recrawlTargets {limit : Nat} {urls : List String}
    (ran : tables.run backend choice (.recrawlTargets limit) = some (after, .urls urls))
    (member : url ∈ urls)
    : url ∈ tables.nodes.keys := by
  simp only [run, Option.ite_none_right_eq_some, limits, Bool.and_eq_true,
    List.all_eq_true] at ran
  obtain ⟨chosen, same⟩ := ran
  obtain ⟨_, same⟩ := Prod.mk.inj (Option.some.inj same)
  obtain rfl := Value.urls.inj same
  exact of_decide_eq_true (chosen.1.2 url member)

end Tables

end WebIndexer.Store
