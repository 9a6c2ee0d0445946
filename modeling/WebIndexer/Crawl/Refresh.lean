import WebIndexer.Crawl.State
import WebIndexer.Runtime.Number

/-! The refreshed counts of `CrawlState` and `PgCrawlState`. SQLite's driver returns a count as
a number and PostgreSQL's as a decimal string, which `PgCrawlState` converts everywhere but in
`domainPop`.
-/

namespace WebIndexer.Crawl

open WebIndexer.Config
open WebIndexer.Library
open WebIndexer.Runtime
open WebIndexer.Store

-----------------------------------------------------------------------------------------
-- What the databases and their drivers answer
-----------------------------------------------------------------------------------------

/-- What a database may answer to the two statements that group `nodes` by domain. Their
groups come in any order, and those that `domainPop` orders by count in any order of the equal
ones.
-/
structure Groups (tables : Tables) where
  domainPop : List (String × Nat)
  domainCount : List (String × Nat)
  popped
    : ∃ sorted : List (String × Nat),
        sorted.Perm tables.domainCount
        ∧ sorted.Pairwise (fun left right => right.2 ≤ left.2)
        ∧ domainPop = sorted.take 20
  counted : domainCount.Perm tables.domainCount

/-- The order that the modelled statements answer in. -/
def Groups.ofTables (tables : Tables) : Groups tables where
  domainPop := tables.domainPop
  domainCount := tables.domainCount
  popped := by
    refine ⟨_, List.mergeSort_perm .., ?_, rfl⟩
    refine (List.pairwise_mergeSort ?_ ?_ tables.domainCount).imp of_decide_eq_true
    · intro _ _ _ first second
      exact decide_eq_true (Nat.le_trans (of_decide_eq_true second) (of_decide_eq_true first))
    · intro left right
      rw [Bool.or_eq_true, decide_eq_true_eq, decide_eq_true_eq]
      exact Nat.le_total right.2 left.2
  counted := .refl _

/-- The column `c` of a count, as the driver of a backend returns it. -/
def column (backend : Backend) (count : Nat) : Cell :=
  match backend with
  | .sqlite => .number count
  | .pg => .string (toString count)

/-- The rows of groups, as the driver of a backend returns them. -/
def columns (backend : Backend) (groups : List (String × Nat)) : List (String × Cell) :=
  groups.map fun group => (group.1, column backend group.2)

-----------------------------------------------------------------------------------------
-- The two classes
-----------------------------------------------------------------------------------------

/-- The fields of a crawl state that its refreshes write. -/
structure Counts where
  nodeCount : Cell
  frontierCount : Cell
  domainPop : List (String × Cell)
  domainNodeCount : InsertionMap String Cell

variable {tables : Tables}

/-- `CrawlState.refresh`. -/
def CrawlState.refresh (groups : Groups tables) (counts : Counts) : Counts := {
  counts with
  nodeCount := column .sqlite tables.nodes.size
  frontierCount := column .sqlite tables.frontier.rows.length
  domainPop := columns .sqlite groups.domainPop
}

/-- `CrawlState.fullRefresh`. -/
def CrawlState.fullRefresh (groups : Groups tables) (counts : Counts) : Counts := {
  CrawlState.refresh groups counts with
  domainNodeCount := (columns .sqlite groups.domainCount).foldl
    (fun map row => map.set row.1 row.2) InsertionMap.empty
}

/-- `PgCrawlState.refresh`. -/
def PgCrawlState.refresh (groups : Groups tables) (counts : Counts) : Counts := {
  counts with
  nodeCount := (column .pg tables.nodes.size).parse
  frontierCount := (column .pg tables.frontier.rows.length).parse
  domainPop := columns .pg groups.domainPop
}

/-- `PgCrawlState.fullRefresh`. -/
def PgCrawlState.fullRefresh (groups : Groups tables) (counts : Counts) : Counts := {
  PgCrawlState.refresh groups counts with
  domainNodeCount := (columns .pg groups.domainCount).foldl
    (fun map row => map.set row.1 row.2.parse) InsertionMap.empty
}

/-- The `pop` of the next saved page of a domain. -/
def Counts.pop (counts : Counts) (domain : String) : Cell :=
  match counts.domainPop.find? fun row => row.1 = domain with
  | some row => row.2.orZero.plusOne
  | none => (Cell.number 0).plusOne

/-- The constructor of either class. -/
def Counts.initial : Counts := ⟨.number 0, .number 0, [], InsertionMap.empty⟩

/-- The two maps of earlier full refreshes hold the same numbers. -/
def Counts.SameDomainCounts (sqlite pg : Counts) : Prop :=
  ∀ domain,
    (sqlite.domainNodeCount.get? domain).bind Cell.value
      = (pg.domainNodeCount.get? domain).bind Cell.value

/-- The two states hold the same counts as numbers, and compute the same popularity. -/
structure Counts.Agree (sqlite pg : Counts) : Prop where
  nodeCount : sqlite.nodeCount.value = pg.nodeCount.value
  frontierCount : sqlite.frontierCount.value = pg.frontierCount.value
  domainPop
    : sqlite.domainPop.map (fun row => (row.1, row.2.value))
      = pg.domainPop.map fun row => (row.1, row.2.value)
  domainNodeCount : sqlite.SameDomainCounts pg
  pop : ∀ domain, (sqlite.pop domain).value = (pg.pop domain).value

-----------------------------------------------------------------------------------------
-- Counts of domains
-----------------------------------------------------------------------------------------

/-- A list without its repetitions has none, by induction on its length. -/
theorem nodup_eraseDups (items : List String) : items.eraseDups.Nodup := by
  induction length : items.length using Nat.strongRecOn generalizing items with
  | ind size ih =>
      cases items with
      | nil => exact .nil
      | cons item rest =>
          rw [List.eraseDups_cons]
          refine List.nodup_cons.mpr ⟨?_, ?_⟩
          · simp [List.mem_eraseDups]
          · have shorter := List.length_filter_le (fun other => !other == item) rest
            refine ih _ ?_ _ rfl
            simp only [List.length_cons] at length
            omega

/-- Each domain is counted once. -/
theorem nodup_domainCount (tables : Tables) : (tables.domainCount.map Prod.fst).Nodup := by
  unfold Tables.domainCount
  rw [List.map_map]
  exact (List.map_id _).symm ▸ nodup_eraseDups _

/-- A domain that is counted has a row. -/
theorem pos_of_mem_domainCount {domain : String} {count : Nat}
    (member : (domain, count) ∈ tables.domainCount)
    : 0 < count := by
  obtain ⟨_, listed, same⟩ := List.mem_map.mp member
  obtain ⟨rfl, rfl⟩ := Prod.mk.inj same
  exact List.count_pos_iff.mpr (List.mem_eraseDups.mp listed)

/-- No domain is counted exactly when there are no rows. -/
theorem domainCount_eq_nil_iff : tables.domainCount = [] ↔ tables.nodes.entries = [] := by
  unfold Tables.domainCount
  rw [List.map_eq_nil_iff]
  cases tables.nodes.entries with
  | nil => simp
  | cons entry rest => simp [List.eraseDups_cons]

/-- A domain among the most frequent ones is counted. -/
theorem Groups.mem_domainCount {groups : Groups tables} {group : String × Nat}
    (member : group ∈ groups.domainPop)
    : group ∈ tables.domainCount := by
  obtain ⟨sorted, perm, _, top⟩ := groups.popped
  rw [top] at member
  exact perm.mem_iff.mp (List.mem_of_mem_take member)

/-- A database with rows has a most frequent domain. -/
theorem Groups.domainPop_ne_nil (groups : Groups tables) (rows : tables.nodes.entries ≠ [])
    : groups.domainPop ≠ [] := by
  obtain ⟨sorted, perm, _, top⟩ := groups.popped
  intro none
  rw [top, List.take_eq_nil_iff] at none
  have empty : sorted = [] := none.resolve_left (by decide)
  rw [empty] at perm
  exact rows (domainCount_eq_nil_iff.mp perm.symm.eq_nil)

/-- A database without rows has none. -/
theorem Groups.domainPop_eq_nil (groups : Groups tables) (none : tables.nodes.entries = [])
    : groups.domainPop = [] := by
  apply List.eq_nil_iff_forall_not_mem.mpr
  intro group member
  have counted := groups.mem_domainCount member
  rw [domainCount_eq_nil_iff.mpr none] at counted
  cases counted

-----------------------------------------------------------------------------------------
-- The counts that agree
-----------------------------------------------------------------------------------------

/-- A converted count is the number that it stands for. -/
@[simp] theorem parse_column_pg (count : Nat) : (column .pg count).parse = .number count := by
  simp [column, Cell.parse, Cell.text]

/-- The map of `fullRefresh` finds exactly the groups that were read. -/
theorem get?_foldl_set {groups : List (String × Nat)} {domain : String} {cell : Cell}
    (distinct : (groups.map Prod.fst).Nodup)
    : ((groups.map fun group => (group.1, Cell.number group.2)).foldl
          (fun map row => map.set row.1 row.2) InsertionMap.empty).get? domain = some cell
      ↔ ∃ count, (domain, count) ∈ groups ∧ cell = .number count := by
  have fresh : ((InsertionMap.empty : InsertionMap String Cell).keys
      ++ (groups.map fun group => (group.1, Cell.number group.2)).map Prod.fst).Nodup := by
    simpa [InsertionMap.keys, InsertionMap.empty, Function.comp_def] using distinct
  rw [InsertionMap.get?_eq_some_iff, InsertionMap.entries_foldl_set fresh]
  simp [InsertionMap.empty, eq_comm]

/-- The states find the same count for each domain after a full refresh. -/
theorem domainNodeCount_fullRefresh {sqliteGroups pgGroups : Groups tables}
    (sqlite pg : Counts) (domain : String)
    : (CrawlState.fullRefresh sqliteGroups sqlite).domainNodeCount.get? domain
      = (PgCrawlState.fullRefresh pgGroups pg).domainNodeCount.get? domain := by
  have converted : (PgCrawlState.fullRefresh pgGroups pg).domainNodeCount
      = (pgGroups.domainCount.map fun group => (group.1, Cell.number group.2)).foldl
          (fun map row => map.set row.1 row.2) InsertionMap.empty := by
    simp only [PgCrawlState.fullRefresh, columns, List.foldl_map, parse_column_pg]
  have sqliteDistinct : (sqliteGroups.domainCount.map Prod.fst).Nodup :=
    (sqliteGroups.counted.map _).nodup_iff.mpr (nodup_domainCount tables)
  have pgDistinct : (pgGroups.domainCount.map Prod.fst).Nodup :=
    (pgGroups.counted.map _).nodup_iff.mpr (nodup_domainCount tables)
  have same (group : String × Nat)
      : group ∈ sqliteGroups.domainCount ↔ group ∈ pgGroups.domainCount :=
    (sqliteGroups.counted.trans pgGroups.counted.symm).mem_iff
  rw [converted]
  apply Option.ext
  intro cell
  refine (get?_foldl_set sqliteDistinct).trans ((exists_congr fun count => ?_).trans
    (get?_foldl_set pgDistinct).symm)
  exact and_congr_left fun _ => same (domain, count)

-----------------------------------------------------------------------------------------
-- Popularity
-----------------------------------------------------------------------------------------

/-- The popularity that a state computes is that of the modelled crawl. -/
theorem value_pop (backend : Backend) (counts : Counts) (state : CrawlState)
    (read : counts.domainPop = columns backend state.domainPop) (domain : String)
    : (counts.pop domain).value = some (state.popularity backend domain) := by
  unfold Counts.pop CrawlState.popularity
  rw [read, columns, List.find?_map]
  simp only [Function.comp_def]
  cases state.domainPop.find? fun group => group.1 = domain with
  | none => rfl
  | some group =>
      cases backend with
      | sqlite => rfl
      | pg => simp [column, Cell.orZero, Cell.plusOne, Cell.value]

/-- A crawl state that has read the given groups. -/
def groupsRead (groups : Groups tables) : CrawlState :=
  .load 0 0 groups.domainPop fun _ => 0

/-- A counted domain has one count. -/
theorem count_unique {domain : String} {count other : Nat}
    (first : (domain, count) ∈ tables.domainCount)
    (second : (domain, other) ∈ tables.domainCount)
    : count = other :=
  congrArg Prod.snd (List.inj_on_of_nodup_map (nodup_domainCount tables) first second rfl)

/-- The group that is found for a domain among the most frequent ones counts it. -/
theorem Groups.mem_of_find? {groups : Groups tables} {domain : String} {group : String × Nat}
    (found : (groups.domainPop.find? fun group => group.1 = domain) = some group)
    : (domain, group.2) ∈ tables.domainCount := by
  have same : group.1 = domain := by simpa using List.find?_some found
  have counted := groups.mem_domainCount (List.mem_of_find?_eq_some found)
  rw [← same]
  exact counted

/-- A database with rows has a domain of another popularity on the other backend: its count
has a digit appended instead of being increased.
-/
theorem exists_popularity_ne (sqliteGroups pgGroups : Groups tables)
    (rows : tables.nodes.entries ≠ [])
    : ∃ domain,
        (groupsRead sqliteGroups).popularity .sqlite domain
          ≠ (groupsRead pgGroups).popularity .pg domain := by
  obtain ⟨⟨domain, _⟩, member⟩ :=
    List.exists_mem_of_ne_nil _ (pgGroups.domainPop_ne_nil rows)
  have found : (pgGroups.domainPop.find? fun group => group.1 = domain).isSome :=
    List.find?_isSome.mpr ⟨_, member, decide_eq_true rfl⟩
  obtain ⟨group, found⟩ := Option.isSome_iff_exists.mp found
  have counted := Groups.mem_of_find? found
  have positive : 0 < group.2 := pos_of_mem_domainCount counted
  refine ⟨domain, ?_⟩
  unfold CrawlState.popularity groupsRead CrawlState.load
  simp only [found]
  cases other : sqliteGroups.domainPop.find? _ with
  | none => simp only; omega
  | some otherGroup =>
      have same : otherGroup.2 = group.2 := count_unique (Groups.mem_of_find? other) counted
      simp only
      omega

/-- States whose most frequent domains were read from rows compute different popularities. -/
theorem Counts.Agree.no_rows {sqliteGroups pgGroups : Groups tables} {sqlite pg : Counts}
    (agree : sqlite.Agree pg)
    (sqliteRead : sqlite.domainPop = columns .sqlite sqliteGroups.domainPop)
    (pgRead : pg.domainPop = columns .pg pgGroups.domainPop)
    : tables.nodes.entries = [] := by
  by_contra rows
  obtain ⟨domain, differs⟩ := exists_popularity_ne sqliteGroups pgGroups rows
  have same := agree.pop domain
  rw [value_pop .sqlite sqlite (groupsRead sqliteGroups) sqliteRead,
    value_pop .pg pg (groupsRead pgGroups) pgRead] at same
  exact differs (Option.some.inj same)

/-- Without rows a refresh makes the states agree, if their maps did. -/
theorem agree_refresh {sqliteGroups pgGroups : Groups tables} {sqlite pg : Counts}
    (none : tables.nodes.entries = []) (same : sqlite.SameDomainCounts pg)
    : (CrawlState.refresh sqliteGroups sqlite).Agree (PgCrawlState.refresh pgGroups pg) where
  nodeCount := congrArg Cell.value (parse_column_pg tables.nodes.size).symm
  frontierCount := congrArg Cell.value (parse_column_pg tables.frontier.rows.length).symm
  domainPop := by
    simp [CrawlState.refresh, PgCrawlState.refresh, columns, Groups.domainPop_eq_nil _ none]
  domainNodeCount := same
  pop domain := by
    simp [Counts.pop, CrawlState.refresh, PgCrawlState.refresh, columns,
      Groups.domainPop_eq_nil _ none]

/-- After a refresh the two states agree, as numbers and in the popularity of every domain,
exactly when `nodes` has no rows, and so they do after a full refresh.
-/
theorem crawlStates_agree_iff (sqliteGroups pgGroups : Groups tables) (sqlite pg : Counts)
    (same : sqlite.SameDomainCounts pg)
    : ((CrawlState.refresh sqliteGroups sqlite).Agree (PgCrawlState.refresh pgGroups pg)
        ↔ tables.nodes.entries = [])
      ∧ ((CrawlState.fullRefresh sqliteGroups sqlite).Agree
            (PgCrawlState.fullRefresh pgGroups pg)
          ↔ tables.nodes.entries = []) := by
  constructor
  · constructor
    · intro agree
      exact agree.no_rows rfl rfl
    · intro none
      exact agree_refresh none same
  · constructor
    · intro agree
      exact agree.no_rows rfl rfl
    · intro none
      have refreshed : (CrawlState.refresh sqliteGroups sqlite).Agree
          (PgCrawlState.refresh pgGroups pg) :=
        agree_refresh none same
      exact {
        nodeCount := refreshed.nodeCount
        frontierCount := refreshed.frontierCount
        domainPop := refreshed.domainPop
        domainNodeCount := fun domain =>
          congrArg (Option.bind · Cell.value) (domainNodeCount_fullRefresh sqlite pg domain)
        pop := refreshed.pop
      }

/-- New states agree on a new database. -/
theorem crawlStates_agree_on_no_rows
    : (CrawlState.fullRefresh (.ofTables .empty) .initial).Agree
        (PgCrawlState.fullRefresh (.ofTables .empty) .initial) :=
  (crawlStates_agree_iff (.ofTables .empty) (.ofTables .empty) .initial .initial
    fun _ => rfl).2.mpr rfl

/-- A database with one page. -/
def onePage : Tables := Tables.empty.upsertNode
  ⟨"https://a.example/", "", "", "a.example", 0, none, 1, "", 1, "", "", "", 0, 0,
    "https://a.example/"⟩

/-- With one page of a domain, its next page has popularity 2 on one backend, 11 on the other.
-/
theorem crawlStates_disagree_on_one_page
    : ¬ ∀ (tables : Tables) (sqliteGroups pgGroups : Groups tables),
        (CrawlState.refresh sqliteGroups .initial).Agree
          (PgCrawlState.refresh pgGroups .initial) := by
  intro claim
  have same := (claim onePage (.ofTables _) (.ofTables _)).pop "a.example"
  exact absurd same (by decide +kernel)

end WebIndexer.Crawl
