import WebIndexer.Runtime.Number
import WebIndexer.Store.Effects

/-! `cleanupFrontier` of `src/queue.ts`, with the `db` object that `createBackend` of
`src/db-adapter.ts` returns. No statement fails and nothing else writes, so that the retries are
left out.
-/

namespace WebIndexer.Store

open WebIndexer.Config
open WebIndexer.Library

/-- The texts that `cleanupFrontier` passes to `db.exec`. -/
inductive Sql where
  | deleteFrontier
  | dropFrontier
  | createFrontier
  | createFrontierIndex
  deriving DecidableEq

/-- What the SQLite database does for a text, to a table that may be missing. A new table starts
its sequence again.
-/
def Sql.run (sql : Sql) (frontier : Option Frontier) : Option Frontier :=
  match sql with
  | .deleteFrontier => frontier.map fun table => table.filter fun _ => false
  | .dropFrontier => none
  | .createFrontier => some (frontier.getD .empty)
  | .createFrontierIndex => frontier

/-- `db.exec`: `wrapSyncDb` runs the text, while the object for PostgreSQL has a stub. -/
def exec (backend : Backend) (frontier : Option Frontier) (sql : Sql) : Option Frontier :=
  match backend with
  | .sqlite => sql.run frontier
  | .pg => frontier

/-- The rows that each run of the cleanup query deletes, by their ids: the query has a `LIMIT`
without an order, so the database chooses.
-/
structure Planner where
  chosen : Nat → Tables → List Nat
  chosen_limits
    : ∀ batch tables, limits tables.processedIds 50000 (chosen batch tables) = true

namespace Tables

/-- `DELETE FROM frontier WHERE id IN (...)`. -/
def deleteIds (tables : Tables) (ids : List Nat) : Tables :=
  { tables with frontier := tables.frontier.filter fun row => row.id ∉ ids }

/-- The branch for a frontier that is too large. -/
def resetFrontier (backend : Backend) (tables : Tables) : Option Tables :=
  let texts : List Sql :=
    match backend with
    | .pg => [.deleteFrontier]
    | .sqlite => [.dropFrontier, .createFrontier, .createFrontierIndex]
  (texts.foldl (exec backend) (some tables.frontier)).map fun frontier =>
    { tables with frontier := frontier }

/-- `cleaned.changes` after one run of the cleanup query. The wrapped statement of SQLite returns
a promise, which the loop does not await and which has no such property.
-/
def cleanedChanges (backend : Backend) (tables : Tables) (ids : List Nat) : Option Nat :=
  match backend with
  | .pg => some (tables.frontier.rows.countP fun row => row.id ∈ ids)
  | .sqlite => none

/-- The loop of the other branch, with the number of rounds that it may take at most. A missing
property is not greater than zero.
-/
def cleanVisited (backend : Backend) (planner : Planner) (tables : Tables) (batch : Nat)
    : Nat → Option Tables
  | 0 => none
  | fuel + 1 =>
      let ids := planner.chosen batch tables
      if 0 < (tables.cleanedChanges backend ids).getD 0 then
        (tables.deleteIds ids).cleanVisited backend planner (batch + 1) fuel
      else
        some (tables.deleteIds ids)

/-- `cleanupFrontier`, or nothing when the loop goes on after that many rounds. -/
def cleanupFrontier (backend : Backend) (planner : Planner) (tables : Tables) (fCount fuel : Nat)
    : Option Tables :=
  if frontierMax < fCount then
    tables.resetFrontier backend
  else
    tables.cleanVisited backend planner 0 fuel

/-- What the cleanup is for: a frontier that was too large is empty afterwards, any other has
lost the rows whose address is visited; the other tables are unchanged.
-/
def CleanedUp (before after : Tables) (fCount : Nat) : Prop :=
  after.nodes = before.nodes
  ∧ after.visited = before.visited
  ∧ after.frontier.rows
      = if frontierMax < fCount then
          []
        else
          before.frontier.rows.filter fun row => row.url ∉ before.visited

/-- The tables without the frontier rows whose address is visited. -/
def withoutVisited (tables : Tables) : Tables :=
  { tables with frontier := tables.frontier.filter fun row => row.url ∉ tables.visited }

variable {tables : Tables} {planner : Planner} {backend : Backend}

/-- The frontier of the tables may be replaced by one with the same rows and sequence. -/
theorem frontier_congr {left right : Frontier} (rows : left.rows = right.rows)
    (nextId : left.nextId = right.nextId)
    : { tables with frontier := left } = { tables with frontier := right } := by
  cases left
  cases right
  simp_all

/-- A row that the planner chooses has a visited address. -/
theorem visited_of_chosen {row : FrontierRow} {batch : Nat}
    (member : row ∈ tables.frontier.rows) (chosen : row.id ∈ planner.chosen batch tables)
    : row.url ∈ tables.visited := by
  have limits := planner.chosen_limits batch tables
  simp only [Store.limits, Bool.and_eq_true, List.all_eq_true] at limits
  exact (mem_processedIds_iff member).mp (of_decide_eq_true (limits.1.2 _ chosen))

/-- Deleting chosen rows does not change which rows are left in the end. -/
theorem withoutVisited_deleteIds (planner : Planner) (batch : Nat) (tables : Tables)
    : (tables.deleteIds (planner.chosen batch tables)).withoutVisited
      = tables.withoutVisited := by
  refine frontier_congr ?_ rfl
  simp only [deleteIds, Frontier.filter, List.filter_filter]
  refine List.filter_congr fun row member => ?_
  by_cases visited : row.url ∈ tables.visited
  · simp [visited]
  · have kept : row.id ∉ planner.chosen batch tables :=
      fun chosen => visited (visited_of_chosen member chosen)
    simp [visited, kept]

/-- When a batch can hold all processed rows, it removes them all. -/
theorem deleteIds_of_few {batch : Nat} (few : tables.processedIds.length ≤ 50000)
    : tables.deleteIds (planner.chosen batch tables) = tables.withoutVisited := by
  refine frontier_congr ?_ rfl
  simp only [Frontier.filter]
  refine List.filter_congr fun row member => decide_eq_decide.mpr (not_congr ?_)
  exact (mem_chosen_of_limits few (planner.chosen_limits batch tables)).trans
    (mem_processedIds_iff member)

/-- There are no more processed rows than rows. -/
theorem length_processedIds_le (tables : Tables)
    : tables.processedIds.length ≤ tables.frontier.rows.length := by
  rw [processedIds, List.length_map]
  exact List.length_filter_le ..

/-- A batch that deletes a row leaves fewer processed ones. -/
theorem length_processedIds_deleteIds_lt {ids : List Nat} {row : FrontierRow}
    (member : row ∈ tables.frontier.rows) (visited : row.url ∈ tables.visited)
    (removed : row.id ∈ ids)
    : (tables.deleteIds ids).processedIds.length < tables.processedIds.length := by
  have fewer
      : (tables.deleteIds ids).processedIds
        = tables.processedIds.filter fun id => id ∉ ids := by
    simp only [processedIds, deleteIds, Frontier.filter, List.filter_map, List.filter_filter]
    congr 2
    funext row
    exact Bool.and_comm ..
  rw [fewer, List.length_filter_lt_length_iff_exists]
  exact ⟨row.id, (mem_processedIds_iff member).mpr visited, by simpa using removed⟩

/-- A batch of PostgreSQL that deletes some row deletes a visited one. -/
theorem exists_removed_of_changes {ids : List Nat}
    (changes : 0 < (tables.cleanedChanges .pg ids).getD 0)
    : ∃ row ∈ tables.frontier.rows, row.id ∈ ids := by
  obtain ⟨row, member, removed⟩ := List.countP_pos_iff.mp changes
  exact ⟨row, member, of_decide_eq_true removed⟩

/-- A batch of PostgreSQL that deletes no row had none to delete. -/
theorem processedIds_eq_nil_of_changes {batch : Nat}
    (changes : ¬ 0 < (tables.cleanedChanges .pg (planner.chosen batch tables)).getD 0)
    : tables.processedIds = [] := by
  have limits := planner.chosen_limits batch tables
  simp only [Store.limits, Bool.and_eq_true, List.all_eq_true, decide_eq_true_eq] at limits
  obtain ⟨⟨_, among⟩, count⟩ := limits
  have none_ : planner.chosen batch tables = [] := by
    refine List.eq_nil_iff_forall_not_mem.mpr fun id chosen => changes ?_
    obtain ⟨row, processed, rfl⟩ := List.mem_map.mp (among id chosen)
    exact List.countP_pos_iff.mpr
      ⟨row, List.mem_of_mem_filter processed, decide_eq_true chosen⟩
  rw [none_, List.length_nil] at count
  exact List.length_eq_zero_iff.mp (by omega)

/-- On PostgreSQL the loop ends, with all visited rows removed, by induction on the rounds: each
but the last leaves fewer processed rows.
-/
theorem cleanVisited_pg {fuel : Nat} (enough : tables.processedIds.length < fuel) (batch : Nat)
    : tables.cleanVisited .pg planner batch fuel = some tables.withoutVisited := by
  induction fuel generalizing tables batch with
  | zero => exact absurd enough (Nat.not_lt_zero _)
  | succ fuel ih =>
      unfold cleanVisited
      by_cases changes : 0 < (tables.cleanedChanges .pg (planner.chosen batch tables)).getD 0
      · obtain ⟨row, member, removed⟩ := exists_removed_of_changes changes
        have visited := visited_of_chosen member removed
        have fewer := length_processedIds_deleteIds_lt member visited removed
        rw [if_pos changes, ih (by omega), withoutVisited_deleteIds]
      · rw [if_neg changes, deleteIds_of_few]
        simp [processedIds_eq_nil_of_changes changes]

/-- On SQLite the loop ends after one round, since a promise has no `changes`. -/
theorem cleanVisited_sqlite (fuel batch : Nat)
    : tables.cleanVisited .sqlite planner batch (fuel + 1)
      = some (tables.deleteIds (planner.chosen batch tables)) :=
  rfl

/-- A frontier that is not too large loses its visited rows, on either backend: one batch can
hold them all, so the one round of SQLite is enough.
-/
theorem cleanVisited_spec (backend : Backend) (planner : Planner) {fuel : Nat}
    (small : tables.frontier.rows.length ≤ frontierMax)
    (enough : tables.frontier.rows.length < fuel)
    : tables.cleanVisited backend planner 0 fuel = some tables.withoutVisited := by
  have few := tables.length_processedIds_le
  cases backend with
  | pg => exact cleanVisited_pg (by omega) 0
  | sqlite =>
      obtain ⟨fuel, rfl⟩ := Nat.exists_eq_succ_of_ne_zero (Nat.ne_of_gt (Nat.zero_lt_of_lt enough))
      rw [Nat.succ_eq_add_one, cleanVisited_sqlite, deleteIds_of_few (Nat.le_trans few small)]

/-- On SQLite a frontier that is too large is dropped and made anew; on PostgreSQL the stub
leaves it as it is.
-/
theorem resetFrontier_eq (backend : Backend) (tables : Tables)
    : tables.resetFrontier backend
      = some (match backend with
          | .sqlite => { tables with frontier := .empty }
          | .pg => tables) := by
  cases backend <;> rfl

/-- The cleanup ends on either backend, and does what it is for unless the backend is PostgreSQL
and the frontier is too large.
-/
theorem cleanupFrontier_cleans_iff (backend : Backend) (planner : Planner) (tables : Tables)
    : (∃ after,
        (∀ fuel,
          tables.frontier.rows.length < fuel
          → tables.cleanupFrontier backend planner tables.frontier.rows.length fuel = some after)
        ∧ CleanedUp tables after tables.frontier.rows.length)
      ↔ backend = .sqlite ∨ tables.frontier.rows.length ≤ frontierMax := by
  by_cases large : frontierMax < tables.frontier.rows.length
  · have kept : tables.frontier.rows ≠ [] := by
      intro none_
      simp [none_] at large
    simp only [cleanupFrontier, CleanedUp, if_pos large, resetFrontier_eq, Nat.not_le.mpr large,
      or_false]
    cases backend with
    | sqlite => exact iff_of_true ⟨_, fun _ _ => rfl, rfl, rfl, rfl⟩ rfl
    | pg =>
        refine iff_of_false ?_ nofun
        rintro ⟨after, ends, _, _, empty⟩
        obtain rfl := Option.some.inj (ends _ (Nat.lt_succ_self _))
        exact kept empty
  · have small := Nat.not_lt.mp large
    refine iff_of_true ⟨tables.withoutVisited, fun fuel enough => ?_, rfl, rfl, ?_⟩ (.inr small)
    · rw [cleanupFrontier, if_neg large]
      exact cleanVisited_spec backend planner small enough
    · rw [if_neg large]
      rfl

/-- A database that deletes the oldest rows first. -/
def oldestFirst : Planner where
  chosen _ tables := tables.processedIds.take 50000
  chosen_limits _ tables := by
    have sorted : tables.processedIds.Pairwise (· < ·) :=
      tables.frontier.ids_sorted.sublist (List.filter_sublist.map _)
    have distinct : (tables.processedIds.take 50000).Nodup :=
      (sorted.sublist (List.take_sublist ..)).imp Nat.ne_of_lt
    simp only [limits, Bool.and_eq_true, decide_eq_true_eq, List.all_eq_true]
    exact ⟨⟨distinct, fun _ => List.mem_of_mem_take⟩, List.length_take⟩

/-- Tables whose frontier has as many rows as given, and no page. -/
def backlog (count : Nat) : Tables where
  nodes := .empty
  visited := .empty
  frontier := {
    rows := (List.range count).map fun number => ⟨⟨number.repr, 0, none⟩, number⟩
    nextId := count
    urls_nodup := by
      rw [List.map_map]
      exact List.nodup_range.map Runtime.repr_injective
    ids_sorted := by
      have ids : FrontierRow.id ∘ (fun number => ⟨⟨number.repr, 0, none⟩, number⟩) = id := rfl
      rw [List.map_map, ids, List.map_id]
      exact List.pairwise_lt_range
    ids_lt := by simp
  }
  nodesFts := []

/-- On PostgreSQL a frontier with one row more than it may have keeps all its rows: `db.exec` does
nothing.
-/
theorem cleanupFrontier_fails_for_backlog
    : ¬ ∀ (backend : Backend) (planner : Planner) (tables : Tables),
        ∃ after,
          (∀ fuel,
            tables.frontier.rows.length < fuel
            → tables.cleanupFrontier backend planner tables.frontier.rows.length fuel = some after)
          ∧ CleanedUp tables after tables.frontier.rows.length := by
  intro claim
  have large : (backlog (frontierMax + 1)).frontier.rows.length = frontierMax + 1 := by
    simp [backlog]
  rcases (cleanupFrontier_cleans_iff _ _ _).mp
      (claim .pg oldestFirst (backlog (frontierMax + 1))) with sqlite | small
  · cases sqlite
  · rw [large] at small
    exact absurd small (Nat.not_succ_le_self _)

end Tables

end WebIndexer.Store
