import WebIndexer.Crawl.Integrity
import WebIndexer.Store.Cleanup
import WebIndexer.Store.Rebuild

/-! `initializeCrawl` of `src/queue.ts`, statement by statement. Some statements stand in a `try`
and the others do not: a rejection of one of those rejects the whole start-up, which nothing
catches, so that the process ends.
-/

namespace WebIndexer.Store

open WebIndexer.Config

/-- The database of a start-up. Between two texts of a reset the frontier is missing; its rows
are gone then.
-/
structure Database where
  tables : Tables
  dropped : Bool

namespace Database

/-- The frontier, unless it is missing. -/
def frontier (database : Database) : Option Frontier :=
  if database.dropped then none else some database.tables.frontier

/-- The database with another frontier, or without one. -/
def withFrontier (database : Database) (frontier : Option Frontier) : Database where
  tables := { database.tables with frontier := frontier.getD .empty }
  dropped := frontier.isNone

/-- `db.exec`, for a text on the frontier. -/
def exec (backend : Backend) (database : Database) (sql : Sql) : Database :=
  database.withFrontier (Store.exec backend database.frontier sql)

/-- `createDb` makes the tables that are missing. -/
def createDb (database : Database) : Database :=
  database.withFrontier (Sql.createFrontier.run database.frontier)

/-- A change of the tables. -/
def change (database : Database) (run : Tables → Tables) : Database :=
  { database with tables := run database.tables }

variable {database : Database}

@[simp] theorem frontier_withFrontier (database : Database) (frontier : Option Frontier)
    : (database.withFrontier frontier).frontier = frontier := by
  cases frontier <;> rfl

@[simp] theorem frontier_of_present (present : database.dropped = false)
    : database.frontier = some database.tables.frontier := by
  simp [frontier, present]

/-- The stub of PostgreSQL changes nothing while the frontier is there. -/
theorem exec_pg (present : database.dropped = false) (sql : Sql)
    : database.exec .pg sql = database := by
  obtain ⟨tables, dropped⟩ := database
  obtain rfl : dropped = false := present
  rfl

end Database

end WebIndexer.Store

namespace WebIndexer.Crawl

open WebIndexer.Config
open WebIndexer.Library
open WebIndexer.Store

/-- The statement that a start-up waits for: the counts of the pages and of the frontier, the
texts of a reset, the cleanup query (for the second time when the first has failed), the count
that the cleanup ends with, the count of the index, the statements of a rebuild, and the seeds.
-/
inductive Stage where
  | nodesCounted
  | frontierCounted (existing : Nat)
  | resetting (existing : Nat) (texts : List Sql)
  | cleaning (existing : Nat) (again : Bool)
  | frontierLeft (existing : Nat)
  | indexCounted (existing : Nat)
  | rebuilding (statements : List (Tables → Tables))
  | seeding (urls : List String)

/-- The statement takes effect. -/
def Ending.takes (ending : Ending) : Bool := ending ≠ .rejected

/-- The script sees a rejection. -/
def Ending.throws (ending : Ending) : Bool := ending ≠ .succeeds

@[simp] theorem Ending.takes_succeeds : Ending.succeeds.takes = true := rfl
@[simp] theorem Ending.throws_succeeds : Ending.succeeds.throws = false := rfl
@[simp] theorem Ending.takes_rejected : Ending.rejected.takes = false := rfl
@[simp] theorem Ending.throws_rejected : Ending.rejected.throws = true := rfl
@[simp] theorem Ending.takes_answerLost : Ending.answerLost.takes = true := rfl
@[simp] theorem Ending.throws_answerLost : Ending.answerLost.throws = true := rfl

/-- A statement on the frontier is rejected while the table is missing. -/
def admits (database : Database) (ending : Ending) : Bool :=
  !database.dropped || !ending.takes

namespace Stage

/-- The branch that `cleanupFrontier` takes. -/
def cleanup (backend : Backend) (existing fCount : Nat) : Stage :=
  if frontierMax < fCount then
    match backend with
    | .pg => .resetting existing [.deleteFrontier]
    | .sqlite => .resetting existing [.dropFrontier, .createFrontier, .createFrontierIndex]
  else
    .cleaning existing false

/-- The branch that `rebuildFtsIfNeeded` takes. -/
def rebuild (backend : Backend) (seeds : List String) (existing ftsCount : Nat) : Stage :=
  match backend with
  | .pg => .seeding seeds
  | .sqlite =>
      if Tables.needsRebuild existing ftsCount then
        .rebuilding Tables.rebuildStatements
      else
        .seeding seeds

/-- One statement of a start-up, with how it ends and the rows that a cleanup query deletes. It
leaves a database and the next statement, or none when the process ends. The stub of PostgreSQL
for `db.exec` cannot fail.
-/
def step (backend : Backend) (seeds : List String) (database : Database) (ending : Ending)
    (ids : List Nat)
    : Stage → Option (Database × Option Stage)
  | .nodesCounted =>
      some (database,
        if ending.throws then none else some (.frontierCounted database.tables.nodes.size))
  | .frontierCounted existing =>
      if admits database ending then
        some (database,
          if ending.throws then none
          else some (cleanup backend existing database.tables.frontier.rows.length))
      else
        none
  | .resetting existing [] => some (database, some (.frontierLeft existing))
  | .resetting existing (sql :: texts) =>
      if backend = .sqlite ∧ ending.throws then
        some (if ending.takes then database.exec backend sql else database,
          some (.frontierLeft existing))
      else
        some (database.exec backend sql, some (.resetting existing texts))
  | .cleaning existing again =>
      if admits database ending
          ∧ (ending.takes → limits database.tables.processedIds 50000 ids) then
        some (if ending.takes then database.change fun tables => tables.deleteIds ids else database,
          some (
            if ending.throws then
              if again then .frontierLeft existing else .cleaning existing true
            else if 0 < (database.tables.cleanedChanges backend ids).getD 0 then
              .cleaning existing false
            else
              .frontierLeft existing))
      else
        none
  | .frontierLeft existing =>
      if admits database ending then
        some (database, if ending.throws then none else some (.indexCounted existing))
      else
        none
  | .indexCounted existing =>
      some (database,
        if ending.throws then none
        else some (rebuild backend seeds existing database.tables.nodesFts.length))
  | .rebuilding [] => some (database, some (.seeding seeds))
  | .rebuilding (run :: statements) =>
      some (if ending.takes then database.change run else database,
        some (if ending.throws then .seeding seeds else .rebuilding statements))
  | .seeding [] => none
  | .seeding (url :: urls) =>
      if admits database ending then
        some (
          if ending.takes then
            database.change fun tables => tables.insertFrontier (seedItem url)
          else
            database,
          some (.seeding urls))
      else
        none

end Stage

/-- A start-up: the database, and the statement that it waits for unless the process has ended.
-/
abbrev Startup := Database × Option Stage

/-- One statement of a start-up that has not ended. -/
def Startup.step (backend : Backend) (seeds : List String) (startup : Startup)
    (label : Ending × List Nat)
    : Option Startup :=
  startup.2.bind fun stage => stage.step backend seeds startup.1 label.1 label.2

/-- The statement succeeds. -/
def Startup.Succeeds (_ : Startup) (label : Ending × List Nat) : Prop := label.1 = .succeeds

instance : DecidableRel Startup.Succeeds :=
  fun _ label => inferInstanceAs (Decidable (label.1 = .succeeds))

-----------------------------------------------------------------------------------------
-- What a start-up leaves
-----------------------------------------------------------------------------------------

/-- What is left to do after the cleanup, when no statement fails. -/
def finishStartup (backend : Backend) (seeds : List String) (existing : Nat) (tables : Tables)
    : Tables :=
  seedInitialUrls
    (tables.rebuildFtsIfNeeded backend existing tables.nodesFts.length none) seeds

namespace Stage

/-- The tables that the rest of a start-up leaves when no statement fails. -/
def outcome (backend : Backend) (seeds : List String) (database : Database) : Stage → Tables
  | .nodesCounted =>
      finishStartup backend seeds database.tables.nodes.size (cleaned database.tables)
  | .frontierCounted existing => finishStartup backend seeds existing (cleaned database.tables)
  | .resetting existing texts =>
      finishStartup backend seeds existing {
        database.tables with
        frontier := (texts.foldl (exec backend) database.frontier).getD .empty
      }
  | .cleaning existing _ => finishStartup backend seeds existing database.tables.withoutVisited
  | .frontierLeft existing | .indexCounted existing =>
      finishStartup backend seeds existing database.tables
  | .rebuilding statements =>
      seedInitialUrls (statements.foldl (fun tables run => run tables) database.tables) seeds
  | .seeding urls => seedInitialUrls database.tables urls
where
  cleaned (tables : Tables) : Tables :=
    if frontierMax < tables.frontier.rows.length then
      match backend with
      | .sqlite => { tables with frontier := .empty }
      | .pg => tables
    else
      tables.withoutVisited

/-- The frontier is there, or will be after the texts of the reset, and it is small enough for
the one round of a cleanup on SQLite.
-/
def Orderly (backend : Backend) (database : Database) : Stage → Prop
  | .resetting _ texts => (texts.foldl (exec backend) database.frontier).isSome = true
  | .cleaning _ _ =>
      database.dropped = false ∧ database.tables.frontier.rows.length ≤ frontierMax
  | _ => database.dropped = false

variable {backend : Backend} {seeds : List String} {database after : Database}
  {stage : Stage} {next : Option Stage} {ending : Ending} {ids : List Nat}

/-- A database that chooses the given rows where it can. -/
def choosing (ids : List Nat) : Planner where
  chosen batch tables :=
    if limits tables.processedIds 50000 ids then ids else Tables.oldestFirst.chosen batch tables
  chosen_limits batch tables := by
    split
    · assumption
    · exact Tables.oldestFirst.chosen_limits batch tables

/-- It can choose the rows of a query that it has run. -/
theorem chosen_choosing {tables : Tables} (chosen : limits tables.processedIds 50000 ids = true)
    : (choosing ids).chosen 0 tables = ids :=
  if_pos chosen

/-- A round of the cleanup removes no row but those that any further round would. -/
theorem withoutVisited_of_chosen {tables : Tables}
    (chosen : limits tables.processedIds 50000 ids = true)
    : (tables.deleteIds ids).withoutVisited = tables.withoutVisited := by
  have same := Tables.withoutVisited_deleteIds (choosing ids) 0 tables
  rwa [chosen_choosing chosen] at same

/-- One round is enough for a frontier that is not too large. -/
theorem deleteIds_of_small {tables : Tables}
    (chosen : limits tables.processedIds 50000 ids = true)
    (small : tables.frontier.rows.length ≤ frontierMax)
    : tables.deleteIds ids = tables.withoutVisited := by
  have few : tables.processedIds.length ≤ 50000 :=
    Nat.le_trans tables.length_processedIds_le small
  have same := @Tables.deleteIds_of_few tables (choosing ids) 0 few
  rwa [chosen_choosing chosen] at same

/-- The branch of the cleanup is orderly, and leaves a frontier that has been cleaned. -/
theorem cleanup_spec (backend : Backend) (seeds : List String) (existing : Nat)
    (present : database.dropped = false)
    : (cleanup backend existing database.tables.frontier.rows.length).Orderly backend database
      ∧ (cleanup backend existing database.tables.frontier.rows.length).outcome backend seeds
          database
        = finishStartup backend seeds existing (outcome.cleaned backend database.tables) := by
  unfold cleanup outcome.cleaned
  by_cases large : frontierMax < database.tables.frontier.rows.length
  · rw [if_pos large, if_pos large]
    cases backend with
    | sqlite => exact ⟨rfl, rfl⟩
    | pg =>
        refine ⟨?_, ?_⟩
        · simp [Orderly, exec, present]
        · simp [outcome, exec, present]
  · rw [if_neg large, if_neg large]
    exact ⟨⟨present, Nat.not_lt.mp large⟩, rfl⟩

/-- The branch of the rebuild is orderly, and leads to what `rebuildFtsIfNeeded` leaves. -/
theorem rebuild_spec (backend : Backend) (seeds : List String) (existing : Nat)
    (present : database.dropped = false)
    : (rebuild backend seeds existing database.tables.nodesFts.length).Orderly backend database
      ∧ (rebuild backend seeds existing database.tables.nodesFts.length).outcome backend seeds
          database
        = finishStartup backend seeds existing database.tables := by
  unfold rebuild finishStartup Tables.rebuildFtsIfNeeded
  cases backend with
  | pg => exact ⟨present, rfl⟩
  | sqlite =>
      by_cases needed : Tables.needsRebuild existing database.tables.nodesFts.length = true
      · simp only [needed, if_true]
        exact ⟨present, rfl⟩
      · simp only [needed]
        exact ⟨present, rfl⟩

/-- A text of a reset that succeeds leaves the later texts to run. -/
theorem frontier_exec (backend : Backend) (database : Database) (sql : Sql)
    : (database.exec backend sql).frontier = Store.exec backend database.frontier sql :=
  Database.frontier_withFrontier ..

/-- A frontier that is there is not missing. -/
theorem present_of_isSome (there : database.frontier.isSome = true)
    : database.dropped = false := by
  by_contra dropped
  simp [Database.frontier, dropped] at there

/-- The end of a reset leaves the tables as they are. -/
theorem outcome_of_isSome {existing : Nat} (there : database.frontier.isSome = true)
    : (frontierLeft existing).outcome backend seeds database
      = (resetting existing []).outcome backend seeds database := by
  have present := present_of_isSome there
  simp [outcome, present]

/-- A statement that succeeds leads on, to an orderly stage with the same outcome. -/
theorem step_succeeds (orderly : stage.Orderly backend database)
    (taken : stage.step backend seeds database .succeeds ids = some (after, next))
    : ∃ later, next = some later
        ∧ later.Orderly backend after
        ∧ later.outcome backend seeds after = stage.outcome backend seeds database := by
  cases stage with
  | nodesCounted =>
      obtain ⟨rfl, rfl⟩ := Prod.mk.inj (Option.some.inj taken)
      exact ⟨_, rfl, orderly, rfl⟩
  | frontierCounted existing =>
      simp only [step, Option.ite_none_right_eq_some] at taken
      obtain ⟨rfl, rfl⟩ := Prod.mk.inj (Option.some.inj taken.2)
      exact ⟨_, rfl, cleanup_spec backend seeds existing orderly⟩
  | resetting existing texts =>
      cases texts with
      | nil =>
          obtain ⟨rfl, rfl⟩ := Prod.mk.inj (Option.some.inj taken)
          exact ⟨_, rfl, present_of_isSome orderly, outcome_of_isSome orderly⟩
      | cons sql texts =>
          simp only [step, Ending.throws_succeeds, Bool.false_eq_true, and_false,
            if_false] at taken
          obtain ⟨rfl, rfl⟩ := Prod.mk.inj (Option.some.inj taken)
          refine ⟨_, rfl, ?_, ?_⟩
          · rw [Orderly, frontier_exec]
            exact orderly
          · rw [outcome, frontier_exec]
            rfl
  | cleaning existing again =>
      obtain ⟨present, small⟩ := orderly
      simp only [step, Option.ite_none_right_eq_some] at taken
      obtain ⟨⟨_, valid⟩, same⟩ := taken
      obtain ⟨rfl, rfl⟩ := Prod.mk.inj (Option.some.inj same)
      have chosen := valid rfl
      refine ⟨_, rfl, ?_⟩
      simp only [Ending.throws_succeeds, Ending.takes_succeeds, Bool.false_eq_true, if_false,
        if_true]
      split
      · refine ⟨⟨present, ?_⟩, ?_⟩
        · exact Nat.le_trans (List.length_filter_le ..) small
        · exact congrArg (finishStartup backend seeds existing) (withoutVisited_of_chosen chosen)
      · refine ⟨present, ?_⟩
        exact congrArg (finishStartup backend seeds existing) (deleteIds_of_small chosen small)
  | frontierLeft existing =>
      simp only [step, Option.ite_none_right_eq_some] at taken
      obtain ⟨rfl, rfl⟩ := Prod.mk.inj (Option.some.inj taken.2)
      exact ⟨_, rfl, orderly, rfl⟩
  | indexCounted existing =>
      obtain ⟨rfl, rfl⟩ := Prod.mk.inj (Option.some.inj taken)
      exact ⟨_, rfl, rebuild_spec backend seeds existing orderly⟩
  | rebuilding statements =>
      cases statements <;> obtain ⟨rfl, rfl⟩ := Prod.mk.inj (Option.some.inj taken) <;>
        exact ⟨_, rfl, orderly, rfl⟩
  | seeding urls =>
      cases urls with
      | nil => cases taken
      | cons url urls =>
          simp only [step, Option.ite_none_right_eq_some] at taken
          obtain ⟨rfl, rfl⟩ := Prod.mk.inj (Option.some.inj taken.2)
          exact ⟨_, rfl, orderly, rfl⟩

/-- An orderly stage has a statement that can succeed, until all seeds are queued. -/
theorem exists_step_succeeds (orderly : stage.Orderly backend database)
    (more : stage ≠ .seeding [])
    : ∃ ids, (stage.step backend seeds database .succeeds ids).isSome = true := by
  have admitted (present : database.dropped = false) : admits database .succeeds = true := by
    simp [admits, present]
  cases stage with
  | nodesCounted | indexCounted => exact ⟨[], rfl⟩
  | frontierCounted | frontierLeft =>
      refine ⟨[], ?_⟩
      simp [step, admitted orderly]
  | resetting existing texts =>
      cases texts with
      | nil => exact ⟨[], rfl⟩
      | cons sql texts =>
          refine ⟨[], ?_⟩
          simp [step]
  | cleaning existing again =>
      refine ⟨Tables.oldestFirst.chosen 0 database.tables, ?_⟩
      have chosen := Tables.oldestFirst.chosen_limits 0 database.tables
      simp [step, admitted orderly.1, chosen]
  | rebuilding statements => cases statements <;> exact ⟨[], rfl⟩
  | seeding urls =>
      cases urls with
      | nil => exact absurd rfl more
      | cons url urls =>
          refine ⟨[], ?_⟩
          simp [step, admitted orderly]

end Stage

namespace Startup

variable {backend : Backend} {seeds : List String} {tables : Tables} {after : Startup}

/-- A start-up begins with the count of the pages, on tables that are there. -/
def begin (tables : Tables) : Startup := (⟨tables, false⟩, some .nodesCounted)

/-- The start-up is orderly, and leaves the given tables when no more statement fails. -/
def LeadsTo (backend : Backend) (seeds : List String) (result : Tables) (startup : Startup)
    : Prop :=
  ∃ stage,
    startup.2 = some stage
    ∧ stage.Orderly backend startup.1
    ∧ stage.outcome backend seeds startup.1 = result

/-- While no statement fails, the outcome of a start-up does not change. -/
theorem leadsTo_of_run (run : Run (Startup.step backend seeds) Succeeds (begin tables) after)
    : LeadsTo backend seeds (Stage.nodesCounted.outcome backend seeds ⟨tables, false⟩) after := by
  have start : LeadsTo backend seeds (Stage.nodesCounted.outcome backend seeds ⟨tables, false⟩)
      (begin tables) := ⟨_, rfl, rfl, rfl⟩
  refine run.invariant start ?_
  rintro ⟨database, _⟩ ⟨after, next⟩ ⟨ending, ids⟩ ⟨stage, rfl, orderly, same⟩ met taken
  obtain rfl : ending = .succeeds := met
  obtain ⟨later, rfl, kept, outcome⟩ := Stage.step_succeeds orderly taken
  exact ⟨later, rfl, kept, outcome.trans same⟩

/-- The cleanup of the outcome is what `cleanupFrontier` leaves, whatever rows the database
chooses.
-/
theorem cleanupFrontier_eq_cleaned (backend : Backend) (planner : Planner) (tables : Tables)
    {fuel : Nat} (enough : tables.frontier.rows.length < fuel)
    : tables.cleanupFrontier backend planner tables.frontier.rows.length fuel
      = some (Stage.outcome.cleaned backend tables) := by
  unfold Tables.cleanupFrontier Stage.outcome.cleaned
  by_cases large : frontierMax < tables.frontier.rows.length
  · rw [if_pos large, if_pos large]
    exact (Tables.resetFrontier_eq ..).trans (by cases backend <;> rfl)
  · rw [if_neg large, if_neg large]
    exact Tables.cleanVisited_spec backend planner (Nat.not_lt.mp large) enough

/-- A start-up in which no statement fails goes on until all seeds are queued, and it leaves
what the cleanup, the rebuild and the seeding leave one after the other, whatever rows the
database chooses in each round.
-/
theorem startup_result (planner : Planner) {fuel : Nat}
    (run : Run (Startup.step backend seeds) Succeeds (begin tables) after)
    (ended : ∀ label, Succeeds after label → Startup.step backend seeds after label = none)
    (enough : tables.frontier.rows.length < fuel)
    : after.2 = some (.seeding [])
      ∧ after.1.dropped = false
      ∧ (tables.cleanupFrontier backend planner tables.frontier.rows.length fuel).map
          (fun cleaned =>
            seedInitialUrls
              (cleaned.rebuildFtsIfNeeded backend tables.nodes.size cleaned.nodesFts.length none)
              seeds)
        = some after.1.tables := by
  obtain ⟨stage, waits, orderly, same⟩ := leadsTo_of_run run
  have last : stage = .seeding [] := by
    by_contra more
    obtain ⟨ids, goes⟩ := @Stage.exists_step_succeeds _ seeds _ _ orderly more
    have stuck := ended (.succeeds, ids) rfl
    rw [Startup.step, waits, Option.bind_some] at stuck
    rw [stuck] at goes
    cases goes
  subst last
  refine ⟨waits, orderly, ?_⟩
  rw [cleanupFrontier_eq_cleaned backend planner tables enough, Option.map_some]
  exact congrArg some same.symm

/-- A start-up that has queued all its seeds. -/
def isOver (startup : Startup) : Bool :=
  match startup.2 with
  | some (.seeding []) => true
  | _ => false

/-- It takes no further step. -/
theorem step_of_isOver (ended : after.isOver = true) (label : Ending × List Nat)
    : Startup.step backend seeds after label = none := by
  obtain ⟨database, stage⟩ := after
  unfold isOver at ended
  split at ended
  · rename_i waits
    obtain rfl : stage = some (.seeding []) := waits
    rfl
  · cases ended

/-- A page whose row of the index was lost, queued again as a seed, and a page that it links to. -/
def leftBehind : Tables :=
  let page := Tables.foundPage "https://a.example/1" "https://a.example/1"
  ((Tables.empty.saveNode .sqlite page true).insertFrontier (seedItem page.url)).insertFrontier
    ⟨"https://a.example/2", 1, some page.url⟩

/-- The counts, a round of the cleanup, two counts more, a rebuild of the index, and a seed. -/
def cleansAndRebuilds : List (Ending × List Nat) :=
  [(.succeeds, []), (.succeeds, []), (.succeeds, [1])] ++ List.replicate 7 (.succeeds, [])

/-- A start-up that takes the visited page off the frontier and rebuilds the index. -/
theorem startup_result_of_leftBehind
    : ∃ after,
        Run (Startup.step .sqlite ["https://b.example/"]) Succeeds (begin leftBehind) after
        ∧ after.1.dropped = false
        ∧ after.1.tables.frontier.urls = ["https://a.example/2", "https://b.example/"]
        ∧ after.1.tables.nodesFts.map FtsRow.url = ["https://a.example/1"] := by
  have passes
      : (execute (Startup.step .sqlite ["https://b.example/"]) Succeeds (begin leftBehind)
          cleansAndRebuilds).any isOver
        = true := by
    decide +kernel
  obtain ⟨after, run, ended⟩ := exists_run_of_any passes
  obtain ⟨_, present, left⟩ := startup_result Tables.oldestFirst run
    (fun label _ => step_of_isOver ended label) (Nat.lt_succ_self _)
  have result
      : (leftBehind.cleanupFrontier .sqlite Tables.oldestFirst leftBehind.frontier.rows.length
          (leftBehind.frontier.rows.length + 1)).all (fun cleaned =>
            let final := seedInitialUrls (cleaned.rebuildFtsIfNeeded .sqlite leftBehind.nodes.size
              cleaned.nodesFts.length none) ["https://b.example/"]
            decide (final.frontier.urls = ["https://a.example/2", "https://b.example/"]
              ∧ final.nodesFts.map FtsRow.url = ["https://a.example/1"]))
        = true := by
    decide +kernel
  refine ⟨after, run, present, ?_⟩
  obtain ⟨cleaned, ends, same⟩ := Option.map_eq_some_iff.mp left
  rw [ends, Option.all_some] at result
  exact same ▸ of_decide_eq_true result

end Startup

end WebIndexer.Crawl
