import WebIndexer.Crawl.Retention
import WebIndexer.Crawl.StartupFailures

/-! The lifetimes of the crawler. The process of `src/crawler.ts` makes the tables that are
missing, initializes the crawl and crawls; it can end at any point of this, and the supervisor
starts it again. What it held in memory is lost then, while the tables stay. PostgreSQL may still
run the statements that it had been sent.
-/

namespace WebIndexer.Crawl

open WebIndexer.Config
open WebIndexer.Fetcher
open WebIndexer.Library
open WebIndexer.Runtime
open WebIndexer.Store

/-- What PostgreSQL may still run for a process that has ended. -/
inductive Orphan where
  | statement (sent : Statement)
  | cleanup

/-- The process is not there, initializes the crawl, or crawls. -/
inductive Lifetime where
  | down (database : Database)
  | starting (startup : Startup)
  | running (state : State)

/-- The service, over all its lifetimes. -/
structure Service where
  lifetime : Lifetime
  orphans : List Orphan

/-- What can happen next. The counts of a launch are those that `fullRefresh` has read while the
process booted. -/
inductive Event where
  | boot
  | start (ending : Ending) (ids : List Nat)
  | launch (nodeCount frontierCount : Nat) (domainPop : List (String × Nat))
    (domainNodeCount : String → Nat) (now : Nat)
  | crawl (label : Label)
  | crash
  | orphan (index : Nat) (choice : Choice)

/-- The statement that a thread has sent, if the database has not answered it. -/
def Thread.sent (thread : Thread) : Option Statement :=
  match thread.phase with
  | .statement => thread.point.statement
  | _ => none

/-- The statements of a start-up that PostgreSQL may still run. -/
def Stage.orphans : Stage → List Orphan
  | .cleaning _ _ => [.cleanup]
  | .seeding (url :: _) => [.statement (.insertFrontier (seedItem url))]
  | _ => []

namespace Lifetime

/-- The tables. -/
def tables : Lifetime → Tables
  | .down database => database.tables
  | .starting startup => startup.1.tables
  | .running state => state.shared.tables

/-- Something else changes the tables. -/
def change (run : Tables → Tables) : Lifetime → Lifetime
  | .down database => .down (database.change run)
  | .starting startup => .starting (startup.1.change run, startup.2)
  | .running state =>
      .running { state with
        shared := { state.shared with tables := run state.shared.tables } }

/-- What is left of the process in the database when it ends. -/
def database : Lifetime → Database
  | .down database => database
  | .starting startup => startup.1
  | .running state => ⟨state.shared.tables, false⟩

/-- The statements that the process has sent. SQLite runs a statement before the script goes on,
so that none is left.
-/
def orphans (backend : Backend) (lifetime : Lifetime) : List Orphan :=
  match backend, lifetime with
  | .sqlite, _ => []
  | .pg, .down _ => []
  | .pg, .starting startup => (startup.2.map Stage.orphans).getD []
  | .pg, .running state => (state.threads.filterMap Thread.sent).map Orphan.statement

/-- What is left in the database are the tables. -/
@[simp] theorem tables_database (lifetime : Lifetime)
    : lifetime.database.tables = lifetime.tables := by
  cases lifetime <;> rfl

/-- Tables that something else changes are changed. -/
@[simp] theorem tables_change (run : Tables → Tables) (lifetime : Lifetime)
    : (lifetime.change run).tables = run lifetime.tables := by
  cases lifetime <;> rfl

/-- Nothing else drops the frontier or makes it. -/
@[simp] theorem dropped_change (run : Tables → Tables) (lifetime : Lifetime)
    : (lifetime.change run).database.dropped = lifetime.database.dropped := by
  cases lifetime <;> rfl

/-- A process leaves behind the insertion of a seed, or the statement of a thread. -/
theorem orphans_cases {backend : Backend} {lifetime : Lifetime} {sent : Statement}
    (member : .statement sent ∈ lifetime.orphans backend)
    : (∃ url, sent = .insertFrontier (seedItem url))
      ∨ ∃ state thread,
          lifetime = .running state ∧ thread ∈ state.threads ∧ thread.sent = some sent := by
  cases backend with
  | sqlite => cases member
  | pg =>
      cases lifetime with
      | down => cases member
      | starting startup =>
          obtain ⟨database, waits⟩ := startup
          cases waits with
          | none => cases member
          | some stage =>
              cases stage with
              | seeding urls =>
                  cases urls with
                  | nil => cases member
                  | cons url urls =>
                      exact .inl ⟨url, Orphan.statement.inj (List.mem_singleton.mp member)⟩
              | cleaning => cases List.mem_singleton.mp member
              | _ => cases member
      | running state =>
          obtain ⟨_, listed, same⟩ := List.mem_map.mp member
          obtain rfl := Orphan.statement.inj same
          obtain ⟨thread, there, pending⟩ := List.mem_filterMap.mp listed
          exact .inr ⟨state, thread, rfl, there, pending⟩

/-- The domains that the process has blacklisted. -/
def blacklist : Lifetime → List String
  | .running state => state.shared.crawl.domainBlacklist
  | _ => []

end Lifetime

/-- PostgreSQL runs what it had been sent. -/
def Orphan.run (backend : Backend) (choice : Choice) (tables : Tables) : Orphan → Option Tables
  | .statement sent => (tables.run backend choice sent).map Prod.fst
  | .cleanup =>
      if limits tables.processedIds 50000 choice.ids then
        some (tables.deleteIds choice.ids)
      else
        none

namespace Service

/-- The tables. -/
def tables (service : Service) : Tables := service.lifetime.tables

/-- One step of the service. -/
def step (env : Env) (seeds : List String) (service : Service) : Event → Option Service
  | .boot =>
      match service.lifetime with
      | .down database =>
          some { service with lifetime := .starting (database.createDb, some .nodesCounted) }
      | _ => none
  | .start ending ids =>
      match service.lifetime with
      | .starting startup =>
          (startup.step env.backend seeds (ending, ids)).map fun next =>
            { service with lifetime := .starting next }
      | _ => none
  | .launch nodeCount frontierCount domainPop domainNodeCount now =>
      match service.lifetime with
      | .starting (⟨tables, false⟩, some (.seeding [])) =>
          let crawl := CrawlState.load nodeCount frontierCount domainPop domainNodeCount
          some { service with lifetime := .running (.initial tables crawl now) }
      | _ => none
  | .crawl label =>
      match service.lifetime with
      | .running state =>
          (state.step env label).map fun next => { service with lifetime := .running next }
      | _ => none
  | .crash =>
      some {
        lifetime := .down service.lifetime.database
        orphans := service.lifetime.orphans env.backend ++ service.orphans
      }
  | .orphan index choice =>
      (pick service.orphans index).bind fun (orphan, rest) =>
        (orphan.run env.backend choice service.tables).map fun after =>
          { lifetime := service.lifetime.change fun _ => after, orphans := rest }

end Service

-----------------------------------------------------------------------------------------
-- The frontier while the process starts
-----------------------------------------------------------------------------------------

/-- A text of the reset leaves all rows or none. -/
theorem rows_exec (backend : Backend) (database : Database) (sql : Sql)
    : (database.exec backend sql).tables.frontier.rows = database.tables.frontier.rows
      ∨ (database.exec backend sql).tables.frontier.rows = [] := by
  obtain ⟨tables, dropped⟩ := database
  cases backend with
  | pg => cases dropped <;> first | exact .inl rfl | exact .inr rfl
  | sqlite =>
      cases dropped with
      | true => cases sql <;> exact .inr rfl
      | false =>
          cases sql with
          | deleteFrontier => exact .inr (List.filter_false tables.frontier.rows)
          | dropFrontier => exact .inr rfl
          | createFrontier | createFrontierIndex => exact .inl rfl

/-- A table that is made anew has no rows. -/
theorem rows_createDb (database : Database)
    : database.createDb.tables.frontier.rows = database.tables.frontier.rows
        ∧ database.dropped = false
      ∨ database.createDb.tables.frontier.rows = [] ∧ database.dropped = true := by
  obtain ⟨tables, dropped⟩ := database
  cases dropped
  · exact .inl ⟨rfl, rfl⟩
  · exact .inr ⟨rfl, rfl⟩

/-- The frontier that a reset on SQLite finds is too large, until it is empty; and a rebuild runs
its own statements.
-/
def Stage.Sane (backend : Backend) (database : Database) : Stage → Prop
  | .resetting _ _ =>
      backend = .sqlite →
        frontierMax < database.tables.frontier.rows.length
        ∨ database.tables.frontier.rows = []
  | .rebuilding statements => ∀ run ∈ statements, run ∈ Tables.rebuildStatements
  | _ => True

namespace Stage

variable {backend : Backend} {seeds : List String} {database after : Database}
  {stage : Stage} {next : Option Stage} {ending : Ending} {ids : List Nat}

/-- A sane stage runs the statements of a rebuild only. -/
theorem Sane.rebuilds (sane : stage.Sane backend database) : stage.Rebuilds := by
  cases stage with
  | rebuilding statements => exact sane
  | _ => trivial

/-- A sane stage is followed by a sane one. -/
theorem Sane.step (sane : stage.Sane backend database)
    (taken : stage.step backend seeds database ending ids = some (after, next))
    : ∀ later ∈ next, later.Sane backend after := by
  cases stage with
  | nodesCounted =>
      obtain ⟨rfl, rfl⟩ := Prod.mk.inj (Option.some.inj taken)
      split <;> intro later waits <;> cases waits
      trivial
  | frontierCounted existing =>
      simp only [Stage.step, Option.ite_none_right_eq_some] at taken
      obtain ⟨rfl, rfl⟩ := Prod.mk.inj (Option.some.inj taken.2)
      split <;> intro later waits <;> cases waits
      unfold cleanup
      split
      · rename_i large
        cases backend <;> exact fun _ => .inl large
      · trivial
  | resetting existing texts =>
      cases texts with
      | nil =>
          obtain ⟨rfl, rfl⟩ := Prod.mk.inj (Option.some.inj taken)
          rintro _ ⟨⟩
          trivial
      | cons sql texts =>
          simp only [Stage.step] at taken
          split at taken <;> obtain ⟨rfl, rfl⟩ := Prod.mk.inj (Option.some.inj taken) <;>
            rintro _ ⟨⟩
          · trivial
          · intro sqlite
            rcases rows_exec backend database sql with same | empty
            · exact same ▸ sane sqlite
            · exact .inr empty
  | cleaning existing again =>
      simp only [Stage.step, Option.ite_none_right_eq_some] at taken
      obtain ⟨_, same⟩ := taken
      obtain ⟨rfl, rfl⟩ := Prod.mk.inj (Option.some.inj same)
      rintro _ ⟨⟩
      generalize (if ending.takes then _ else database) = left
      repeat' split
      all_goals trivial
  | frontierLeft existing =>
      simp only [Stage.step, Option.ite_none_right_eq_some] at taken
      obtain ⟨_, same⟩ := taken
      obtain ⟨rfl, rfl⟩ := Prod.mk.inj (Option.some.inj same)
      split <;> intro later waits <;> cases waits
      trivial
  | indexCounted existing =>
      obtain ⟨rfl, rfl⟩ := Prod.mk.inj (Option.some.inj taken)
      split <;> intro later waits <;> cases waits
      unfold rebuild
      cases backend with
      | pg => trivial
      | sqlite =>
          simp only
          split
          · exact fun _ member => member
          · trivial
  | rebuilding statements =>
      cases statements with
      | nil =>
          obtain ⟨rfl, rfl⟩ := Prod.mk.inj (Option.some.inj taken)
          rintro _ ⟨⟩
          trivial
      | cons run statements =>
          obtain ⟨rfl, rfl⟩ := Prod.mk.inj (Option.some.inj taken)
          rintro _ ⟨⟩
          generalize (if ending.takes then _ else database) = left
          split
          · trivial
          · exact fun run member => sane run (List.mem_cons_of_mem _ member)
  | seeding urls =>
      cases urls with
      | nil => cases taken
      | cons url urls =>
          simp only [Stage.step, Option.ite_none_right_eq_some] at taken
          obtain ⟨_, same⟩ := taken
          obtain ⟨rfl, rfl⟩ := Prod.mk.inj (Option.some.inj same)
          rintro _ ⟨⟩
          trivial

end Stage

-----------------------------------------------------------------------------------------
-- The steps of the service
-----------------------------------------------------------------------------------------

/-- What a step of the service does. -/
inductive ServiceCase (env : Env) (seeds : List String) : Service → Event → Service → Prop
  | boot {database : Database} {orphans : List Orphan}
    : ServiceCase env seeds ⟨.down database, orphans⟩ .boot
        ⟨.starting (database.createDb, some .nodesCounted), orphans⟩
  | start {database after : Database} {stage : Stage} {next : Option Stage} {ending : Ending}
    {ids : List Nat} {orphans : List Orphan}
    (taken : stage.step env.backend seeds database ending ids = some (after, next))
    : ServiceCase env seeds ⟨.starting (database, some stage), orphans⟩ (.start ending ids)
        ⟨.starting (after, next), orphans⟩
  | launch {tables : Tables} {nodeCount frontierCount : Nat} {domainPop : List (String × Nat)}
    {domainNodeCount : String → Nat} {now : Nat} {orphans : List Orphan}
    : ServiceCase env seeds ⟨.starting (⟨tables, false⟩, some (.seeding [])), orphans⟩
        (.launch nodeCount frontierCount domainPop domainNodeCount now)
        ⟨.running (.initial tables
          (.load nodeCount frontierCount domainPop domainNodeCount) now), orphans⟩
  | crawl {state next : State} {label : Label} {orphans : List Orphan}
    (taken : state.step env label = some next)
    : ServiceCase env seeds ⟨.running state, orphans⟩ (.crawl label) ⟨.running next, orphans⟩
  | crash {service : Service}
    : ServiceCase env seeds service .crash
        ⟨.down service.lifetime.database, service.lifetime.orphans env.backend ++ service.orphans⟩
  | orphan {service : Service} {index : Nat} {choice : Choice} {orphan : Orphan}
    {rest : List Orphan} {after : Tables}
    (picked : pick service.orphans index = some (orphan, rest))
    (ran : orphan.run env.backend choice service.tables = some after)
    : ServiceCase env seeds service (.orphan index choice)
        ⟨service.lifetime.change fun _ => after, rest⟩

namespace Service

variable {env : Env} {seeds : List String} {service next : Service} {event : Event}

/-- A step of the service is one of the cases. -/
theorem step_cases (taken : service.step env seeds event = some next)
    : ServiceCase env seeds service event next := by
  obtain ⟨lifetime, orphans⟩ := service
  cases event with
  | boot =>
      cases lifetime with
      | down database =>
          obtain rfl := Option.some.inj taken
          exact .boot
      | starting | running => cases taken
  | start ending ids =>
      cases lifetime with
      | starting startup =>
          obtain ⟨database, waits⟩ := startup
          obtain ⟨⟨after, later⟩, stepped, rfl⟩ := Option.map_eq_some_iff.mp taken
          obtain ⟨stage, waits, stepped⟩ := Option.bind_eq_some_iff.mp stepped
          obtain rfl : _ = some stage := waits
          exact .start stepped
      | down | running => cases taken
  | launch =>
      simp only [step] at taken
      split at taken
      · obtain rfl := Option.some.inj taken
        exact .launch
      · cases taken
  | crawl label =>
      cases lifetime with
      | running state =>
          obtain ⟨after, stepped, rfl⟩ := Option.map_eq_some_iff.mp taken
          exact .crawl stepped
      | down | starting => cases taken
  | crash =>
      obtain rfl := Option.some.inj taken
      exact .crash
  | orphan index choice =>
      obtain ⟨⟨orphan, rest⟩, picked, taken⟩ := Option.bind_eq_some_iff.mp taken
      obtain ⟨after, ran, rfl⟩ := Option.map_eq_some_iff.mp taken
      exact .orphan picked ran

/-- Nothing is left for PostgreSQL to run on SQLite, PostgreSQL does not lose its frontier, a
missing frontier has no rows, and the start-up is sane.
-/
structure Sane (backend : Backend) (service : Service) : Prop where
  orphans : backend = .sqlite → service.orphans = []
  present : backend = .pg → service.lifetime.database.dropped = false
  missing : service.lifetime.database.dropped = true → service.tables.frontier.rows = []
  stage : ∀ database stage,
    service.lifetime = .starting (database, some stage) → stage.Sane backend database

/-- The process is down, nothing is left of an earlier one, and the frontier is there. -/
def Begins (service : Service) : Prop :=
  ∃ tables, service = ⟨.down ⟨tables, false⟩, []⟩

/-- Then the service is sane. -/
theorem Begins.sane (begins : service.Begins) (backend : Backend) : service.Sane backend := by
  obtain ⟨tables, rfl⟩ := begins
  exact ⟨fun _ => rfl, fun _ => rfl, nofun, nofun⟩

/-- An orphan is there on PostgreSQL only. -/
theorem Sane.pg_of_picked {index : Nat} {orphan : Orphan} {rest : List Orphan} {backend : Backend}
    (sane : service.Sane backend) (picked : pick service.orphans index = some (orphan, rest))
    : backend = .pg := by
  cases backend with
  | pg => rfl
  | sqlite =>
      rw [sane.orphans rfl] at picked
      cases picked

/-- A statement of a start-up leaves the frontier of PostgreSQL, and no rows where it is missing.
-/
theorem dropped_of_step {backend : Backend} {database after : Database} {stage : Stage}
    {later : Option Stage} {ending : Ending} {ids : List Nat}
    (taken : stage.step backend seeds database ending ids = some (after, later))
    (rebuilds : stage.Rebuilds) (present : backend = .pg → database.dropped = false)
    (missing : database.dropped = true → database.tables.frontier.rows = [])
    : (backend = .pg → after.dropped = false)
      ∧ (after.dropped = true → after.tables.frontier.rows = []) := by
  cases Stage.change_of_step taken with
  | same => exact ⟨present, missing⟩
  | @reset _ sql _ =>
      constructor
      · rintro rfl
        rw [Database.exec_pg (present rfl)]
        exact present rfl
      · intro dropped
        have gone : Store.exec backend database.frontier sql = none :=
          Option.isNone_iff_eq_none.mp dropped
        rw [Database.exec, gone]
        rfl
  | clean there => exact ⟨fun _ => there, fun dropped => absurd (there.symm.trans dropped) nofun⟩
  | rebuild =>
      obtain ⟨_, _, same⟩ := Stage.keeps_rebuild (rebuilds _ List.mem_cons_self) database.tables
      refine ⟨present, fun dropped => ?_⟩
      exact (congrArg Frontier.rows same).trans (missing dropped)
  | seed there => exact ⟨fun _ => there, fun dropped => absurd (there.symm.trans dropped) nofun⟩

/-- The service stays sane. -/
theorem Sane.step (sane : service.Sane env.backend)
    (taken : service.step env seeds event = some next)
    : next.Sane env.backend := by
  cases step_cases taken with
  | @boot database _ =>
      refine ⟨sane.orphans, fun _ => rfl, nofun, ?_⟩
      rintro _ _ ⟨⟩
      trivial
  | start stepped =>
      have stage := sane.stage _ _ rfl
      obtain ⟨present, missing⟩ :=
        dropped_of_step stepped stage.rebuilds sane.present sane.missing
      refine ⟨sane.orphans, present, missing, ?_⟩
      rintro _ later ⟨⟩
      exact stage.step stepped later rfl
  | launch => exact ⟨sane.orphans, fun _ => rfl, nofun, nofun⟩
  | crawl stepped => exact ⟨sane.orphans, fun _ => rfl, nofun, nofun⟩
  | crash =>
      refine ⟨fun sqlite => ?_, sane.present, fun dropped => ?_, nofun⟩
      · rw [sane.orphans sqlite, sqlite]
        rfl
      · change (Tables.frontier service.lifetime.database.tables).rows = []
        rw [Lifetime.tables_database]
        exact sane.missing dropped
  | orphan picked ran =>
      have pg := sane.pg_of_picked picked
      refine ⟨fun sqlite => absurd (pg.symm.trans sqlite) nofun, ?_, fun dropped => ?_, ?_⟩
      · intro _
        rw [Lifetime.dropped_change]
        exact sane.present pg
      · rw [Lifetime.dropped_change, sane.present pg] at dropped
        cases dropped
      · intro database stage starts
        obtain ⟨lifetime, orphans⟩ := service
        cases lifetime with
        | starting startup =>
            obtain ⟨found, waits⟩ := startup
            obtain ⟨rfl, rfl⟩ := Prod.mk.inj (Lifetime.starting.inj starts)
            have before := sane.stage _ _ rfl
            cases stage with
            | resetting => exact fun sqlite => absurd (pg.symm.trans sqlite) nofun
            | rebuilding => exact before
            | _ => trivial
        | down | running => cases starts

end Service

end WebIndexer.Crawl
