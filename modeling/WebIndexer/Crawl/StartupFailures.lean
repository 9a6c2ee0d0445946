import WebIndexer.Crawl.Startup

/-! A start-up in which statements fail. It ends all the same, and it loses nothing but the visited
rows of a frontier that is not too large.
-/

namespace WebIndexer.Crawl

open WebIndexer.Config
open WebIndexer.Library
open WebIndexer.Store

namespace Stage

variable {backend : Backend} {seeds : List String} {database after : Database}
  {stage : Stage} {next : Option Stage} {ending : Ending} {ids : List Nat}

/-- How many statements are left at most. A round of the cleanup is followed by another one only
if it has deleted a row, or once if it has failed.
-/
def rank (seeds : List String) (database : Database) : Stage → Nat
  | .nodesCounted => 2 * database.tables.processedIds.length + seeds.length + 12
  | .frontierCounted _ => 2 * database.tables.processedIds.length + seeds.length + 11
  | .resetting _ texts => texts.length + seeds.length + 7
  | .cleaning _ again =>
      2 * database.tables.processedIds.length + seeds.length + if again then 7 else 8
  | .frontierLeft _ => seeds.length + 6
  | .indexCounted _ => seeds.length + 5
  | .rebuilding statements => statements.length + seeds.length + 1
  | .seeding urls => urls.length

/-- The rank of the statement that comes next, or none. -/
def rankNext (seeds : List String) (database : Database) (next : Option Stage) : Nat :=
  (next.map (rank seeds database)).getD 0

theorem rankNext_some : rankNext seeds database (some stage) = stage.rank seeds database :=
  rfl

/-- A cleanup query leaves no more processed rows. -/
theorem length_processedIds_deleteIds_le (tables : Tables) (ids : List Nat)
    : (tables.deleteIds ids).processedIds.length ≤ tables.processedIds.length := by
  have fewer : (tables.deleteIds ids).processedIds.Sublist tables.processedIds :=
    (List.filter_sublist.filter _).map _
  exact fewer.length_le

/-- A round that reports changes leaves fewer processed rows. -/
theorem length_processedIds_of_changes {tables : Tables}
    (chosen : limits tables.processedIds 50000 ids = true)
    (changes : 0 < (tables.cleanedChanges backend ids).getD 0)
    : (tables.deleteIds ids).processedIds.length < tables.processedIds.length := by
  cases backend with
  | sqlite => exact absurd changes (Nat.lt_irrefl 0)
  | pg =>
      obtain ⟨row, member, removed⟩ := Tables.exists_removed_of_changes changes
      have visited := @Tables.visited_of_chosen tables (choosing ids) row 0 member
      rw [chosen_choosing chosen] at visited
      exact Tables.length_processedIds_deleteIds_lt member (visited removed) removed

/-- A round of the cleanup lowers the rank. -/
theorem rank_cleaning {existing : Nat} {again : Bool}
    (taken : (cleaning existing again).step backend seeds database ending ids
      = some (after, next))
    : rankNext seeds after next < (cleaning existing again).rank seeds database := by
  simp only [step, Option.ite_none_right_eq_some] at taken
  obtain ⟨⟨_, valid⟩, same⟩ := taken
  obtain ⟨rfl, rfl⟩ := Prod.mk.inj (Option.some.inj same)
  have fewer := length_processedIds_deleteIds_le database.tables ids
  cases ending with
  | succeeds =>
      simp only [Ending.throws_succeeds, Ending.takes_succeeds, Bool.false_eq_true, if_false,
        if_true]
      split
      · rename_i changes
        have less := length_processedIds_of_changes (valid rfl) changes
        have atLeast : 7 ≤ if again then 7 else 8 := by cases again <;> decide
        simp only [rankNext_some, rank, Database.change, Bool.false_eq_true, if_false]
        omega
      · have atLeast : 7 ≤ if again then 7 else 8 := by cases again <;> decide
        simp only [rankNext_some, rank]
        omega
  | rejected =>
      cases again with
      | false =>
          simp only [Ending.throws_rejected, Ending.takes_rejected, Bool.false_eq_true, if_false,
            if_true, rankNext_some, rank]
          omega
      | true =>
          simp only [Ending.throws_rejected, Ending.takes_rejected, Bool.false_eq_true, if_false,
            if_true, rankNext_some, rank]
          omega
  | answerLost =>
      cases again with
      | false =>
          simp only [Ending.throws_answerLost, Ending.takes_answerLost, Bool.false_eq_true,
            if_false, if_true, rankNext_some, rank, Database.change]
          omega
      | true =>
          simp only [Ending.throws_answerLost, Ending.takes_answerLost, if_true, rankNext_some,
            rank, Database.change]
          omega

/-- Every statement lowers the rank. -/
theorem rank_step (taken : stage.step backend seeds database ending ids = some (after, next))
    : rankNext seeds after next < stage.rank seeds database := by
  cases stage with
  | nodesCounted =>
      obtain ⟨rfl, rfl⟩ := Prod.mk.inj (Option.some.inj taken)
      cases ending <;> simp [rankNext, rank]
  | frontierCounted existing =>
      simp only [step, Option.ite_none_right_eq_some] at taken
      obtain ⟨rfl, rfl⟩ := Prod.mk.inj (Option.some.inj taken.2)
      cases ending with
      | succeeds =>
          simp only [Ending.throws_succeeds, Bool.false_eq_true, if_false, cleanup]
          split
          · cases backend <;> simp [rankNext, rank] <;> omega
          · simp [rankNext, rank]
      | rejected | answerLost => simp [rankNext, rank]
  | resetting existing texts =>
      cases texts with
      | nil =>
          obtain ⟨rfl, rfl⟩ := Prod.mk.inj (Option.some.inj taken)
          simp [rankNext, rank]
      | cons sql texts =>
          simp only [step] at taken
          split at taken <;> obtain ⟨rfl, rfl⟩ := Prod.mk.inj (Option.some.inj taken) <;>
            simp only [rankNext, rank, Option.map_some, Option.getD_some, List.length_cons] <;>
            omega
  | cleaning existing again => exact rank_cleaning taken
  | frontierLeft existing =>
      simp only [step, Option.ite_none_right_eq_some] at taken
      obtain ⟨rfl, rfl⟩ := Prod.mk.inj (Option.some.inj taken.2)
      cases ending <;> simp [rankNext, rank]
  | indexCounted existing =>
      obtain ⟨rfl, rfl⟩ := Prod.mk.inj (Option.some.inj taken)
      cases ending with
      | succeeds =>
          simp only [Ending.throws_succeeds, Bool.false_eq_true, if_false, rebuild]
          cases backend with
          | pg => simp [rankNext, rank]
          | sqlite =>
              simp only
              split
              · simp only [rankNext_some, rank, Tables.rebuildStatements, List.length_cons,
                  List.length_nil]
                omega
              · simp only [rankNext_some, rank]
                omega
      | rejected | answerLost => simp [rankNext, rank]
  | rebuilding statements =>
      cases statements with
      | nil =>
          obtain ⟨rfl, rfl⟩ := Prod.mk.inj (Option.some.inj taken)
          simp [rankNext, rank]
      | cons run statements =>
          obtain ⟨rfl, rfl⟩ := Prod.mk.inj (Option.some.inj taken)
          cases ending <;> simp only [Ending.throws_succeeds, Ending.throws_rejected,
            Ending.throws_answerLost, Bool.false_eq_true, if_false, if_true, rankNext_some, rank,
            List.length_cons] <;> omega
  | seeding urls =>
      cases urls with
      | nil => cases taken
      | cons url urls =>
          simp only [step, Option.ite_none_right_eq_some] at taken
          obtain ⟨rfl, rfl⟩ := Prod.mk.inj (Option.some.inj taken.2)
          simp [rankNext, rank]

/-- What a statement of a start-up does to the database: nothing, a text of the reset, a round of
the cleanup, a statement of the rebuild, or the insertion of a seed.
-/
inductive Change (backend : Backend) (seeds : List String) (database : Database)
    : Stage → Database → Prop
  | same {stage : Stage} : Change backend seeds database stage database
  | reset {existing : Nat} {sql : Sql} {texts : List Sql}
    : Change backend seeds database (.resetting existing (sql :: texts))
        (database.exec backend sql)
  | clean {existing : Nat} {again : Bool} {ids : List Nat} (present : database.dropped = false)
    (chosen : limits database.tables.processedIds 50000 ids = true)
    : Change backend seeds database (.cleaning existing again)
        (database.change fun tables => tables.deleteIds ids)
  | rebuild {run : Tables → Tables} {statements : List (Tables → Tables)}
    : Change backend seeds database (.rebuilding (run :: statements)) (database.change run)
  | seed {url : String} {urls : List String} (present : database.dropped = false)
    : Change backend seeds database (.seeding (url :: urls))
        (database.change fun tables => tables.insertFrontier (seedItem url))

/-- A statement that takes effect on the frontier finds it. -/
theorem present_of_admits (admitted : admits database ending = true)
    (takes : ending.takes = true)
    : database.dropped = false := by
  simpa [admits, takes] using admitted

/-- What a statement does, stage by stage. -/
theorem change_of_step
    (taken : stage.step backend seeds database ending ids = some (after, next))
    : Change backend seeds database stage after := by
  cases stage with
  | nodesCounted | indexCounted =>
      obtain ⟨rfl, _⟩ := Prod.mk.inj (Option.some.inj taken)
      exact .same
  | frontierCounted | frontierLeft =>
      simp only [step, Option.ite_none_right_eq_some] at taken
      obtain ⟨rfl, _⟩ := Prod.mk.inj (Option.some.inj taken.2)
      exact .same
  | resetting existing texts =>
      cases texts with
      | nil =>
          obtain ⟨rfl, _⟩ := Prod.mk.inj (Option.some.inj taken)
          exact .same
      | cons sql texts =>
          simp only [step] at taken
          split at taken <;> obtain ⟨rfl, _⟩ := Prod.mk.inj (Option.some.inj taken)
          · split
            · exact .reset
            · exact .same
          · exact .reset
  | cleaning existing again =>
      simp only [step, Option.ite_none_right_eq_some] at taken
      obtain ⟨⟨admitted, valid⟩, same⟩ := taken
      obtain ⟨rfl, _⟩ := Prod.mk.inj (Option.some.inj same)
      split
      · rename_i takes
        exact .clean (present_of_admits admitted takes) (valid takes)
      · exact .same
  | rebuilding statements =>
      cases statements with
      | nil =>
          obtain ⟨rfl, _⟩ := Prod.mk.inj (Option.some.inj taken)
          exact .same
      | cons run statements =>
          obtain ⟨rfl, _⟩ := Prod.mk.inj (Option.some.inj taken)
          split
          · exact .rebuild
          · exact .same
  | seeding urls =>
      cases urls with
      | nil => cases taken
      | cons url urls =>
          simp only [step, Option.ite_none_right_eq_some] at taken
          obtain ⟨admitted, same⟩ := taken
          obtain ⟨rfl, _⟩ := Prod.mk.inj (Option.some.inj same)
          split
          · rename_i takes
            exact .seed (present_of_admits admitted takes)
          · exact .same

/-- The statements that a stage may still run for a rebuild are those of a rebuild. -/
def Rebuilds : Stage → Prop
  | .rebuilding statements => ∀ run ∈ statements, run ∈ Tables.rebuildStatements
  | _ => True

/-- The pages and the visited addresses are what they were, and unless the frontier is being
reset, the rows whose address is not visited are there.
-/
structure Keeps (stage : Stage) (before after : Tables) : Prop where
  nodes : after.nodes = before.nodes
  visited : after.visited = before.visited
  rows
    : (∃ existing texts, stage = .resetting existing texts)
      ∨ ∀ row ∈ before.frontier.rows, row.url ∉ before.visited → row ∈ after.frontier.rows

/-- A statement of a rebuild changes the index only. -/
theorem keeps_rebuild {run : Tables → Tables} (member : run ∈ Tables.rebuildStatements)
    (tables : Tables)
    : (run tables).nodes = tables.nodes
      ∧ (run tables).visited = tables.visited
      ∧ (run tables).frontier = tables.frontier := by
  simp only [Tables.rebuildStatements, List.mem_cons, List.not_mem_nil, or_false] at member
  rcases member with rfl | rfl | rfl <;> exact ⟨rfl, rfl, rfl⟩

/-- An insertion keeps the rows that are there. -/
theorem mem_rows_of_insert {frontier : Frontier} {item : FrontierItem} {row : FrontierRow}
    (member : row ∈ frontier.rows)
    : row ∈ (frontier.insert item).rows := by
  unfold Frontier.insert
  split
  · exact List.mem_append_left _ member
  · exact member

/-- What a statement keeps. -/
theorem Change.keeps (change : Change backend seeds database stage after)
    (rebuilds : stage.Rebuilds)
    : stage.Keeps database.tables after.tables := by
  cases change with
  | same => exact ⟨rfl, rfl, .inr fun _ member _ => member⟩
  | reset => exact ⟨rfl, rfl, .inl ⟨_, _, rfl⟩⟩
  | @clean _ _ ids _ chosen =>
      refine ⟨rfl, rfl, .inr fun row member unvisited => ?_⟩
      have visited := @Tables.visited_of_chosen database.tables (choosing ids) row 0 member
      rw [chosen_choosing chosen] at visited
      refine List.mem_filter.mpr ⟨member, ?_⟩
      exact decide_eq_true fun removed => unvisited (visited removed)
  | rebuild =>
      obtain ⟨nodes, visited, frontier⟩ :=
        keeps_rebuild (rebuilds _ List.mem_cons_self) database.tables
      refine ⟨nodes, visited, .inr fun row member _ => ?_⟩
      exact frontier ▸ member
  | seed => exact ⟨rfl, rfl, .inr fun _ member _ => mem_rows_of_insert member⟩

/-- What is known of the frontier when a statement comes next: it is as the start-up found it
until it has been counted, it is reset only if it was too large then, and it is missing only
between the texts of a reset, and after one that has failed.
-/
def Knows (found : Tables) (database : Database) : Option Stage → Prop
  | some .nodesCounted | some (.frontierCounted _) =>
      database.dropped = false ∧ database.tables.frontier = found.frontier
  | some (.resetting _ _) => frontierMax < found.frontier.rows.length
  | some (.frontierLeft _) | none =>
      database.dropped = false ∨ frontierMax < found.frontier.rows.length
  | some (.rebuilding statements) =>
      database.dropped = false ∧ ∀ run ∈ statements, run ∈ Tables.rebuildStatements
  | _ => database.dropped = false

variable {found : Tables}

/-- The statements of a rebuild are known to be such. -/
theorem Knows.rebuilds (knows : Knows found database (some stage)) : stage.Rebuilds := by
  cases stage with
  | rebuilding statements => exact knows.2
  | _ => trivial

/-- What is known stays known, stage by stage. -/
theorem Knows.step (knows : Knows found database (some stage))
    (taken : stage.step backend seeds database ending ids = some (after, next))
    : Knows found after next := by
  cases stage with
  | nodesCounted =>
      obtain ⟨rfl, rfl⟩ := Prod.mk.inj (Option.some.inj taken)
      split
      · exact .inl knows.1
      · exact knows
  | frontierCounted existing =>
      simp only [Stage.step, Option.ite_none_right_eq_some] at taken
      obtain ⟨rfl, rfl⟩ := Prod.mk.inj (Option.some.inj taken.2)
      obtain ⟨present, same⟩ := knows
      split
      · exact .inl present
      · rw [same]
        unfold cleanup
        split
        · cases backend <;> assumption
        · exact present
  | resetting existing texts =>
      cases texts with
      | nil =>
          obtain ⟨rfl, rfl⟩ := Prod.mk.inj (Option.some.inj taken)
          exact .inr knows
      | cons sql texts =>
          simp only [Stage.step] at taken
          split at taken <;> obtain ⟨rfl, rfl⟩ := Prod.mk.inj (Option.some.inj taken)
          · exact .inr knows
          · exact knows
  | cleaning existing again =>
      simp only [Stage.step, Option.ite_none_right_eq_some] at taken
      obtain ⟨_, same⟩ := taken
      obtain ⟨rfl, rfl⟩ := Prod.mk.inj (Option.some.inj same)
      have present : database.dropped = false := knows
      have kept : (if ending.takes then database.change fun tables => tables.deleteIds ids
          else database).dropped = false := by
        split <;> exact present
      generalize (if ending.takes then _ else database) = left at kept ⊢
      split
      · cases again with
        | true => exact .inl kept
        | false => exact kept
      · split
        · exact kept
        · exact .inl kept
  | frontierLeft existing =>
      simp only [Stage.step, Option.ite_none_right_eq_some] at taken
      obtain ⟨admitted, same⟩ := taken
      obtain ⟨rfl, rfl⟩ := Prod.mk.inj (Option.some.inj same)
      cases ending with
      | succeeds => exact present_of_admits admitted rfl
      | rejected | answerLost => exact knows
  | indexCounted existing =>
      obtain ⟨rfl, rfl⟩ := Prod.mk.inj (Option.some.inj taken)
      have present : database.dropped = false := knows
      split
      · exact .inl present
      · unfold rebuild
        cases backend with
        | pg => exact present
        | sqlite =>
            simp only
            split
            · exact ⟨present, fun _ member => member⟩
            · exact present
  | rebuilding statements =>
      obtain ⟨present, known⟩ := knows
      cases statements with
      | nil =>
          obtain ⟨rfl, rfl⟩ := Prod.mk.inj (Option.some.inj taken)
          exact present
      | cons run statements =>
          obtain ⟨rfl, rfl⟩ := Prod.mk.inj (Option.some.inj taken)
          have kept : (if ending.takes then database.change run else database).dropped
              = false := by
            split <;> exact present
          generalize (if ending.takes then _ else database) = left at kept ⊢
          split
          · exact kept
          · exact ⟨kept, fun run member => known run (List.mem_cons_of_mem _ member)⟩
  | seeding urls =>
      cases urls with
      | nil => cases taken
      | cons url urls =>
          simp only [Stage.step, Option.ite_none_right_eq_some] at taken
          obtain ⟨_, same⟩ := taken
          obtain ⟨rfl, rfl⟩ := Prod.mk.inj (Option.some.inj same)
          have present : database.dropped = false := knows
          change (if ending.takes then database.change _ else database).dropped = false
          split <;> exact present

end Stage

namespace Startup

variable {backend : Backend} {seeds : List String} {tables : Tables} {after : Startup}

/-- A start-up has kept the pages and the visited addresses of the tables that it found and,
unless the frontier was too large, the rows whose address is not visited.
-/
structure Careful (found : Tables) (startup : Startup) : Prop where
  knows : Stage.Knows found startup.1 startup.2
  nodes : startup.1.tables.nodes = found.nodes
  visited : startup.1.tables.visited = found.visited
  rows
    : found.frontier.rows.length ≤ frontierMax →
      ∀ row ∈ found.frontier.rows, row.url ∉ found.visited →
        row ∈ startup.1.tables.frontier.rows

/-- Every statement of a start-up is careful, however it ends. -/
theorem Careful.step {startup next : Startup} {label : Ending × List Nat}
    (careful : startup.Careful tables)
    (taken : startup.step backend seeds label = some next)
    : next.Careful tables := by
  obtain ⟨stage, waits, taken⟩ := Option.bind_eq_some_iff.mp taken
  have knows : Stage.Knows tables startup.1 (some stage) := waits ▸ careful.knows
  have keeps := (Stage.change_of_step taken).keeps knows.rebuilds
  refine ⟨knows.step taken, keeps.nodes.trans careful.nodes,
    keeps.visited.trans careful.visited, fun small row member unvisited => ?_⟩
  rcases keeps.rows with ⟨existing, texts, rfl⟩ | kept
  · exact absurd small (Nat.not_le.mpr knows)
  · exact kept row (careful.rows small row member unvisited) (careful.visited ▸ unvisited)

/-- Whatever statements of a start-up fail, it changes neither the pages nor the visited
addresses, it removes no row whose address is not visited from a frontier that is not too
large, and it queues its seeds only while the frontier is there.
-/
theorem startup_careful
    (run : Reaches (Startup.step backend seeds) (begin tables) after)
    : after.1.tables.nodes = tables.nodes
      ∧ after.1.tables.visited = tables.visited
      ∧ (tables.frontier.rows.length ≤ frontierMax →
          ∀ row ∈ tables.frontier.rows, row.url ∉ tables.visited →
            row ∈ after.1.tables.frontier.rows)
      ∧ ∀ urls, after.2 = some (.seeding urls) → after.1.dropped = false := by
  have start : (begin tables).Careful tables :=
    ⟨⟨rfl, rfl⟩, rfl, rfl, fun _ _ member _ => member⟩
  have careful : after.Careful tables :=
    run.invariant start fun careful _ taken => careful.step taken
  refine ⟨careful.nodes, careful.visited, careful.rows, fun urls seeding => ?_⟩
  have knows := careful.knows
  rw [seeding] at knows
  exact knows

/-- A start-up whose cleanup fails twice keeps a row, and is ready for its seeds. -/
theorem startup_careful_of_failures
    : ∃ after,
        Reaches (Startup.step .sqlite ["https://a.example/2"])
          (begin (Tables.empty.insertFrontier (seedItem "https://a.example/1"))) after
        ∧ ⟨seedItem "https://a.example/1", 1⟩ ∈ after.1.tables.frontier.rows := by
  let labels : List (Ending × List Nat) :=
    [(.succeeds, []), (.succeeds, []), (.rejected, []), (.rejected, []), (.succeeds, [])]
  obtain ⟨after, executed⟩ : ∃ after,
      execute (Startup.step .sqlite ["https://a.example/2"]) anyStep
          (begin (Tables.empty.insertFrontier (seedItem "https://a.example/1"))) labels
        = some after :=
    ⟨_, rfl⟩
  have run := run_of_execute executed
  obtain ⟨_, _, rows, _⟩ := startup_careful run
  exact ⟨after, run, rows (by decide) _ List.mem_cons_self nofun⟩

/-- A statement that is rejected can always come next, until the start-up has ended. -/
theorem exists_step (startup : Startup) (stuck : ∀ label, startup.step backend seeds label = none)
    : startup.2 = none ∨ startup.2 = some (.seeding []) := by
  obtain ⟨database, _ | stage⟩ := startup
  · exact .inl rfl
  · refine .inr (congrArg some ?_)
    by_contra more
    have refused : stage.step backend seeds database .rejected [] = none := stuck (.rejected, [])
    cases stage with
    | resetting existing texts =>
        cases texts with
        | nil => cases refused
        | cons sql texts =>
            simp only [Stage.step] at refused
            split at refused <;> cases refused
    | rebuilding statements => cases statements <;> cases refused
    | seeding urls =>
        cases urls with
        | nil => exact more rfl
        | cons url urls => simp [Stage.step, admits] at refused
    | _ => simp [Stage.step, admits] at refused

/-- The statements of a run are no more than the rank of its first one, by induction on them. -/
theorem length_le_rank {labels : List (Ending × List Nat)} {startup : Startup}
    (executed : execute (Startup.step backend seeds) anyStep startup labels = some after)
    : labels.length ≤ Stage.rankNext seeds startup.1 startup.2 := by
  induction labels generalizing startup with
  | nil => exact Nat.zero_le _
  | cons label rest ih =>
      simp only [execute, anyStep] at executed
      obtain ⟨next, taken, later⟩ := Option.bind_eq_some_iff.mp executed
      obtain ⟨stage, waits, taken⟩ := Option.bind_eq_some_iff.mp taken
      have lower := Stage.rank_step taken
      have few := ih later
      have same : Stage.rankNext seeds startup.1 startup.2 = stage.rank seeds startup.1 := by
        rw [waits]
        rfl
      rw [List.length_cons, same]
      omega

/-- Whatever statements fail, a start-up ends after no more than two statements for each row
whose address is visited, one for each seed, and twelve others: it has queued the seeds, or the
process has ended.
-/
theorem startup_ends {labels : List (Ending × List Nat)}
    (executed : execute (Startup.step backend seeds) anyStep (begin tables) labels = some after)
    : labels.length ≤ 2 * tables.processedIds.length + seeds.length + 12
      ∧ ((∀ label, Startup.step backend seeds after label = none) →
          after.2 = none ∨ after.2 = some (.seeding [])) :=
  ⟨length_le_rank executed, exists_step after⟩

/-- A start-up ends with the first count that is rejected. -/
theorem startup_ends_of_rejection
    : ∃ after labels,
        execute (Startup.step .pg ["https://a.example/1"]) anyStep (begin .empty) labels
          = some after
        ∧ labels = [(.succeeds, []), (.rejected, [])]
        ∧ labels.length ≤ 13
        ∧ after.2 = none := by
  obtain ⟨after, executed⟩ : ∃ after,
      execute (Startup.step .pg ["https://a.example/1"]) anyStep (begin .empty)
        [(.succeeds, []), (.rejected, [])]
      = some after :=
    ⟨_, rfl⟩
  obtain ⟨few, ended⟩ := startup_ends executed
  refine ⟨after, _, executed, rfl, few, ?_⟩
  obtain rfl := Option.some.inj executed
  exact (ended fun _ => rfl).resolve_right nofun

end Startup

end WebIndexer.Crawl
