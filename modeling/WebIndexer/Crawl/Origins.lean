import WebIndexer.Crawl.Provenance
import WebIndexer.Fetcher.PageFields

/-! Where everything in the store comes from, over all lifetimes of the crawler: the seeds that it
has been given, and the answers that servers have given to any of its processes.
-/

namespace WebIndexer.Crawl

open WebIndexer.Config
open WebIndexer.Fetcher
open WebIndexer.Library
open WebIndexer.Runtime
open WebIndexer.Store

variable {env : Env} {seed : String → Prop} {answers later : Answers}

/-- Every row of the tables comes from the seeds and the answers. -/
structure StoreTraced (env : Env) (seed : String → Prop) (answers : Answers) (tables : Tables)
    : Prop where
  rows : ∀ row ∈ tables.frontier.rows, Carried env seed answers tables row.toFrontierItem
  pages : ∀ entry ∈ tables.nodes.entries, PageFound env seed answers entry.1 entry.2

/-- What a statement writes comes from the seeds and the answers. -/
structure StatementTraced (env : Env) (seed : String → Prop) (answers : Answers)
    (tables : Tables) (statement : Statement)
    : Prop where
  inserts : ∀ item ∈ statement.inserts, Carried env seed answers tables item
  saves : ∀ page, statement = .saveNode page →
    PageFound env seed answers page.url (Tables.nodeRow page)

/-- A statement stays traced. -/
theorem StatementTraced.mono {tables after : Tables} {statement : Statement}
    (grows : ∀ answer ∈ answers, answer ∈ later)
    (saved : ∀ url ∈ tables.nodes.keys, url ∈ after.nodes.keys)
    (traced : StatementTraced env seed answers tables statement)
    : StatementTraced env seed later after statement :=
  ⟨fun item member => (traced.inserts item member).mono grows saved,
    fun page same => (traced.saves page same).mono grows⟩

/-- A start-up queues seeds that it was given. -/
def Stage.Draws (seeds : List String) : Stage → Prop
  | .seeding urls => urls ⊆ seeds
  | _ => True

/-- It goes on with them. -/
theorem Stage.Draws.step {backend : Backend} {seeds : List String} {database after : Database}
    {stage : Stage} {next : Option Stage} {ending : Ending} {ids : List Nat}
    (draws : stage.Draws seeds)
    (taken : stage.step backend seeds database ending ids = some (after, next))
    : ∀ later ∈ next, later.Draws seeds := by
  have all : Stage.Draws seeds (.seeding seeds) := List.Subset.refl seeds
  cases stage with
  | nodesCounted =>
      obtain ⟨rfl, rfl⟩ := Prod.mk.inj (Option.some.inj taken)
      split <;> intro later waits <;> cases waits
      trivial
  | frontierCounted existing =>
      simp only [Stage.step, Option.ite_none_right_eq_some] at taken
      obtain ⟨rfl, rfl⟩ := Prod.mk.inj (Option.some.inj taken.2)
      split <;> intro later waits <;> cases waits
      unfold Stage.cleanup
      split
      · cases backend <;> trivial
      · trivial
  | resetting existing texts =>
      cases texts with
      | nil =>
          obtain ⟨rfl, rfl⟩ := Prod.mk.inj (Option.some.inj taken)
          rintro _ ⟨⟩
          trivial
      | cons sql texts =>
          simp only [Stage.step] at taken
          split at taken <;> obtain ⟨rfl, rfl⟩ := Prod.mk.inj (Option.some.inj taken) <;>
            rintro _ ⟨⟩ <;> trivial
  | cleaning existing again =>
      simp only [Stage.step, Option.ite_none_right_eq_some] at taken
      obtain ⟨_, same⟩ := taken
      obtain ⟨rfl, rfl⟩ := Prod.mk.inj (Option.some.inj same)
      rintro _ ⟨⟩
      repeat' split
      all_goals trivial
  | frontierLeft existing =>
      simp only [Stage.step, Option.ite_none_right_eq_some] at taken
      obtain ⟨_, same⟩ := taken
      obtain ⟨rfl, rfl⟩ := Prod.mk.inj (Option.some.inj same)
      split <;> intro later waits <;> cases waits
      trivial
  | indexCounted existing =>
      obtain ⟨rfl, rfl⟩ := Prod.mk.inj (Option.some.inj taken)
      split <;> intro later waits <;> cases waits
      unfold Stage.rebuild
      cases backend with
      | pg => exact all
      | sqlite =>
          simp only
          split
          · trivial
          · exact all
  | rebuilding statements =>
      cases statements with
      | nil =>
          obtain ⟨rfl, rfl⟩ := Prod.mk.inj (Option.some.inj taken)
          rintro _ ⟨⟩
          exact all
      | cons run statements =>
          obtain ⟨rfl, rfl⟩ := Prod.mk.inj (Option.some.inj taken)
          rintro _ ⟨⟩
          split
          · exact all
          · trivial
  | seeding urls =>
      cases urls with
      | nil => cases taken
      | cons url urls =>
          simp only [Stage.step, Option.ite_none_right_eq_some] at taken
          obtain ⟨_, same⟩ := taken
          obtain ⟨rfl, rfl⟩ := Prod.mk.inj (Option.some.inj same)
          rintro _ ⟨⟩
          exact fun other member => draws (List.mem_cons_of_mem _ member)

namespace StoreTraced

variable {tables after : Tables} {statement : Statement} {backend : Backend}

/-- Tables stay traced when more is answered. -/
theorem mono (grows : ∀ answer ∈ answers, answer ∈ later)
    (traced : StoreTraced env seed answers tables)
    : StoreTraced env seed later tables :=
  ⟨fun row member => (traced.rows row member).mono grows fun _ saved => saved,
    fun entry member => (traced.pages entry member).mono grows⟩

/-- New rows keep the tables traced when they are. -/
theorem of_rows (traced : StoreTraced env seed answers tables) (nodes : after.nodes = tables.nodes)
    (rows : ∀ row ∈ after.frontier.rows,
      row ∈ tables.frontier.rows ∨ Carried env seed answers tables row.toFrontierItem)
    : StoreTraced env seed answers after := by
  have saved : ∀ url ∈ tables.nodes.keys, url ∈ after.nodes.keys := fun url there => nodes ▸ there
  refine ⟨fun row member => ?_, fun entry member => traced.pages entry (nodes ▸ member)⟩
  rcases rows row member with old | carried
  · exact (traced.rows row old).mono (fun _ given => given) saved
  · exact carried.mono (fun _ given => given) saved

/-- A traced statement keeps the tables traced. -/
theorem run {choice : Choice} {value : Value} (traced : StoreTraced env seed answers tables)
    (statement_traced : StatementTraced env seed answers tables statement)
    (ran : tables.run backend choice statement = some (after, value))
    : StoreTraced env seed answers after := by
  have saved : ∀ url ∈ tables.nodes.keys, url ∈ after.nodes.keys :=
    fun _ there => Tables.mem_keys_run ran there
  have rows : ∀ row ∈ after.frontier.rows,
      row ∈ tables.frontier.rows ∨ Carried env seed answers tables row.toFrontierItem :=
    fun _ member => (Tables.mem_rows_run ran member).imp_right (statement_traced.inserts _)
  rcases Tables.nodes_run ran with same | ⟨page, rfl, written⟩
  · exact traced.of_rows same rows
  · refine ⟨fun row member => ?_, fun entry member => ?_⟩
    · rcases rows row member with old | carried
      · exact (traced.rows row old).mono (fun _ given => given) saved
      · exact carried.mono (fun _ given => given) saved
    · rw [written] at member
      rcases InsertionMap.mem_of_mem_set member with rfl | old
      · exact statement_traced.saves page rfl
      · exact traced.pages entry old

/-- A statement of a start-up queues seeds only. -/
theorem startup {seeds : List String} {database after : Database} {stage : Stage}
    (traced : StoreTraced env seed answers database.tables) (rebuilds : stage.Rebuilds)
    (listed : ∀ url ∈ seeds, seed url) (draws : stage.Draws seeds)
    (change : Stage.Change backend seeds database stage after)
    : StoreTraced env seed answers after.tables := by
  have keeps := change.keeps rebuilds
  refine traced.of_rows keeps.nodes ?_
  cases change with
  | same => exact fun _ => .inl
  | @reset _ sql _ =>
      intro row member
      rcases rows_exec backend database sql with same | empty
      · exact .inl (same ▸ member)
      · rw [empty] at member
        cases member
  | clean => exact fun row member => .inl (List.mem_of_mem_filter member)
  | rebuild =>
      obtain ⟨_, _, same⟩ := Stage.keeps_rebuild (rebuilds _ List.mem_cons_self) database.tables
      exact fun row member => .inl (congrArg Frontier.rows same ▸ member)
  | @seed url urls _ =>
      intro row member
      rcases Frontier.mem_rows_insert member with old | new
      · exact .inl old
      · exact .inr (.inl (new ▸ .seed (listed url (draws List.mem_cons_self))))

end StoreTraced

namespace State

variable {state : State} {tables after : Tables}

/-- A crawl that begins on traced tables is traced. -/
theorem traced_initial (traced : StoreTraced env seed answers tables) (crawl : CrawlState)
    (now : Nat)
    : (initial tables crawl now).Traced env seed answers where
  laden := by
    refine ⟨traced.rows, ?_⟩
    intro thread member item held
    rcases List.mem_pair.mp member with rfl | rfl <;> cases held
  threads := by
    intro thread member
    rcases List.mem_pair.mp member with rfl | rfl <;> exact .of_other rfl
  pages := traced.pages

/-- Traced threads have sent traced statements. -/
theorem Traced.sent {thread : Thread} {statement : Statement}
    (traced : state.Traced env seed answers) (member : thread ∈ state.threads)
    (sent : thread.sent = some statement)
    : StatementTraced env seed answers state.shared.tables statement := by
  obtain ⟨phase, point⟩ := thread
  cases phase with
  | statement =>
      have held := traced.laden.threads _ member
      refine ⟨fun item inserted => held item (Point.inserts_subset sent inserted), ?_⟩
      rintro page rfl
      exact traced.saves member sent
  | http | settled | ready => cases sent

/-- When something else changes the tables and keeps them traced, the crawl stays traced. -/
theorem Traced.change (traced : state.Traced env seed answers)
    (saved : ∀ url ∈ state.shared.tables.nodes.keys, url ∈ after.nodes.keys)
    (store : StoreTraced env seed answers after)
    : State.Traced env seed answers
        { state with shared := { state.shared with tables := after } } where
  laden := by
    refine ⟨store.rows, fun thread member item held => ?_⟩
    exact (traced.laden.threads thread member item held).mono (fun _ given => given) saved
  threads := traced.threads
  pages := store.pages

end State

namespace Service

variable {lists : SeedLists} {service next : Service} {event : Event}

/-- The answer that a server gives with an event, if it gives one. -/
def answered (service : Service) : Event → Answers
  | .crawl label =>
      match service.lifetime with
      | .running state => state.answered label
      | _ => []
  | _ => []

/-- Remember the answers. -/
def log (service : Service) (event : Event) (answers : Answers) : Answers :=
  service.answered event ++ answers

/-- The seeds that a piece of the script draws are those of `getRandomSeeds`. -/
def DrawsSeeds (lists : SeedLists) (_ : Service × Answers) (event : Event) : Prop :=
  ∀ drawn, event = .crawl (.run drawn) →
    drawn = [] ∨ ∃ draw : Draw lists, drawn = getRandomSeeds draw seedBatch

/-- Everything that the service holds comes from the seeds and the answers. -/
structure Traced (env : Env) (lists : SeedLists) (answers : Answers) (service : Service)
    : Prop where
  store : StoreTraced env (IsSeed lists) answers service.tables
  orphans : ∀ sent, .statement sent ∈ service.orphans →
    StatementTraced env (IsSeed lists) answers service.tables sent
  starting : ∀ database stage, service.lifetime = .starting (database, some stage) →
    stage.Draws lists.seeds
  running : ∀ state, service.lifetime = .running state →
    state.Traced env (IsSeed lists) answers

/-- The statement that a start-up leaves behind is the insertion of a seed. -/
theorem seeding_of_orphan {stage : Stage} {sent : Statement}
    (member : .statement sent ∈ stage.orphans)
    : ∃ url urls, stage = .seeding (url :: urls) ∧ sent = .insertFrontier (seedItem url) := by
  cases stage with
  | seeding urls =>
      cases urls with
      | nil => cases member
      | cons url urls =>
          exact ⟨url, urls, rfl, Orphan.statement.inj (List.mem_singleton.mp member)⟩
  | cleaning => cases List.mem_singleton.mp member
  | _ => cases member

/-- The statements that a process leaves behind are traced. -/
theorem Traced.orphaned (traced : service.Traced env lists answers) (backend : Backend)
    {sent : Statement} (member : .statement sent ∈ service.lifetime.orphans backend)
    : StatementTraced env (IsSeed lists) answers service.tables sent := by
  obtain ⟨lifetime, orphans⟩ := service
  cases backend with
  | sqlite => cases member
  | pg =>
      cases lifetime with
      | down => cases member
      | starting startup =>
          obtain ⟨database, waits⟩ := startup
          cases waits with
          | none => cases member
          | some stage =>
              obtain ⟨url, urls, rfl, rfl⟩ := seeding_of_orphan member
              have listed := traced.starting database _ rfl List.mem_cons_self
              refine ⟨fun item inserted => ?_, nofun⟩
              obtain rfl := List.mem_singleton.mp inserted
              exact .inl (.seed (.listed listed))
      | running state =>
          obtain ⟨_, found, same⟩ := List.mem_map.mp member
          obtain rfl := Orphan.statement.inj same
          obtain ⟨thread, there, pending⟩ := List.mem_filterMap.mp found
          exact (traced.running state rfl).sent there pending

/-- What an orphan does keeps the tables traced. -/
theorem traced_of_orphan {backend : Backend} {choice : Choice} {tables after : Tables}
    {orphan : Orphan} (traced : StoreTraced env seed answers tables)
    (sound : ∀ sent, orphan = .statement sent → StatementTraced env seed answers tables sent)
    (ran : orphan.run backend choice tables = some after)
    : StoreTraced env seed answers after := by
  cases orphan with
  | statement sent =>
      obtain ⟨⟨_, value⟩, answered, rfl⟩ := Option.map_eq_some_iff.mp ran
      exact traced.run (sound sent rfl) answered
  | cleanup =>
      obtain ⟨_, same⟩ := Option.ite_none_right_eq_some.mp ran
      obtain rfl := Option.some.inj same
      exact traced.of_rows rfl fun row member => .inl (List.mem_of_mem_filter member)

/-- Without Kafka, every step keeps everything traced. -/
theorem Traced.step (traced : service.Traced env lists answers) (sane : service.Sane env.backend)
    (offline : env.kafkaEnabled = false) (draws : DrawsSeeds lists (service, answers) event)
    (taken : service.step env lists.seeds event = some next)
    : next.Traced env lists (service.log event answers) := by
  have grows : ∀ answer ∈ answers, answer ∈ service.log event answers :=
    fun _ member => List.mem_append_right _ member
  cases step_cases taken with
  | @boot database orphans =>
      have store : StoreTraced env (IsSeed lists) answers database.createDb.tables := by
        refine traced.store.of_rows rfl fun row member => ?_
        rcases rows_createDb database with ⟨same, _⟩ | ⟨empty, _⟩
        · exact .inl (same ▸ member)
        · rw [empty] at member
          cases member
      refine ⟨store, fun sent member => ?_, ?_, fun _ runs => by cases runs⟩
      · have kept : ∀ url ∈ database.tables.nodes.keys,
            url ∈ database.createDb.tables.nodes.keys := fun _ saved => saved
        exact (traced.orphans sent member).mono grows kept
      · rintro _ _ ⟨⟩
        trivial
  | start stepped =>
      have rebuilds := (sane.stage _ _ rfl).rebuilds
      have draws := traced.starting _ _ rfl
      have change := Stage.change_of_step stepped
      refine ⟨?_, fun sent member => ?_, ?_, fun _ runs => by cases runs⟩
      · exact traced.store.startup rebuilds (fun _ listed => .listed listed) draws change
      · refine (traced.orphans sent member).mono grows fun url saved => ?_
        exact (change.keeps rebuilds).nodes ▸ saved
      · rintro _ stage ⟨⟩
        exact draws.step stepped stage rfl
  | launch =>
      refine ⟨traced.store, traced.orphans, fun _ _ starts => (by cases starts), ?_⟩
      rintro _ ⟨⟩
      exact State.traced_initial traced.store _ _
  | @crawl state after label orphans stepped =>
      have drawn : ∀ seeds, label = .run seeds → ∀ url ∈ seeds, IsSeed lists url := by
        rintro seeds rfl url member
        rcases draws seeds rfl with rfl | ⟨draw, rfl⟩
        · cases member
        · exact isSeed_of_mem member
      have next := (traced.running state rfl).step offline drawn stepped
      refine ⟨⟨next.laden.rows, next.pages⟩, fun sent member => ?_,
        fun _ _ starts => (by cases starts), ?_⟩
      · exact (traced.orphans sent member).mono grows fun _ => State.mem_keys_of_step stepped
      · rintro _ ⟨⟩
        exact next
  | crash =>
      have same := Lifetime.tables_database service.lifetime
      refine ⟨?_, fun sent member => ?_, fun _ _ starts => (by cases starts),
        fun _ runs => by cases runs⟩
      · change StoreTraced env (IsSeed lists) answers service.lifetime.database.tables
        exact same ▸ traced.store
      · change StatementTraced env (IsSeed lists) answers service.lifetime.database.tables sent
        rw [same]
        rcases List.mem_append.mp member with left | old
        · exact traced.orphaned _ left
        · exact traced.orphans sent old
  | @orphan _ _ _ orphan rest after picked ran =>
      have sound : ∀ sent, orphan = .statement sent →
          StatementTraced env (IsSeed lists) answers service.tables sent := by
        rintro sent rfl
        exact traced.orphans sent (pick_mem picked)
      have store := traced_of_orphan traced.store sound ran
      have saved := (mono_of_orphan ran).2
      have same := Lifetime.tables_change (fun _ => after) service.lifetime
      refine ⟨?_, fun sent member => ?_, ?_, ?_⟩
      · change StoreTraced env (IsSeed lists) answers
          (service.lifetime.change fun _ => after).tables
        rw [same]
        exact store
      · change StatementTraced env (IsSeed lists) answers
          (service.lifetime.change fun _ => after).tables sent
        rw [same]
        exact (traced.orphans sent (mem_of_mem_rest picked member)).mono (fun _ given => given)
          saved
      · intro database stage starts
        obtain ⟨lifetime, orphans⟩ := service
        cases lifetime with
        | starting startup =>
            obtain ⟨before, waits⟩ := startup
            cases starts
            exact traced.starting before stage rfl
        | down | running => cases starts
      · intro state runs
        obtain ⟨lifetime, orphans⟩ := service
        cases lifetime with
        | running crawling =>
            obtain rfl := Lifetime.running.inj runs
            exact (traced.running crawling rfl).change saved store
        | down | starting => cases runs

/-- Nothing is there that could come from elsewhere. -/
theorem traced_fresh : fresh.Traced env lists [] where
  store := ⟨fun row member => (by cases member), fun entry member => by cases member⟩
  orphans sent member := by cases member
  starting database stage starts := by cases starts
  running state runs := by cases runs

/-- Everything in the store comes from the seeds, over any number of lifetimes. A row of the
frontier is a seed, a link of a page that was fetched for such a row, or a saved page to be crawled
again. A saved page is what `parsePage` has made of a page that a server has sent for such a row,
directly or through redirects, and its depth is the number of links that lead from a seed to that
row.
-/
theorem store_traced_over_lifetimes (offline : env.kafkaEnabled = false)
    (run : Run (observing (step env lists.seeds) log) (DrawsSeeds lists) (fresh, [])
      (service, answers))
    : (∀ row ∈ service.tables.frontier.rows,
        Carried env (IsSeed lists) answers service.tables row.toFrontierItem)
      ∧ ∀ entry ∈ service.tables.nodes.entries,
          PageFound env (IsSeed lists) answers entry.1 entry.2
          ∧ ∃ url html, Fetched env answers url entry.1 html ∧ 0 ≤ entry.2.depth
            ∧ Explored (IsSeed lists) (LinksTo env answers) entry.2.depth.toNat url := by
  have kept : service.Sane env.backend ∧ service.Traced env lists answers := by
    have begins : fresh.Begins := ⟨_, rfl⟩
    generalize reached : (service, answers) = observed at run
    induction run generalizing service answers with
    | refl =>
        obtain ⟨rfl, rfl⟩ := Prod.mk.inj reached
        exact ⟨begins.sane _, traced_fresh⟩
    | @next before after event _ draws taken ih =>
        obtain ⟨stepped, logged⟩ := observing_cases taken
        obtain ⟨sane, traced⟩ := ih rfl
        subst reached
        obtain rfl : answers = before.1.log event before.2 := logged
        exact ⟨sane.step stepped, traced.step sane offline draws stepped⟩
  obtain ⟨_, traced⟩ := kept
  refine ⟨traced.store.rows, fun entry member => ?_⟩
  have page := traced.store.pages entry member
  obtain ⟨job, html, shared, found, fetched, same⟩ := page
  have depth : entry.2.depth = job.depth := by rw [same]; rfl
  obtain ⟨deep, explored⟩ := found.explored
  exact ⟨⟨job, html, shared, found, fetched, same⟩, job.url, html, fetched, depth ▸ deep,
    depth ▸ explored⟩

/-- An event draws no seeds. -/
def drawsNothing : Event → Bool
  | .crawl (.run drawn) => drawn = []
  | _ => true

/-- The seeds of a crawl that draws none are those of `getRandomSeeds`. -/
theorem drawsSeeds_of_drawsNothing (observed : Service × Answers)
    (nothing : drawsNothing event = true)
    : DrawsSeeds lists observed event := by
  rintro drawn rfl
  exact .inl (of_decide_eq_true nothing)

/-- Pages as `parsePage` reads them. -/
def parsingEnv : Env :=
  { State.plainEnv with parsePage := fun html url => parsePage plainUrlApi html url }

/-- One seed, and nothing to draw from. -/
def oneSeed : SeedLists := ⟨["https://a.example/1"], [], []⟩

/-- The first process starts, saves the page of the seed and queues its link. -/
def firstLifetime : List Event :=
  .boot :: List.replicate 6 (.start .succeeds [])
  ++ [.launch 0 queueLowWater [] (fun _ => 0) 0]
  ++ ((State.boot ++ State.readBatch 2 ++ State.vet ++ State.turn 0 3
    ++ [Label.http 0 (.page "<a href=\"https://b.example/2\">"), .record 0]
    ++ State.turn 0 1 ++ [State.reply 0] ++ State.turn 0 1 ++ [State.reply 0]).map .crawl)

/-- The page of the seed and the row of its link come from the seed. -/
theorem store_traced_of_first_lifetime
    : ∃ (service : Service) (answers : Answers),
        service.tables.nodes.keys = ["https://a.example/1"]
        ∧ service.tables.frontier.urls = ["https://b.example/2"]
        ∧ (∀ row ∈ service.tables.frontier.rows,
            Carried parsingEnv (IsSeed oneSeed) answers service.tables row.toFrontierItem)
        ∧ ∀ entry ∈ service.tables.nodes.entries,
            PageFound parsingEnv (IsSeed oneSeed) answers entry.1 entry.2 := by
  have passes
      : (execute (observing (step parsingEnv oneSeed.seeds) log)
          (fun _ event => drawsNothing event = true) (fresh, []) firstLifetime).any
          (fun observed => observed.1.tables.nodes.keys = ["https://a.example/1"]
            ∧ observed.1.tables.frontier.urls = ["https://b.example/2"])
        = true := by
    decide +kernel
  obtain ⟨⟨service, answers⟩, run, passed⟩ := exists_run_of_any passes
  obtain ⟨saved, queued⟩ := of_decide_eq_true passed
  have drawn : Run _ (DrawsSeeds oneSeed) _ _ :=
    run.mono fun observed _ => drawsSeeds_of_drawsNothing observed
  obtain ⟨rows, pages⟩ := store_traced_over_lifetimes rfl drawn
  exact ⟨service, answers, saved, queued, rows, fun entry member => (pages entry member).1⟩

end Service

end WebIndexer.Crawl
