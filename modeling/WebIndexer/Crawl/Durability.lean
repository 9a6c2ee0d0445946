import WebIndexer.Crawl.Lifetimes
import WebIndexer.Library.History

/-! What holds over all lifetimes of the crawler: the store keeps its integrity, and no page, no
visited address and no queued address is lost, although the process can end at any point.
-/

namespace WebIndexer.Crawl

open WebIndexer.Config
open WebIndexer.Fetcher
open WebIndexer.Library
open WebIndexer.Runtime
open WebIndexer.Store

-----------------------------------------------------------------------------------------
-- The integrity of the store
-----------------------------------------------------------------------------------------

/-- What a statement writes is sound: the items that it inserts, and the page that it saves. -/
structure StatementSound (tables : Tables) (statement : Statement) : Prop where
  inserts : ∀ item ∈ statement.inserts, FrontierItem.Sound tables item
  saves : ∀ page, statement = .saveNode page → PageSound tables (Tables.nodeRow page)

namespace StoreIntegrity

variable {tables after : Tables} {statement : Statement} {backend : Backend}

/-- New rows keep the integrity when they are sound. -/
theorem of_rows (integrity : StoreIntegrity tables) (nodes : after.nodes = tables.nodes)
    (visited : ∀ url ∈ tables.visited, url ∈ after.visited)
    (rows : ∀ row ∈ after.frontier.rows,
      row ∈ tables.frontier.rows ∨ FrontierItem.Sound tables row.toFrontierItem)
    : StoreIntegrity after := by
  have grows : ∀ url ∈ tables.nodes.keys, url ∈ after.nodes.keys :=
    fun url saved => nodes ▸ saved
  refine ⟨after.frontier.urls_nodup, ?_, ?_, ?_⟩
  · intro url saved
    exact visited url (integrity.visited url (nodes ▸ saved))
  · intro row member
    rcases rows row member with old | sound
    · exact (integrity.frontier row old).mono grows
    · exact sound.mono grows
  · intro entry member
    exact (integrity.nodes entry (nodes ▸ member)).mono grows

/-- A sound statement keeps the integrity. -/
theorem run {choice : Choice} {value : Value} (integrity : StoreIntegrity tables)
    (sound : StatementSound tables statement)
    (ran : tables.run backend choice statement = some (after, value))
    : StoreIntegrity after := by
  have grows : ∀ url ∈ tables.nodes.keys, url ∈ after.nodes.keys :=
    fun _ saved => Tables.mem_keys_run ran saved
  have marked : ∀ url ∈ tables.visited, url ∈ after.visited :=
    fun _ visited => (Tables.mem_visited_run ran).mpr (.inr visited)
  have rows : ∀ row ∈ after.frontier.rows,
      row ∈ tables.frontier.rows ∨ FrontierItem.Sound tables row.toFrontierItem :=
    fun _ member => (Tables.mem_rows_run ran member).imp_right (sound.inserts _)
  rcases Tables.nodes_run ran with same | ⟨page, rfl, written⟩
  · exact integrity.of_rows same marked rows
  · refine ⟨after.frontier.urls_nodup, ?_, ?_, ?_⟩
    · intro url saved
      rw [written, InsertionMap.mem_keys_set] at saved
      rcases saved with rfl | old
      · exact (Tables.mem_visited_run ran).mpr (.inl List.mem_cons_self)
      · exact marked url (integrity.visited url old)
    · intro row member
      rcases rows row member with old | fresh
      · exact (integrity.frontier row old).mono grows
      · exact fresh.mono grows
    · intro entry member
      rw [written] at member
      rcases InsertionMap.mem_of_mem_set member with rfl | old
      · exact (sound.saves page rfl).mono grows
      · exact (integrity.nodes entry old).mono grows

/-- The tables of a new database have their integrity. -/
theorem empty : StoreIntegrity .empty where
  distinct := .nil
  visited := nofun
  frontier := nofun
  nodes := nofun

end StoreIntegrity

/-- A sound statement stays sound. -/
theorem StatementSound.mono {tables after : Tables} {statement : Statement}
    (grows : ∀ url ∈ tables.nodes.keys, url ∈ after.nodes.keys)
    (sound : StatementSound tables statement)
    : StatementSound after statement :=
  ⟨fun item member => (sound.inserts item member).mono grows,
    fun page saves => (sound.saves page saves).mono grows⟩

namespace State

variable {state : State}

/-- A crawl that begins on tables with their integrity is sound. -/
theorem integral_initial {tables : Tables} (integrity : StoreIntegrity tables)
    (crawl : CrawlState) (now : Nat)
    : (initial tables crawl now).Integral where
  laden := by
    refine ⟨integrity.frontier, ?_⟩
    intro thread member item held
    rcases List.mem_pair.mp member with rfl | rfl <;> cases held
  saves := by
    intro thread member
    rcases List.mem_pair.mp member with rfl | rfl <;> exact .of_other rfl
  visited := integrity.visited
  nodes := integrity.nodes

/-- When something else changes the tables and keeps their pages and their integrity, everything
that the crawl holds stays sound.
-/
theorem Integral.change {after : Tables} (integral : state.Integral)
    (grows : ∀ url ∈ state.shared.tables.nodes.keys, url ∈ after.nodes.keys)
    (integrity : StoreIntegrity after)
    : Integral { state with shared := { state.shared with tables := after } } where
  laden := by
    refine ⟨integrity.frontier, fun thread member item held => ?_⟩
    exact (integral.laden.threads thread member item held).mono grows
  saves thread member := (integral.saves thread member).mono grows
  visited := integrity.visited
  nodes := integrity.nodes

/-- The statements that a sound crawl has sent are sound. -/
theorem Integral.sent {thread : Thread} {statement : Statement} (integral : state.Integral)
    (member : thread ∈ state.threads) (sent : thread.sent = some statement)
    : StatementSound state.shared.tables statement := by
  obtain ⟨phase, point⟩ := thread
  cases phase with
  | statement =>
      have held := integral.laden.threads _ member
      refine ⟨fun item inserted => held item (Point.inserts_subset sent inserted), ?_⟩
      rintro page rfl
      obtain ⟨job, links, rfl⟩ := Point.eq_saved sent
      obtain ⟨first, depth, parent⟩ := (integral.saves _ member).page _ _ _ rfl
      have sound : FrontierItem.Sound state.shared.tables job :=
        held job (List.mem_singleton.mpr rfl)
      have deep := sound.deep
      have other : job.depth ≠ -1 := of_decide_eq_false first
      refine ⟨?_, ?_, ?_⟩
      · change 0 ≤ page.depth
        omega
      · change page.depth ≤ maxDepth
        exact depth ▸ sound.shallow
      · change ParentSaved _ page.parent
        exact parent ▸ sound.parent
  | http | settled | ready => cases sent

end State

/-- A statement of a start-up keeps the integrity. -/
theorem StoreIntegrity.startup {backend : Backend} {seeds : List String}
    {database after : Database} {stage : Stage} (integrity : StoreIntegrity database.tables)
    (rebuilds : stage.Rebuilds) (change : Stage.Change backend seeds database stage after)
    : StoreIntegrity after.tables := by
  have keeps := change.keeps rebuilds
  refine integrity.of_rows keeps.nodes (fun url visited => keeps.visited ▸ visited) ?_
  cases change with
  | same => exact fun _ => .inl
  | @reset _ sql _ =>
      intro row member
      rcases rows_exec backend database sql with same | empty
      · exact .inl (same ▸ member)
      · rw [empty] at member
        cases member
  | clean => exact fun row member => .inl (List.mem_of_mem_filter member)
  | rebuild =>
      obtain ⟨_, _, same⟩ := Stage.keeps_rebuild (rebuilds _ List.mem_cons_self) database.tables
      exact fun row member => .inl (congrArg Frontier.rows same ▸ member)
  | @seed url _ _ =>
      intro row member
      rcases Frontier.mem_rows_insert member with old | new
      · exact .inl old
      · exact .inr (new ▸ sound_seedItem _ url)

namespace Service

variable {env : Env} {seeds : List String} {start service next : Service} {event : Event}

/-- Everything that the service holds is sound. -/
structure Integral (service : Service) : Prop where
  store : StoreIntegrity service.tables
  orphans : ∀ sent, .statement sent ∈ service.orphans → StatementSound service.tables sent
  state : ∀ state, service.lifetime = .running state → state.Integral

/-- What an orphan does keeps the integrity, and the pages. -/
theorem integrity_of_orphan {backend : Backend} {choice : Choice} {tables after : Tables}
    {orphan : Orphan} (integrity : StoreIntegrity tables)
    (sound : ∀ sent, orphan = .statement sent → StatementSound tables sent)
    (ran : orphan.run backend choice tables = some after)
    : StoreIntegrity after ∧ ∀ url ∈ tables.nodes.keys, url ∈ after.nodes.keys := by
  cases orphan with
  | statement sent =>
      obtain ⟨⟨_, value⟩, answered, rfl⟩ := Option.map_eq_some_iff.mp ran
      refine ⟨integrity.run (sound sent rfl) answered, fun _ saved => ?_⟩
      exact Tables.mem_keys_run answered saved
  | cleanup =>
      obtain ⟨_, same⟩ := Option.ite_none_right_eq_some.mp ran
      obtain rfl := Option.some.inj same
      refine ⟨integrity.of_rows rfl (fun _ visited => visited) ?_, fun _ saved => saved⟩
      exact fun row member => .inl (List.mem_of_mem_filter member)

/-- The statements that a process leaves behind are sound. -/
theorem Integral.orphaned (integral : service.Integral) (backend : Backend) {sent : Statement}
    (member : .statement sent ∈ service.lifetime.orphans backend)
    : StatementSound service.tables sent := by
  obtain ⟨lifetime, orphans⟩ := service
  rcases Lifetime.orphans_cases member with ⟨url, rfl⟩ | ⟨state, thread, rfl, there, pending⟩
  · refine ⟨fun item inserted => ?_, nofun⟩
    obtain rfl := List.mem_singleton.mp inserted
    exact sound_seedItem _ url
  · exact (integral.state state rfl).sent there pending

/-- Without Kafka, every step keeps everything sound. -/
theorem Integral.step (integral : service.Integral) (sane : service.Sane env.backend)
    (offline : env.kafkaEnabled = false) (taken : service.step env seeds event = some next)
    : next.Integral := by
  cases step_cases taken with
  | @boot database orphans =>
      have store : StoreIntegrity database.createDb.tables := by
        refine integral.store.of_rows rfl (fun _ visited => visited) fun row member => ?_
        rcases rows_createDb database with ⟨same, _⟩ | ⟨empty, _⟩
        · exact .inl (same ▸ member)
        · rw [empty] at member
          cases member
      refine ⟨store, fun sent member => ?_, ?_⟩
      · have grows : ∀ url ∈ database.tables.nodes.keys,
            url ∈ database.createDb.tables.nodes.keys := fun _ saved => saved
        exact (integral.orphans sent member).mono grows
      · rintro _ ⟨⟩
  | start stepped =>
      have rebuilds := (sane.stage _ _ rfl).rebuilds
      have change := Stage.change_of_step stepped
      refine ⟨StoreIntegrity.startup integral.store rebuilds change, fun sent member => ?_, ?_⟩
      · refine (integral.orphans sent member).mono fun url saved => ?_
        exact (change.keeps rebuilds).nodes ▸ saved
      · rintro _ ⟨⟩
  | launch =>
      refine ⟨integral.store, integral.orphans, ?_⟩
      rintro _ ⟨⟩
      exact State.integral_initial integral.store _ _
  | crawl stepped =>
      have next := (integral.state _ rfl).step offline stepped
      refine ⟨next.storeIntegrity, fun sent member => ?_, ?_⟩
      · exact (integral.orphans sent member).mono fun _ => State.mem_keys_of_step stepped
      · rintro _ ⟨⟩
        exact next
  | crash =>
      have same := Lifetime.tables_database service.lifetime
      refine ⟨?_, fun sent member => ?_, ?_⟩
      · change StoreIntegrity service.lifetime.database.tables
        exact same ▸ integral.store
      · change StatementSound service.lifetime.database.tables sent
        rw [same]
        rcases List.mem_append.mp member with left | old
        · exact integral.orphaned _ left
        · exact integral.orphans sent old
      · rintro _ ⟨⟩
  | @orphan _ _ _ orphan rest after picked ran =>
      have sound : ∀ sent, orphan = .statement sent → StatementSound service.tables sent := by
        rintro sent rfl
        exact integral.orphans sent (pick_mem picked)
      obtain ⟨store, grows⟩ := integrity_of_orphan integral.store sound ran
      have same := Lifetime.tables_change (fun _ => after) service.lifetime
      refine ⟨?_, fun sent member => ?_, ?_⟩
      · change StoreIntegrity (service.lifetime.change fun _ => after).tables
        rw [same]
        exact store
      · change StatementSound (service.lifetime.change fun _ => after).tables sent
        rw [same]
        exact (integral.orphans sent (mem_of_mem_rest picked member)).mono grows
      · intro state runs
        obtain ⟨lifetime, orphans⟩ := service
        cases lifetime with
        | running crawling =>
            obtain rfl := Lifetime.running.inj runs
            exact (integral.state crawling rfl).change grows store
        | down | starting => cases runs

/-- A service of which nothing has run yet, on a new database. -/
def fresh : Service := ⟨.down ⟨.empty, false⟩, []⟩

/-- Nothing is there that could be unsound. -/
theorem integral_fresh : fresh.Integral where
  store := .empty
  orphans sent member := by cases member
  state state runs := by cases runs

/-- Without Kafka, the store has its integrity in every state that the service reaches from a new
database, however often its process ends and whatever statements fail or are left behind.
-/
theorem storeIntegrity_over_lifetimes (offline : env.kafkaEnabled = false)
    (run : Reaches (step env seeds) fresh service)
    : StoreIntegrity service.tables := by
  have begins : fresh.Begins := ⟨_, rfl⟩
  have kept : service.Sane env.backend ∧ service.Integral := by
    induction run with
    | refl => exact ⟨begins.sane _, integral_fresh⟩
    | next _ _ taken ih =>
        obtain ⟨sane, integral⟩ := ih
        exact ⟨sane.step taken, integral.step sane offline taken⟩
  exact kept.2.store

/-- A process that boots, queues one seed, and crawls until its page has been saved. -/
def savingLifetime : List Event :=
  .boot :: List.replicate 6 (.start .succeeds [])
    ++ [.launch 0 queueLowWater [] (fun _ => 0) 0] ++ State.pageSaved.map .crawl

/-- The store has its integrity after a crash, with the page that was saved before. -/
theorem storeIntegrity_of_crash
    : ∃ service,
        Reaches (step State.plainEnv ["https://a.example/1"]) fresh service
        ∧ service.tables.nodes.keys = ["https://a.example/1"]
        ∧ StoreIntegrity service.tables := by
  have executed
      : (execute (step State.plainEnv ["https://a.example/1"]) anyStep fresh
          (savingLifetime ++ [.crash])).any
            (fun service => service.tables.nodes.keys = ["https://a.example/1"])
        = true := by
    decide +kernel
  obtain ⟨service, run, saved⟩ := exists_run_of_any executed
  exact ⟨service, run, of_decide_eq_true saved, storeIntegrity_over_lifetimes rfl run⟩

-----------------------------------------------------------------------------------------
-- What is never lost
-----------------------------------------------------------------------------------------

/-- What is remembered of a run: the domains that some process has blacklisted, and how often a
frontier that was too large has been reset.
-/
structure History where
  blacklisted : List String
  resets : Nat

/-- The next statement resets a frontier that is too large. -/
def overflows (backend : Backend) (lifetime : Lifetime) : Bool :=
  match backend, lifetime with
  | .sqlite, .starting (database, some (.resetting _ _)) =>
      decide (frontierMax < database.tables.frontier.rows.length)
  | _, _ => false

/-- Remember the blacklist of the process before each step, and the resets. -/
def remember (env : Env) (service : Service) (event : Event) (history : History) : History where
  blacklisted := service.lifetime.blacklist ++ history.blacklisted
  resets :=
    match event with
    | .start _ _ => history.resets + if overflows env.backend service.lifetime then 1 else 0
    | _ => history.resets

/-- The service has done with an address: it is visited, its domain is empty, or some process has
blacklisted its domain.
-/
def Settled (env : Env) (observed : Service × History) (url : String) : Prop :=
  url ∈ observed.1.tables.visited
  ∨ getDomain env.api url = ""
  ∨ getDomain env.api url ∈ observed.1.lifetime.blacklist ++ observed.2.blacklisted

/-- Every deletion that a process waits for, or has left behind, is of a settled address. -/
structure Justified (env : Env) (observed : Service × History) : Prop where
  orphans
    : ∀ url, .statement (.deleteFromFrontier url) ∈ observed.1.orphans →
      Settled env observed url
  state : ∀ state, observed.1.lifetime = .running state → state.AllJustified env

variable {observed after : Service × History} {url : String}

/-- What an orphan does leaves the visited addresses and the pages. -/
theorem mono_of_orphan {backend : Backend} {choice : Choice} {tables after : Tables}
    {orphan : Orphan} (ran : orphan.run backend choice tables = some after)
    : (∀ url ∈ tables.visited, url ∈ after.visited)
      ∧ ∀ url ∈ tables.nodes.keys, url ∈ after.nodes.keys := by
  cases orphan with
  | statement sent =>
      obtain ⟨⟨_, value⟩, answered, rfl⟩ := Option.map_eq_some_iff.mp ran
      refine ⟨fun _ visited => ?_, fun _ saved => Tables.mem_keys_run answered saved⟩
      exact (Tables.mem_visited_run answered).mpr (.inr visited)
  | cleanup =>
      obtain ⟨_, same⟩ := Option.ite_none_right_eq_some.mp ran
      obtain rfl := Option.some.inj same
      exact ⟨fun _ visited => visited, fun _ saved => saved⟩

/-- Visited addresses and saved pages stay through every step. -/
theorem mono_of_step (sane : service.Sane env.backend)
    (taken : service.step env seeds event = some next)
    : (∀ url ∈ service.tables.visited, url ∈ next.tables.visited)
      ∧ ∀ url ∈ service.tables.nodes.keys, url ∈ next.tables.nodes.keys := by
  cases step_cases taken with
  | boot | launch => exact ⟨fun _ visited => visited, fun _ saved => saved⟩
  | start stepped =>
      have keeps := (Stage.change_of_step stepped).keeps (sane.stage _ _ rfl).rebuilds
      exact ⟨fun _ visited => keeps.visited ▸ visited, fun _ saved => keeps.nodes ▸ saved⟩
  | crawl stepped =>
      refine ⟨(State.step_settles stepped).visited, fun _ saved => ?_⟩
      exact State.mem_keys_of_step stepped saved
  | crash =>
      have same := Lifetime.tables_database service.lifetime
      refine ⟨fun url visited => ?_, fun url saved => ?_⟩
      · change url ∈ service.lifetime.database.tables.visited
        rw [same]
        exact visited
      · change url ∈ service.lifetime.database.tables.nodes.keys
        rw [same]
        exact saved
  | @orphan _ _ _ _ rest after picked ran =>
      have same := Lifetime.tables_change (fun _ => after) service.lifetime
      obtain ⟨marks, pages⟩ := mono_of_orphan ran
      refine ⟨fun url visited => ?_, fun url saved => ?_⟩
      · change url ∈ (service.lifetime.change fun _ => after).tables.visited
        rw [same]
        exact marks url visited
      · change url ∈ (service.lifetime.change fun _ => after).tables.nodes.keys
        rw [same]
        exact pages url saved

/-- A settled address stays settled. -/
theorem Settled.step (settled : Settled env observed url) (sane : observed.1.Sane env.backend)
    (taken : observing (Service.step env seeds) (remember env) observed event = some after)
    : Settled env after url := by
  obtain ⟨stepped, remembered⟩ := observing_cases taken
  rcases settled with visited | invalid | listed
  · exact .inl ((mono_of_step sane stepped).1 url visited)
  · exact .inr (.inl invalid)
  · refine .inr (.inr (List.mem_append_right _ ?_))
    rw [remembered]
    exact listed

/-- What a crawl has settled is settled. -/
theorem settled_of_crawl {state : State} {orphans : List Orphan} {history : History}
    (settled : Crawl.Settled env state.shared url)
    : Settled env (⟨.running state, orphans⟩, history) url := by
  rcases settled with visited | invalid | listed
  · exact .inl visited
  · exact .inr (.inl invalid)
  · exact .inr (.inr (List.mem_append_left _ listed))

/-- The deletions that a process leaves behind are of settled addresses. -/
theorem Justified.orphaned (justified : Justified env observed)
    (member : .statement (.deleteFromFrontier url) ∈ observed.1.lifetime.orphans env.backend)
    : Settled env observed url := by
  obtain ⟨⟨lifetime, orphans⟩, history⟩ := observed
  rcases Lifetime.orphans_cases member with ⟨_, seeds⟩ | ⟨state, thread, rfl, there, pending⟩
  · cases seeds
  · obtain ⟨phase, point⟩ := thread
    cases phase with
    | statement =>
        exact settled_of_crawl ((justified.state state rfl _ there).deletes url pending)
    | http | settled | ready => cases pending

/-- Every step keeps the deletions justified. -/
theorem Justified.step (justified : Justified env observed)
    (sane : observed.1.Sane env.backend)
    (taken : observing (Service.step env seeds) (remember env) observed event = some after)
    : Justified env after := by
  obtain ⟨stepped, remembered⟩ := observing_cases taken
  have stays {url : String} (settled : Settled env observed url) : Settled env after url :=
    settled.step sane taken
  obtain ⟨service, history⟩ := observed
  obtain ⟨next, _⟩ := after
  obtain stepped : service.step env seeds event = some next := stepped
  cases step_cases stepped with
  | boot | start =>
      refine ⟨fun url member => stays (justified.orphans url member), ?_⟩
      rintro _ ⟨⟩
  | launch =>
      refine ⟨fun url member => stays (justified.orphans url member), ?_⟩
      rintro _ ⟨⟩
      exact State.Begins.allJustified ⟨_, _, _, _, _, _, rfl⟩
  | crawl moved =>
      refine ⟨fun url member => stays (justified.orphans url member), ?_⟩
      rintro _ ⟨⟩
      exact State.step_allJustified (justified.state _ rfl) moved
  | crash =>
      refine ⟨fun url member => stays ?_, ?_⟩
      · rcases List.mem_append.mp member with left | old
        · exact justified.orphaned left
        · exact justified.orphans url old
      · rintro _ ⟨⟩
  | orphan picked ran =>
      refine ⟨fun url member => stays (justified.orphans url (mem_of_mem_rest picked member)), ?_⟩
      intro state runs
      obtain ⟨lifetime, orphans⟩ := service
      cases lifetime with
      | running crawling =>
          obtain rfl := Lifetime.running.inj runs
          have settles : Settles crawling.shared { crawling.shared with tables := _ } :=
            ⟨(mono_of_orphan ran).1, List.Subset.refl _⟩
          exact fun thread member => (justified.state crawling rfl thread member).mono settles
      | down | starting => cases runs

/-- A statement of a start-up keeps a row of the frontier, unless its address is visited or the
frontier is too large and is being reset.
-/
theorem listed_of_start {backend : Backend} {database after : Database} {stage : Stage}
    {later : Option Stage} {ending : Ending} {ids : List Nat}
    (taken : stage.step backend seeds database ending ids = some (after, later))
    (sane : stage.Sane backend database) (present : backend = .pg → database.dropped = false)
    (listed : url ∈ database.tables.frontier.urls)
    : url ∈ after.tables.frontier.urls
      ∨ url ∈ after.tables.visited
      ∨ overflows backend (.starting (database, some stage)) = true := by
  obtain ⟨row, member, rfl⟩ := List.mem_map.mp listed
  cases Stage.change_of_step taken with
  | same => exact .inl listed
  | @reset _ sql _ =>
      cases backend with
      | pg =>
          rw [Database.exec_pg (present rfl)]
          exact .inl listed
      | sqlite =>
          rcases sane rfl with large | empty
          · exact .inr (.inr (decide_eq_true large))
          · rw [empty] at member
            cases member
  | @clean _ _ ids _ chosen =>
      have visited := @Tables.visited_of_chosen database.tables (Stage.choosing ids) row 0 member
      rw [Stage.chosen_choosing chosen] at visited
      by_cases removed : row.id ∈ ids
      · exact .inr (.inl (visited removed))
      · refine .inl (Frontier.mem_urls_filter.mpr ⟨row, member, ?_, rfl⟩)
        exact decide_eq_true removed
  | rebuild =>
      obtain ⟨_, _, same⟩ :=
        Stage.keeps_rebuild (sane.rebuilds _ List.mem_cons_self) database.tables
      exact .inl (congrArg Frontier.urls same ▸ listed)
  | seed => exact .inl (Frontier.mem_urls_insert listed)

/-- What an orphan does keeps a row of the frontier, unless its address is visited or the orphan
deletes it by name.
-/
theorem listed_of_orphan {backend : Backend} {choice : Choice} {tables after : Tables}
    {orphan : Orphan} (ran : orphan.run backend choice tables = some after)
    (listed : url ∈ tables.frontier.urls)
    : url ∈ after.frontier.urls
      ∨ url ∈ after.visited
      ∨ orphan = .statement (.deleteFromFrontier url) := by
  cases orphan with
  | statement sent =>
      obtain ⟨⟨_, value⟩, answered, rfl⟩ := Option.map_eq_some_iff.mp ran
      rcases Tables.mem_urls_run answered listed with kept | visited | rfl
      · exact .inl kept
      · exact .inr (.inl visited)
      · exact .inr (.inr rfl)
  | cleanup =>
      obtain ⟨chosen, same⟩ := Option.ite_none_right_eq_some.mp ran
      obtain rfl := Option.some.inj same
      obtain ⟨row, member, rfl⟩ := List.mem_map.mp listed
      have visited :=
        @Tables.visited_of_chosen tables (Stage.choosing choice.ids) row 0 member
      rw [Stage.chosen_choosing chosen] at visited
      by_cases removed : row.id ∈ choice.ids
      · exact .inr (.inl (visited removed))
      · refine .inl (Frontier.mem_urls_filter.mpr ⟨row, member, ?_, rfl⟩)
        exact decide_eq_true removed

/-- A step keeps a row of the frontier, or its address is settled afterwards, or a frontier that
was too large is reset.
-/
theorem step_keeps (justified : Justified env observed) (sane : observed.1.Sane env.backend)
    (taken : observing (Service.step env seeds) (remember env) observed event = some after)
    (listed : url ∈ observed.1.tables.frontier.urls)
    : url ∈ after.1.tables.frontier.urls
      ∨ Settled env after url
      ∨ observed.2.resets < after.2.resets := by
  obtain ⟨stepped, remembered⟩ := observing_cases taken
  obtain ⟨service, history⟩ := observed
  obtain ⟨next, later⟩ := after
  obtain stepped : service.step env seeds event = some next := stepped
  cases step_cases stepped with
  | @boot database _ =>
      rcases rows_createDb database with ⟨same, _⟩ | ⟨_, dropped⟩
      · have urls : database.createDb.tables.frontier.urls = database.tables.frontier.urls :=
          by
          rw [Frontier.urls, same, Frontier.urls]
        exact .inl (urls ▸ listed)
      · have none_there := sane.missing dropped
        obtain ⟨row, member, _⟩ := List.mem_map.mp listed
        rw [none_there] at member
        cases member
  | start moved =>
      rcases listed_of_start moved (sane.stage _ _ rfl) sane.present listed with
        kept | visited | resets
      · exact .inl kept
      · exact .inr (.inl (.inl visited))
      · refine .inr (.inr ?_)
        rw [remembered]
        simp only [remember, resets, if_true]
        exact Nat.lt_succ_self _
  | launch => exact .inl listed
  | crawl moved =>
      rcases State.step_keeps (justified.state _ rfl) listed moved with kept | settled
      · exact .inl kept
      · exact .inr (.inl (settled_of_crawl settled))
  | crash =>
      refine .inl ?_
      change url ∈ service.lifetime.database.tables.frontier.urls
      rw [Lifetime.tables_database]
      exact listed
  | @orphan _ _ _ _ _ changed picked ran =>
      have same := Lifetime.tables_change (fun _ => changed) service.lifetime
      rcases listed_of_orphan ran listed with kept | visited | rfl
      · refine .inl ?_
        change url ∈ (service.lifetime.change fun _ => changed).tables.frontier.urls
        rw [same]
        exact kept
      · refine .inr (.inl (.inl ?_))
        change url ∈ (service.lifetime.change fun _ => changed).tables.visited
        rw [same]
        exact visited
      · exact .inr (.inl ((justified.orphans url (pick_mem picked)).step sane taken))

/-- A step undoes no reset. -/
theorem resets_mono
    (taken : observing (Service.step env seeds) (remember env) observed event = some after)
    : observed.2.resets ≤ after.2.resets := by
  obtain ⟨_, remembered⟩ := observing_cases taken
  rw [remembered]
  cases event with
  | start => exact Nat.le_add_right ..
  | _ => exact Nat.le_refl _

/-- Nor does a run. -/
theorem resets_of_run {later : Service × History}
    (run : Reaches (observing (step env seeds) (remember env)) observed later)
    : observed.2.resets ≤ later.2.resets := by
  induction run with
  | refl => exact Nat.le_refl _
  | next _ _ taken ih => exact Nat.le_trans ih (resets_mono taken)

/-- A service is sane, and its deletions are justified, in every state that it reaches. -/
theorem justified_of_run (begins : start.Begins)
    (run : Reaches (observing (step env seeds) (remember env)) (start, ⟨[], 0⟩) observed)
    : observed.1.Sane env.backend ∧ Justified env observed := by
  induction run with
  | refl =>
      refine ⟨begins.sane _, ?_⟩
      obtain ⟨tables, rfl⟩ := begins
      refine ⟨fun url member => ?_, fun state runs => ?_⟩
      · cases member
      · cases runs
  | next _ _ taken ih =>
      obtain ⟨sane, justified⟩ := ih
      exact ⟨sane.step (observing_cases taken).1, justified.step sane taken⟩

/-- No address is lost, over any number of lifetimes: from any reachable state on, an address on
the frontier stays there until it is settled, unless a start-up resets a frontier that is too
large. By induction on the rest of the run.
-/
theorem losesNoUrl_over_lifetimes {later : Service × History} (begins : start.Begins)
    (before : Reaches (observing (step env seeds) (remember env)) (start, ⟨[], 0⟩) observed)
    (listed : url ∈ observed.1.tables.frontier.urls)
    (rest : Reaches (observing (step env seeds) (remember env)) observed later)
    : url ∈ later.1.tables.frontier.urls
      ∨ Settled env later url
      ∨ observed.2.resets < later.2.resets := by
  induction rest with
  | refl => exact .inl listed
  | next moved _ taken ih =>
      obtain ⟨sane, justified⟩ := justified_of_run begins (before.trans moved)
      rcases ih with kept | settled | reset
      · rcases step_keeps justified sane taken kept with kept | settled | reset
        · exact .inl kept
        · exact .inr (.inl settled)
        · exact .inr (.inr (Nat.lt_of_le_of_lt (resets_of_run moved) reset))
      · exact .inr (.inl (settled.step sane taken))
      · exact .inr (.inr (Nat.lt_of_lt_of_le reset (resets_mono taken)))

/-- A database with one address on its frontier. -/
def oneListed : Service :=
  ⟨.down ⟨Tables.empty.insertFrontier (seedItem "https://a.example/1"), false⟩, []⟩

/-- A process that crashes while it starts, and one whose crawl cannot fetch the page. -/
def twoLifetimes : List Event :=
  [.boot, .start .succeeds [], .crash, .boot]
  ++ List.replicate 5 (.start .succeeds [])
  ++ [.launch 0 queueLowWater [] (fun _ => 0) 0]
  ++ (State.boot ++ State.readBatch 2 ++ State.vet ++ State.turn 0 3
    ++ State.ending 0).map .crawl

/-- The address that was listed before a crash leaves the frontier once it is settled. -/
theorem losesNoUrl_of_two_lifetimes
    : ∃ later,
        Reaches (observing (step State.plainEnv []) (remember State.plainEnv))
          (oneListed, ⟨[], 0⟩) later
        ∧ "https://a.example/1" ∉ later.1.tables.frontier.urls
        ∧ Settled State.plainEnv later "https://a.example/1" := by
  have passes
      : (execute (observing (step State.plainEnv []) (remember State.plainEnv)) anyStep
          (oneListed, ⟨[], 0⟩) twoLifetimes).any
            (fun later =>
              decide ("https://a.example/1" ∉ later.1.tables.frontier.urls
                ∧ later.2.resets = 0))
          = true := by
    decide +kernel
  obtain ⟨later, run, passed⟩ := exists_run_of_any passes
  obtain ⟨gone, resets⟩ := of_decide_eq_true passed
  have listed : "https://a.example/1" ∈ oneListed.tables.frontier.urls := by
    decide +kernel
  rcases losesNoUrl_over_lifetimes ⟨_, rfl⟩ (.refl _) listed run with kept | settled | reset
  · exact absurd kept gone
  · exact ⟨later, run, gone, settled⟩
  · exact absurd reset (resets ▸ Nat.lt_irrefl 0)

/-- A saved page and a visited address are never lost, over any number of lifetimes. -/
theorem keeps_pages_over_lifetimes {later : Service} (begins : start.Begins)
    (before : Reaches (step env seeds) start service)
    (rest : Reaches (step env seeds) service later)
    : (∀ url ∈ service.tables.nodes.keys, url ∈ later.tables.nodes.keys)
      ∧ ∀ url ∈ service.tables.visited, url ∈ later.tables.visited := by
  have sane {reached : Service} (run : Reaches (step env seeds) start reached)
      : reached.Sane env.backend :=
    run.invariant (begins.sane _) fun sane _ taken => sane.step taken
  induction rest with
  | refl => exact ⟨fun _ saved => saved, fun _ visited => visited⟩
  | next moved _ taken ih =>
      obtain ⟨visited, saved⟩ := mono_of_step (sane (before.trans moved)) taken
      exact ⟨fun url old => saved url (ih.1 url old), fun url old => visited url (ih.2 url old)⟩

/-- A crash, and a process that boots and crawls again. -/
def nextLifetime : List Event :=
  .crash :: .boot :: List.replicate 6 (.start .succeeds [])
    ++ [.launch 1 queueLowWater [] (fun _ => 0) 0]

/-- The page that one lifetime has saved is there in the next one. -/
theorem keeps_pages_of_two_lifetimes
    : ∃ service later,
        Reaches (step State.plainEnv ["https://a.example/1"]) fresh service
        ∧ service.tables.nodes.keys = ["https://a.example/1"]
        ∧ Reaches (step State.plainEnv ["https://a.example/1"]) service later
        ∧ "https://a.example/1" ∈ later.tables.nodes.keys := by
  have passes
      : (execute (step State.plainEnv ["https://a.example/1"]) anyStep fresh savingLifetime).any
          (fun service => decide (service.tables.nodes.keys = ["https://a.example/1"]
            ∧ (execute (step State.plainEnv ["https://a.example/1"]) anyStep service
              nextLifetime).isSome = true))
        = true := by
    decide +kernel
  obtain ⟨service, before, passed⟩ := exists_run_of_any passes
  obtain ⟨saved, goes⟩ := of_decide_eq_true passed
  obtain ⟨later, executed⟩ := Option.isSome_iff_exists.mp goes
  have rest := run_of_execute executed
  refine ⟨service, later, before, saved, rest, ?_⟩
  exact (keeps_pages_over_lifetimes ⟨_, rfl⟩ before rest).1 _ (saved ▸ List.mem_cons_self)

end Service

end WebIndexer.Crawl
