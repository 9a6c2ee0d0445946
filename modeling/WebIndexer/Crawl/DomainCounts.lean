import WebIndexer.Crawl.DomainCap
import WebIndexer.Crawl.Refresh
import WebIndexer.Library.History

/-! The cached numbers of pages per domain. A saved page adds one to the count of its domain, while
the store overwrites the row of an address that it has already, so that the counts are those of
the table until a stored address is saved again, and from the next full refresh on.
-/

namespace WebIndexer.Store

/-- The row that a statement overwrites. -/
def Tables.overwritten (tables : Tables) : Statement → Option NodeRow
  | .saveNode page => tables.nodes.get? page.url
  | _ => none

end WebIndexer.Store

namespace WebIndexer.Crawl

open WebIndexer.Config
open WebIndexer.Fetcher
open WebIndexer.Library
open WebIndexer.Runtime
open WebIndexer.Store

-----------------------------------------------------------------------------------------
-- The counts of the table
-----------------------------------------------------------------------------------------

/-- Assignments to other keys leave the value of a key, by induction over them. -/
theorem foldl_assign_of_not_mem {counts : List (String × Nat)} {map : String → Nat}
    {domain : String} (absent : domain ∉ counts.map Prod.fst)
    : counts.foldl (fun map entry => assign map entry.1 entry.2) map domain = map domain := by
  induction counts generalizing map with
  | nil => rfl
  | cons entry rest ih =>
      obtain ⟨differs, absent⟩ := not_or.mp (List.mem_cons.not.mp absent)
      rw [List.foldl_cons, ih absent, assign_of_ne _ differs]

/-- The value of a key that is assigned once is the assigned one, by induction over the
assignments.
-/
theorem foldl_assign_of_mem {counts : List (String × Nat)} {map : String → Nat}
    {domain : String} {count : Nat} (distinct : (counts.map Prod.fst).Nodup)
    (member : (domain, count) ∈ counts)
    : counts.foldl (fun map entry => assign map entry.1 entry.2) map domain = count := by
  induction counts generalizing map with
  | nil => cases member
  | cons entry rest ih =>
      obtain ⟨absent, distinct⟩ := List.nodup_cons.mp distinct
      rcases List.mem_cons.mp member with rfl | later
      · rw [List.foldl_cons, foldl_assign_of_not_mem absent, assign_same]
      · exact ih distinct later

/-- The rows of a domain are those that the grouping counts. -/
theorem rowsOf_eq_count (tables : Tables) (domain : String)
    : rowsOf tables domain
      = (tables.nodes.entries.map fun entry => entry.2.domain).count domain := by
  rw [rowsOf, List.count, List.countP_map]
  exact List.countP_congr fun entry _ => by simp

/-- The map that `fullRefresh` builds holds the number of rows of each domain. -/
theorem countsMap_domainCount (tables : Tables) (domain : String)
    : Shared.countsMap tables.domainCount domain = rowsOf tables domain := by
  rw [rowsOf_eq_count, Shared.countsMap]
  by_cases listed : domain ∈ tables.nodes.entries.map fun entry => entry.2.domain
  · refine foldl_assign_of_mem (nodup_domainCount tables) ?_
    exact List.mem_map.mpr ⟨domain, List.mem_eraseDups.mpr listed, rfl⟩
  · rw [List.count_eq_zero.mpr listed]
    refine foldl_assign_of_not_mem fun counted => listed ?_
    obtain ⟨entry, member, rfl⟩ := List.mem_map.mp counted
    obtain ⟨other, found, rfl⟩ := List.mem_map.mp member
    exact List.mem_eraseDups.mp found

-----------------------------------------------------------------------------------------
-- What threads have written or read
-----------------------------------------------------------------------------------------

/-- The page that the thread has saved, and not counted yet. -/
def Thread.uncounted (thread : Thread) : Option PageData :=
  match thread.point, thread.phase with
  | .saved _ page _, .ready (.reply (some _)) => some page
  | _, _ => none

/-- The counts that the thread has read, and not stored yet. -/
def Thread.readCounts (thread : Thread) : Option (List (String × Nat)) :=
  match thread.point, thread.phase with
  | .countsRead, .ready (.reply (some (.counts counts))) => some counts
  | _, _ => none

/-- A thread without a reply has saved no page. -/
theorem Thread.uncounted_of_fresh {thread : Thread} (fresh : thread.phase.isReply = false)
    : thread.uncounted = none := by
  obtain ⟨phase, point⟩ := thread
  unfold uncounted
  split
  · rename_i answered
    rw [answered] at fresh
    cases fresh
  · rfl

/-- A thread without a reply has read no counts. -/
theorem Thread.readCounts_of_fresh {thread : Thread} (fresh : thread.phase.isReply = false)
    : thread.readCounts = none := by
  obtain ⟨phase, point⟩ := thread
  unfold readCounts
  split
  · rename_i answered
    rw [answered] at fresh
    cases fresh
  · rfl

/-- Only a thread that saves a page has saved one. -/
theorem Thread.uncounted_of_statement {phase : Phase} {point : Point} {statement : Statement}
    (waits : point.statement = some statement) (other : ∀ page, statement ≠ .saveNode page)
    : (Thread.mk phase point).uncounted = none := by
  cases point with
  | saved job page links => exact absurd (Option.some.inj waits).symm (other page)
  | _ => rfl

/-- Only a thread that reads the counts has read them. -/
theorem Thread.readCounts_of_statement {phase : Phase} {point : Point} {statement : Statement}
    (waits : point.statement = some statement) (other : statement ≠ .domainCount)
    : (Thread.mk phase point).readCounts = none := by
  cases point with
  | countsRead => exact absurd (Option.some.inj waits).symm other
  | _ => rfl

/-- A rejected statement leaves nothing to be counted or stored. -/
theorem Thread.uncounted_of_rejected (point : Point)
    : (Thread.mk (.ready (.reply none)) point).uncounted = none := by
  cases point <;> rfl

/-- A rejected statement leaves nothing to be stored. -/
theorem Thread.readCounts_of_rejected (point : Point)
    : (Thread.mk (.ready (.reply none)) point).readCounts = none := by
  cases point <;> rfl

namespace State

/-- The pages that have been saved, and not counted yet: their handlers are between `saveNode` and
`incrementDomainCount`.
-/
def uncounted (state : State) : List PageData :=
  state.threads.filterMap Thread.uncounted

/-- The counts that have been read, and not stored yet. -/
def readCounts (state : State) : List (List (String × Nat)) :=
  state.threads.filterMap Thread.readCounts

/-- The statement that a label ends. -/
def executing (state : State) (label : Label) : Option Statement :=
  (state.acting label).bind fun thread => thread.point.statement

/-- A full refresh does not pause: it does not read the counts while a handler is about to go on
after its save, and no page is saved before it has stored them.
-/
def Uninterrupted (state : State) : Statement → Prop
  | .domainCount => state.uncounted = []
  | .saveNode _ => state.readCounts = []
  | _ => True

instance (state : State) : DecidablePred state.Uninterrupted := fun statement =>
  match statement with
  | .domainCount => inferInstanceAs (Decidable (state.uncounted = []))
  | .saveNode _ => inferInstanceAs (Decidable (state.readCounts = []))
  | .getMinId | .getBatch .. | .isVisited _ | .markVisited _ | .insertFrontier _
  | .deleteFromFrontier _ | .clearProcessed | .nodeCount | .frontierCount | .domainPop
  | .recrawlTargets _ | .insertManyFrontier _ => .isTrue trivial

/-- What the driver of SQLite allows. Its statements return at once, so that no answer is lost, and
a handler goes on after its statement before any timer fires.
-/
def Immediate (state : State) : Label → Prop
  | .exec index ending choice =>
      ending ≠ .answerLost
      ∧ ∀ statement ∈ state.executing (.exec index ending choice), state.Uninterrupted statement
  | _ => True

instance : DecidableRel Immediate := fun state label =>
  match label with
  | .exec index ending choice =>
      inferInstanceAs (Decidable (ending ≠ .answerLost
        ∧ ∀ statement ∈ state.executing (.exec index ending choice),
          state.Uninterrupted statement))
  | .tick _ | .http .. | .record _ | .wake _ | .run _ | .statsTimer | .clearTimer | .diskTimer ..
  | .message .. => .isTrue trivial

/-- The row that a label overwrites. -/
def overwriting (state : State) : Label → Option NodeRow
  | .exec index ending choice =>
      if ending = .rejected then
        none
      else
        (state.executing (.exec index ending choice)).bind state.shared.tables.overwritten
  | _ => none

/-- The label stores the counts of a full refresh. -/
def refreshing (state : State) : Label → Bool
  | .run _ => (state.running.bind Thread.readCounts).isSome
  | _ => false

/-- The domains of the rows that have been overwritten since the last full refresh, if there has
been one.
-/
def remember (state : State) (label : Label) (since : Option (List String))
    : Option (List String) :=
  if state.refreshing label then
    some []
  else
    since.map fun overwritten =>
      ((state.overwriting label).map NodeRow.domain).toList ++ overwritten

/-- The step of a crawl, with the rows overwritten since the last full refresh. -/
def refreshed (env : Env)
    : State × Option (List String) → Label → Option (State × Option (List String)) :=
  observing (step env) remember

/-- The count of each domain is the number of its rows. -/
def CountsMatch (state : State) : Prop :=
  ∀ domain, state.shared.crawl.domainNodeCount domain = rowsOf state.shared.tables domain

/-- A crawl begins after a full refresh, or after one that has failed. -/
inductive Loaded (start : State) : Option (List String) → Prop
  | refreshed (counted : start.CountsMatch) : Loaded start (some [])
  | failed : Loaded start none

end State

-----------------------------------------------------------------------------------------
-- What a piece does to the counts
-----------------------------------------------------------------------------------------

/-- How a piece moves the counts of domains: it stores what it has read, it counts the page that it
has saved, or it leaves them.
-/
inductive DomainCounting (shared : Shared) (thread : Thread) (after : String → Nat) : Prop
  | stores {counts : List (String × Nat)} (read : thread.readCounts = some counts)
    (none : thread.uncounted = none)
    (same : after = Shared.countsMap counts)
  | increments {page : PageData} (saved : thread.uncounted = some page)
    (none : thread.readCounts = none)
    (same : after = (shared.crawl.incrementDomainCount page.dom).domainNodeCount)
  | keeps (unread : thread.readCounts = none) (none : thread.uncounted = none)
    (same : after = shared.crawl.domainNodeCount)

variable {env : Env}

/-- Pieces that save no page and store no counts leave the counts of domains. -/
theorem Flow.domainNodeCount_eq {shared : Shared} {seeds : List String} {input : Input}
    {point : Point} {outcome : Outcome} (flow : Flow env shared seeds input point outcome)
    (unsaved : ∀ job page links, point ≠ .saved job page links) (unread : point ≠ .countsRead)
    : outcome.shared.crawl.domainNodeCount = shared.crawl.domainNodeCount := by
  cases flow with
  | asking _ _ _ fetch => exact congrArg CrawlState.domainNodeCount fetch.crawl_eq
  | started fetch =>
      have taken := congrArg CrawlState.domainNodeCount fetch.crawl_eq
      exact taken
  | savedLeaf | savedLinks | saveFailed => exact absurd rfl (unsaved _ _ _)
  | countsRead => exact absurd rfl unread
  | _ => rfl

/-- The counts move with the page that a piece has saved, or with what it has read. -/
theorem Shared.resume_domainCounting (env : Env) (shared : Shared) (seeds : List String)
    (input : Input) (point : Point)
    : DomainCounting shared ⟨.ready input, point⟩
        (shared.resume env seeds input point).shared.crawl.domainNodeCount := by
  have flow := shared.resume_flow env seeds input point
  cases point with
  | saved job page links =>
      cases answered : input.value? with
      | some value =>
          obtain rfl := Input.eq_of_value? answered
          refine .increments rfl rfl ?_
          simp only [Shared.resume, Shared.saved, Input.value?]
          split <;> rfl
      | none =>
          have unsaved : Thread.uncounted ⟨.ready input, .saved job page links⟩ = none := by
            cases input with
            | reply reply => cases answered; rfl
            | nothing | response => rfl
          refine .keeps rfl unsaved ?_
          simp only [Shared.resume, Shared.saved, answered]
          rfl
  | countsRead =>
      by_cases read : ∃ counts, input = .reply (some (.counts counts))
      · obtain ⟨counts, rfl⟩ := read
        exact .stores rfl rfl rfl
      · have none : Thread.readCounts ⟨.ready input, .countsRead⟩ = none := by
          unfold Thread.readCounts
          split
          · rename_i answered
            cases answered
            exact absurd ⟨_, rfl⟩ read
          · rfl
        refine .keeps none rfl ?_
        simp only [Shared.resume]
        split
        · rename_i found
          exact absurd ⟨_, Input.eq_of_value? found⟩ read
        · rfl
  | _ => exact .keeps rfl rfl (flow.domainNodeCount_eq (by simp) (by simp))

namespace State

variable {start : State} {state next : State × Option (List String)} {label : Label}

/-- A count that has been read is that of the table, and no page is to be counted. The count of a
domain, with the pages that are to be counted, exceeds the rows by those overwritten since the
last full refresh.
-/
structure CountsDrift (state : State × Option (List String)) : Prop where
  read
    : ∀ counts ∈ state.1.readCounts,
        state.1.uncounted = []
        ∧ ∀ domain, Shared.countsMap counts domain = rowsOf state.1.shared.tables domain
  counted
    : ∀ overwritten, state.2 = some overwritten → ∀ domain,
        state.1.shared.crawl.domainNodeCount domain
            + state.1.uncounted.countP (fun page => page.dom = domain)
          = rowsOf state.1.shared.tables domain + overwritten.count domain

/-- A step that neither refreshes nor overwrites leaves the history. -/
theorem remember_of_quiet {state : State} {since : Option (List String)}
    (kept : state.refreshing label = false) (none : state.overwriting label = none)
    : state.remember label since = since := by
  cases since <;> simp [remember, kept, none]

/-- A label that ends no statement overwrites no row. -/
theorem overwriting_of_other {state : State}
    (other : ∀ index ending choice, label ≠ .exec index ending choice)
    : state.overwriting label = none := by
  cases label with
  | exec index ending choice => exact absurd rfl (other index ending choice)
  | _ => rfl

/-- A label that runs no piece stores no counts. -/
theorem refreshing_of_other {state : State} (other : ∀ seeds, label ≠ .run seeds)
    : state.refreshing label = false := by
  cases label with
  | run seeds => exact absurd rfl (other seeds)
  | _ => rfl

/-- A step that moves no count, writes no page, and gives no thread a page or counts to store
keeps the account.
-/
theorem CountsDrift.of_quiet (drift : CountsDrift state)
    (nodes : next.1.shared.tables.nodes = state.1.shared.tables.nodes)
    (counts : next.1.shared.crawl.domainNodeCount = state.1.shared.crawl.domainNodeCount)
    (uncounted : next.1.uncounted.Perm state.1.uncounted)
    (read : next.1.readCounts ⊆ state.1.readCounts) (since : next.2 = state.2)
    : CountsDrift next := by
  have rows (domain : String)
      : rowsOf next.1.shared.tables domain = rowsOf state.1.shared.tables domain := by
    rw [rowsOf, rowsOf, nodes]
  constructor
  · intro held member
    obtain ⟨none, same⟩ := drift.read held (read member)
    rw [none] at uncounted
    refine ⟨uncounted.eq_nil, fun domain => ?_⟩
    rw [rows]
    exact same domain
  · intro overwritten remembered domain
    rw [counts, rows, uncounted.countP_eq]
    exact drift.counted overwritten (since ▸ remembered) domain

/-- A piece stores the counts that it has read, counts the page that it has saved, or leaves the
account.
-/
theorem CountsDrift.run {seeds : List String} {input : Input} {point : Point}
    (drift : CountsDrift state)
    (running : state.1.running = some ⟨.ready input, point⟩)
    (shared : next.1.shared = (state.1.shared.resume env seeds input point).shared)
    (before : state.1.threads = ⟨.ready input, point⟩ :: state.1.pool)
    (after : next.1.threads
      = (state.1.shared.resume env seeds input point).threads ++ state.1.pool)
    (noted : next.2 = state.1.remember (.run seeds) state.2)
    : CountsDrift next := by
  have fresh := (state.1.shared.resume_cases env seeds input point).fresh
  have tables : next.1.shared.tables = state.1.shared.tables := by
    rw [shared, Shared.tables_resume]
  -- the pool is what is left of the threads that have saved a page or read counts
  have left : next.1.uncounted = state.1.pool.filterMap Thread.uncounted := by
    rw [uncounted, after, List.filterMap_append, List.filterMap_eq_nil_iff.mpr
      fun thread member => Thread.uncounted_of_fresh (fresh thread member)]
    rfl
  have leftRead : next.1.readCounts = state.1.pool.filterMap Thread.readCounts := by
    rw [readCounts, after, List.filterMap_append, List.filterMap_eq_nil_iff.mpr
      fun thread member => Thread.readCounts_of_fresh (fresh thread member)]
    rfl
  have fewer : next.1.readCounts ⊆ state.1.readCounts := by
    rw [leftRead, readCounts, before]
    exact List.filterMap_subset _ (List.subset_cons_self ..)
  cases state.1.shared.resume_domainCounting env seeds input point with
  | @stores counts read none same =>
      have stored : counts ∈ state.1.readCounts := by
        rw [readCounts, before, List.filterMap_cons_some read]
        exact List.mem_cons_self
      obtain ⟨quiet, matching⟩ := drift.read counts stored
      rw [uncounted, before, List.filterMap_cons_none none, ← left] at quiet
      constructor
      · intro held member
        rw [tables]
        exact ⟨quiet, (drift.read held (fewer member)).2⟩
      · intro overwritten remembered domain
        have refreshes : state.1.remember (.run seeds) state.2 = some [] := by
          simp [remember, refreshing, running, read]
        obtain rfl := Option.some.inj (remembered.symm.trans (noted.trans refreshes))
        rw [quiet, shared, same, ← shared, tables, matching domain]
        rfl
  | @increments page saved none same =>
      have pending : state.1.uncounted = page :: next.1.uncounted := by
        rw [uncounted, before, List.filterMap_cons_some saved, left]
      have since : next.2 = state.2 :=
        noted.trans (remember_of_quiet (by simp [refreshing, running, none]) rfl)
      constructor
      · intro held member
        have quiet := (drift.read held (fewer member)).1
        rw [pending] at quiet
        cases quiet
      · intro overwritten remembered domain
        have counted := drift.counted overwritten (since ▸ remembered) domain
        rw [pending, List.countP_cons] at counted
        rw [shared, same, ← shared, tables, CrawlState.domainNodeCount_incrementDomainCount]
        simp only [decide_eq_true_eq] at counted
        omega
  | keeps unread none same =>
      refine drift.of_quiet (by rw [tables]) (by rw [shared, same]) (.of_eq ?_) fewer ?_
      · rw [left, uncounted, before, List.filterMap_cons_none none]
      · exact noted.trans (remember_of_quiet (by simp [refreshing, running, unread]) rfl)

/-- A saved page is to be counted, and its row takes the place of the one that it overwrites. -/
theorem CountsDrift.saved {index : Nat} {choice : Choice} {job : FrontierItem} {page : PageData}
    {links : List String} {tables : Tables} {value : Value} {rest : List Thread}
    (drift : CountsDrift state) (met : Immediate state.1 (.exec index .succeeds choice))
    (names : state.1.executing (.exec index .succeeds choice) = some (.saveNode page))
    (written : tables.nodes = state.1.shared.tables.nodes.set page.url (Tables.nodeRow page))
    (shared : next.1.shared = { state.1.shared with tables := tables })
    (others : state.1.uncounted.Perm (rest.filterMap Thread.uncounted))
    (othersRead : state.1.readCounts.Perm (rest.filterMap Thread.readCounts))
    (after : next.1.threads = ⟨.ready (.reply (some value)), .saved job page links⟩ :: rest)
    (noted : next.2 = state.1.remember (.exec index .succeeds choice) state.2)
    : CountsDrift next := by
  have saves : Thread.uncounted ⟨.ready (.reply (some value)), .saved job page links⟩
      = some page := rfl
  have reads : Thread.readCounts ⟨.ready (.reply (some value)), .saved job page links⟩
      = none := rfl
  have unread : next.1.readCounts = [] := by
    rw [readCounts, after, List.filterMap_cons_none reads]
    have empty : state.1.readCounts = [] := met.2 _ names
    exact (empty ▸ othersRead).symm.eq_nil
  have pending : next.1.uncounted.Perm (page :: state.1.uncounted) := by
    rw [uncounted, after, List.filterMap_cons_some saves]
    exact others.symm.cons page
  constructor
  · intro held member
    rw [unread] at member
    cases member
  · intro overwritten remembered domain
    have overwrites : state.1.overwriting (.exec index .succeeds choice)
        = state.1.shared.tables.nodes.get? page.url := by
      simp [overwriting, names, Tables.overwritten]
    have row := state.1.shared.tables.nodes.countP_set page.url (Tables.nodeRow page)
      fun entry => decide (entry.2.domain = domain)
    rw [← written] at row
    have since : state.1.remember (.exec index .succeeds choice) state.2
        = state.2.map fun earlier =>
            ((state.1.shared.tables.nodes.get? page.url).map NodeRow.domain).toList ++ earlier := by
      simp [remember, refreshing, overwrites]
    obtain ⟨earlier, known, rfl⟩ :=
      Option.map_eq_some_iff.mp ((noted.trans since).symm.trans remembered)
    have counted := drift.counted earlier known domain
    have replaced
        : ((state.1.shared.tables.nodes.get? page.url).map NodeRow.domain).toList.count domain
          = if (state.1.shared.tables.nodes.get? page.url).any
              (fun old => decide (old.domain = domain)) then 1 else 0 := by
      cases state.1.shared.tables.nodes.get? page.url with
      | none => rfl
      | some old => simp [List.count_cons]
    have own : (Tables.nodeRow page).domain = page.dom := rfl
    have counts : next.1.shared.crawl.domainNodeCount domain
        = state.1.shared.crawl.domainNodeCount domain := by rw [shared]
    have rows : rowsOf next.1.shared.tables domain
        = tables.nodes.entries.countP fun entry => decide (entry.2.domain = domain) := by
      rw [shared]
      rfl
    rw [pending.countP_eq, List.countP_cons, counts, rows, List.count_append, replaced]
    rw [rowsOf] at counted
    simp only [own] at row
    omega

/-- The counts are read while no saved page is to be counted, and are those of the table. -/
theorem CountsDrift.recounted {rest : List Thread} (drift : CountsDrift state)
    (empty : state.1.uncounted = []) (shared : next.1.shared = state.1.shared)
    (others : state.1.uncounted.Perm (rest.filterMap Thread.uncounted))
    (othersRead : state.1.readCounts.Perm (rest.filterMap Thread.readCounts))
    (after : next.1.threads
      = ⟨.ready (.reply (some (.counts state.1.shared.tables.domainCount))), .countsRead⟩ :: rest)
    (since : next.2 = state.2)
    : CountsDrift next := by
  have reads : Thread.readCounts
      ⟨.ready (.reply (some (.counts state.1.shared.tables.domainCount))), .countsRead⟩
      = some state.1.shared.tables.domainCount := rfl
  have emptied : next.1.uncounted = [] := by
    rw [uncounted, after, List.filterMap_cons_none rfl]
    exact (empty ▸ others).symm.eq_nil
  constructor
  · intro held member
    rw [readCounts, after, List.filterMap_cons_some reads] at member
    refine ⟨emptied, fun domain => ?_⟩
    rw [shared]
    rcases List.mem_cons.mp member with rfl | old
    · exact countsMap_domainCount state.1.shared.tables domain
    · exact (drift.read held (othersRead.symm.subset old)).2 domain
  · intro overwritten remembered domain
    rw [emptied, shared, ← empty]
    exact drift.counted overwritten (since ▸ remembered) domain

/-- A statement writes a row that is to be counted, or reads the counts of the table. -/
theorem CountsDrift.exec {index : Nat} {ending : Ending} {choice : Choice} {point : Point}
    {statement : Statement} {tables : Tables} {reply : Option Value} {rest : List Thread}
    (drift : CountsDrift state) (met : Immediate state.1 (.exec index ending choice))
    (acting : state.1.acting (.exec index ending choice) = some ⟨.statement, point⟩)
    (waits : point.statement = some statement)
    (executed : Executed env state.1.shared.tables statement ending tables reply)
    (shared : next.1.shared = { state.1.shared with tables := tables })
    (before : state.1.threads.Perm (⟨.statement, point⟩ :: rest))
    (after : next.1.threads = ⟨.ready (.reply reply), point⟩ :: rest)
    (noted : next.2 = state.1.remember (.exec index ending choice) state.2)
    : CountsDrift next := by
  have names : state.1.executing (.exec index ending choice) = some statement := by
    simp [executing, acting, waits]
  have counts : next.1.shared.crawl.domainNodeCount = state.1.shared.crawl.domainNodeCount := by
    rw [shared]
  have tables_eq : next.1.shared.tables = tables := by rw [shared]
  -- the other threads are all that have saved a page or read counts before
  have others : state.1.uncounted.Perm (rest.filterMap Thread.uncounted) := by
    refine (before.filterMap _).trans (.of_eq ?_)
    exact List.filterMap_cons_none (Thread.uncounted_of_fresh rfl)
  have othersRead : state.1.readCounts.Perm (rest.filterMap Thread.readCounts) := by
    refine (before.filterMap _).trans (.of_eq ?_)
    exact List.filterMap_cons_none (Thread.readCounts_of_fresh rfl)
  have quiet (nodes : tables.nodes = state.1.shared.tables.nodes)
      (saves : Thread.uncounted ⟨.ready (.reply reply), point⟩ = none)
      (reads : Thread.readCounts ⟨.ready (.reply reply), point⟩ = none)
      (none : state.1.overwriting (.exec index ending choice) = none)
      : CountsDrift next := by
    refine drift.of_quiet (by rw [tables_eq, nodes]) counts ?_ ?_
      (noted.trans (remember_of_quiet rfl none))
    · rw [uncounted, after, List.filterMap_cons_none saves]
      exact others.symm
    · rw [readCounts, after, List.filterMap_cons_none reads]
      exact othersRead.symm.subset
  cases executed with
  | lost => exact absurd rfl met.1
  | rejected =>
      exact quiet rfl (Thread.uncounted_of_rejected point) (Thread.readCounts_of_rejected point)
        (by simp [overwriting])
  | @done chosen _ value ran =>
      by_cases saves : ∃ page, statement = .saveNode page
      · obtain ⟨page, rfl⟩ := saves
        obtain ⟨job, links, rfl⟩ := Point.eq_saved waits
        obtain ⟨rfl, rfl⟩ := Prod.mk.inj (Option.some.inj ran)
        exact drift.saved met names Tables.nodes_saveNode shared others othersRead after noted
      · have other : ∀ page, statement ≠ .saveNode page := fun page same => saves ⟨page, same⟩
        have nodes : tables.nodes = state.1.shared.tables.nodes := by
          rcases Tables.nodes_run ran with same | ⟨page, same, _⟩
          · exact same
          · exact absurd same (other page)
        have none : state.1.overwriting (.exec index .succeeds choice) = none := by
          have kept : state.1.shared.tables.overwritten statement = none := by
            cases statement with
            | saveNode page => exact absurd rfl (other page)
            | _ => rfl
          simp [overwriting, names, kept]
        by_cases reads : statement = .domainCount
        · subst reads
          obtain ⟨rfl, rfl⟩ := Prod.mk.inj (Option.some.inj ran)
          have point_eq : point = .countsRead := by
            cases point <;> first | rfl | cases waits
          subst point_eq
          exact drift.recounted (met.2 _ names) shared others othersRead after
            (noted.trans (remember_of_quiet rfl none))
        · exact quiet nodes (Thread.uncounted_of_statement waits other)
            (Thread.readCounts_of_statement waits reads) none

/-- A thread that moves on without a reply keeps the account. -/
theorem CountsDrift.of_moved {old new : Thread} {rest : List Thread} (drift : CountsDrift state)
    (nodes : next.1.shared.tables.nodes = state.1.shared.tables.nodes)
    (counts : next.1.shared.crawl.domainNodeCount = state.1.shared.crawl.domainNodeCount)
    (since : next.2 = state.2)
    (before : state.1.threads.Perm (old :: rest)) (after : next.1.threads = new :: rest)
    (fresh : old.phase.isReply = false) (unanswered : new.phase.isReply = false)
    : CountsDrift next := by
  refine drift.of_quiet nodes counts ?_ ?_ since
  · rw [uncounted, uncounted, after,
      List.filterMap_cons_none (Thread.uncounted_of_fresh unanswered)]
    refine ((before.filterMap _).trans (.of_eq ?_)).symm
    exact List.filterMap_cons_none (Thread.uncounted_of_fresh fresh)
  · rw [readCounts, readCounts, after,
      List.filterMap_cons_none (Thread.readCounts_of_fresh unanswered)]
    refine fun held member => (before.filterMap _).symm.subset ?_
    rw [List.filterMap_cons_none (Thread.readCounts_of_fresh fresh)]
    exact member

/-- The account is kept by every step that SQLite can take. -/
theorem CountsDrift.step (drift : CountsDrift state) (met : Immediate state.1 label)
    (taken : refreshed env state label = some next)
    : CountsDrift next := by
  obtain ⟨stepped, noted⟩ := observing_cases taken
  by_cases executes : ∃ index ending choice, label = .exec index ending choice
  · obtain ⟨index, ending, choice, rfl⟩ := executes
    obtain ⟨point, statement, tables, reply, rest, idle, picked, waits, executed, shared,
      after⟩ := step_exec stepped
    have acting : state.1.acting (.exec index ending choice) = some ⟨.statement, point⟩ := by
      simp [State.acting, picked]
    exact drift.exec met acting waits executed shared (threads_of_pick idle picked) after
      noted
  · have other : ∀ index ending choice, label ≠ .exec index ending choice :=
      fun index ending choice same => executes ⟨index, ending, choice, same⟩
    have quiet (same : ∀ seeds, label ≠ .run seeds) : next.2 = state.2 :=
      noted.trans (remember_of_quiet (refreshing_of_other same) (overwriting_of_other other))
    cases step_cases stepped with
    | still _ _ unmoved shared after =>
        refine drift.of_quiet (by rw [shared]) (by rw [shared]) (after.filterMap _) ?_
          (quiet unmoved)
        exact (after.filterMap _).subset
    | begin _ unmoved background shared after =>
        refine drift.of_quiet (by rw [shared]) (by rw [shared]) (.of_eq ?_) ?_
          (quiet unmoved)
        · rw [uncounted, after,
            List.filterMap_cons_none (Thread.uncounted_of_fresh background.fresh)]
          rfl
        · rw [readCounts, after,
            List.filterMap_cons_none (Thread.readCounts_of_fresh background.fresh)]
          exact List.Subset.refl _
    | run running shared before after => exact drift.run running shared before after noted
    | exec => exact absurd rfl (other _ _ _)
    | redirect fetch before after =>
        refine drift.of_moved (congrArg Tables.nodes (Extends.of_fetch fetch).tables)
          (congrArg CrawlState.domainNodeCount fetch.crawl_eq) (quiet (by simp)) before after rfl
          fetch.fresh
    | settle _ shared before after =>
        exact drift.of_moved (by rw [shared]) (by rw [shared]) (quiet (by simp)) before after
          rfl rfl
    | record shared before after =>
        exact drift.of_moved (by rw [shared]) (by rw [shared]) (quiet (by simp)) before after
          rfl rfl

/-- A crawl that begins has saved no page and read no counts. -/
theorem Begins.countsDrift {since : Option (List String)} (begins : start.Begins)
    (loaded : Loaded start since)
    : CountsDrift (start, since) := by
  have idle : start.uncounted = [] ∧ start.readCounts = [] := by
    obtain ⟨_, _, _, _, _, _, rfl⟩ := begins
    exact ⟨rfl, rfl⟩
  constructor
  · intro held member
    rw [idle.2] at member
    cases member
  · intro overwritten remembered domain
    rw [idle.1]
    cases loaded with
    | refreshed counted =>
        obtain rfl := Option.some.inj remembered
        exact counted domain
    | failed => cases remembered

/-- After a full refresh, and while no handler is between its save and its count, the counts are
those of the table if and only if no stored row has been overwritten since the last one.
-/
theorem countsMatch_iff {state : State} {since : Option (List String)}
    {overwritten : List String} (begins : start.Begins) (loaded : Loaded start since)
    (run : Run (refreshed env) (fun state => Immediate state.1) (start, since)
      (state, some overwritten))
    (quiet : state.uncounted = [])
    : state.CountsMatch ↔ overwritten = [] := by
  have drift : CountsDrift (state, some overwritten) :=
    run.invariant (begins.countsDrift loaded) fun drift met taken => drift.step met taken
  have counted (domain : String)
      : state.shared.crawl.domainNodeCount domain
        = rowsOf state.shared.tables domain + overwritten.count domain := by
    have exceeds := drift.counted overwritten rfl domain
    rw [quiet] at exceeds
    exact exceeds
  constructor
  · intro matching
    refine List.eq_nil_iff_forall_not_mem.mpr fun domain member => ?_
    have positive := List.count_pos_iff.mpr member
    have same := matching domain
    have exceeds := counted domain
    omega
  · rintro rfl domain
    exact counted domain

/-- Plain pages on SQLite. -/
def sqliteEnv : Env := { plainEnv with backend := .sqlite }

/-- The counts match after the page of a seed has been saved and counted. -/
theorem countsMatch_of_pageSaved
    : ∃ state,
        Run (refreshed sqliteEnv) (fun state => Immediate state.1)
            (seededCrawl "https://a.example/1", some []) (state, some [])
        ∧ rowsOf state.shared.tables "a.example" = 1
        ∧ state.CountsMatch := by
  have executed
      : (execute (refreshed sqliteEnv) (fun state => Immediate state.1)
          (seededCrawl "https://a.example/1", some []) pageSaved).any
          (fun state => rowsOf state.1.shared.tables "a.example" = 1
            ∧ state.1.uncounted = [] ∧ state.2 = some [])
        = true := by
    decide +kernel
  obtain ⟨⟨state, since⟩, run, reached⟩ := exists_run_of_any executed
  obtain ⟨saved, quiet, rfl⟩ := of_decide_eq_true reached
  have begins : (seededCrawl "https://a.example/1").Begins := ⟨_, _, _, _, _, _, rfl⟩
  have loaded : Loaded (seededCrawl "https://a.example/1") (some []) :=
    .refreshed fun _ => rfl
  exact ⟨state, run, saved, (countsMatch_iff begins loaded run quiet).mpr rfl⟩

/-- A page is stored, and a redirect that leads to it is queued. -/
def storedTables : Tables :=
  let start := seededCrawl "https://a.example/old"
  start.shared.tables.upsertNode
    (start.shared.pageData sqliteEnv ⟨"https://a.example/1", 0, none⟩ "https://a.example/1"
      (sqliteEnv.parsePage "" ""))

/-- The crawl goes on, with the counts of a full refresh. -/
def storedCrawl : State :=
  initial storedTables (.load 1 queueLowWater [] (Shared.countsMap storedTables.domainCount)) 0

/-- The redirect leads to the stored page, which is saved again and counted twice. -/
theorem countsMatch_fails_for_redirect
    : ¬ ∀ (env : Env) (start state : State) (since since' : Option (List String)),
        env.backend = .sqlite → start.Begins → Loaded start since → since' ≠ none →
          Run (refreshed env) (fun state => Immediate state.1) (start, since) (state, since') →
            state.uncounted = [] → state.CountsMatch := by
  intro claim
  have executed
      : (execute (refreshed sqliteEnv) (fun state => Immediate state.1) (storedCrawl, some [])
          (boot ++ readBatch 2 ++ vet ++ turn 0 3
            ++ [.http 0 (.redirect "https://a.example/1"), .http 0 (.page ""), .record 0]
            ++ turn 0 1 ++ [reply 0] ++ turn 0 1)).any
          (fun state => state.1.shared.crawl.domainNodeCount "a.example" = 2
            ∧ rowsOf state.1.shared.tables "a.example" = 1
            ∧ state.1.uncounted = [] ∧ state.2 ≠ none)
        = true := by
    decide +kernel
  obtain ⟨⟨state, since⟩, run, reached⟩ := exists_run_of_any executed
  obtain ⟨count, rows, quiet, refreshed⟩ := of_decide_eq_true reached
  have loaded : Loaded storedCrawl (some []) := .refreshed (countsMap_domainCount storedTables)
  have same := claim sqliteEnv storedCrawl state _ _ rfl ⟨_, _, _, _, _, _, rfl⟩ loaded refreshed
    run quiet "a.example"
  rw [count, rows] at same
  cases same

end State

end WebIndexer.Crawl
