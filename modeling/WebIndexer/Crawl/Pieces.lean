import WebIndexer.Crawl.Steps

/-! What a piece of the script can do, by the role of the point it starts from. The cases are
proved once, function by function, and every invariant of the crawl is derived from them.
-/

namespace WebIndexer.Crawl

open WebIndexer.Circuit
open WebIndexer.Config
open WebIndexer.Fetcher
open WebIndexer.Library
open WebIndexer.Runtime
open WebIndexer.Store

-----------------------------------------------------------------------------------------
-- The roles of points
-----------------------------------------------------------------------------------------

/-- What a point holds on to: an item past the limit of concurrent fetches, an item that is
known to be unvisited besides, one past the limit of its domain as well, or a page fetch that
has been started and is not finalised.
-/
inductive Role where
  | asking (item : FrontierItem)
  | examining (item : FrontierItem)
  | holding (visit : Visit)
  | working (job : FrontierItem)

/-- The role of a point, if it has one. -/
def Point.role? : Point → Option Role
  | .visitedRead item _ _ => some (.asking item)
  | .examine item _ _ => some (.examining item)
  | .checkRobots visit | .robotsFetched visit | .robotsGate visit | .start visit =>
      some (.holding visit)
  | .fetched job | .saved job _ _ | .linksInserted job _ | .recrawlMarked job
  | .recrawlDeleted job | .failMarked job | .failDeleted job | .finalise job =>
      some (.working job)
  | _ => none

/-- The point has no role, and waits for no mark and no deletion. -/
def Point.isPlain : Point → Bool
  | .cursorRead | .entry | .yielded | .batchRead _ | .recrawlRead _ | .recrawlLoop _
  | .recrawlInserted .. | .forItem .. | .seedLoop .. | .seedVisited .. | .seedInserted ..
  | .seedCounted _ | .nodesCounted _ | .frontierCounted _ | .popRead _ | .refreshed _
  | .countsRead | .statsBody | .cleared | .consumed _ => true
  | _ => false

/-- A plain point has no role. -/
theorem Point.role?_of_isPlain {point : Point} (plain : point.isPlain = true)
    : point.role? = none := by
  cases point <;> first | exact Bool.noConfusion plain | rfl

/-- A plain point deletes no address by name. -/
theorem Point.not_deletes_of_isPlain {point : Point} {url : String}
    (plain : point.isPlain = true)
    : point.statement ≠ some (.deleteFromFrontier url) := by
  cases point <;> first | exact Bool.noConfusion plain | nofun

-----------------------------------------------------------------------------------------
-- The shapes of outcomes
-----------------------------------------------------------------------------------------

/-- The piece leaves the shared state as given, and goes on at a point at most: at once,
after a statement, or in a later turn.
-/
inductive Leads (shared : Shared) : Option Point → Outcome → Prop
  | stop : Leads shared none shared.stop
  | goto (point : Point) : Leads shared (some point) (shared.goto point)
  | await (point : Point) : Leads shared (some point) (shared.await point)
  | schedule (point : Point) : Leads shared (some point) (shared.schedule point)

/-- The thread has the reply to a statement and has not gone on from it. -/
def Phase.isReply : Phase → Bool
  | .ready (.reply _) => true
  | _ => false

/-- The thread of a fetch waits for no statement. -/
theorem FetchCase.fresh {shared after : Shared} {url : String} {point : Point} {thread : Thread}
    (fetch : FetchCase shared url point (after, thread))
    : thread.phase.isReply = false := by
  cases fetch <;> rfl

/-- A thread that begins has no reply yet. -/
theorem Background.fresh {env : Env} {label : Label} {thread : Thread}
    (background : Background env label thread)
    : thread.phase.isReply = false := by
  cases background <;> rfl

namespace Leads

variable {shared : Shared} {next : Option Point} {outcome : Outcome}

/-- The shared state is the given one. -/
theorem shared_eq (leads : Leads shared next outcome) : outcome.shared = shared := by
  cases leads <;> rfl

/-- The piece leaves a thread at the given point, and no other. -/
theorem threads_eq (leads : Leads shared next outcome)
    : ∃ phase, (phase = .statement ∨ phase = .ready .nothing)
        ∧ outcome.threads = (next.map fun point => ⟨phase, point⟩).toList := by
  cases leads with
  | stop => exact ⟨.statement, .inl rfl, rfl⟩
  | await => exact ⟨.statement, .inl rfl, rfl⟩
  | goto | schedule => exact ⟨.ready .nothing, .inr rfl, rfl⟩

/-- The thread has no reply yet. -/
theorem fresh (leads : Leads shared next outcome)
    : ∀ thread ∈ outcome.threads, thread.phase.isReply = false := by
  obtain ⟨phase, unanswered, threads⟩ := leads.threads_eq
  rw [threads]
  intro thread member
  obtain ⟨target, _, rfl⟩ := Option.map_eq_some_iff.mp (Option.mem_toList.mp member)
  rcases unanswered with rfl | rfl <;> rfl

/-- What holds of the point that the piece goes on at holds of the points of its threads. -/
theorem forall_point {holds : Point → Prop} (leads : Leads shared next outcome)
    (target : ∀ point ∈ next, holds point)
    : ∀ thread ∈ outcome.threads, holds thread.point := by
  obtain ⟨phase, _, threads⟩ := leads.threads_eq
  rw [threads]
  intro thread member
  obtain ⟨point, found, rfl⟩ := Option.map_eq_some_iff.mp (Option.mem_toList.mp member)
  exact target point found

/-- A piece that goes on at a point leaves a thread there. -/
theorem at_point {holds : Point → Prop} {point : Point}
    (leads : Leads shared (some point) outcome) (target : holds point)
    : ∀ thread ∈ outcome.threads, holds thread.point :=
  leads.forall_point fun _ same => Option.some.inj same ▸ target

end Leads

/-- The script has moved its cursor or its counts, but not the counters of fetches in flight,
and has forgotten no blacklisted domain.
-/
inductive Recount (shared : Shared) : Shared → Prop
  | mk (cursor : Nat) (crawl : CrawlState)
    (inflight : crawl.domainInflight = shared.crawl.domainInflight)
    (blacklist : shared.crawl.domainBlacklist ⊆ crawl.domainBlacklist)
    : Recount shared { shared with frontierCursor := cursor, crawl := crawl }

/-- Nothing has changed. -/
theorem Recount.refl (shared : Shared) : Recount shared shared :=
  .mk shared.frontierCursor shared.crawl rfl (List.Subset.refl _)

/-- Changes of the cursor and the counts compose. -/
theorem Recount.trans {shared middle after : Shared} (first : Recount shared middle)
    (second : Recount middle after)
    : Recount shared after := by
  obtain ⟨_, _, inflight, blacklist⟩ := first
  obtain ⟨cursor, crawl, same, grows⟩ := second
  exact .mk cursor crawl (same.trans inflight) (List.Subset.trans blacklist grows)

/-- The piece ends, or goes on at a point without a role. -/
inductive Leaves (shared : Shared) (outcome : Outcome) : Prop
  | mk {after : Shared} {next : Option Point} (recount : Recount shared after)
    (plain : ∀ target ∈ next, target.isPlain = true) (leads : Leads after next outcome)

namespace Leaves

variable {shared after : Shared} {point : Point} {outcome : Outcome}

/-- A piece that returns leaves. -/
theorem stop (shared : Shared) : Leaves shared shared.stop := by
  refine .mk (.refl shared) (fun target member => ?_) .stop
  cases member

/-- A piece that goes on at a plain point leaves. -/
theorem goto (shared : Shared) (plain : point.isPlain = true)
    : Leaves shared (shared.goto point) := by
  refine .mk (.refl shared) ?_ (.goto point)
  rintro target ⟨⟩
  exact plain

/-- A piece that waits at a plain point leaves. -/
theorem await (shared : Shared) (plain : point.isPlain = true)
    : Leaves shared (shared.await point) := by
  refine .mk (.refl shared) ?_ (.await point)
  rintro target ⟨⟩
  exact plain

/-- A piece that schedules a plain point leaves. -/
theorem schedule (shared : Shared) (plain : point.isPlain = true)
    : Leaves shared (shared.schedule point) := by
  refine .mk (.refl shared) ?_ (.schedule point)
  rintro target ⟨⟩
  exact plain

/-- A piece may move the cursor and the counts before it leaves. -/
theorem of_recount (recount : Recount shared after) (leaves : Leaves after outcome)
    : Leaves shared outcome := by
  obtain ⟨later, plain, leads⟩ := leaves
  exact .mk (recount.trans later) plain leads

end Leaves

/-- The script has recorded a robots.txt, and caches no rules that it has not read. -/
inductive RobotsRecord (shared : Shared) : Shared → Prop
  | mk (checked : List String) (cache : InsertionMap String (Option (List String)))
    (read : List (String × List String))
    (grows : shared.robotsRead ⊆ read)
    (backed : ∀ origin rules, (origin, some rules) ∈ cache.entries →
      (origin, some rules) ∈ shared.robotsCache.entries ∨ (origin, rules) ∈ read)
    : RobotsRecord shared
        { shared with domainsChecked := checked, robotsCache := cache, robotsRead := read }

/-- The origins checked may grow without anything to record. -/
theorem RobotsRecord.checked (shared : Shared) (checked : List String)
    : RobotsRecord shared { shared with domainsChecked := checked } :=
  .mk checked shared.robotsCache shared.robotsRead (List.Subset.refl _)
    fun _ _ cached => .inl cached

/-- An input with a value is the reply that carries it. -/
theorem Input.eq_of_value? {input : Input} {value : Value} (carries : input.value? = some value)
    : input = .reply (some value) := by
  cases input with
  | reply result => rw [show result = some value from carries]
  | nothing | response => cases carries

/-- An input with a page is the response that carries it. -/
theorem Input.eq_of_page? {input : Input} {page : String × String}
    (carries : input.page? = some page)
    : input = .response (some page) := by
  cases input with
  | response result => rw [show result = some page from carries]
  | nothing | reply => cases carries

/-- What a piece does between two awaits. -/
inductive PieceCase (env : Env) (shared : Shared) (input : Input) : Point → Outcome → Prop
  -- a piece without a page fetch in flight leads to a point without a role, or ends
  | leave {point : Point} {outcome : Outcome}
    (free : ∀ job, point.role? ≠ some (.working job))
    (unstarted : ∀ visit, point ≠ .start visit)
    (leaves : Leaves shared outcome)
    : PieceCase env shared input point outcome
  | ask {item : FrontierItem} {rest : List FrontierItem} {startedAny : Bool} {next : Point}
    {outcome : Outcome}
    (below : shared.active < concurrency)
    (same : next = if isRecrawl item then .examine item rest startedAny
      else .visitedRead item rest startedAny)
    (leads : Leads shared (some next) outcome)
    : PieceCase env shared input (.forItem (item :: rest) startedAny) outcome
  | skipVisited {item : FrontierItem} {rest : List FrontierItem} {startedAny : Bool}
    (found : input = .reply (some (.found true)))
    : PieceCase env shared input (.visitedRead item rest startedAny)
        (shared.await (.skipped item.url rest startedAny))
  | vet {item : FrontierItem} {rest : List FrontierItem} {startedAny : Bool}
    (found : input = .reply (some (.found false)))
    : PieceCase env shared input (.visitedRead item rest startedAny)
        (shared.goto (.examine item rest startedAny))
  | skipDomain {item : FrontierItem} {rest : List FrontierItem} {startedAny : Bool}
    (settled : env.domainOf item = "" ∨ env.domainOf item ∈ shared.crawl.domainBlacklist)
    : PieceCase env shared input (.examine item rest startedAny)
        (shared.await (.skipped item.url rest startedAny))
  | hold {visit : Visit} {next : Point}
    (admits : shared.admits env visit.item)
    (read : visit.inflight = shared.crawl.domainInflight (env.domainOf visit.item))
    (same : next = if isRecrawl visit.item then .start visit else .checkRobots visit)
    : PieceCase env shared input (.examine visit.item visit.rest visit.startedAny)
        (shared.goto next)
  | askRobots {visit : Visit} {outcome : Outcome} {checked : List String} {url : String}
    {thread : Thread}
    (fetch : FetchCase { shared with domainsChecked := checked } url (.robotsFetched visit)
      (outcome.shared, thread))
    (threads : outcome.threads = [thread])
    : PieceCase env shared input (.checkRobots visit) outcome
  | carry {point next : Point} {visit : Visit} {after : Shared} {outcome : Outcome}
    (role : point.role? = some (.holding visit))
    (unstarted : ∀ other, point ≠ .start other)
    (record : RobotsRecord shared after)
    (same : next = .robotsGate visit ∨ next = .start visit)
    (leads : Leads after (some next) outcome)
    : PieceCase env shared input point outcome
  | block {visit : Visit} {parsed : Url} {rules : List String}
    (parse : env.api.parse visit.item.url = some parsed)
    (cached : shared.robotsCache.get? parsed.origin = some (some rules))
    (matched : rules.any (startsWith parsed.pathname) = true)
    : PieceCase env shared input (.robotsGate visit) (shared.await (.blockedMarked visit))
  | unblock {visit : Visit} {value : Value}
    (answered : input = .reply (some value))
    : PieceCase env shared input (.blockedMarked visit) (shared.await (.blockedDeleted visit))
  | start {visit : Visit}
    : PieceCase env shared input (.start visit) (shared.start env visit)
  -- the handlers of a page fetch keep its job until they finalise it
  | save {job : FrontierItem} {html url : String} {links : List String}
    (page : input = .response (some (html, url)))
    (first : isRecrawl job = false)
    : PieceCase env shared input (.fetched job)
        (shared.await (.saved job (shared.pageData env job url (env.parsePage html url)) links))
  | mark {job : FrontierItem} {next : Point} {after : Shared}
    (recount : Recount shared after)
    (same : next = .recrawlMarked job ∨ next = .failMarked job)
    : PieceCase env shared input (.fetched job) (after.await next)
  | delete {job : FrontierItem} {point next : Point} {value : Value}
    (marked : point = .recrawlMarked job ∧ next = .recrawlDeleted job
      ∨ point = .failMarked job ∧ next = .failDeleted job)
    (answered : input = .reply (some value))
    : PieceCase env shared input point (shared.await next)
  | close {job : FrontierItem} {point next : Point} {after : Shared} {outcome : Outcome}
    (role : point.role? = some (.working job))
    (recount : Recount shared after)
    (same : next = .finalise job ∨ ∃ items, next = .linksInserted job items)
    (leads : Leads after (some next) outcome)
    : PieceCase env shared input point outcome
  | finalise {job : FrontierItem}
    : PieceCase env shared input (.finalise job) (shared.finalise env job)

namespace Shared

variable {env : Env} {input : Input}

-----------------------------------------------------------------------------------------
-- Pieces without a role
-----------------------------------------------------------------------------------------

/-- The caller of `addSeedBatch` schedules the next invocation, or updates a flag. -/
theorem afterSeeds_leaves (shared : Shared) (caller : SeedCaller)
    : Leaves shared (shared.afterSeeds caller) := by
  cases caller with
  | processNext => exact .schedule shared rfl
  | interval =>
      simp only [afterSeeds]
      split
      · refine .of_recount ?_ (.stop _)
        exact .mk shared.frontierCursor _ rfl (List.Subset.refl _)
      · exact .stop shared

/-- The loop over the seeds waits for a statement, or is over. -/
theorem seedLoop_leaves (shared : Shared) (added : Nat) (caller : SeedCaller)
    (seeds : List String)
    : Leaves shared (shared.seedLoop added caller seeds) := by
  cases seeds with
  | nil =>
      simp only [seedLoop]
      split
      · exact .await shared rfl
      · exact shared.afterSeeds_leaves caller
  | cons url seeds => exact .await shared rfl

/-- An empty batch leads to the injection of pages, of seeds, or of nothing. -/
theorem idle_leaves (shared : Shared) (seeds : List String)
    : Leaves shared (shared.idle seeds) := by
  unfold idle
  split
  · split
    · refine .of_recount ?_ (.await _ rfl)
      exact .mk shared.frontierCursor _ rfl (List.Subset.refl _)
    · refine .of_recount ?_ (.goto _ rfl)
      exact .mk shared.frontierCursor _ rfl (List.Subset.refl _)
  · exact .schedule shared rfl

/-- A batch leads to the admission loop, with the cursor moved. -/
theorem batchRead_leaves (shared : Shared) (seeds : List String) (input : Input)
    : Leaves shared (shared.batchRead seeds input) := by
  unfold batchRead
  split
  · rename_i batch _
    have moved : Recount shared
        { shared with frontierCursor := (batch.getLast?.map FrontierRow.id).getD 0 } :=
      .mk _ shared.crawl rfl (List.Subset.refl _)
    simp only
    split
    · exact .of_recount moved (idle_leaves _ seeds)
    · exact .of_recount moved (.goto _ rfl)
  · exact .stop shared

/-- The end of the admission loop schedules the next invocation, or returns. -/
theorem afterLoop_leaves (shared : Shared) (startedAny : Bool)
    : Leaves shared (shared.afterLoop startedAny) := by
  unfold afterLoop
  split
  · exact .schedule shared rfl
  · exact .stop shared

/-- The timer's body injects seeds, or ends like one that has. -/
theorem statsBody_leaves (shared : Shared) (seeds : List String)
    : Leaves shared (shared.statsBody seeds) := by
  unfold statsBody
  split
  · exact .goto shared rfl
  · exact shared.afterSeeds_leaves .interval

/-- A piece without a role leaves, unless it stands at the head of the admission loop or has
marked a blocked item.
-/
theorem resume_leaves (env : Env) (shared : Shared) (seeds : List String) (input : Input)
    {point : Point} (free : point.role? = none)
    (elsewhere : ∀ items startedAny, point ≠ .forItem items startedAny)
    (unmarked : ∀ visit, point ≠ .blockedMarked visit)
    : Leaves shared (shared.resume env seeds input point) := by
  cases point with
  | forItem items startedAny => exact absurd rfl (elsewhere items startedAny)
  | blockedMarked visit => exact absurd rfl (unmarked visit)
  | visitedRead | examine | checkRobots | robotsFetched | robotsGate | start | fetched | saved
  | linksInserted | recrawlMarked | recrawlDeleted | failMarked | failDeleted | finalise =>
      cases free
  | cursorRead =>
      simp only [resume]
      split
      · refine .of_recount ?_ (.stop _)
        exact .mk _ shared.crawl rfl (List.Subset.refl _)
      · exact .stop shared
  | entry =>
      simp only [resume]
      split
      · exact .stop shared
      · exact .schedule shared rfl
  | yielded =>
      simp only [resume]
      split
      · exact .stop shared
      · exact .await shared rfl
  | batchRead cursor => exact shared.batchRead_leaves seeds input
  | recrawlRead limit =>
      simp only [resume]
      split
      · exact .goto shared rfl
      · exact .stop shared
  | recrawlLoop targets =>
      cases targets with
      | nil => exact .schedule shared rfl
      | cons url targets => exact .await shared rfl
  | recrawlInserted => exact .goto shared rfl
  | skipped => exact .goto shared rfl
  | blockedDeleted =>
      simp only [resume]
      split
      · exact .goto shared rfl
      · exact .stop shared
  | seedLoop seeds added caller => exact shared.seedLoop_leaves added caller seeds
  | seedVisited =>
      simp only [resume]
      split
      · exact .goto shared rfl
      · exact .await shared rfl
      · exact .stop shared
  | seedInserted =>
      simp only [resume]
      split
      · exact .goto shared rfl
      · exact .goto shared rfl
  | seedCounted caller =>
      simp only [resume]
      split
      · exact shared.afterSeeds_leaves caller
      · exact .stop shared
  | nodesCounted | frontierCounted =>
      simp only [resume]
      split
      · refine .of_recount ?_ (.await _ rfl)
        exact .mk shared.frontierCursor _ rfl (List.Subset.refl _)
      · exact .schedule shared rfl
  | popRead | countsRead =>
      simp only [resume]
      split
      · refine .of_recount ?_ (.schedule _ rfl)
        exact .mk shared.frontierCursor _ rfl (List.Subset.refl _)
      · exact .schedule shared rfl
  | refreshed =>
      simp only [resume]
      split
      · exact .await shared rfl
      · exact .goto shared rfl
  | statsBody => exact shared.statsBody_leaves seeds
  | cleared | consumed => exact .stop shared

-----------------------------------------------------------------------------------------
-- The admission of an item
-----------------------------------------------------------------------------------------

/-- The head of the loop lets an item in below the limit of concurrent fetches. -/
theorem forItem_spec (env : Env) (shared : Shared) (startedAny : Bool)
    (items : List FrontierItem)
    : PieceCase env shared input (.forItem items startedAny) (shared.forItem startedAny items) := by
  cases items with
  | nil => exact .leave nofun nofun (shared.afterLoop_leaves startedAny)
  | cons item rest =>
      simp only [forItem]
      split
      · exact .leave nofun nofun (shared.afterLoop_leaves startedAny)
      · rename_i above
        have below : shared.active < concurrency := not_le.mp above
        split
        · rename_i recrawl
          exact .ask below (if_pos recrawl).symm (.goto _)
        · rename_i first
          exact .ask below (if_neg first).symm (.await _)

/-- The answer to `isVisited` decides between deletion and examination. -/
theorem visitedRead_spec (env : Env) (shared : Shared) (item : FrontierItem)
    (rest : List FrontierItem) (startedAny : Bool) (input : Input)
    : PieceCase env shared input (.visitedRead item rest startedAny)
        (shared.visitedRead item rest startedAny input) := by
  unfold visitedRead
  split
  · rename_i found
    exact .skipVisited (Input.eq_of_value? found)
  · rename_i found
    exact .vet (Input.eq_of_value? found)
  · exact .leave nofun nofun (.stop shared)

/-- The checks of an item's domain. -/
theorem examine_spec (env : Env) (shared : Shared) (item : FrontierItem)
    (rest : List FrontierItem) (startedAny : Bool)
    : PieceCase env shared input (.examine item rest startedAny)
        (shared.examine env item rest startedAny) := by
  unfold examine
  simp only
  split
  · rename_i invalid
    exact .skipDomain (.inl invalid)
  · rename_i valid
    split
    · rename_i listed
      exact .skipDomain (.inr listed)
    · rename_i unlisted
      split
      · exact .leave nofun nofun (.goto shared rfl)
      · rename_i above
        have admits : shared.admits env item := ⟨valid, unlisted, not_le.mp above⟩
        let visit : Visit :=
          ⟨item, shared.crawl.domainInflight (env.domainOf item), rest, startedAny⟩
        have held : ∀ next, next = (if isRecrawl item then .start visit else .checkRobots visit) →
            PieceCase env shared input (.examine item rest startedAny) (shared.goto next) :=
          fun next same => @PieceCase.hold env shared input visit next admits rfl same
        split
        · rename_i recrawl
          exact held _ (if_pos recrawl).symm
        · rename_i first
          exact held _ (if_neg first).symm

/-- The first visit of an origin asks for its robots.txt, unless it is cached. -/
theorem checkRobots_spec (env : Env) (shared : Shared) (visit : Visit)
    : PieceCase env shared input (.checkRobots visit) (shared.checkRobots env visit) := by
  unfold checkRobots
  split
  · exact .leave nofun nofun (.stop shared)
  · split
    · exact .carry rfl nofun (.checked shared _) (.inl rfl) (.goto _)
    · unfold checkRobotsTxt
      split
      · exact .carry rfl nofun (.checked shared _) (.inl rfl) (.schedule _)
      · exact .askRobots (fetchHtml_spec env _ _ _) rfl

/-- Caching rules that have been read keeps the cache backed by what was read. -/
theorem cacheRobots_record (shared : Shared) (origin : String) (rules : List String)
    : RobotsRecord shared (shared.cacheRobots origin rules) := by
  have assigned : ∀ other otherRules,
      (other, some otherRules)
          ∈ (shared.robotsCache.set origin (if rules = [] then none else some rules)).entries
        → (other, some otherRules) ∈ shared.robotsCache.entries
          ∨ (other, otherRules) ∈ (origin, rules) :: shared.robotsRead := by
    intro other otherRules member
    rcases InsertionMap.mem_of_mem_set member with same | old
    · obtain ⟨rfl, value⟩ := Prod.mk.inj same
      split at value
      · cases value
      · obtain rfl := Option.some.inj value
        exact .inr List.mem_cons_self
    · exact .inl old
  refine .mk shared.domainsChecked _ _ (List.subset_cons_self ..) fun other otherRules member => ?_
  generalize shared.robotsCache.set origin (if rules = [] then none else some rules) = cache
    at assigned member
  split at member
  · exact assigned other otherRules (InsertionMap.mem_of_mem_dropOldest member)
  · exact assigned other otherRules member

/-- A failure is cached without rules. -/
theorem failRobots_record (shared : Shared) (url : String)
    : RobotsRecord shared { shared with robotsCache := shared.robotsCache.set url none } := by
  refine .mk shared.domainsChecked _ shared.robotsRead (List.Subset.refl _) fun _ _ member => ?_
  rcases InsertionMap.mem_of_mem_set member with same | old
  · cases same
  · exact .inl old

/-- A robots.txt is recorded under its origin, and a failure under the address. -/
theorem robotsFetched_spec (env : Env) (shared : Shared) (visit : Visit) (input : Input)
    : PieceCase env shared input (.robotsFetched visit)
        (shared.robotsFetched env visit input) := by
  unfold robotsFetched
  split
  · exact .carry rfl nofun (shared.cacheRobots_record _ _) (.inl rfl) (.schedule _)
  · exact .carry rfl nofun (shared.failRobots_record _) (.inl rfl) (.schedule _)

/-- A cached rule blocks the item, or it can start. -/
theorem robotsGate_spec (env : Env) (shared : Shared) (visit : Visit)
    : PieceCase env shared input (.robotsGate visit) (shared.robotsGate env visit) := by
  unfold robotsGate
  split
  · exact .leave nofun nofun (.stop shared)
  · rename_i parsed parse
    split
    · rename_i rules cached
      split
      · rename_i matched
        exact .block parse cached matched
      · exact .carry rfl nofun (.checked shared _) (.inr rfl) (.goto _)
    · exact .carry rfl nofun (.checked shared _) (.inr rfl) (.goto _)

-----------------------------------------------------------------------------------------
-- The handlers of a page fetch
-----------------------------------------------------------------------------------------

/-- A failure is counted, and may blacklist the domain. -/
theorem countFailure_recount (env : Env) (shared : Shared) (job : FrontierItem)
    : Recount shared (shared.countFailure env job) := by
  refine .mk shared.frontierCursor _ rfl ?_
  unfold CrawlState.recordDomainFail
  simp only
  split
  · exact List.subset_append_left ..
  · exact List.Subset.refl _

/-- A fetched page is saved or marked, and a failed one is marked. -/
theorem fetched_spec (env : Env) (shared : Shared) (job : FrontierItem) (input : Input)
    : PieceCase env shared input (.fetched job) (shared.fetched env job input) := by
  unfold fetched
  split
  · rename_i page
    have page := Input.eq_of_page? page
    split
    · exact .mark (.refl shared) (.inl rfl)
    · rename_i first
      exact .save page (Bool.eq_false_iff.mpr first)
  · exact .mark (shared.countFailure_recount env job) (.inr rfl)

/-- After `saveNode`, the kept links are queued, or the job is closed. -/
theorem saved_spec (env : Env) (shared : Shared) (job : FrontierItem) (page : PageData)
    (links : List String) (input : Input)
    : PieceCase env shared input (.saved job page links)
        (shared.saved env job page links input) := by
  unfold saved
  split
  · simp only
    split
    · refine .close rfl ?_ (.inl rfl) (.schedule _)
      exact .mk shared.frontierCursor _ rfl (List.Subset.refl _)
    · refine .close rfl ?_ (.inr ⟨_, rfl⟩) (.await _)
      exact .mk shared.frontierCursor _ rfl (List.Subset.refl _)
  · exact .close rfl (shared.countFailure_recount env job) (.inl rfl) (.schedule _)

/-- A re-crawl is closed as a success. -/
theorem recrawled_spec (env : Env) (shared : Shared) {point : Point} {job : FrontierItem}
    (role : point.role? = some (.working job))
    : PieceCase env shared input point (shared.recrawled job) := by
  refine .close role ?_ (.inl rfl) (.schedule _)
  exact .mk shared.frontierCursor _ rfl (List.Subset.refl _)

-----------------------------------------------------------------------------------------
-- All pieces
-----------------------------------------------------------------------------------------

/-- Inversion of a piece, point by point. -/
theorem resume_cases (env : Env) (shared : Shared) (seeds : List String) (input : Input)
    (point : Point)
    : PieceCase env shared input point (shared.resume env seeds input point) := by
  cases point with
  | forItem items startedAny => exact shared.forItem_spec env startedAny items
  | visitedRead item rest startedAny => exact shared.visitedRead_spec env item rest startedAny input
  | examine item rest startedAny => exact shared.examine_spec env item rest startedAny
  | checkRobots visit => exact shared.checkRobots_spec env visit
  | robotsFetched visit => exact shared.robotsFetched_spec env visit input
  | robotsGate visit => exact shared.robotsGate_spec env visit
  | start visit => exact .start
  | blockedMarked visit =>
      simp only [resume]
      split
      · rename_i answered
        exact .unblock (Input.eq_of_value? answered)
      · exact .leave nofun nofun (.stop shared)
  | fetched job => exact shared.fetched_spec env job input
  | saved job page links => exact shared.saved_spec env job page links input
  | linksInserted job items => exact .close rfl (.refl shared) (.inl rfl) (.schedule _)
  | recrawlMarked job =>
      simp only [resume]
      split
      · rename_i answered
        exact .delete (.inl ⟨rfl, rfl⟩) (Input.eq_of_value? answered)
      · exact shared.recrawled_spec env rfl
  | recrawlDeleted job => exact shared.recrawled_spec env rfl
  | failMarked job =>
      simp only [resume]
      split
      · rename_i answered
        exact .delete (.inr ⟨rfl, rfl⟩) (Input.eq_of_value? answered)
      · exact .close rfl (.refl shared) (.inl rfl) (.schedule _)
  | failDeleted job => exact .close rfl (.refl shared) (.inl rfl) (.schedule _)
  | finalise job => exact .finalise
  | _ => exact .leave nofun nofun (shared.resume_leaves env seeds input rfl nofun nofun)

/-- A start takes the slot and sends the fetch on its way. -/
theorem start_spec (env : Env) (shared : Shared) (visit : Visit)
    : ∃ thread,
        FetchCase (shared.take env visit) visit.item.url (.fetched visit.item)
          ((shared.start env visit).shared, thread)
        ∧ (shared.start env visit).threads
          = [⟨.ready .nothing, .forItem visit.rest true⟩, thread] :=
  ⟨_, fetchHtml_spec env (shared.take env visit) visit.item.url (.fetched visit.item), rfl⟩

end Shared

/-- No thread that a piece leaves has a reply yet. -/
theorem PieceCase.fresh {env : Env} {shared : Shared} {input : Input} {point : Point}
    {outcome : Outcome} (piece : PieceCase env shared input point outcome)
    : ∀ thread ∈ outcome.threads, thread.phase.isReply = false := by
  cases piece with
  | leave _ _ leaves =>
      obtain ⟨_, _, leads⟩ := leaves
      exact leads.fresh
  | ask _ _ leads | carry _ _ _ _ leads | close _ _ _ leads => exact leads.fresh
  | vet | hold => exact (Leads.goto _).fresh
  | skipVisited | skipDomain | block | unblock | save | mark | delete =>
      exact (Leads.await _).fresh
  | finalise => exact (Leads.schedule _).fresh
  | askRobots fetch threads =>
      rw [threads]
      intro thread member
      obtain rfl := List.mem_singleton.mp member
      exact fetch.fresh
  | @start visit =>
      obtain ⟨fetching, fetch, threads⟩ := shared.start_spec env visit
      rw [threads]
      intro thread member
      rcases List.mem_pair.mp member with rfl | rfl
      · rfl
      · exact fetch.fresh

-----------------------------------------------------------------------------------------
-- What no piece undoes
-----------------------------------------------------------------------------------------

/-- The requests issued, the rules read and the fetches started are not forgotten. -/
structure Remembers (before after : Shared) : Prop where
  requested : before.requested ⊆ after.requested
  robotsRead : before.robotsRead ⊆ after.robotsRead
  started : before.started ⊆ after.started

/-- Nothing has changed. -/
theorem Remembers.refl (shared : Shared) : Remembers shared shared :=
  ⟨List.Subset.refl _, List.Subset.refl _, List.Subset.refl _⟩

/-- The tables are the same, and the blacklist and the history have not shrunk. -/
structure Extends (before after : Shared) : Prop extends Remembers before after where
  tables : after.tables = before.tables
  blacklist : before.crawl.domainBlacklist ⊆ after.crawl.domainBlacklist

namespace Extends

variable {before middle after shared : Shared}

/-- Nothing has changed. -/
theorem refl (shared : Shared) : Extends shared shared :=
  { Remembers.refl shared with tables := rfl, blacklist := List.Subset.refl _ }

/-- Extensions compose. -/
theorem trans (first : Extends before middle) (second : Extends middle after)
    : Extends before after where
  tables := second.tables.trans first.tables
  blacklist := List.Subset.trans first.blacklist second.blacklist
  requested := List.Subset.trans first.requested second.requested
  robotsRead := List.Subset.trans first.robotsRead second.robotsRead
  started := List.Subset.trans first.started second.started

/-- A fetch adds to the requests at most. -/
theorem of_fetch {url : String} {point : Point} {thread : Thread}
    (fetch : FetchCase shared url point (after, thread))
    : Extends shared after := by
  cases fetch with
  | refused | thrown => exact { refl shared with }
  | sent => exact { refl shared with requested := List.subset_cons_self .. }

/-- Moving the cursor and the counts extends. -/
theorem of_recount (recount : Recount shared after) : Extends shared after := by
  obtain ⟨_, _, _, blacklist⟩ := recount
  exact { refl shared with blacklist := blacklist }

/-- Recording a robots.txt extends. -/
theorem of_record (record : RobotsRecord shared after) : Extends shared after := by
  obtain ⟨_, _, _, grows, _⟩ := record
  exact { refl shared with robotsRead := grows }

/-- Every piece extends, case by case. -/
theorem of_piece {env : Env} {input : Input} {point : Point} {outcome : Outcome}
    (piece : PieceCase env shared input point outcome)
    : Extends shared outcome.shared := by
  cases piece with
  | leave _ _ leaves =>
      obtain ⟨recount, _, leads⟩ := leaves
      exact leads.shared_eq ▸ of_recount recount
  | ask _ _ leads => exact leads.shared_eq ▸ refl shared
  | skipVisited | vet | skipDomain | hold | block | unblock | save | delete | finalise =>
      exact { refl shared with }
  | @askRobots _ _ checked _ _ fetch =>
      have noted : Extends shared { shared with domainsChecked := checked } :=
        { refl shared with }
      exact noted.trans (of_fetch fetch)
  | carry _ _ record _ leads => exact leads.shared_eq ▸ of_record record
  | @start visit =>
      obtain ⟨_, fetch, _⟩ := shared.start_spec env visit
      have taken : Extends shared (shared.take env visit) :=
        { refl shared with started := List.subset_cons_self .. }
      exact taken.trans (of_fetch fetch)
  | mark recount => exact of_recount recount
  | close _ recount _ leads => exact leads.shared_eq ▸ of_recount recount

end Extends

/-- No piece touches the tables. -/
theorem Shared.tables_resume (env : Env) (shared : Shared) (seeds : List String)
    (input : Input) (point : Point)
    : (shared.resume env seeds input point).shared.tables = shared.tables :=
  (Extends.of_piece (shared.resume_cases env seeds input point)).tables

end WebIndexer.Crawl
