import WebIndexer.Crawl.LinkHandover

/-! The completion handler of a page that is crawled again, in `src/queue.ts`. The branch injects a
page to find new links on it, but the handler queues the links of first pages only.
-/

namespace WebIndexer.Crawl

open WebIndexer.Fetcher
open WebIndexer.Library
open WebIndexer.Runtime
open WebIndexer.Store

-----------------------------------------------------------------------------------------
-- A handler among the other pieces
-----------------------------------------------------------------------------------------

/-- A handler goes from a point to its end, where its slot is to be released. The statement of each
of its points ends as given. While it waits, the other pieces change the variables of the script
as they like, and run statements, which are listed in their order.
-/
inductive Handles (env : Env) (endings : Point → Ending)
    : Shared → Thread → List Statement → Shared → Prop
  | finished {shared : Shared} {job : FrontierItem}
    : Handles env endings shared ⟨.ready .nothing, .finalise job⟩ [] shared
  | runs {shared after : Shared} {input : Input} {point : Point} {thread : Thread}
    {others : List Statement} (seeds : List String) (busy : ∀ job, point ≠ .finalise job)
    (left : (shared.resume env seeds input point).threads = [thread])
    (rest : Handles env endings (shared.resume env seeds input point).shared thread others after)
    : Handles env endings shared ⟨.ready input, point⟩ others after
  | answered {shared after : Shared} {point : Point} {thread : Thread} {tables : Tables}
    {others : List Statement} (choice : Choice)
    (answers : State.answer env shared.tables point (endings point) choice = some (tables, thread))
    (rest : Handles env endings { shared with tables := tables } thread others after)
    : Handles env endings shared ⟨.statement, point⟩ others after
  | waits {shared changed after : Shared} {thread : Thread} {others : List Statement}
    (same : changed.tables = shared.tables)
    (rest : Handles env endings changed thread others after)
    : Handles env endings shared thread others after
  | interrupted {shared after : Shared} {thread : Thread} {statement : Statement}
    {tables : Tables} {value : Value} {others : List Statement} (choice : Choice)
    (ran : shared.tables.run env.backend choice statement = some (tables, value))
    (rest : Handles env endings { shared with tables := tables } thread others after)
    : Handles env endings shared thread (statement :: others) after

/-- The links of a page that pass the filters of the loop, read in one state, are on the frontier in
another unless they have been visited.
-/
def FindsLinks (env : Env) (filtering : Shared) (job : FrontierItem) (page : String × String)
    (after : Shared)
    : Prop :=
  ∀ item ∈ filtering.keptLinks env job page.2 (env.parsePage page.1 page.2).links,
    item.url ∉ after.tables.visited → item.url ∈ after.tables.frontier.urls

/-- The statements of other pieces, run on an address that is listed or not, leave it listed. -/
def ListedAfter (url : String) (others : List Statement) (listed : Bool) : Prop :=
  others.foldl (Statement.lists url) listed = true

/-- An address is visited, or becomes so by the statements of other pieces. -/
def MarkedBy (url : String) (others : List Statement) (tables : Tables) : Prop :=
  url ∈ tables.visited ∨ ∃ statement ∈ others, url ∈ statement.marks

/-- The links of a page that pass the filters are known without its handler: each is visited, is on
the frontier before the handler or brought there by other pieces meanwhile, or is the page's
own address, and the mark of the page takes effect.
-/
def LinksKnown (env : Env) (endings : Point → Ending) (filtering shared : Shared)
    (job : FrontierItem) (page : String × String) (others : List Statement)
    : Prop :=
  ∀ item ∈ filtering.keptLinks env job page.2 (env.parsePage page.1 page.2).links,
    MarkedBy item.url others shared.tables
    ∨ item.url = job.url ∧ endings (.recrawlMarked job) ≠ .rejected
    ∨ ListedAfter item.url others (decide (item.url ∈ shared.tables.frontier.urls))

-----------------------------------------------------------------------------------------
-- The points of the handler
-----------------------------------------------------------------------------------------

/-- The handler of a re-crawled page stands at one of its points, and has its mark before it or not.
The deletion comes after a mark that has been answered.
-/
inductive Recrawling (job : FrontierItem) (tables : Tables) : Thread → Bool → Prop
  | fetched (page : String × String)
    : Recrawling job tables ⟨.ready (.response (some page)), .fetched job⟩ true
  | marking : Recrawling job tables ⟨.statement, .recrawlMarked job⟩ true
  | marked {reply : Option Value} (visited : reply.isSome → job.url ∈ tables.visited)
    : Recrawling job tables ⟨.ready (.reply reply), .recrawlMarked job⟩ false
  | deleting (visited : job.url ∈ tables.visited)
    : Recrawling job tables ⟨.statement, .recrawlDeleted job⟩ false
  | deleted (reply : Option Value)
    : Recrawling job tables ⟨.ready (.reply reply), .recrawlDeleted job⟩ false
  | finishing : Recrawling job tables ⟨.ready .nothing, .finalise job⟩ false

variable {env : Env} {endings : Point → Ending} {shared after : Shared} {job : FrontierItem}
  {url : String} {others : List Statement}

/-- The handler keeps its place while addresses become visited. -/
theorem Recrawling.mono {tables changed : Tables} {thread : Thread} {marks : Bool}
    (stands : Recrawling job tables thread marks)
    (grows : job.url ∈ tables.visited → job.url ∈ changed.visited)
    : Recrawling job changed thread marks := by
  cases stands with
  | fetched page => exact .fetched page
  | marking => exact .marking
  | marked visited => exact .marked fun answered => grows (visited answered)
  | deleting visited => exact .deleting (grows visited)
  | deleted reply => exact .deleted reply
  | finishing => exact .finishing

/-- A piece of the handler leads to its next point, and touches no table. -/
theorem Recrawling.resume {input : Input} {point : Point} {marks : Bool} {seeds : List String}
    {thread : Thread} (recrawl : isRecrawl job = true)
    (stands : Recrawling job shared.tables ⟨.ready input, point⟩ marks)
    (busy : ∀ job, point ≠ .finalise job)
    (left : (shared.resume env seeds input point).threads = [thread])
    : (shared.resume env seeds input point).shared.tables = shared.tables
      ∧ Recrawling job shared.tables thread marks := by
  cases stands with
  | fetched page =>
      have awaits : shared.resume env seeds (.response (some page)) (.fetched job)
          = shared.await (.recrawlMarked job) := by
        simp [Shared.resume, Shared.fetched, Input.page?, recrawl]
      rw [awaits] at left ⊢
      obtain rfl := List.singleton_inj.mp left
      exact ⟨rfl, .marking⟩
  | @marked reply visited =>
      cases reply with
      | none =>
          obtain rfl := List.singleton_inj.mp left
          exact ⟨rfl, .finishing⟩
      | some value =>
          obtain rfl := List.singleton_inj.mp left
          exact ⟨rfl, .deleting (visited rfl)⟩
  | deleted reply =>
      obtain rfl := List.singleton_inj.mp left
      exact ⟨rfl, .finishing⟩
  | finishing => exact absurd rfl (busy job)

-----------------------------------------------------------------------------------------
-- What becomes of an address
-----------------------------------------------------------------------------------------

/-- A mark that is not rejected makes its address visited, and touches no row. -/
theorem Executed.mark {tables after : Tables} {ending : Ending} {reply : Option Value}
    (executed : Executed env tables (.markVisited url) ending after reply)
    : after.frontier = tables.frontier
      ∧ ∀ other, other ∈ after.visited
          ↔ other ∈ tables.visited ∨ other = url ∧ ending ≠ .rejected := by
  cases executed with
  | done ran | lost ran =>
      obtain ⟨rfl, rfl⟩ := Prod.mk.inj (Option.some.inj ran)
      exact ⟨rfl, fun other => by simp [or_comm]⟩
  | rejected => exact ⟨rfl, fun other => by simp⟩

/-- A deletion by name concerns no other address. -/
theorem Executed.delete {tables after : Tables} {ending : Ending} {reply : Option Value}
    (executed : Executed env tables (.deleteFromFrontier url) ending after reply)
    : after.visited = tables.visited
      ∧ ∀ other ≠ url, other ∈ after.frontier.urls ↔ other ∈ tables.frontier.urls := by
  cases executed with
  | done ran | lost ran =>
      obtain ⟨rfl, rfl⟩ := Prod.mk.inj (Option.some.inj ran)
      refine ⟨rfl, fun other differs => ⟨fun listed => ?_, fun listed => ?_⟩⟩
      · obtain ⟨row, member, _, rfl⟩ := Frontier.mem_urls_filter.mp listed
        exact List.mem_map_of_mem member
      · exact (Tables.mem_urls_deleteFromFrontier url listed).resolve_right differs
  | rejected => exact ⟨rfl, fun _ _ => .rfl⟩

/-- The handler marks the address of its page, if the mark takes effect, and the other pieces mark
what they mark. An address that nobody marks stays listed, or becomes so, by the statements of
the others alone.
-/
structure Fares (endings : Point → Ending) (job : FrontierItem) (marks : Bool) (tables : Tables)
    (others : List Statement) (after : Tables) (url : String)
    : Prop where
  visited
    : url ∈ after.visited
      ↔ MarkedBy url others tables
        ∨ marks = true ∧ url = job.url ∧ endings (.recrawlMarked job) ≠ .rejected
  listed
    : url ∉ after.visited →
      (url ∈ after.frontier.urls ↔ ListedAfter url others (decide (url ∈ tables.frontier.urls)))

/-- Nothing has happened yet. -/
theorem Fares.nothing {tables : Tables} : Fares endings job false tables [] tables url where
  visited := by simp [MarkedBy]
  listed _ := by simp [ListedAfter]

/-- A statement of another piece comes first. -/
theorem Fares.interrupted {marks : Bool} {tables changed after : Tables} {statement : Statement}
    {value : Value} {choice : Choice}
    (ran : tables.run env.backend choice statement = some (changed, value))
    (fares : Fares endings job marks changed others after url)
    : Fares endings job marks tables (statement :: others) after url where
  visited := by
    rw [fares.visited]
    simp only [MarkedBy, Tables.mem_visited_run ran, List.exists_mem_cons_iff]
    refine or_congr_left ?_
    rw [or_assoc, or_left_comm]
  listed unvisited := by
    have before : url ∉ changed.visited := fun visited =>
      unvisited (fares.visited.mpr (.inl (.inl visited)))
    have step : decide (url ∈ changed.frontier.urls)
        = statement.lists url (decide (url ∈ tables.frontier.urls)) :=
      Bool.eq_iff_iff.mpr (decide_eq_true_iff.trans (Tables.mem_urls_run_iff ran before))
    rw [fares.listed unvisited, step]
    rfl

/-- The mark of the handler comes first. -/
theorem Fares.marking {tables marked after : Tables} {reply : Option Value}
    (executed : Executed env tables (.markVisited job.url) (endings (.recrawlMarked job)) marked
      reply)
    (fares : Fares endings job false marked others after url)
    : Fares endings job true tables others after url := by
  obtain ⟨same, marks⟩ := executed.mark
  refine ⟨?_, fun unvisited => ?_⟩
  · rw [fares.visited]
    simp only [MarkedBy, marks, Bool.false_eq_true, false_and, or_false, true_and]
    exact or_right_comm
  · rw [fares.listed unvisited, same]

/-- The deletion of the handler comes first. -/
theorem Fares.deleting {tables deleted after : Tables} {ending : Ending} {reply : Option Value}
    (executed : Executed env tables (.deleteFromFrontier job.url) ending deleted reply)
    (visited : job.url ∈ tables.visited)
    (fares : Fares endings job false deleted others after url)
    : Fares endings job false tables others after url := by
  obtain ⟨same, kept⟩ := executed.delete
  refine ⟨?_, fun unvisited => ?_⟩
  · rw [fares.visited]
    simp only [MarkedBy, same]
  · have other : url ≠ job.url := by
      rintro rfl
      exact unvisited (fares.visited.mpr (.inl (.inl (same ▸ visited))))
    rw [fares.listed unvisited]
    simp only [kept url other]

/-- By induction over what happens from a point of the handler to its end. -/
theorem Handles.fares {thread : Thread} {marks : Bool} (recrawl : isRecrawl job = true)
    (handles : Handles env endings shared thread others after)
    (stands : Recrawling job shared.tables thread marks)
    : Fares endings job marks shared.tables others after.tables url := by
  induction handles generalizing marks with
  | finished =>
      cases stands
      exact .nothing
  | runs seeds busy left rest ih =>
      obtain ⟨same, next⟩ := stands.resume recrawl busy left
      rw [← same]
      exact ih (same ▸ next)
  | answered choice answers rest ih =>
      obtain ⟨statement, reply, waits, executed, rfl⟩ := State.answer_spec answers
      cases stands with
      | marking =>
          obtain rfl := Option.some.inj waits
          exact .marking executed (ih (.marked executed.marked))
      | deleting visited =>
          obtain rfl := Option.some.inj waits
          exact .deleting executed visited (ih (.deleted reply))
  | waits same rest ih =>
      rw [← same]
      exact ih (same ▸ stands)
  | interrupted choice ran rest ih =>
      refine .interrupted ran (ih (stands.mono fun visited => ?_))
      exact (Tables.mem_visited_run ran).mpr (.inr visited)

/-- The database answers a point whose statement asks for no choice. -/
theorem State.exists_answer (env : Env) (tables : Tables) (point : Point) {changed : Tables}
    {statement : Statement} {value : Value} (waits : point.statement = some statement)
    (runs : tables.run env.backend {} statement = some (changed, value)) (ending : Ending)
    : ∃ answered reply,
        State.answer env tables point ending {}
          = some (answered, ⟨.ready (.reply reply), point⟩) := by
  cases ending with
  | succeeds => exact ⟨changed, some value, by simp [State.answer, waits, runs]⟩
  | answerLost => exact ⟨changed, none, by simp [State.answer, waits, runs]⟩
  | rejected => exact ⟨tables, none, by simp [State.answer, waits]⟩

/-- The handler of a re-crawled page comes to its end, however its statements end. -/
theorem exists_handles (env : Env) (endings : Point → Ending) (shared : Shared)
    (page : String × String) (recrawl : isRecrawl job = true)
    : ∃ after,
        Handles env endings shared ⟨.ready (.response (some page)), .fetched job⟩ [] after := by
  have awaits : shared.resume env [] (.response (some page)) (.fetched job)
      = shared.await (.recrawlMarked job) := by
    simp [Shared.resume, Shared.fetched, Input.page?, recrawl]
  have begins {after : Shared}
      (rest : Handles env endings shared ⟨.statement, .recrawlMarked job⟩ [] after)
      : Handles env endings shared ⟨.ready (.response (some page)), .fetched job⟩ [] after := by
    refine .runs [] (by simp) (congrArg Outcome.threads awaits) ?_
    rw [awaits]
    exact rest
  obtain ⟨marked, reply, answers⟩ :=
    State.exists_answer env shared.tables (.recrawlMarked job) rfl rfl
      (endings (.recrawlMarked job))
  cases reply with
  | none => exact ⟨_, begins (.answered {} answers (.runs [] (by simp) rfl .finished))⟩
  | some value =>
      obtain ⟨deleted, reply', answers'⟩ :=
        State.exists_answer env marked (.recrawlDeleted job) rfl rfl
          (endings (.recrawlDeleted job))
      have ends : Handles env endings { shared with tables := deleted }
          ⟨.ready (.reply reply'), .recrawlDeleted job⟩ [] _ :=
        .runs [] (by simp) rfl .finished
      exact ⟨_, begins (.answered {} answers (.runs [] (by simp) rfl
        (.answered {} answers' ends)))⟩

-----------------------------------------------------------------------------------------
-- The links of the page
-----------------------------------------------------------------------------------------

/-- The handler of a re-crawled page that has been fetched leaves the links of the page that pass
the filters on the frontier, apart from visited ones, if and only if they are known without it.
-/
theorem findsLinks_iff {filtering : Shared} {page : String × String}
    (recrawl : isRecrawl job = true)
    (handles : Handles env endings shared ⟨.ready (.response (some page)), .fetched job⟩ others
      after)
    : FindsLinks env filtering job page after
      ↔ LinksKnown env endings filtering shared job page others := by
  refine forall₂_congr fun item _ => ?_
  have fares : Fares endings job true shared.tables others after.tables item.url :=
    handles.fares recrawl (.fetched page)
  have visited := fares.visited
  simp only [true_and] at visited
  rw [← or_assoc, ← visited]
  constructor
  · intro finds
    by_cases known : item.url ∈ after.tables.visited
    · exact .inl known
    · exact .inr ((fares.listed known).mp (finds known))
  · rintro (known | listed) unknown
    · exact absurd known unknown
    · exact (fares.listed unknown).mpr listed

/-- A saved page that waits to be crawled again. -/
def savedPage : FrontierItem := ⟨"https://a.example/1", -1, none⟩

/-- The page is saved and visited, and on the frontier again, with some other rows. -/
def recrawlShared (others : List FrontierItem) : Shared :=
  let start := State.plainCrawl (savedPage :: others)
  let page := start.shared.pageData State.plainEnv ⟨savedPage.url, 0, none⟩ savedPage.url
    (State.plainEnv.parsePage "" savedPage.url)
  { start.shared with
    tables := (start.shared.tables.upsertNode page).markVisited savedPage.url }

/-- The link of the page, as the loop would queue it. -/
def foundLink : FrontierItem := ⟨"https://b.example/2", 0, some savedPage.url⟩

/-- It passes the filters. -/
theorem keptLinks_recrawlShared
    : (recrawlShared []).keptLinks State.linkedEnv savedPage savedPage.url
        (State.linkedEnv.parsePage "" savedPage.url).links
      = [foundLink] := by
  decide +kernel

/-- The link of the page waits on the frontier already. -/
theorem findsLinks_of_waiting_link
    : ∃ after,
        Handles State.linkedEnv (fun _ => .succeeds)
          (recrawlShared [{ foundLink with parent := none }])
          ⟨.ready (.response (some ("", savedPage.url))), .fetched savedPage⟩ [] after
        ∧ FindsLinks State.linkedEnv (recrawlShared []) savedPage ("", savedPage.url) after := by
  have recrawl : isRecrawl savedPage = true := by decide
  obtain ⟨after, handles⟩ := exists_handles State.linkedEnv (fun _ => .succeeds)
    (recrawlShared [{ foundLink with parent := none }]) ("", savedPage.url) recrawl
  refine ⟨after, handles, (findsLinks_iff recrawl handles).mpr ?_⟩
  intro item member
  rw [keptLinks_recrawlShared] at member
  obtain rfl := List.mem_singleton.mp member
  exact .inr (.inr (by unfold ListedAfter; decide +kernel))

/-- The link of the page is new, and is not queued. -/
theorem findsLinks_fails_for_new_link
    : ¬ ∀ (env : Env) (endings : Point → Ending) (shared filtering after : Shared)
        (job : FrontierItem) (page : String × String) (others : List Statement),
        isRecrawl job = true →
        Handles env endings shared ⟨.ready (.response (some page)), .fetched job⟩ others after →
        FindsLinks env filtering job page after := by
  intro claim
  have recrawl : isRecrawl savedPage = true := by decide
  obtain ⟨after, handles⟩ := exists_handles State.linkedEnv (fun _ => .succeeds)
    (recrawlShared []) ("", savedPage.url) recrawl
  have finds := claim _ _ _ (recrawlShared []) _ _ _ _ recrawl handles
  have passes := List.mem_singleton.mpr (Eq.refl foundLink)
  have link := finds foundLink (keptLinks_recrawlShared ▸ passes)
  have fares : Fares (fun _ => .succeeds) savedPage true (recrawlShared []).tables []
      after.tables foundLink.url := handles.fares recrawl (.fetched _)
  have unvisited : foundLink.url ∉ after.tables.visited := by
    rw [fares.visited]
    unfold MarkedBy
    decide +kernel
  have listed := (fares.listed unvisited).mp (link unvisited)
  exact absurd listed (by unfold ListedAfter; decide +kernel)

end WebIndexer.Crawl
