import WebIndexer.Crawl.Durability
import WebIndexer.Crawl.Seeds

/-! Where everything in the store comes from. The answers that servers have given make a graph of
addresses: a page leads to its links, wherever redirects have led to the page. The crawl explores
that graph from its seeds, and the depth of a row is the number of links on the way.
-/

namespace WebIndexer.Crawl

open WebIndexer.Config
open WebIndexer.Fetcher
open WebIndexer.Library
open WebIndexer.Runtime
open WebIndexer.Store

-----------------------------------------------------------------------------------------
-- The exploration of a graph
-----------------------------------------------------------------------------------------

/-- A node is found from a root in so many steps. -/
inductive Explored {α : Type*} (root : α → Prop) (leads : α → α → Prop) : Nat → α → Prop
  | root {node : α} (begins : root node) : Explored root leads 0 node
  | step {depth : Nat} {node next : α} (found : Explored root leads depth node)
    (edge : leads node next)
    : Explored root leads (depth + 1) next

-----------------------------------------------------------------------------------------
-- The graph of the answers
-----------------------------------------------------------------------------------------

/-- The answers that servers have given, each with the address that was asked for. -/
abbrev Answers := List (String × HttpEvent)

/-- Redirects lead from one address to another. -/
inductive Redirected (env : Env) (answers : Answers) (url : String) : String → Prop
  | here : Redirected env answers url url
  | further {stop location target : String} (before : Redirected env answers url stop)
    (answered : (stop, .redirect location) ∈ answers)
    (followed : redirectTarget env.api location stop = some target)
    : Redirected env answers url target

/-- A fetch has ended at an address with a page. -/
structure Fetched (env : Env) (answers : Answers) (url finalUrl html : String) : Prop where
  redirected : Redirected env answers url finalUrl
  page : (finalUrl, .page html) ∈ answers

/-- A page leads to a link that is not blacklisted. -/
def LinksTo (env : Env) (answers : Answers) (url link : String) : Prop :=
  ∃ finalUrl html, Fetched env answers url finalUrl html
    ∧ link ∈ (env.parsePage html finalUrl).links ∧ isBlacklisted env.api link = false

/-- The items that an exploration from the seeds queues. -/
inductive Found (env : Env) (seed : String → Prop) (answers : Answers) : FrontierItem → Prop
  | seed {url : String} (seeded : seed url) : Found env seed answers (seedItem url)
  | link {job : FrontierItem} {finalUrl html link : String} (found : Found env seed answers job)
    (fetched : Fetched env answers job.url finalUrl html)
    (member : link ∈ (env.parsePage html finalUrl).links)
    (clean : isBlacklisted env.api link = false) (shallow : job.depth + 1 ≤ maxDepth)
    : Found env seed answers ⟨link, job.depth + 1, some finalUrl⟩

/-- A row of `nodes` is what `parsePage` has made of a page that a found item has led to. -/
def PageFound (env : Env) (seed : String → Prop) (answers : Answers) (url : String)
    (row : NodeRow)
    : Prop :=
  ∃ job html, ∃ shared : Shared, Found env seed answers job ∧ Fetched env answers job.url url html
    ∧ row = Tables.nodeRow (shared.pageData env job url (env.parsePage html url))

/-- A row of the frontier has been found, or is a saved page to be crawled again. -/
def Carried (env : Env) (seed : String → Prop) (answers : Answers) (tables : Tables)
    (item : FrontierItem)
    : Prop :=
  Found env seed answers item ∨ ∃ url ∈ tables.nodes.keys, item = recrawlItem url

section Monotone

variable {env : Env} {seed : String → Prop} {answers later : Answers}
  (grows : ∀ answer ∈ answers, answer ∈ later)
include grows

/-- Redirects are remembered. -/
theorem Redirected.mono {url stop : String} (redirected : Redirected env answers url stop)
    : Redirected env later url stop := by
  induction redirected with
  | here => exact .here
  | further _ answered followed ih => exact .further ih (grows _ answered) followed

/-- Fetches are remembered. -/
theorem Fetched.mono {url finalUrl html : String} (fetched : Fetched env answers url finalUrl html)
    : Fetched env later url finalUrl html :=
  ⟨fetched.redirected.mono grows, grows _ fetched.page⟩

/-- What has been found stays found. -/
theorem Found.mono {item : FrontierItem} (found : Found env seed answers item)
    : Found env seed later item := by
  induction found with
  | seed seeded => exact .seed seeded
  | link _ fetched member clean shallow ih =>
      exact .link ih (fetched.mono grows) member clean shallow

/-- A found page stays found. -/
theorem PageFound.mono {url : String} {row : NodeRow} (page : PageFound env seed answers url row)
    : PageFound env seed later url row := by
  obtain ⟨job, html, shared, found, fetched, same⟩ := page
  exact ⟨job, html, shared, found.mono grows, fetched.mono grows, same⟩

/-- A row stays one that may be carried. -/
theorem Carried.mono {tables after : Tables} {item : FrontierItem}
    (saved : ∀ url ∈ tables.nodes.keys, url ∈ after.nodes.keys)
    (carried : Carried env seed answers tables item)
    : Carried env seed later after item := by
  rcases carried with found | ⟨url, there, same⟩
  · exact .inl (found.mono grows)
  · exact .inr ⟨url, saved url there, same⟩

end Monotone

variable {env : Env} {seed : String → Prop} {answers : Answers}

/-- The depth of a found item is the number of links that lead to it from a seed. -/
theorem Found.explored {item : FrontierItem} (found : Found env seed answers item)
    : 0 ≤ item.depth ∧ Explored seed (LinksTo env answers) item.depth.toNat item.url := by
  induction found with
  | seed seeded => exact ⟨Int.le_refl 0, .root seeded⟩
  | @link job finalUrl html link _ fetched member clean _ ih =>
      obtain ⟨deep, explored⟩ := ih
      have next : (job.depth + 1).toNat = job.depth.toNat + 1 := by omega
      refine ⟨by change 0 ≤ job.depth + 1; omega, ?_⟩
      change Explored _ _ (job.depth + 1).toNat link
      rw [next]
      exact .step explored ⟨finalUrl, html, fetched, member, clean⟩

/-- A found item is not too deep. -/
theorem Found.shallow {item : FrontierItem} (found : Found env seed answers item)
    : item.depth ≤ maxDepth := by
  cases found with
  | seed => exact (by decide : (0 : Int) ≤ maxDepth)
  | link _ _ _ _ shallow => exact shallow

/-- An item that is no re-crawl has been found. -/
theorem Carried.found {tables : Tables} {item : FrontierItem}
    (carried : Carried env seed answers tables item) (first : isRecrawl item = false)
    : Found env seed answers item := by
  rcases carried with found | ⟨url, _, rfl⟩
  · exact found
  · cases first

-----------------------------------------------------------------------------------------
-- What a thread knows
-----------------------------------------------------------------------------------------

/-- A thread asks where redirects have led it, has received what was answered there, and saves what
`parsePage` has made of it.
-/
structure Thread.Traced (env : Env) (answers : Answers) (thread : Thread) : Prop where
  asked : ∀ url redirects job, thread = ⟨.http url redirects, .fetched job⟩ →
    Redirected env answers job.url url
  received : ∀ job html finalUrl,
    thread = ⟨.settled (some (html, finalUrl)), .fetched job⟩
      ∨ thread = ⟨.ready (.response (some (html, finalUrl))), .fetched job⟩ →
    Fetched env answers job.url finalUrl html
  saves : ∀ job page links, thread.point = .saved job page links →
    isRecrawl job = false
      ∧ ∃ html, ∃ shared : Shared, Fetched env answers job.url page.url html
        ∧ page = shared.pageData env job page.url (env.parsePage html page.url)
        ∧ links = (env.parsePage html page.url).links

namespace Thread.Traced

variable {thread : Thread}

/-- The point waits for a page, or for a page to be saved. -/
def concerns : Point → Bool
  | .fetched _ | .saved .. => true
  | _ => false

/-- Other threads know nothing of pages. -/
theorem of_other (other : concerns thread.point = false) : thread.Traced env answers := by
  refine ⟨?_, ?_, ?_⟩
  · rintro url redirects job rfl
    cases other
  · rintro job html finalUrl (rfl | rfl) <;> cases other
  · intro job page links waits
    rw [waits] at other
    cases other

/-- What a thread knows is remembered. -/
theorem mono {later : Answers} (grows : ∀ answer ∈ answers, answer ∈ later)
    (traced : thread.Traced env answers)
    : thread.Traced env later := by
  refine ⟨?_, ?_, ?_⟩
  · exact fun url redirects job same => (traced.asked url redirects job same).mono grows
  · exact fun job html finalUrl same => (traced.received job html finalUrl same).mono grows
  · intro job page links waits
    obtain ⟨first, html, shared, fetched, same⟩ := traced.saves job page links waits
    exact ⟨first, html, shared, fetched.mono grows, same⟩

/-- A fetch asks where it is told to. -/
theorem of_fetch {shared after : Shared} {url : String} {job : FrontierItem}
    (fetch : FetchCase shared url (.fetched job) (after, thread))
    (redirected : Redirected env answers job.url url)
    : thread.Traced env answers := by
  refine ⟨?_, ?_, ?_⟩
  · rintro other redirects same rfl
    cases fetch
    exact redirected
  · rintro other html finalUrl (rfl | rfl) <;> cases fetch
  · intro other page links waits
    rw [fetch.point_eq] at waits
    cases waits

end Thread.Traced

/-- A piece saves what it has received. -/
theorem Flow.traced {shared : Shared} {seeds : List String} {input : Input} {point : Point}
    {outcome : Outcome} (flow : Flow env shared seeds input point outcome)
    (ready : Thread.Traced env answers ⟨.ready input, point⟩)
    : ∀ thread ∈ outcome.threads, thread.Traced env answers := by
  cases flow with
  | asking _ _ _ fetch => exact Outcome.forall_single rfl (.of_other (fetch.point_eq ▸ rfl))
  | started fetch => exact Outcome.forall_pair rfl (.of_other rfl) (.of_fetch fetch .here)
  | pageFetched page first =>
      refine Outcome.forall_single rfl ⟨nofun, ?_, ?_⟩
      · rintro job html finalUrl (same | same) <;> cases same
      · intro job data links waits
        cases waits
        subst page
        exact ⟨first, _, shared, ready.received _ _ _ (.inr rfl), rfl, rfl⟩
  | lost | thrown | cursorRead | done | busy | loopOver | refilled | cleared | consumed =>
      exact Outcome.forall_none rfl
  | _ => exact Outcome.forall_single rfl (.of_other rfl)

namespace Thread.Traced

variable {point : Point} {url html location target : String} {redirects : Nat}

/-- A thread goes on to where it is redirected. -/
theorem redirect {shared after : Shared} {thread : Thread}
    (traced : Thread.Traced env answers ⟨.http url redirects, point⟩)
    (answered : (url, .redirect location) ∈ answers)
    (followed : redirectTarget env.api location url = some target)
    (fetch : FetchCase shared target point (after, thread))
    : thread.Traced env answers := by
  refine ⟨?_, ?_, ?_⟩
  · rintro other count job rfl
    cases fetch
    exact .further (traced.asked url redirects job rfl) answered followed
  · rintro job html finalUrl (rfl | rfl) <;> cases fetch
  · intro job page links waits
    exact traced.saves job page links (fetch.point_eq ▸ waits)

/-- A thread receives the page of the address that it has asked. -/
theorem receive (traced : Thread.Traced env answers ⟨.http url redirects, point⟩)
    (answered : (url, .page html) ∈ answers)
    : Thread.Traced env answers ⟨.settled (some (html, url)), point⟩ := by
  refine ⟨nofun, ?_, traced.saves⟩
  rintro job text finalUrl (same | same)
  · cases same
    exact ⟨traced.asked url redirects job rfl, answered⟩
  · cases same

/-- A thread whose request fails receives no page. -/
theorem fail (traced : Thread.Traced env answers ⟨.http url redirects, point⟩)
    : Thread.Traced env answers ⟨.settled none, point⟩ := by
  refine ⟨nofun, ?_, traced.saves⟩
  rintro job text finalUrl (same | same) <;> cases same

/-- What has been received is handed to the script. -/
theorem record {response : Response}
    (traced : Thread.Traced env answers ⟨.settled response, point⟩)
    : Thread.Traced env answers ⟨.ready (.response response), point⟩ := by
  refine ⟨nofun, ?_, traced.saves⟩
  rintro job text finalUrl (same | same)
  · cases same
  · cases same
    exact traced.received job text finalUrl (.inl rfl)

/-- The answer to a statement tells nothing of pages. -/
theorem reply {value : Option Value} (traced : Thread.Traced env answers ⟨.statement, point⟩)
    : Thread.Traced env answers ⟨.ready (.reply value), point⟩ := by
  refine ⟨nofun, ?_, traced.saves⟩
  rintro job text finalUrl (same | same) <;> cases same

end Thread.Traced

namespace State

variable {state next : State} {label : Label}

/-- The answer that a server gives with a label, if it gives one. -/
def answered (state : State) : Label → Answers
  | .http index event =>
      match pick state.pool index with
      | some (⟨.http url _, _⟩, _) => [(url, event)]
      | _ => []
  | _ => []

/-- The answers with that of a label. -/
theorem grows_answered (state : State) (label : Label) (answers : Answers)
    : ∀ answer ∈ answers, answer ∈ state.answered label ++ answers :=
  fun _ member => List.mem_append_right _ member

/-- The thread of an answered request knows what the server has answered. -/
theorem traced_http {index : Nat} {event : HttpEvent}
    (traced : ∀ thread ∈ state.threads, thread.Traced env answers)
    (taken : state.step env (.http index event) = some next)
    : ∀ thread ∈ next.threads,
        thread.Traced env (state.answered (.http index event) ++ answers) := by
  obtain ⟨url, redirects, point, rest, thread, _, picked, responded, before, after⟩ :=
    step_http taken
  have old : ∀ thread ∈ state.threads,
      thread.Traced env (state.answered (.http index event) ++ answers) :=
    fun thread member => (traced thread member).mono (state.grows_answered _ _)
  have asked := old _ (before.mem_iff.mpr List.mem_cons_self)
  have logged : (url, event) ∈ state.answered (.http index event) ++ answers := by
    refine List.mem_append_left _ ?_
    simp only [answered, picked]
    exact List.mem_singleton_self _
  rw [after]
  intro other member
  rcases List.mem_cons.mp member with rfl | kept
  · cases event with
    | redirect location =>
        obtain ⟨target, followed, same⟩ := Option.map_eq_some_iff.mp responded
        have fetch := state.shared.fetchHtmlRaw_spec env target (redirects + 1) point
        rw [same] at fetch
        exact asked.redirect logged followed fetch
    | page html =>
        obtain ⟨_, rfl⟩ := Prod.mk.inj (Option.some.inj responded)
        exact asked.receive logged
    | failure =>
        obtain ⟨_, rfl⟩ := Prod.mk.inj (Option.some.inj responded)
        exact asked.fail
  · exact old other (before.mem_iff.mpr (List.mem_cons_of_mem _ kept))

/-- A step leaves threads that know what they have received. -/
theorem traced_threads (traced : ∀ thread ∈ state.threads, thread.Traced env answers)
    (taken : state.step env label = some next)
    : ∀ thread ∈ next.threads, thread.Traced env (state.answered label ++ answers) := by
  have old : ∀ thread ∈ state.threads, thread.Traced env (state.answered label ++ answers) :=
    fun thread member => (traced thread member).mono (state.grows_answered _ _)
  cases step_cases taken with
  | still _ _ _ _ after => exact fun thread member => old thread (after.mem_iff.mp member)
  | begin _ _ background _ after =>
      rw [after]
      intro thread member
      rcases List.mem_cons.mp member with rfl | kept
      · cases background <;> exact .of_other rfl
      · exact old thread kept
  | @run seeds input point _ _ _ before after =>
      rw [after]
      rw [before] at old
      intro thread member
      rcases List.mem_append.mp member with left | kept
      · exact (state.shared.resume_flow env seeds input point).traced
          (old _ List.mem_cons_self) thread left
      · exact old thread (List.mem_cons_of_mem _ kept)
  | exec _ _ _ _ before after =>
      rw [after]
      intro thread member
      rcases List.mem_cons.mp member with rfl | kept
      · exact (old _ (before.mem_iff.mpr List.mem_cons_self)).reply
      · exact old thread (before.mem_iff.mpr (List.mem_cons_of_mem _ kept))
  | redirect | settle => exact traced_http traced taken
  | record _ before after =>
      rw [after]
      intro thread member
      rcases List.mem_cons.mp member with rfl | kept
      · exact (old _ (before.mem_iff.mpr List.mem_cons_self)).record
      · exact old thread (before.mem_iff.mpr (List.mem_cons_of_mem _ kept))

/-- Everything that the crawl holds comes from the seeds and the answers. -/
structure Traced (env : Env) (seed : String → Prop) (answers : Answers) (state : State) : Prop where
  laden : Laden (Carried env seed answers state.shared.tables) state
  threads : ∀ thread ∈ state.threads, thread.Traced env answers
  pages : ∀ entry ∈ state.shared.tables.nodes.entries, PageFound env seed answers entry.1 entry.2

/-- Without Kafka, a step brings in seeds, and links of pages that were fetched for found items. -/
theorem Traced.brings (traced : state.Traced env seed answers) (offline : env.kafkaEnabled = false)
    (drawn : ∀ seeds, label = .run seeds → ∀ url ∈ seeds, seed url)
    : Brings env (Carried env seed answers state.shared.tables) state label where
  seeds seeds same url member := .inl (.seed (drawn seeds same url member))
  links := by
    intro value job page links running item kept
    have member : ⟨.ready (.reply (some value)), .saved job page links⟩ ∈ state.threads := by
      simp [State.threads, running]
    obtain ⟨first, html, shared, fetched, _, same⟩ := (traced.threads _ member).saves _ _ _ rfl
    have carried : Carried env seed answers state.shared.tables job :=
      traced.laden.threads _ member job (List.mem_append_right _ (List.mem_singleton.mpr rfl))
    have link := Shared.keptLink_of_mem kept
    have listed := Shared.url_mem_of_keptLinks kept
    obtain ⟨url, depth, parent⟩ := item
    obtain ⟨clean, rfl, shallow, rfl, _⟩ := link
    exact .inl (.link (carried.found first) fetched (same ▸ listed) clean shallow)
  message := by
    intro item background
    cases background with
    | consume _ _ _ enabled => exact Bool.noConfusion (offline.symm.trans enabled)
  targets url saved := .inr ⟨url, saved, rfl⟩

/-- A page that a traced thread saves has been found. -/
theorem Traced.saves {thread : Thread} {page : PageData}
    (traced : state.Traced env seed answers) (member : thread ∈ state.threads)
    (sent : thread.point.statement = some (.saveNode page))
    : PageFound env seed answers page.url (Tables.nodeRow page) := by
  obtain ⟨phase, point⟩ := thread
  obtain ⟨job, links, rfl⟩ := Point.eq_saved sent
  obtain ⟨first, html, shared, fetched, same, _⟩ := (traced.threads _ member).saves _ _ _ rfl
  have held : job ∈ (Thread.mk phase (.saved job page links)).items := by
    cases phase with
    | ready => exact List.mem_append_right _ (List.mem_singleton_self _)
    | statement | http | settled => exact List.mem_singleton_self _
  have carried : Carried env seed answers state.shared.tables job :=
    traced.laden.threads _ member job held
  exact ⟨job, html, shared, carried.found first, fetched, congrArg Tables.nodeRow same⟩

/-- A step keeps everything traced. -/
theorem Traced.step (traced : state.Traced env seed answers) (offline : env.kafkaEnabled = false)
    (drawn : ∀ seeds, label = .run seeds → ∀ url ∈ seeds, seed url)
    (taken : state.step env label = some next)
    : next.Traced env seed (state.answered label ++ answers) where
  laden := by
    refine (traced.laden.step (traced.brings offline drawn) taken).mono fun item carried => ?_
    exact carried.mono (state.grows_answered _ _) fun _ saved => mem_keys_of_step taken saved
  threads := traced_threads traced.threads taken
  pages := by
    intro entry member
    refine PageFound.mono (state.grows_answered _ _) ?_
    rcases tables_of_step taken with same | ⟨point, _, _, _, _, waiting, waits, executed⟩
    · exact traced.pages entry (same ▸ member)
    · rcases executed.nodes_cases with same | ⟨page, rfl, written, _⟩
      · exact traced.pages entry (same ▸ member)
      · rw [written] at member
        rcases InsertionMap.mem_of_mem_set member with rfl | old
        · exact traced.saves waiting waits
        · exact traced.pages entry old

end State

end WebIndexer.Crawl
