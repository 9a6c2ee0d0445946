import WebIndexer.Crawl.Cargo
import WebIndexer.Crawl.Outage
import WebIndexer.Library.Runs

/-! The addresses that the crawl holds: those of the items that it carries, those that its page
fetches have got to, and those of the pages that it has saved. A step brings in few new ones,
so that a fact about addresses holds of all that are held as soon as it holds of those that
are brought in.
-/

namespace WebIndexer.Crawl

open WebIndexer.Fetcher
open WebIndexer.Library
open WebIndexer.Store

/-- A page fetch has got to an address that is fine, and a page that is saved was found at one.
-/
structure Thread.FetchesAt (holds : String → Prop) (thread : Thread) : Prop where
  fetch : ∀ job url, thread.point = .fetched job → thread.phase.address? = some url → holds url
  page : ∀ job page links, thread.point = .saved job page links → holds page.url

/-- The point waits for a page, or for a page to be saved. -/
def Point.isPage : Point → Bool
  | .fetched _ | .saved .. => true
  | _ => false

variable {env : Env} {holds : String → Prop}

/-- Other threads are none of both. -/
theorem Thread.FetchesAt.of_other {thread : Thread} (other : thread.point.isPage = false)
    : thread.FetchesAt holds := by
  constructor
  · intro job url waits _
    rw [waits] at other
    cases other
  · intro job page links waits
    rw [waits] at other
    cases other

/-- A request to a fine address makes a fine thread. -/
theorem FetchCase.fetchesAt {shared after : Shared} {url : String} {job : FrontierItem}
    {thread : Thread} (fetch : FetchCase shared url (.fetched job) (after, thread))
    (fine : holds url)
    : thread.FetchesAt holds := by
  constructor
  · intro _ address _ known
    cases fetch with
    | refused | thrown => cases known
    | sent => exact Option.some.inj known ▸ fine
  · intro _ page links waits
    cases fetch.point_eq.symm.trans waits

/-- A piece requests what it holds, and saves what it has fetched. -/
theorem Flow.fetchesAt {shared : Shared} {seeds : List String} {input : Input}
    {point : Point} {outcome : Outcome} (flow : Flow env shared seeds input point outcome)
    (held : ∀ item ∈ point.items, holds item.url)
    (running : (Thread.mk (.ready input) point).FetchesAt holds)
    : ∀ thread ∈ outcome.threads, thread.FetchesAt holds := by
  cases flow with
  | asking _ _ _ fetch => exact Outcome.forall_single rfl (.of_other (fetch.point_eq ▸ rfl))
  | started fetch =>
      have fine := held _ List.mem_cons_self
      exact Outcome.forall_pair rfl (.of_other rfl) (fetch.fetchesAt fine)
  | pageFetched page first =>
      subst page
      have fine := running.fetch _ _ rfl rfl
      exact Outcome.forall_single rfl ⟨nofun, fun _ _ _ waits => by cases waits; exact fine⟩
  | lost | thrown | cursorRead | done | busy | loopOver | refilled | cleared | consumed =>
      exact Outcome.forall_none rfl
  | _ => exact Outcome.forall_single rfl (.of_other rfl)

namespace State

variable {state next : State} {label : Label}

/-- The address that a label redirects a page fetch to. -/
def pageRedirect (env : Env) (state : State) (label : Label) : Option String :=
  match state.redirecting env label with
  | some (.fetched _, target) => some target
  | _ => none

/-- Every address that the crawl holds is fine. -/
structure HoldsAt (holds : String → Prop) (state : State) : Prop where
  laden : Laden (fun item => holds item.url) state
  fetches : ∀ thread ∈ state.threads, thread.FetchesAt holds
  nodes : ∀ url ∈ state.shared.tables.nodes.keys, holds url

/-- What a step may bring in is fine: the seeds that the piece that runs may draw, the links
that it keeps of a page that has been saved, a Kafka message, and the target of a redirect.
-/
structure BringsAt (env : Env) (holds : String → Prop) (state : State) (label : Label)
    : Prop where
  seeds : ∀ seeds, label = .run seeds → ∀ url ∈ seeds, holds url
  links
    : ∀ value job page links,
        state.running = some ⟨.ready (.reply (some value)), .saved job page links⟩ →
        ∀ item ∈ (state.shared.countSuccess env job page).keptLinks env job page.url links,
          holds item.url
  message : ∀ item, Background env label ⟨.statement, .consumed item⟩ → holds item.url
  redirect : ∀ target ∈ state.pageRedirect env label, holds target

/-- A crawl that begins with fine tables holds nothing else. -/
theorem Begins.holdsAt (begins : state.Begins)
    (rows : ∀ row ∈ state.shared.tables.frontier.rows, holds row.url)
    (nodes : ∀ url ∈ state.shared.tables.nodes.keys, holds url)
    : state.HoldsAt holds := by
  refine ⟨⟨rows, begins.forall_threads ?_ ?_⟩, ?_, nodes⟩
  · intro item held
    cases held
  · intro item held
    cases held
  · exact begins.forall_threads (.of_other rfl) (.of_other rfl)

/-- A step leaves fine fetches. -/
theorem HoldsAt.fetches_step (held : state.HoldsAt holds)
    (brings : BringsAt env holds state label) (taken : state.step env label = some next)
    : ∀ thread ∈ next.threads, thread.FetchesAt holds := by
  refine forall_threads_of_step taken held.fetches ?begun ?left ?answered ?redirected ?settled
    ?recorded
  case begun =>
    intro thread background
    cases background <;> exact .of_other rfl
  case left =>
    intro seeds input point _ _ member _
    refine (state.shared.resume_flow env seeds input point).fetchesAt ?_
      (held.fetches _ member)
    intro item carried
    exact held.laden.threads _ member item (List.mem_append_right _ carried)
  case answered =>
    intro point statement ending tables reply _ _ _ waiting
    exact ⟨nofun, waiting.page⟩
  case redirected =>
    intro url redirects target point thread redirecting fetch waiting
    cases point with
    | fetched job =>
        have named : state.pageRedirect env label = some target := by
          simp [pageRedirect, redirecting]
        exact fetch.fetchesAt (brings.redirect target named)
    | saved job page links =>
        have saves : thread.point = .saved job page links := fetch.point_eq
        refine ⟨fun _ _ waits => ?_, fun _ _ _ waits => ?_⟩
        · cases saves.symm.trans waits
        · cases saves.symm.trans waits
          exact waiting.page _ _ _ rfl
    | _ => exact .of_other (fetch.point_eq ▸ rfl)
  case settled =>
    intro url redirects point response received waiting
    refine ⟨fun job address waits known => ?_, waiting.page⟩
    obtain ⟨page, found, rfl⟩ := Option.map_eq_some_iff.mp known
    rw [received page found]
    exact waiting.fetch job url waits rfl
  case recorded =>
    intro point response waiting
    exact ⟨waiting.fetch, waiting.page⟩

/-- A step saves pages at fine addresses. -/
theorem HoldsAt.nodes_step (held : state.HoldsAt holds)
    (taken : state.step env label = some next)
    : ∀ url ∈ next.shared.tables.nodes.keys, holds url := by
  intro url saved
  rcases tables_of_step taken with same | ⟨point, _, _, _, _, waiting, waits, executed⟩
  · exact held.nodes url (same ▸ saved)
  · rcases executed.nodes_cases with same | ⟨page, rfl, written, _⟩
    · exact held.nodes url (same ▸ saved)
    · obtain ⟨job, links, rfl⟩ := Point.eq_saved waits
      rw [written, InsertionMap.mem_keys_set] at saved
      rcases saved with rfl | old
      · exact (held.fetches _ waiting).page _ _ _ rfl
      · exact held.nodes url old

/-- A step that brings in fine addresses keeps all of them fine. -/
theorem HoldsAt.step (held : state.HoldsAt holds) (brings : BringsAt env holds state label)
    (taken : state.step env label = some next)
    : next.HoldsAt holds where
  laden := held.laden.step
    { seeds := brings.seeds, links := brings.links, message := brings.message,
      targets := held.nodes } taken
  fetches := held.fetches_step brings taken
  nodes := held.nodes_step taken

end State

end WebIndexer.Crawl
