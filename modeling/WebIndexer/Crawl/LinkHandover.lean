import WebIndexer.Crawl.Integrity
import WebIndexer.Crawl.Places

/-! The links of a page that is saved. The page and its links are stored in two transactions,
and nothing is tried again when the second one fails, so that the links are queued together
with the page only as long as it does not, and the script sees how the first one ends. Each
handler is followed from the page that it gets: its links, and the state in which the loop has
looked at them, are kept beside the run.
-/

namespace WebIndexer.Crawl

open WebIndexer.Config
open WebIndexer.Fetcher
open WebIndexer.Library
open WebIndexer.Store

-----------------------------------------------------------------------------------------
-- What a handler has come by
-----------------------------------------------------------------------------------------

/-- What the handler of a page fetch has come by: the page that was fetched, and the state in which
the loop has looked at its links, once it has.
-/
structure Handling where
  html : String
  finalUrl : String
  looked : Option Shared

/-- `parsed.links`. -/
def Handling.links (env : Env) (handling : Handling) : List String :=
  (env.parsePage handling.html handling.finalUrl).links

/-- The state in which the loop looks at the links of a page, whose save has been counted. When the
handler takes the save for failed, it looks at no links, and this is the state in which it
would have.
-/
def Shared.looking (env : Env) (shared : Shared) (job : FrontierItem) (page : PageData)
    (input : Input)
    : Shared :=
  match input.value? with
  | some _ => shared.countSuccess env job page
  | none => shared

/-- What a handler has come by after one of its pieces. -/
def Shared.handle (env : Env) (shared : Shared) (input : Input)
    : Point → Option Handling → Option Handling
  | .fetched _, _ => input.page?.map fun page => ⟨page.1, page.2, none⟩
  | .saved job page _, own =>
      own.map fun handling =>
        { handling with looked := some (shared.looking env job page input) }
  | .linksInserted .., own => own
  | _, _ => none

/-- A handler that saves the page, or inserts its links, does so with what it has come by: the links
that it inserts are those that the loop keeps of all links of the page.
-/
def Point.Recalls (env : Env) : Point → Option Handling → Prop
  | .saved _ page links, own =>
      ∃ handling ∈ own, page.url = handling.finalUrl ∧ links = handling.links env
  | .linksInserted job items, own =>
      ∃ handling ∈ own, ∃ looked ∈ handling.looked,
        items = looked.keptLinks env job handling.finalUrl (handling.links env)
  | _, _ => True

/-- Each piece of a handler leaves it with what it has come by. -/
theorem Flow.recalls {env : Env} {shared : Shared} {seeds : List String} {input : Input}
    {point : Point} {outcome : Outcome} {own : Option Handling}
    (flow : Flow env shared seeds input point outcome) (recalled : point.Recalls env own)
    : ∀ thread ∈ outcome.threads,
        thread.point.Recalls env (shared.handle env input point own) := by
  cases flow with
  | @pageFetched job html finalUrl page =>
      subst page
      exact Outcome.forall_single rfl ⟨⟨html, finalUrl, none⟩, rfl, rfl, rfl⟩
  | @savedLinks job page links value answered =>
      subst answered
      obtain ⟨handling, rfl, address, rfl⟩ := recalled
      rw [address]
      exact Outcome.forall_single rfl ⟨_, rfl, _, rfl, rfl⟩
  | asking _ _ _ fetch => exact Outcome.forall_single rfl (by rw [fetch.point_eq]; trivial)
  | started fetch =>
      exact Outcome.forall_pair rfl trivial (by rw [fetch.point_eq]; trivial)
  | lost | thrown | cursorRead | done | busy | loopOver | refilled | cleared | consumed =>
      exact Outcome.forall_none rfl
  | _ => exact Outcome.forall_single rfl trivial

-----------------------------------------------------------------------------------------
-- Queued links
-----------------------------------------------------------------------------------------

/-- The address waits on the frontier, or has been visited. -/
def Queued (tables : Tables) (url : String) : Prop :=
  url ∈ tables.frontier.urls ∨ url ∈ tables.visited

instance (tables : Tables) (url : String) : Decidable (Queued tables url) :=
  inferInstanceAs (Decidable (_ ∨ _))

/-- The links that the thread has inserted, when its statement is over. -/
def Thread.inserted : Thread → List FrontierItem
  | ⟨.statement, _⟩ => []
  | ⟨_, .linksInserted _ items⟩ => items
  | _ => []

/-- The thread's links are queued. -/
def Thread.HasQueued (tables : Tables) (thread : Thread) : Prop :=
  ∀ item ∈ thread.inserted, Queued tables item.url

/-- Other threads have inserted no links. -/
theorem Thread.HasQueued.of_none {tables : Tables} {thread : Thread}
    (none : thread.inserted = [])
    : thread.HasQueued tables := by
  intro item member
  rw [none] at member
  cases member

/-- A thread that has inserted no more keeps what it has queued. -/
theorem Thread.HasQueued.of_subset {tables : Tables} {thread next : Thread}
    (queued : thread.HasQueued tables) (fewer : next.inserted ⊆ thread.inserted)
    : next.HasQueued tables :=
  fun item member => queued item (fewer member)

variable {env : Env}

/-- No piece leaves a thread that has inserted its links. -/
theorem Flow.inserted_eq_nil {shared : Shared} {seeds : List String} {input : Input}
    {point : Point} {outcome : Outcome} (flow : Flow env shared seeds input point outcome)
    : ∀ thread ∈ outcome.threads, thread.inserted = [] := by
  cases flow with
  | asking _ _ _ fetch => exact Outcome.forall_single rfl (by cases fetch <;> rfl)
  | started fetch => exact Outcome.forall_pair rfl rfl (by cases fetch <;> rfl)
  | lost | thrown | cursorRead | done | busy | loopOver | refilled | cleared | consumed =>
      exact Outcome.forall_none rfl
  | _ => exact Outcome.forall_single rfl rfl

/-- A statement that is not rejected inserts its links. -/
theorem Executed.inserts {tables after : Tables} {items : List FrontierItem} {ending : Ending}
    {reply : Option Value}
    (executed : Executed env tables (.insertManyFrontier items) ending after reply)
    (kept : ending ≠ .rejected)
    : ∀ item ∈ items, item.url ∈ after.frontier.urls := by
  intro item member
  cases executed with
  | done ran | lost ran => exact Tables.mem_urls_of_inserts ran member
  | rejected => exact absurd rfl kept

/-- A statement that deletes no unvisited address by name leaves addresses queued. -/
theorem Executed.queued {tables after : Tables} {statement : Statement} {ending : Ending}
    {reply : Option Value} {url : String}
    (executed : Executed env tables statement ending after reply) (queued : Queued tables url)
    (spared : statement = .deleteFromFrontier url → ending ≠ .rejected → url ∈ tables.visited)
    : Queued after url := by
  have mono : url ∈ tables.visited → Queued after url :=
    fun visited => .inr (executed.visited_mono visited)
  rcases queued with listed | visited
  · rcases executed.frontier_kept listed with kept | visited | deleted
    · exact .inl kept
    · exact .inr visited
    · by_cases rejected : ending = .rejected
      · subst rejected
        cases executed
        exact .inl listed
      · exact mono (spared deleted rejected)
  · exact mono visited

/-- A fetch that goes on has inserted what it had. -/
theorem FetchCase.inserted_eq {shared after : Shared} {url target : String} {point : Point}
    {redirects : Nat} {thread : Thread} (fetch : FetchCase shared target point (after, thread))
    : thread.inserted = (Thread.mk (.http url redirects) point).inserted := by
  cases fetch <;> cases point <;> rfl

namespace State

variable {start state next : State} {label : Label}

/-- The step of a crawl, with what its handlers have come by. -/
def handling (env : Env)
    : State × List (Option Handling) → Label → Option (State × List (Option Handling)) :=
  remarking env none (Shared.handle env)

/-- A label ends the handler of a first page fetch, which leaves the fetch to be finalised. The
handler has come by a page, and has looked at its links in a state, by then.
-/
inductive Finishes (env : Env) (state : State × List (Option Handling))
    : Label → FrontierItem → Handling → Shared → Prop
  | intro {seeds : List String} {input : Input} {point : Point} {own : Option Handling}
    {others : List (Option Handling)} {job : FrontierItem} {handling : Handling} {looked : Shared}
    (running : state.1.running = some ⟨.ready input, point⟩)
    (owned : state.2 = own :: others)
    (ends : ⟨.ready .nothing, .finalise job⟩
      ∈ (state.1.shared.resume env seeds input point).threads)
    (known : state.1.shared.handle env input point own = some handling)
    (saw : handling.looked = some looked)
    : Finishes env state (.run seeds) job handling looked

/-- When a label ends a handler, and the page is in `nodes` and in `visited`, every link of the page
that passes the filters of the loop is queued.
-/
def LinksFollow (env : Env) (state : State × List (Option Handling)) (label : Label) : Prop :=
  ∀ job handling looked, Finishes env state label job handling looked →
    handling.finalUrl ∈ state.1.shared.tables.nodes.keys →
    handling.finalUrl ∈ state.1.shared.tables.visited →
    ∀ link ∈ handling.links env, looked.Passes env job link →
      Queued state.1.shared.tables link

/-- The page that a label takes for not saved. -/
def failedSave (state : State) : Label → Option PageData
  | .run _ =>
      match state.running with
      | some ⟨.ready input, .saved _ page _⟩ => if input.value? = none then some page else none
      | _ => none
  | _ => none

/-- The links whose insertion a label rejects. -/
def dropping (state : State) : Label → List FrontierItem
  | .exec index .rejected choice =>
      match state.acting (.exec index .rejected choice) with
      | some ⟨_, .linksInserted _ items⟩ => items
      | _ => []
  | _ => []

/-- The address that a label deletes by name. -/
def deleting (state : State) : Label → Option String
  | .exec index ending choice =>
      match (state.acting (.exec index ending choice)).bind fun thread =>
        thread.point.statement with
      | some (.deleteFromFrontier url) => if ending = .rejected then none else some url
      | _ => none
  | _ => none

/-- A save that is taken for failed has not stored the page, no insertion of links is
rejected, and an address that is not visited is not deleted while a handler that has inserted
it waits to go on.
-/
def HandsOver (state : State) (label : Label) : Prop :=
  (∀ page ∈ state.failedSave label, page.url ∉ state.shared.tables.nodes.keys)
  ∧ state.dropping label = []
  ∧ ∀ url ∈ state.deleting label,
      url ∈ state.shared.tables.visited
      ∨ ∀ thread ∈ state.threads, ∀ item ∈ thread.inserted, item.url ≠ url

instance : DecidableRel HandsOver := fun state label =>
  inferInstanceAs (Decidable ((∀ _ ∈ state.failedSave label, _) ∧ _ ∧
    ∀ _ ∈ state.deleting label, _))

/-- The links that the threads have inserted are queued. -/
def AllQueued (state : State) : Prop :=
  ∀ thread ∈ state.threads, thread.HasQueued state.shared.tables

/-- A statement leaves inserted links queued. -/
theorem AllQueued.exec {index : Nat} {ending : Ending} {choice : Choice} {point : Point}
    {statement : Statement} {tables : Tables} {reply : Option Value} {rest : List Thread}
    (queued : state.AllQueued) (met : HandsOver state (.exec index ending choice))
    (acting : state.acting (.exec index ending choice) = some ⟨.statement, point⟩)
    (waits : point.statement = some statement)
    (executed : Executed env state.shared.tables statement ending tables reply)
    (before : state.threads.Perm (⟨.statement, point⟩ :: rest))
    : ∀ thread ∈ ⟨.ready (.reply reply), point⟩ :: rest, thread.HasQueued tables := by
  refine List.forall_mem_cons.mpr ⟨?_, fun thread member item inserted => ?_⟩
  · cases point with
    | linksInserted job items =>
        obtain rfl := Option.some.inj waits
        intro item member
        by_cases rejected : ending = .rejected
        · subst rejected
          have none : items = [] := by
            have dropped := met.2.1
            simp only [dropping, acting] at dropped
            exact dropped
          rw [show Thread.inserted _ = items from rfl, none] at member
          cases member
        · exact .inl (executed.inserts rejected item member)
    | _ => exact .of_none rfl
  · have listed : thread ∈ state.threads := before.mem_iff.mpr (.tail _ member)
    refine executed.queued (queued thread listed item inserted) fun deletes kept => ?_
    subst deletes
    have named : state.deleting (.exec index ending choice) = some item.url := by
      simp [deleting, acting, waits, kept]
    rcases met.2.2 _ named with visited | others
    · exact visited
    · exact absurd rfl (others thread listed item inserted)

/-- A thread that moves without a statement keeps what it has queued. -/
theorem AllQueued.of_moved {old new : Thread} {rest : List Thread} (queued : state.AllQueued)
    (tables : next.shared.tables = state.shared.tables)
    (before : state.threads.Perm (old :: rest)) (after : next.threads = new :: rest)
    (kept : new.inserted ⊆ old.inserted)
    : next.AllQueued := by
  unfold AllQueued
  rw [after, tables]
  refine List.forall_mem_cons.mpr ⟨?_, fun thread member => ?_⟩
  · exact (queued old (before.mem_iff.mpr List.mem_cons_self)).of_subset kept
  · exact queued thread (before.mem_iff.mpr (.tail _ member))

/-- A step that hands links over leaves them queued. -/
theorem AllQueued.step (queued : state.AllQueued) (met : HandsOver state label)
    (taken : state.step env label = some next)
    : next.AllQueued := by
  cases step_cases taken with
  | still _ _ _ shared after =>
      intro thread member
      rw [shared]
      exact queued thread (after.mem_iff.mp member)
  | begin _ _ background shared after =>
      unfold AllQueued
      rw [after, shared]
      refine List.forall_mem_cons.mpr ⟨.of_none ?_, queued⟩
      cases background <;> rfl
  | @run seeds input point _ _ shared before after =>
      have tables : next.shared.tables = state.shared.tables := by
        rw [shared, Shared.tables_resume]
      unfold AllQueued
      rw [after, tables]
      refine List.forall_mem_append.mpr ⟨fun thread member => .of_none ?_, ?_⟩
      · exact (state.shared.resume_flow env seeds input point).inserted_eq_nil thread member
      · exact fun thread member => queued thread (before ▸ .tail _ member)
  | exec acting waits executed shared before after =>
      unfold AllQueued
      rw [after, shared]
      exact queued.exec met acting waits executed before
  | redirect fetch before after =>
      refine queued.of_moved (Extends.of_fetch fetch).tables before after ?_
      rw [fetch.inserted_eq]
      exact List.Subset.refl _
  | @settle _ _ _ _ _ point response _ _ shared before after =>
      refine queued.of_moved (by rw [shared]) before after ?_
      cases point <;> exact List.Subset.refl _
  | @record _ _ point response _ shared before after =>
      refine queued.of_moved (by rw [shared]) before after ?_
      cases point <;> exact List.Subset.refl _

/-- Links that are inserted are queued, and handlers know where they come from. -/
structure Handing (env : Env) (state : State × List (Option Handling)) : Prop where
  queued : state.1.AllQueued
  noted : Noted (Point.Recalls env) state.1.threads state.2

/-- A crawl that begins has no handlers. -/
theorem Begins.handing (begins : start.Begins)
    : Handing env (start, start.blanks none) where
  queued := begins.forall_threads (.of_none rfl) (.of_none rfl)
  noted := begins.noted trivial trivial

/-- A step that hands links over leaves them queued, and each handler knows its page. -/
theorem Handing.step {state next : State × List (Option Handling)} (handing : Handing env state)
    (met : HandsOver state.1 label) (taken : handling env state label = some next)
    : Handing env next := by
  obtain ⟨stepped, noted⟩ := observing_cases taken
  refine ⟨handing.queued.step met stepped, ?_⟩
  rw [noted]
  refine noted_of_step stepped handing.noted ?begun ?left
  case begun =>
    intro thread background
    cases background <;> trivial
  case left =>
    intro seeds input point own recalled
    exact (state.1.shared.resume_flow env seeds input point).recalls recalled

/-- A handler that ends after `saveNode` without a rejection has kept no link. -/
theorem keptLinks_of_leaf {shared : Shared} {seeds : List String} {input : Input} {value : Value}
    {job other : FrontierItem} {page : PageData} {links : List String}
    (answered : input.value? = some value)
    (ends : ⟨.ready .nothing, .finalise other⟩
      ∈ (shared.resume env seeds input (.saved job page links)).threads)
    : other = job ∧ (shared.countSuccess env job page).keptLinks env job page.url links = [] := by
  simp only [Shared.resume, Shared.saved, answered] at ends
  split at ends
  · rename_i none
    obtain ⟨_, same⟩ := Thread.mk.inj (List.mem_singleton.mp ends)
    exact ⟨Point.finalise.inj same, none⟩
  · obtain ⟨_, same⟩ := Thread.mk.inj (List.mem_singleton.mp ends)
    cases same

/-- Pages with one link. -/
def linkedEnv : Env := {
  plainEnv with
  parsePage := fun _ _ => ⟨"", "", "", "", "", ["https://b.example/2"], 0⟩
}

/-- Pages with three links, one of them to a domain of the blacklist. -/
def threeLinksEnv : Env := {
  plainEnv with
  parsePage := fun _ _ =>
    ⟨"", "", "", "", "", ["https://b.example/2", "https://reddit.com/r", "https://c.example/3"], 0⟩
}

/-- The seed of a crawl. -/
def seedPage : FrontierItem := ⟨"https://a.example/1", 0, none⟩

/-- The piece that runs ends the handler of the seed, which is saved and visited. Some links of the
page have passed the filters, and all of them are queued or none is.
-/
def endsWith (env : Env) (links : List String) (queued : Bool)
    (state : State × List (Option Handling))
    : Bool :=
  match state.1.running, state.2 with
  | some ⟨.ready _, .linksInserted job _⟩, some ⟨html, finalUrl, some looked⟩ :: _ =>
      html = "" ∧ finalUrl = seedPage.url ∧ job = seedPage
        ∧ (looked.keptLinks env seedPage finalUrl (env.parsePage html finalUrl).links).map
            FrontierItem.url = links
        ∧ seedPage.url ∈ state.1.shared.tables.nodes.keys
        ∧ seedPage.url ∈ state.1.shared.tables.visited
        ∧ ∀ link ∈ links, Queued state.1.shared.tables link ↔ queued = true
  | _, _ => false

/-- The handler is one that finishes, and the links are those of the page that pass. -/
theorem finishes_of_endsWith {links : List String} {queued : Bool}
    {state : State × List (Option Handling)} (ends : endsWith env links queued state = true)
    : ∃ looked,
        Finishes env state (.run []) seedPage ⟨"", seedPage.url, some looked⟩ looked
        ∧ seedPage.url ∈ state.1.shared.tables.nodes.keys
        ∧ seedPage.url ∈ state.1.shared.tables.visited
        ∧ (∀ link ∈ links,
            link ∈ (env.parsePage "" seedPage.url).links ∧ looked.Passes env seedPage link)
        ∧ ∀ link ∈ links, Queued state.1.shared.tables link ↔ queued = true := by
  unfold endsWith at ends
  split at ends
  · rename_i input job items html finalUrl looked others running owned
    obtain ⟨rfl, rfl, rfl, rfl, saved, visited, same⟩ := of_decide_eq_true ends
    refine ⟨looked, .intro running owned List.mem_cons_self rfl rfl, saved, visited, ?_, same⟩
    intro link member
    obtain ⟨item, kept, rfl⟩ := List.mem_map.mp member
    obtain ⟨link, listed, passes, rfl⟩ := Shared.mem_keptLinks_iff.mp kept
    exact ⟨listed, passes⟩
  · cases ends

end State

end WebIndexer.Crawl
