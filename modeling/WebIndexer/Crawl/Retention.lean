import WebIndexer.Crawl.Pieces

/-! No address is lost: a row leaves the frontier only when its address is settled. A deletion
by name waits behind the mark or the check that justifies it, whatever else happens meanwhile.
-/

namespace WebIndexer.Crawl

open WebIndexer.Circuit
open WebIndexer.Config
open WebIndexer.Fetcher
open WebIndexer.Library
open WebIndexer.Runtime
open WebIndexer.Store

/-- The crawl has done with an address: it is visited, or its domain is empty or blacklisted.
-/
def Settled (env : Env) (shared : Shared) (url : String) : Prop :=
  url ∈ shared.tables.visited
  ∨ getDomain env.api url = ""
  ∨ getDomain env.api url ∈ shared.crawl.domainBlacklist

/-- Visited addresses stay visited, and blacklisted domains stay blacklisted. -/
structure Settles (before after : Shared) : Prop where
  visited : ∀ url ∈ before.tables.visited, url ∈ after.tables.visited
  blacklist : before.crawl.domainBlacklist ⊆ after.crawl.domainBlacklist

/-- A settled address stays settled. -/
theorem Settled.mono {env : Env} {before after : Shared} {url : String}
    (settles : Settles before after) (settled : Settled env before url)
    : Settled env after url := by
  rcases settled with visited | invalid | listed
  · exact .inl (settles.visited url visited)
  · exact .inr (.inl invalid)
  · exact .inr (.inr (settles.blacklist listed))

/-- The point waits to delete no address by name but settled ones. -/
def Point.DeletesSettled (env : Env) (shared : Shared) (point : Point) : Prop :=
  ∀ url, point.statement = some (.deleteFromFrontier url) → Settled env shared url

/-- What a thread has reason to believe: it waits to delete settled addresses only, and the
marks and finds that it was told about are true.
-/
structure Justified (env : Env) (shared : Shared) (thread : Thread) : Prop where
  deletes : thread.point.DeletesSettled env shared
  marked : ∀ url value, thread.point.statement = some (.markVisited url) →
    thread.phase = .ready (.reply (some value)) → url ∈ shared.tables.visited
  found : ∀ url, thread.point.statement = some (.isVisited url) →
    thread.phase = .ready (.reply (some (.found true))) → url ∈ shared.tables.visited

namespace Justified

variable {env : Env} {shared after : Shared} {thread : Thread}

/-- What is justified stays so. -/
theorem mono (settles : Settles shared after) (justified : Justified env shared thread)
    : Justified env after thread where
  deletes url waits := (justified.deletes url waits).mono settles
  marked url value waits answered :=
    settles.visited url (justified.marked url value waits answered)
  found url waits answered := settles.visited url (justified.found url waits answered)

/-- Without a reply, only the deletion that a thread waits for needs a reason. -/
theorem of_no_reply (fresh : thread.phase.isReply = false)
    (deletes : thread.point.DeletesSettled env shared)
    : Justified env shared thread where
  deletes := deletes
  marked _ _ _ answered := by
    rw [answered] at fresh
    cases fresh
  found _ _ answered := by
    rw [answered] at fresh
    cases fresh

end Justified

/-- A piece settles no less than there was, since it does not touch the tables. -/
theorem Settles.of_extends {before after : Shared} (grown : Extends before after)
    : Settles before after where
  visited _ visited := grown.tables ▸ visited
  blacklist := grown.blacklist

/-- A piece that has reasons for its point waits to delete settled addresses only, case by
case: each deletion is reached from the check or the mark that justifies it.
-/
theorem PieceCase.deletes {env : Env} {shared : Shared} {input : Input} {point : Point}
    {outcome : Outcome} (piece : PieceCase env shared input point outcome)
    (reasons : Justified env shared ⟨.ready input, point⟩)
    : ∀ thread ∈ outcome.threads, thread.point.DeletesSettled env shared := by
  cases piece with
  | leave _ _ leaves =>
      obtain ⟨_, plain, leads⟩ := leaves
      refine leads.forall_point fun target member url waits => ?_
      exact absurd waits (Point.not_deletes_of_isPlain (plain target member))
  | ask _ same leads =>
      refine leads.at_point ?_
      intro url waits
      rw [same] at waits
      split at waits <;> cases waits
  | @skipVisited item rest startedAny found =>
      refine (Leads.await _).at_point ?_
      intro url waits
      cases waits
      exact .inl (reasons.found item.url rfl (found ▸ rfl))
  | vet =>
      refine (Leads.goto _).at_point ?_
      intro url waits
      cases waits
  | skipDomain settled =>
      refine (Leads.await _).at_point ?_
      intro url waits
      cases waits
      exact .inr settled
  | hold _ _ same =>
      refine (Leads.goto _).at_point ?_
      intro url waits
      rw [same] at waits
      split at waits <;> cases waits
  | askRobots fetch threads =>
      rw [threads]
      intro thread member url waits
      rw [List.mem_singleton.mp member, fetch.point_eq] at waits
      cases waits
  | carry _ _ _ same leads =>
      refine leads.at_point ?_
      intro url waits
      rcases same with rfl | rfl <;> cases waits
  | block =>
      refine (Leads.await _).at_point ?_
      intro url waits
      cases waits
  | @unblock visit value answered =>
      refine (Leads.await _).at_point ?_
      intro url waits
      cases waits
      exact .inl (reasons.marked visit.item.url value rfl (answered ▸ rfl))
  | @start visit =>
      obtain ⟨fetching, fetch, threads⟩ := shared.start_spec env visit
      rw [threads]
      intro thread member url waits
      rcases List.mem_pair.mp member with rfl | rfl
      · cases waits
      · rw [fetch.point_eq] at waits
        cases waits
  | save =>
      refine (Leads.await _).at_point ?_
      intro url waits
      cases waits
  | mark _ same =>
      refine (Leads.await _).at_point ?_
      intro url waits
      rcases same with rfl | rfl <;> cases waits
  | @delete job _ _ value marked answered =>
      refine (Leads.await _).at_point ?_
      intro url waits
      rcases marked with ⟨rfl, rfl⟩ | ⟨rfl, rfl⟩ <;> obtain ⟨⟩ := waits <;>
        exact .inl (reasons.marked job.url value rfl (answered ▸ rfl))
  | close _ _ same leads =>
      refine leads.at_point ?_
      intro url waits
      rcases same with rfl | ⟨items, rfl⟩ <;> cases waits
  | finalise =>
      refine (Leads.schedule _).at_point ?_
      intro url waits
      cases waits

/-- A piece that has reasons for its point leaves threads that have reasons for theirs. -/
theorem PieceCase.justified {env : Env} {shared : Shared} {input : Input} {point : Point}
    {outcome : Outcome} (piece : PieceCase env shared input point outcome)
    (reasons : Justified env shared ⟨.ready input, point⟩)
    : ∀ thread ∈ outcome.threads, Justified env outcome.shared thread := by
  intro thread member
  have settles : Settles shared outcome.shared := .of_extends (.of_piece piece)
  exact .of_no_reply (piece.fresh thread member) fun url waits =>
    (piece.deletes reasons thread member url waits).mono settles

namespace State

variable {env : Env} {state next : State}

/-- Every thread has reasons for what it waits for and was told. -/
def AllJustified (env : Env) (state : State) : Prop :=
  ∀ thread ∈ state.threads, Justified env state.shared thread

/-- The first invocation and the start-up closure wait to delete nothing. -/
theorem Begins.allJustified (begins : state.Begins) : state.AllJustified env :=
  begins.forall_threads (.of_no_reply rfl nofun) (.of_no_reply rfl nofun)

/-- A step settles no less than there was. -/
theorem step_settles {label : Label} (taken : state.step env label = some next)
    : Settles state.shared next.shared := by
  cases step_cases taken with
  | still _ _ _ shared => rw [shared]; exact ⟨fun _ => id, List.Subset.refl _⟩
  | begin _ _ _ shared => rw [shared]; exact ⟨fun _ => id, List.Subset.refl _⟩
  | run _ shared => rw [shared]; exact .of_extends (.of_piece (Shared.resume_cases ..))
  | exec _ _ executed shared =>
      rw [shared]
      exact ⟨fun url visited => executed.visited_mono visited, List.Subset.refl _⟩
  | redirect fetch => exact .of_extends (.of_fetch fetch)
  | settle _ shared => rw [shared]; exact ⟨fun _ => id, List.Subset.refl _⟩
  | record shared => rw [shared]; exact ⟨fun _ => id, List.Subset.refl _⟩

/-- Every step keeps the reasons: the threads that it does not move keep theirs, and a reply
is a reason for what follows.
-/
theorem step_allJustified {label : Label} (justified : state.AllJustified env)
    (taken : state.step env label = some next)
    : next.AllJustified env := by
  have settles := step_settles taken
  refine forall_threads_of_step taken
    (fun thread member => (justified thread member).mono settles) ?begun ?left ?answered
    ?redirected ?settled ?recorded
  case begun =>
    intro thread background
    cases background <;> exact .of_no_reply rfl nofun
  case left =>
    intro seeds input point _ _ member shared thread new
    rw [shared]
    exact (Shared.resume_cases ..).justified (justified _ member) thread new
  case answered =>
    intro point statement ending tables reply waits executed shared waiting
    refine ⟨waiting.deletes, ?_, ?_⟩
    · intro url value marks answered
      obtain rfl := Option.some.inj (waits.symm.trans marks)
      obtain ⟨⟩ := answered
      rw [shared]
      exact executed.marked rfl
    · intro url asks answered
      obtain rfl := Option.some.inj (waits.symm.trans asks)
      obtain ⟨⟩ := answered
      obtain ⟨present, rfl, _⟩ := executed.found
      rw [shared]
      exact of_decide_eq_true present.symm
  case redirected =>
    intro url redirects target point thread _ fetch waiting
    exact .of_no_reply fetch.fresh (fetch.point_eq ▸ waiting.deletes)
  case settled =>
    intro url redirects point response _ waiting
    exact .of_no_reply rfl waiting.deletes
  case recorded =>
    intro point response waiting
    exact .of_no_reply rfl waiting.deletes

/-- A step keeps a row on the frontier, or its address is settled afterwards: a statement
that deletes it by name is one that the thread has a reason for.
-/
theorem step_keeps {label : Label} {url : String} (justified : state.AllJustified env)
    (listed : url ∈ state.shared.tables.frontier.urls)
    (taken : state.step env label = some next)
    : url ∈ next.shared.tables.frontier.urls ∨ Settled env next.shared url := by
  have settles := step_settles taken
  cases step_cases taken with
  | still _ _ _ shared | begin _ _ _ shared | settle _ shared | record shared =>
      rw [shared]
      exact .inl listed
  | run _ shared =>
      rw [shared, Shared.tables_resume]
      exact .inl listed
  | redirect fetch =>
      rw [(Extends.of_fetch fetch).tables]
      exact .inl listed
  | @exec _ _ _ _ point _ _ _ _ _ waits executed shared before =>
      have waiting := justified ⟨.statement, point⟩ (before.mem_iff.mpr List.mem_cons_self)
      rcases executed.frontier_kept listed with kept | visited | rfl
      · rw [shared]
        exact .inl kept
      · rw [shared]
        exact .inr (.inl visited)
      · exact .inr ((waiting.deletes url waits).mono settles)

/-- Threads have reasons for their deletions in every reachable state. -/
theorem reaches_allJustified {start : State} (begins : start.Begins)
    (run : Reaches (step env) start state)
    : state.AllJustified env :=
  run.invariant begins.allJustified fun justified _ taken => step_allJustified justified taken

/-- No address is lost: from any reachable state on, an address on the frontier stays there
until it is settled, by induction on the rest of the run.
-/
theorem losesNoUrl {start later : State} {url : String} (begins : start.Begins)
    (before : Reaches (step env) start state)
    (listed : url ∈ state.shared.tables.frontier.urls)
    (after : Reaches (step env) state later)
    : url ∈ later.shared.tables.frontier.urls ∨ Settled env later.shared url := by
  have kept : later.AllJustified env
      ∧ (url ∈ later.shared.tables.frontier.urls ∨ Settled env later.shared url) := by
    induction after with
    | refl => exact ⟨reaches_allJustified begins before, .inl listed⟩
    | next _ _ taken ih =>
        obtain ⟨justified, present | settled⟩ := ih
        · exact ⟨step_allJustified justified taken, step_keeps justified present taken⟩
        · exact ⟨step_allJustified justified taken, .inr (settled.mono (step_settles taken))⟩
  exact kept.2

/-- A page that cannot be fetched leaves the frontier once it is marked as visited. -/
theorem losesNoUrl_of_failure
    : ∃ later, Reaches (step plainEnv) (plainCrawl [⟨"https://a.example/1", 0, none⟩]) later
        ∧ "https://a.example/1" ∉ later.shared.tables.frontier.urls
        ∧ Settled plainEnv later.shared "https://a.example/1" := by
  let labels : List Label := boot ++ readBatch 2 ++ vet ++ turn 0 3 ++ ending 0
  have passes
      : (execute (step plainEnv) anyStep (plainCrawl [⟨"https://a.example/1", 0, none⟩])
          labels).any
            (fun state => decide ("https://a.example/1" ∉ state.shared.tables.frontier.urls))
          = true := by
    decide +kernel
  obtain ⟨later, run, gone⟩ := exists_run_of_any passes
  have gone := of_decide_eq_true gone
  have listed : "https://a.example/1"
      ∈ (plainCrawl [⟨"https://a.example/1", 0, none⟩]).shared.tables.frontier.urls := by
    decide +kernel
  have kept := losesNoUrl (plainCrawl_begins _) (.refl _) listed run
  exact ⟨later, run, gone, kept.resolve_left gone⟩

end State

end WebIndexer.Crawl
