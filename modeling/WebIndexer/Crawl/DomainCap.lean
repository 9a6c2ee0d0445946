import WebIndexer.Crawl.Addresses
import WebIndexer.Crawl.Integrity
import WebIndexer.Crawl.Turns
import WebIndexer.Runtime.Number

/-! The page cap of a domain. Only links that are queued are held against the cap, by a cached
count of rows. The rows of a domain stay within the cap when each first page fetch finds room
for its row, beside those of the fetches that are on their way to the domain.
-/

namespace WebIndexer.Crawl

open WebIndexer.Config
open WebIndexer.Fetcher
open WebIndexer.Library
open WebIndexer.Runtime
open WebIndexer.Store

/-- The rows of `nodes` of a domain. -/
def rowsOf (tables : Tables) (domain : String) : Nat :=
  tables.nodes.entries.countP fun entry => entry.2.domain = domain

/-- A statement adds a row for the page that it saves, at most. -/
theorem Executed.rowsOf_le {env : Env} {tables after : Tables} {statement : Statement}
    {ending : Ending} {reply : Option Value}
    (executed : Executed env tables statement ending after reply) (domain : String)
    : rowsOf after domain ≤ rowsOf tables domain
      ∨ ∃ page, statement = .saveNode page ∧ page.dom = domain
          ∧ rowsOf after domain ≤ rowsOf tables domain + 1 := by
  rcases executed.nodes_cases with same | ⟨page, rfl, written, _⟩
  · exact .inl (by rw [rowsOf, rowsOf, same])
  · have bound := tables.nodes.countP_set_le page.url (Tables.nodeRow page)
      fun entry => decide (entry.2.domain = domain)
    rw [← written] at bound
    by_cases own : page.dom = domain
    · refine .inr ⟨page, rfl, own, ?_⟩
      simpa [rowsOf, Tables.nodeRow, own] using bound
    · exact .inl (by simpa [rowsOf, Tables.nodeRow, own] using bound)

/-- A first page fetch has got to an address of the domain, or its page is being saved under
the domain.
-/
def Thread.headsFor (env : Env) (domain : String) : Thread → Bool
  | ⟨phase, .fetched job⟩ =>
      !isRecrawl job && phase.address?.any fun url => getDomain env.api url = domain
  | ⟨.statement, .saved _ page _⟩ => page.dom = domain
  | _ => false

variable {env : Env} {domain : String}

/-- Other threads head for no domain. -/
theorem Thread.headsFor_of_other {thread : Thread} (other : thread.point.isPage = false)
    : thread.headsFor env domain = false := by
  obtain ⟨phase, point⟩ := thread
  cases point <;> first | rfl | cases other

/-- A thread that begins by itself heads for no domain. -/
theorem Background.headsFor {label : Label} {thread : Thread}
    (background : Background env label thread)
    : thread.headsFor env domain = false := by
  cases background <;> rfl

/-- The answer to a statement heads for no domain. -/
theorem Thread.headsFor_of_reply {point : Point} {reply : Option Value}
    : (Thread.mk (.ready (.reply reply)) point).headsFor env domain = false := by
  cases point <;> simp [Thread.headsFor, Phase.address?]

/-- A response comes from the address that was requested, so that it heads for no other
domain.
-/
theorem Thread.headsFor_of_settled {point : Point} {response : Response} {url : String}
    {redirects : Nat} (received : ∀ page, response = some page → page.2 = url)
    (heads : (Thread.mk (.settled response) point).headsFor env domain = true)
    : (Thread.mk (.http url redirects) point).headsFor env domain = true := by
  cases point with
  | fetched job =>
      obtain ⟨first, at_domain⟩ := (Bool.and_eq_true _ _).mp heads
      obtain ⟨address, known, same⟩ := (Option.any_eq_true _ _).mp at_domain
      obtain ⟨page, found, rfl⟩ := Option.map_eq_some_iff.mp known
      rw [received page found] at same
      exact (Bool.and_eq_true _ _).mpr ⟨first, same⟩
  | _ => cases heads

/-- A request heads for the domain of its address, if it is one for a first page. -/
theorem FetchCase.headsFor_cases {shared after : Shared} {url : String} {point : Point}
    {thread : Thread} (fetch : FetchCase shared url point (after, thread))
    (heads : thread.headsFor env domain = true)
    : ∃ job, point = .fetched job ∧ isRecrawl job = false ∧ getDomain env.api url = domain := by
  cases point with
  | fetched job =>
      refine ⟨job, rfl, ?_⟩
      cases fetch with
      | refused | thrown => simp [Thread.headsFor, Phase.address?] at heads
      | sent => simpa [Thread.headsFor, Phase.address?] using heads
  | _ => cases fetch <;> cases heads

/-- What a piece leaves heads for no other domain than the piece, unless it starts a fetch. -/
theorem Flow.headsFor_le {shared : Shared} {seeds : List String} {input : Input}
    {point : Point} {outcome : Outcome} (flow : Flow env shared seeds input point outcome)
    (domain : String)
    : outcome.threads.countP (Thread.headsFor env domain)
        ≤ (if (Thread.mk (.ready input) point).headsFor env domain then 1 else 0)
      ∨ ∃ visit,
          point = .start visit ∧ isRecrawl visit.item = false ∧ env.domainOf visit.item = domain
          ∧ outcome.threads.countP (Thread.headsFor env domain) ≤ 1 := by
  have none (others : ∀ thread ∈ outcome.threads, thread.headsFor env domain = false)
      : outcome.threads.countP (Thread.headsFor env domain)
        ≤ (if (Thread.mk (.ready input) point).headsFor env domain then 1 else 0) := by
    rw [List.countP_eq_zero.mpr fun thread member => by simp [others thread member]]
    exact Nat.zero_le _
  cases flow with
  | pageFetched page first =>
      subst page
      left
      simp [Outcome.threads, Shared.await, Thread.headsFor, Phase.address?, Shared.pageData,
        first]
  | @started visit after thread fetch =>
      have goes : Thread.headsFor env domain ⟨.ready .nothing, .forItem visit.rest true⟩ = false :=
        rfl
      have counted
          : (Outcome.mk after (some (.forItem visit.rest true)) [thread]).threads.countP
              (Thread.headsFor env domain)
            = if thread.headsFor env domain then 1 else 0 := by
        simp only [Outcome.threads, Option.map_some, Option.toList_some, List.cons_append,
          List.nil_append, List.countP_cons, List.countP_nil, goes, Bool.false_eq_true, if_false,
          Nat.zero_add, Nat.add_zero]
      rw [counted]
      by_cases heads : thread.headsFor env domain = true
      · obtain ⟨job, same, first, rfl⟩ := fetch.headsFor_cases heads
        cases same
        refine .inr ⟨visit, rfl, first, rfl, ?_⟩
        rw [if_pos heads]
      · rw [if_neg heads]
        exact .inl (Nat.zero_le _)
  | asking _ _ _ fetch =>
      refine .inl (none (Outcome.forall_single rfl (Thread.headsFor_of_other ?_)))
      rw [fetch.point_eq]
      rfl
  | lost | thrown | cursorRead | done | busy | loopOver | refilled | cleared | consumed =>
      exact .inl (none (Outcome.forall_none rfl))
  | _ => exact .inl (none (Outcome.forall_single rfl (Thread.headsFor_of_other rfl)))

namespace State

variable {start state next : State} {label : Label}

/-- The number of first page fetches that head for a domain. -/
def heading (env : Env) (state : State) (domain : String) : Nat :=
  state.threads.countP (Thread.headsFor env domain)

/-- The address that a label redirects a first page fetch to, if it is of another domain. -/
def leaving (env : Env) (state : State) : Label → Option String
  | .http index (.redirect location) =>
      match pick state.pool index with
      | some (⟨.http url _, .fetched job⟩, _) =>
          (redirectTarget env.api location url).filter fun target =>
            ¬ isRecrawl job ∧ getDomain env.api target ≠ getDomain env.api url
      | _ => none
  | _ => none

/-- The rows of a domain, with those of the fetches that head for it, are below the cap. -/
def HasRoom (env : Env) (state : State) (domain : String) : Prop :=
  rowsOf state.shared.tables domain + state.heading env domain < domainMax

/-- A first page fetch that starts, and one that is redirected to another domain, finds room
there.
-/
def FindsRoom (env : Env) (state : State) (label : Label) : Prop :=
  (∀ visit ∈ state.starting label, isRecrawl visit.item = false →
    state.HasRoom env (env.domainOf visit.item))
  ∧ ∀ target ∈ state.leaving env label, state.HasRoom env (getDomain env.api target)

instance : DecidableRel (FindsRoom env) := fun state label =>
  inferInstanceAs (Decidable
    ((∀ visit ∈ state.starting label, isRecrawl visit.item = false →
      rowsOf state.shared.tables (env.domainOf visit.item)
        + state.heading env (env.domainOf visit.item) < domainMax)
    ∧ ∀ target ∈ state.leaving env label,
      rowsOf state.shared.tables (getDomain env.api target)
        + state.heading env (getDomain env.api target) < domainMax))

/-- The rows of each domain are within the cap, when those to come are counted too. -/
def WithinCap (env : Env) (state : State) : Prop :=
  ∀ domain, rowsOf state.shared.tables domain + state.heading env domain ≤ domainMax

/-- The heading fetches are those of the thread that moves and of the others. -/
theorem heading_of_perm (env : Env) (domain : String) {threads rest : List Thread}
    {thread : Thread} (same : threads.Perm (thread :: rest))
    : threads.countP (Thread.headsFor env domain)
      = rest.countP (Thread.headsFor env domain)
        + if thread.headsFor env domain then 1 else 0 := by
  rw [same.countP_eq, List.countP_cons]

/-- A piece that starts no fetch heads for nothing new, and one that does finds room. -/
theorem WithinCap.run {seeds : List String} {input : Input} {point : Point}
    (within : state.WithinCap env) (found : FindsRoom env state (.run seeds))
    (running : state.running = some ⟨.ready input, point⟩)
    (shared : next.shared = (state.shared.resume env seeds input point).shared)
    (before : state.threads = ⟨.ready input, point⟩ :: state.pool)
    (after : next.threads = (state.shared.resume env seeds input point).threads ++ state.pool)
    : next.WithinCap env := by
  intro domain
  have bound := within domain
  have tables : next.shared.tables = state.shared.tables := by
    rw [shared, Shared.tables_resume]
  have counted : next.heading env domain
      = (state.shared.resume env seeds input point).threads.countP (Thread.headsFor env domain)
        + state.pool.countP (Thread.headsFor env domain) := by
    rw [heading, after, List.countP_append]
  have held : state.heading env domain
      = state.pool.countP (Thread.headsFor env domain)
        + if (Thread.mk (.ready input) point).headsFor env domain then 1 else 0 := by
    rw [heading, before, List.countP_cons]
  rw [tables, counted]
  rcases (state.shared.resume_flow env seeds input point).headsFor_le domain with
    fewer | ⟨visit, rfl, first, rfl, one⟩
  · omega
  · have room : state.HasRoom env (env.domainOf visit.item) :=
      found.1 visit (by simp [starting, running]) first
    unfold HasRoom at room
    have idle
        : (Thread.mk (.ready input) (.start visit)).headsFor env (env.domainOf visit.item)
          = false :=
      Thread.headsFor_of_other rfl
    rw [idle] at held
    simp only [Bool.false_eq_true, if_false, Nat.add_zero] at held
    omega

/-- A statement adds the row of a fetch that headed for it, at most. -/
theorem WithinCap.exec {ending : Ending} {point : Point} {statement : Statement}
    {tables : Tables} {reply : Option Value} {rest : List Thread}
    (within : state.WithinCap env) (waits : point.statement = some statement)
    (executed : Executed env state.shared.tables statement ending tables reply)
    (shared : next.shared = { state.shared with tables := tables })
    (before : state.threads.Perm (⟨.statement, point⟩ :: rest))
    (after : next.threads = ⟨.ready (.reply reply), point⟩ :: rest)
    : next.WithinCap env := by
  intro domain
  have bound := within domain
  have held := heading_of_perm env domain before
  have counted : next.heading env domain = rest.countP (Thread.headsFor env domain) := by
    rw [heading, after, List.countP_cons, Thread.headsFor_of_reply]
    simp
  rw [counted, shared]
  unfold heading at bound
  rcases executed.rowsOf_le domain with same | ⟨page, rfl, own, more⟩
  · change rowsOf tables domain + _ ≤ _
    omega
  · obtain ⟨job, links, rfl⟩ := Point.eq_saved waits
    have heads : (Thread.mk .statement (.saved job page links)).headsFor env domain = true :=
      decide_eq_true own
    rw [heads, if_pos rfl] at held
    change rowsOf tables domain + _ ≤ _
    omega

/-- A redirect stays on its domain, or finds room on another one. -/
theorem WithinCap.redirect {index : Nat} {location : String} (within : state.WithinCap env)
    (found : FindsRoom env state (.http index (.redirect location)))
    (taken : state.step env (.http index (.redirect location)) = some next)
    : next.WithinCap env := by
  obtain ⟨url, redirects, point, rest, thread, _, picked, responded, before, after⟩ :=
    step_http taken
  obtain ⟨target, resolves, same⟩ := Option.map_eq_some_iff.mp responded
  have fetch := state.shared.fetchHtmlRaw_spec env target (redirects + 1) point
  rw [same] at fetch
  have tables : next.shared.tables = state.shared.tables := (Extends.of_fetch fetch).tables
  intro domain
  have bound := within domain
  have held := heading_of_perm env domain before
  have counted : next.heading env domain
      = rest.countP (Thread.headsFor env domain)
        + if thread.headsFor env domain then 1 else 0 := by
    rw [heading, after, List.countP_cons]
  rw [tables, counted]
  unfold heading at bound
  by_cases heads : thread.headsFor env domain = true
  · rw [if_pos heads]
    obtain ⟨job, rfl, first, rfl⟩ := fetch.headsFor_cases heads
    by_cases stays : getDomain env.api url = getDomain env.api target
    · have old
          : (Thread.mk (.http url redirects) (.fetched job)).headsFor env
              (getDomain env.api target)
            = true := by
        simp [Thread.headsFor, first, Phase.address?, stays]
      rw [if_pos old] at held
      omega
    · have room : state.HasRoom env (getDomain env.api target) := by
        apply found.2
        simp [leaving, picked, resolves, first, Ne.symm stays]
      unfold HasRoom heading at room
      omega
  · rw [if_neg heads]
    omega

/-- A thread that moves, and heads for no new domain, takes up no more room. -/
theorem WithinCap.of_moved {old new : Thread} {rest : List Thread}
    (within : state.WithinCap env) (tables : next.shared.tables = state.shared.tables)
    (before : state.threads.Perm (old :: rest)) (after : next.threads = new :: rest)
    (kept : ∀ domain, new.headsFor env domain = true → old.headsFor env domain = true)
    : next.WithinCap env := by
  intro domain
  have bound := within domain
  rw [heading, heading_of_perm env domain before] at bound
  rw [tables, heading, after, List.countP_cons]
  by_cases heads : new.headsFor env domain = true
  · rw [if_pos (kept domain heads)] at bound
    rw [if_pos heads]
    exact bound
  · rw [if_neg heads]
    omega

/-- A step whose fetches find room keeps the rows within the cap. -/
theorem WithinCap.step (within : state.WithinCap env) (found : FindsRoom env state label)
    (taken : state.step env label = some next)
    : next.WithinCap env := by
  cases step_cases taken with
  | still _ _ _ shared after =>
      intro domain
      rw [shared, heading, after.countP_eq]
      exact within domain
  | begin _ _ background shared after =>
      intro domain
      have bound := within domain
      rw [heading, after, List.countP_cons, background.headsFor, shared]
      simpa [heading] using bound
  | run running shared before after => exact within.run found running shared before after
  | exec _ waits executed shared before after =>
      exact within.exec waits executed shared before after
  | redirect => exact within.redirect found taken
  | settle received shared before after =>
      refine within.of_moved (by rw [shared]) before after fun domain heads => ?_
      exact Thread.headsFor_of_settled received heads
  | record shared before after =>
      refine within.of_moved (by rw [shared]) before after fun domain heads => ?_
      rename_i point response rest
      cases point with
      | fetched job => exact heads
      | _ => cases heads

/-- The rows of each domain are within the cap, apart from the fetches in flight. -/
def Capped (state : State) : Prop :=
  ∀ domain, rowsOf state.shared.tables domain ≤ domainMax + state.inFlight

/-- In every run whose fetches find room, from tables within the cap, the rows of each domain
stay within it.
-/
theorem capped_of_findsRoom (begins : start.Begins)
    (stored : ∀ domain, rowsOf start.shared.tables domain ≤ domainMax)
    (run : Run (step env) (FindsRoom env) start state)
    : state.Capped := by
  have begun : start.WithinCap env := by
    intro domain
    have none : start.heading env domain = 0 := by
      obtain ⟨_, _, _, _, _, _, rfl⟩ := begins
      rfl
    have bound := stored domain
    omega
  have within : state.WithinCap env :=
    run.invariant begun fun within found taken => within.step found taken
  intro domain
  have bound := within domain
  omega

/-- The page of a seed is saved. -/
theorem capped_of_pageSaved
    : ∃ state,
        Run (step plainEnv) (FindsRoom plainEnv) (seededCrawl "https://a.example/1") state
        ∧ rowsOf state.shared.tables "a.example" = 1
        ∧ state.Capped := by
  have executed
      : (execute (step plainEnv) (FindsRoom plainEnv) (seededCrawl "https://a.example/1")
          pageSaved).any
          (fun state => rowsOf state.shared.tables "a.example" = 1)
        = true := by
    decide +kernel
  obtain ⟨state, run, saved⟩ := exists_run_of_any executed
  have begins : (seededCrawl "https://a.example/1").Begins := ⟨_, _, _, _, _, _, rfl⟩
  exact ⟨state, run, of_decide_eq_true saved,
    capped_of_findsRoom begins (fun _ => Nat.zero_le _) run⟩

/-- The row of a page of `a.example`. -/
def pageRow : NodeRow :=
  ⟨"", "", "a.example", 0, none, 1, "", 1, "", "", "", 0, 0⟩

/-- The address of the page with a number. -/
def pageUrl (number : Nat) : String :=
  "https://a.example/" ++ number.repr

/-- Different numbers have different addresses. -/
theorem pageUrl_injective : Function.Injective pageUrl := by
  intro first second same
  exact repr_injective ((String.append_right_inj _).mp same)

/-- The tables after as many pages of one domain have been saved as the cap allows, while a
link to one more was queued before.
-/
def fullTables : Tables :=
  Tables.insertFrontier
    {
      nodes := {
        entries := (List.range domainMax).map fun number => (pageUrl number, pageRow)
        nodup := by
          rw [List.map_map]
          exact List.nodup_range.map pageUrl_injective
      }
      visited := ⟨(List.range domainMax).map pageUrl, List.nodup_range.map pageUrl_injective⟩
      frontier := .empty
      nodesFts := []
    }
    ⟨"https://a.example/new", 1, none⟩

/-- They are within the cap. -/
theorem rowsOf_fullTables_le (domain : String) : rowsOf fullTables domain ≤ domainMax := by
  refine List.countP_le_length.trans ?_
  simp [fullTables, Tables.insertFrontier]

/-- The crawl goes on, with the counts that it reads from the tables. -/
def fullCrawl : State :=
  initial fullTables
    (.load domainMax queueLowWater [] (Shared.countsMap [("a.example", domainMax)]))
    0

/-- The link is fetched all the same, and its page is saved. -/
theorem capped_fails_for_a_backlog
    : ¬ ∀ (env : Env) (start state : State),
        start.Begins → (∀ domain, rowsOf start.shared.tables domain ≤ domainMax) →
          Reaches (step env) start state → state.Capped := by
  intro claim
  have executed
      : (execute (step plainEnv) anyStep fullCrawl
          (pageSaved ++ turn 0 1)).any
          (fun state => rowsOf state.shared.tables "a.example" = 201 ∧ state.inFlight = 0)
        = true := by
    decide +kernel
  obtain ⟨state, run, reached⟩ := exists_run_of_any executed
  obtain ⟨rows, none⟩ := of_decide_eq_true reached
  have bound := claim plainEnv _ state ⟨_, _, _, _, _, _, rfl⟩ rowsOf_fullTables_le run
    "a.example"
  rw [rows, none] at bound
  exact absurd bound (by decide)

end State

end WebIndexer.Crawl
