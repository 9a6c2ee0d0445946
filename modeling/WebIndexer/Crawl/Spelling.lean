import WebIndexer.Crawl.Addresses
import WebIndexer.Crawl.Integrity
import WebIndexer.Fetcher.Links

/-! The spelling of addresses. Links are stored in their canonical form, and so are relative
redirects; seeds, Kafka messages and absolute redirects are stored as they are written, so a
page is crawled under one spelling only as long as those are canonical.
-/

namespace WebIndexer.Crawl

open WebIndexer.Fetcher
open WebIndexer.Library
open WebIndexer.Runtime
open WebIndexer.Store

/-- The address is written in its canonical form, if it can be parsed. -/
def Env.Canonical (env : Env) (url : String) : Prop :=
  ∀ parsed ∈ env.api.parse url, parsed.href = url

instance (env : Env) (url : String) : Decidable (env.Canonical url) :=
  inferInstanceAs (Decidable (∀ _ ∈ _, _))

/-- The runtime's URL parser canonicalises, and the links of a page are those that the loop of
`parsePage` finds.
-/
structure Env.ParsesLinks (env : Env) : Prop where
  api : env.api.Canonicalises
  links : ∀ html url, (env.parsePage html url).links = pageLinks env.api html url

variable {env : Env}

/-- A resolved address is canonical. -/
theorem Env.ParsesLinks.canonical (parses : env.ParsesLinks) {text base : String} {parsed : Url}
    (resolves : env.api.resolve text base = some parsed)
    : env.Canonical parsed.href :=
  fun again found => parses.api text base parsed again resolves found

/-- The links of a page are canonical. -/
theorem Env.ParsesLinks.canonical_link (parses : env.ParsesLinks) {html url link : String}
    (member : link ∈ (env.parsePage html url).links)
    : env.Canonical link := by
  rw [parses.links] at member
  obtain ⟨text, parsed, resolves, rfl⟩ := resolved_of_mem_pageLinks member
  exact parses.canonical resolves

/-- The links that come with a page that is being saved are canonical. -/
def Thread.SavesCanonical (env : Env) (thread : Thread) : Prop :=
  ∀ job page links, thread.point = .saved job page links → ∀ link ∈ links, env.Canonical link

/-- Other threads save no page. -/
theorem Thread.SavesCanonical.of_other {thread : Thread} (other : thread.point.isSaved = false)
    : thread.SavesCanonical env := by
  intro job page links waits
  rw [waits] at other
  cases other

/-- A piece saves a page with the links that `parsePage` has found. -/
theorem Flow.savesCanonical {shared : Shared} {seeds : List String} {input : Input}
    {point : Point} {outcome : Outcome} (flow : Flow env shared seeds input point outcome)
    (parses : env.ParsesLinks)
    : ∀ thread ∈ outcome.threads, thread.SavesCanonical env := by
  cases flow with
  | asking _ _ _ fetch => exact Outcome.forall_single rfl (.of_other (fetch.point_eq ▸ rfl))
  | started fetch =>
      exact Outcome.forall_pair rfl (.of_other rfl) (.of_other (fetch.point_eq ▸ rfl))
  | pageFetched page first =>
      refine Outcome.forall_single rfl fun job page links waits link member => ?_
      cases waits
      exact parses.canonical_link member
  | lost | thrown | cursorRead | done | busy | loopOver | refilled | cleared | consumed =>
      exact Outcome.forall_none rfl
  | _ => exact Outcome.forall_single rfl (.of_other rfl)

namespace State

variable {start state next : State} {label : Label}

/-- No two pages that are saved have the same canonical form. -/
def OneSpelling (env : Env) (state : State) : Prop :=
  ∀ left ∈ state.shared.tables.nodes.keys, ∀ right ∈ state.shared.tables.nodes.keys,
    ∀ parsed ∈ env.api.parse left, ∀ other ∈ env.api.parse right,
      parsed.href = other.href → left = right

/-- The addresses that a label brings in as they are written are canonical: the seeds that are
drawn, a Kafka message, and the absolute target of a page fetch's redirect.
-/
def CanonicalInput (env : Env) (state : State) (label : Label) : Prop :=
  match label with
  | .run seeds => ∀ url ∈ seeds, env.Canonical url
  | .message url _ _ => env.Canonical url
  | .http index (.redirect location) =>
      startsWith location "http" = true →
        ∀ target ∈ state.pageRedirect env (.http index (.redirect location)),
          env.Canonical target
  | _ => True

instance : DecidableRel (CanonicalInput env) := fun state label => by
  unfold CanonicalInput
  split <;> infer_instance

/-- Every address that the crawl holds is canonical, and so are the links to be looked at. -/
structure AllCanonical (env : Env) (state : State) : Prop where
  held : state.HoldsAt env.Canonical
  links : ∀ thread ∈ state.threads, thread.SavesCanonical env

/-- Then no page is saved under two spellings: each is its own canonical form. -/
theorem AllCanonical.oneSpelling (canonical : state.AllCanonical env)
    : state.OneSpelling env := by
  intro left saved right otherSaved parsed parses other otherParses same
  have leftForm := canonical.held.nodes left saved parsed parses
  have rightForm := canonical.held.nodes right otherSaved other otherParses
  exact leftForm.symm.trans (same.trans rightForm)

/-- A redirect of a page fetch goes on to a canonical address: a relative one is resolved. -/
theorem CanonicalInput.redirect (input : CanonicalInput env state label)
    (parses : env.ParsesLinks)
    : ∀ target ∈ state.pageRedirect env label, env.Canonical target := by
  intro target redirected
  have redirects := redirected
  simp only [pageRedirect] at redirects
  split at redirects
  · rename_i job other named
    obtain rfl := Option.some.inj redirects
    unfold redirecting at named
    split at named
    · rename_i index location
      cases absolute : startsWith location "http" with
      | true => exact input absolute _ redirected
      | false =>
          split at named
          · obtain ⟨_, followed, same⟩ := Option.map_eq_some_iff.mp named
            obtain ⟨_, rfl⟩ := Prod.mk.inj same
            obtain ⟨parsed, resolves, rfl⟩ := resolved_of_redirectTarget absolute followed
            exact parses.canonical resolves
          · cases named
    · cases named
  · cases redirects

/-- Canonical inputs bring in canonical addresses; the links that the loop keeps are links of
the page.
-/
theorem AllCanonical.brings (canonical : state.AllCanonical env) (parses : env.ParsesLinks)
    (input : CanonicalInput env state label)
    : BringsAt env env.Canonical state label where
  seeds := by
    intro seeds same
    subst same
    exact input
  links := by
    intro value job page links running item kept
    have member : ⟨.ready (.reply (some value)), .saved job page links⟩ ∈ state.threads := by
      simp [threads, running]
    exact canonical.links _ member _ _ _ rfl _ (Shared.url_mem_of_keptLinks kept)
  message := by
    intro item background
    cases background
    exact input
  redirect := input.redirect parses

/-- A step with canonical inputs keeps everything canonical. -/
theorem AllCanonical.step (canonical : state.AllCanonical env) (parses : env.ParsesLinks)
    (input : CanonicalInput env state label) (taken : state.step env label = some next)
    : next.AllCanonical env where
  held := canonical.held.step (canonical.brings parses input) taken
  links := by
    refine forall_threads_of_step taken canonical.links ?begun ?left ?answered ?redirected
      ?settled ?recorded
    case begun =>
      intro thread background
      cases background <;> exact .of_other rfl
    case left =>
      intro seeds input point _ _ _ _
      exact (state.shared.resume_flow env seeds input point).savesCanonical parses
    case answered =>
      intro point statement ending tables reply _ _ _ waiting
      exact waiting
    case redirected =>
      intro url redirects target point thread _ fetch waiting job page links waits
      exact waiting job page links (fetch.point_eq ▸ waits)
    case settled =>
      intro url redirects point response _ waiting
      exact waiting
    case recorded =>
      intro point response waiting
      exact waiting

/-- In every run whose inputs are canonical, from tables that are, a page is crawled under one
spelling only.
-/
theorem oneSpelling_of_canonicalInput (parses : env.ParsesLinks) (begins : start.Begins)
    (rows : ∀ row ∈ start.shared.tables.frontier.rows, env.Canonical row.url)
    (nodes : ∀ url ∈ start.shared.tables.nodes.keys, env.Canonical url)
    (run : Run (step env) (CanonicalInput env) start state)
    : state.OneSpelling env := by
  have start_canonical : start.AllCanonical env := {
    held := begins.holdsAt rows nodes
    links := begins.forall_threads (.of_other rfl) (.of_other rfl)
  }
  have canonical := run.invariant start_canonical fun canonical input taken =>
    canonical.step parses input taken
  exact canonical.oneSpelling

/-- Addresses whose path may be missing, and pages with links. -/
def linkEnv : Env := {
  plainEnv with
  api := pathedUrlApi
  parsePage := fun html url => ⟨"", "", "", "", "", pageLinks pathedUrlApi html url, 0⟩
}

/-- It parses links as the runtime does. -/
theorem linkEnv_parsesLinks : linkEnv.ParsesLinks :=
  ⟨pathedUrlApi_canonicalises, fun _ _ => rfl⟩

/-- The page of a canonical seed is saved under one spelling. -/
theorem oneSpelling_of_pageSaved
    : ∃ state,
        Run (step linkEnv) (CanonicalInput linkEnv) (seededCrawl "https://a.example/1") state
        ∧ "https://a.example/1" ∈ state.shared.tables.nodes.keys
        ∧ state.OneSpelling linkEnv := by
  have executed
      : (execute (step linkEnv) (CanonicalInput linkEnv) (seededCrawl "https://a.example/1")
          pageSaved).any
          (fun state => "https://a.example/1" ∈ state.shared.tables.nodes.keys)
        = true := by
    decide +kernel
  obtain ⟨state, run, saved⟩ := exists_run_of_any executed
  have begins : (seededCrawl "https://a.example/1").Begins := ⟨_, _, _, _, _, _, rfl⟩
  have rows
      : ∀ row ∈ (seededCrawl "https://a.example/1").shared.tables.frontier.rows,
          linkEnv.Canonical row.url := by
    decide +kernel
  exact ⟨state, run, of_decide_eq_true saved,
    oneSpelling_of_canonicalInput linkEnv_parsesLinks begins rows nofun run⟩

/-- A seed without a path is saved as it is written. The page links to itself, and the address
of the link has the path, so the page is fetched and saved again.
-/
def secondSpelling : List Label :=
  boot ++ readBatch 2 ++ vet ++ turn 0 3
    -- the page of the seed is saved, and its link is queued
    ++ [.http 0 (.page "<a href='https://a.example'>"), .record 0] ++ turn 0 1
    ++ [reply 0] ++ turn 0 1 ++ [reply 0] ++ turn 0 1 ++ turn 0 1
    -- the next invocation starts the link
    ++ turn 0 1 ++ readBatch 2 ++ [reply 0] ++ turn 0 6
    ++ [.http 0 (.page ""), .record 0] ++ turn 0 1 ++ [reply 0]

/-- Both spellings are saved. -/
theorem oneSpelling_fails_for_a_seed
    : ¬ ∀ (env : Env) (start state : State),
        env.ParsesLinks → start.BeginsEmpty → Reaches (step env) start state →
          state.OneSpelling env := by
  intro claim
  have executed
      : (execute (step linkEnv) anyStep (seededCrawl "https://a.example") secondSpelling).any
          (fun state =>
            state.shared.tables.nodes.keys = ["https://a.example", "https://a.example/"])
        = true := by
    decide +kernel
  obtain ⟨state, run, saved⟩ := exists_run_of_any executed
  have saved := of_decide_eq_true saved
  have begins : (seededCrawl "https://a.example").BeginsEmpty :=
    ⟨["https://a.example"], _, _, _, _, _, rfl⟩
  have same := claim linkEnv _ state linkEnv_parsesLinks begins run
    "https://a.example" (by simp [saved]) "https://a.example/" (by simp [saved])
    ⟨"https://a.example/", "https:", "https://a.example", "a.example", "/"⟩ (by decide +kernel)
    ⟨"https://a.example/", "https:", "https://a.example", "a.example", "/"⟩ (by decide +kernel)
    rfl
  exact absurd same (by decide)

end State

end WebIndexer.Crawl
