import WebIndexer.Crawl.Addresses

/-! Blacklisted sites. Only the links of a page are checked against the blacklist, so the crawl
keeps off it as long as the other addresses that it is given are clean: the rows and pages of
earlier runs, the seeds, the Kafka messages, and the targets of redirects.
-/

namespace WebIndexer.Crawl

open WebIndexer.Config
open WebIndexer.Fetcher
open WebIndexer.Library
open WebIndexer.Store

/-- The address is not blacklisted. -/
def Env.Clean (env : Env) (url : String) : Prop :=
  isBlacklisted env.api url = false

instance (env : Env) (url : String) : Decidable (env.Clean url) :=
  inferInstanceAs (Decidable (_ = _))

/-- A page fetch has got to a clean address, and a page that is saved was found at one. -/
structure Thread.FetchesClean (env : Env) (thread : Thread) : Prop where
  fetch : ∀ job url, thread.point = .fetched job → thread.phase.address? = some url →
    env.Clean url
  page : ∀ job page links, thread.point = .saved job page links → env.Clean page.url

variable {env : Env}

/-- Every address that the tables of earlier runs hold is clean. -/
structure CleanTables (env : Env) (tables : Tables) : Prop where
  rows : ∀ row ∈ tables.frontier.rows, env.Clean row.url
  nodes : ∀ url ∈ tables.nodes.keys, env.Clean url

namespace State

variable {start state next : State} {label : Label}

/-- The addresses that a label brings from outside, apart from the links of pages, are clean:
the seeds that are drawn, the target of a page fetch's redirect, and a Kafka message.
-/
def CleanInput (env : Env) (state : State) (label : Label) : Prop :=
  (∀ target ∈ state.pageRedirect env label, env.Clean target)
  ∧ match label with
    | .run seeds => ∀ url ∈ seeds, env.Clean url
    | .message url _ _ => env.Clean url
    | _ => True

/-- No page request is issued for a blacklisted address, and no such address is saved. -/
structure KeepsOff (env : Env) (state : State) : Prop where
  requests
    : ∀ job url redirects, ⟨.http url redirects, .fetched job⟩ ∈ state.threads →
        env.Clean url
  nodes : ∀ url ∈ state.shared.tables.nodes.keys, env.Clean url

/-- Everything that the crawl holds is clean. -/
structure AllClean (env : Env) (state : State) : Prop where
  laden : Laden (fun item => env.Clean item.url) state
  fetches : ∀ thread ∈ state.threads, thread.FetchesClean env
  nodes : ∀ url ∈ state.shared.tables.nodes.keys, env.Clean url

/-- It is, when every address that the crawl holds is. -/
theorem AllClean.of_holdsAt (held : state.HoldsAt env.Clean) : state.AllClean env where
  laden := held.laden
  fetches thread member :=
    ⟨(held.fetches thread member).fetch, (held.fetches thread member).page⟩
  nodes := held.nodes

/-- Then the crawl keeps off the blacklist. -/
theorem AllClean.keepsOff (clean : state.AllClean env) : state.KeepsOff env where
  requests _ _ _ member := (clean.fetches _ member).fetch _ _ rfl rfl
  nodes := clean.nodes

/-- Clean inputs bring in clean addresses; the links that the loop keeps have been checked. -/
theorem CleanInput.brings (input : CleanInput env state label)
    : BringsAt env env.Clean state label where
  seeds := by
    intro seeds same
    subst same
    exact input.2
  links := by
    intro value job page links _ item kept
    exact (Shared.keptLink_of_mem kept).clean
  message := by
    intro item background
    cases background
    exact input.2
  redirect := input.1

/-- In every run whose inputs are clean, from tables that are, the crawl keeps off the
blacklist.
-/
theorem keepsOff_of_cleanInput (begins : start.Begins)
    (clean : CleanTables env start.shared.tables)
    (run : Run (step env) (CleanInput env) start state)
    : state.KeepsOff env := by
  have held : state.HoldsAt env.Clean :=
    run.invariant (begins.holdsAt clean.rows clean.nodes)
      fun held input taken => held.step input.brings taken
  exact (AllClean.of_holdsAt held).keepsOff

/-- The address that a page fetch requests. -/
def requestOf : Thread → Option String
  | ⟨.http url _, .fetched _⟩ => some url
  | _ => none

/-- Only a page fetch with a request in flight requests a page. -/
theorem eq_of_requestOf {thread : Thread} {url : String} (requests : requestOf thread = some url)
    : ∃ job redirects, thread = ⟨.http url redirects, .fetched job⟩ := by
  unfold requestOf at requests
  split at requests
  · obtain rfl := Option.some.inj requests
    exact ⟨_, _, rfl⟩
  · cases requests

instance : DecidableRel (CleanInput env) := fun state label =>
  match label with
  | .run seeds => inferInstanceAs (Decidable ((∀ _ ∈ _, _) ∧ ∀ url ∈ seeds, env.Clean url))
  | .message url _ _ => inferInstanceAs (Decidable ((∀ _ ∈ _, _) ∧ env.Clean url))
  | .tick _ | .exec _ _ _ | .http _ _ | .record _ | .wake _ | .statsTimer | .clearTimer
  | .diskTimer _ _ =>
      inferInstanceAs (Decidable ((∀ _ ∈ state.pageRedirect env _, env.Clean _) ∧ True))

/-- The loop starts, reads its batch, and asks for the robots.txt of its first page in vain. -/
def firstPage : List Label :=
  boot ++ readBatch 2 ++ vet ++ turn 0 2

/-- A clean page is requested. -/
theorem keepsOff_of_overlap
    : ∃ state,
        Run (step plainEnv) (CleanInput plainEnv) (plainCrawl overlapPages) state
        ∧ state.shared.requested.contains "https://a.example/1"
        ∧ state.KeepsOff plainEnv := by
  have executed
      : (execute (step plainEnv) (CleanInput plainEnv) (plainCrawl overlapPages)
          firstPage).any
          (fun state => state.shared.requested.contains "https://a.example/1")
        = true := by
    decide +kernel
  have clean : CleanTables plainEnv (plainCrawl overlapPages).shared.tables :=
    ⟨by decide +kernel, nofun⟩
  obtain ⟨state, run, requested⟩ := exists_run_of_any executed
  exact ⟨state, run, requested, keepsOff_of_cleanInput (plainCrawl_begins _) clean run⟩

/-- A seed of a blacklisted site is requested. -/
theorem keepsOff_fails_for_a_seed
    : ¬ ∀ state,
        Reaches (step plainEnv)
            (plainCrawl [⟨"https://old.reddit.com/r/programming", 0, none⟩]) state →
          state.KeepsOff plainEnv := by
  intro claim
  have executed
      : (execute (step plainEnv) anyStep
          (plainCrawl [⟨"https://old.reddit.com/r/programming", 0, none⟩]) firstPage).any
          (fun state => state.threads.any fun thread =>
            (requestOf thread).any (isBlacklisted plainEnv.api))
        = true := by
    decide +kernel
  obtain ⟨state, run, found⟩ := exists_run_of_any executed
  obtain ⟨thread, member, requested⟩ := List.any_eq_true.mp found
  obtain ⟨url, requests, listed⟩ := (Option.any_eq_true _ _).mp requested
  obtain ⟨job, redirects, rfl⟩ := eq_of_requestOf requests
  have clean := (claim state run).requests _ _ _ member
  exact Bool.noConfusion (clean.symm.trans listed)

end State

end WebIndexer.Crawl
