import WebIndexer.Crawl.Turns

/-! The counter of fetches in flight of a domain. A start writes the count that the admission
loop read before it waited for robots.txt, so the counter is exact as long as no other start
or end of the domain comes between.
-/

namespace WebIndexer.Crawl

open WebIndexer.Config
open WebIndexer.Library
open WebIndexer.Store

namespace State

variable {env : Env} {state next : State}

/-- Every domain's counter is the number of its page fetches in flight. -/
def InflightExact (env : Env) (state : State) : Prop :=
  ∀ domain, state.shared.crawl.domainInflight domain = state.inFlightOf env domain

/-- A page fetch that starts finds the count of its domain as it was read. -/
def StartsFresh (env : Env) (state : State) (label : Label) : Prop :=
  ∀ visit ∈ state.starting label,
    visit.inflight = state.shared.crawl.domainInflight (env.domainOf visit.item)

instance : DecidableRel (StartsFresh env) :=
  fun _ _ => inferInstanceAs (Decidable (∀ _ ∈ _, _))

/-- From a state with exact counters, a step leads to one exactly when a page fetch that it
starts finds the count of its domain as it was read. An end re-reads the count, and cannot
go wrong.
-/
theorem step_inflightExact_iff {label : Label} (precise : state.InflightExact env)
    (taken : state.step env label = some next)
    : next.InflightExact env ↔ StartsFresh env state label := by
  cases step_flights taken with
  | steady starting same count =>
      have fresh : StartsFresh env state label := by
        rintro visit found
        rw [starting] at found
        cases found
      refine iff_of_true (fun domain => ?_) fresh
      rw [same.inflight, inFlightOf, count]
      exact precise domain
  | @started visit starting _ inflight count =>
      have guarded : StartsFresh env state label ↔
          visit.inflight = state.shared.crawl.domainInflight (env.domainOf visit.item) := by
        simp [StartsFresh, starting]
      rw [guarded]
      constructor
      · intro after
        have written := after (env.domainOf visit.item)
        rw [inflight, assign_same, inFlightOf, count, if_pos (decide_eq_true rfl)] at written
        exact (Nat.succ.inj written).trans (precise _).symm
      · intro fresh domain
        rw [inflight, inFlightOf, count]
        by_cases same : domain = env.domainOf visit.item
        · subst same
          rw [assign_same, if_pos (decide_eq_true rfl), fresh, precise]
          rfl
        · rw [assign_of_ne _ same, if_neg (by simpa using Ne.symm same)]
          exact precise domain
  | @finalised job starting _ inflight count =>
      have fresh : StartsFresh env state label := by
        rintro visit found
        rw [starting] at found
        cases found
      refine iff_of_true (fun domain => ?_) fresh
      have counted : state.inFlightOf env domain = next.inFlightOf env domain + _ := count _
      rw [inflight]
      by_cases same : domain = env.domainOf job
      · subst same
        rw [assign_same, precise, counted, if_pos (decide_eq_true rfl), Nat.add_sub_cancel]
      · rw [assign_of_ne _ same, precise, counted, if_neg (by simpa using Ne.symm same)]
        rfl

/-- In a run whose starts all find the count of their domain as it was read, the counters are
exact; and a start that finds another count makes them wrong at once.
-/
theorem inflightCounts {start : State} (begins : start.Begins)
    (run : Run (step env) (StartsFresh env) start state)
    : state.InflightExact env
      ∧ (state.inFlight = 0 → ∀ domain, state.shared.crawl.domainInflight domain = 0)
      ∧ ∀ label next, state.step env label = some next → ¬ StartsFresh env state label →
          ¬ next.InflightExact env := by
  have precise : state.InflightExact env := by
    refine run.invariant (fun domain => ?_) fun precise fresh taken =>
      (step_inflightExact_iff precise taken).mpr fresh
    obtain ⟨roles, _, counters⟩ := begins.slots
    rw [counters, inFlightOf, fetches, roles]
    rfl
  refine ⟨precise, fun idle domain => ?_, fun label next taken stale after => ?_⟩
  · have bound := state.inFlightOf_le env domain
    rw [precise domain]
    omega
  · exact stale ((step_inflightExact_iff precise taken).mp after)

/-- A crawl whose only page has waited for robots.txt, and is being fetched. -/
theorem inflightCounts_of_one
    : ∃ state, Run (step plainEnv) (StartsFresh plainEnv)
          (plainCrawl [⟨"https://a.example/1", 0, none⟩]) state
        ∧ state.inFlight = 1
        ∧ state.InflightExact plainEnv := by
  let labels : List Label := boot ++ readBatch 2 ++ vet ++ turn 0 3
  have passes
      : (execute (step plainEnv) (StartsFresh plainEnv)
          (plainCrawl [⟨"https://a.example/1", 0, none⟩]) labels).any
            (fun state => decide (state.inFlight = 1)) = true := by
    decide +kernel
  obtain ⟨state, run, working⟩ := exists_run_of_any passes
  exact ⟨state, run, of_decide_eq_true working, (inflightCounts (plainCrawl_begins _) run).1⟩

/-- A count read before an end is written after it: the second page of a domain reads one
fetch in flight, waits for the robots.txt of its own origin while the first is finalised, and
starts as if there were two. When it ends too, one is left for good.
-/
theorem inflightCounts_fails_for_stale_read
    : ¬ ∀ (env : Env) (start state : State), start.Begins → Reaches (step env) start state →
        state.InflightExact env
        ∧ (state.inFlight = 0 → ∀ domain, state.shared.crawl.domainInflight domain = 0) := by
  intro claim
  let pages : List FrontierItem :=
    [⟨"https://a.example/1", 0, none⟩, ⟨"https://www.a.example/2", 0, none⟩]
  -- both pages are admitted; the first is being fetched, the second waits for robots.txt
  let admitted : List Label :=
    boot ++ readBatch 2 ++ vet ++ turn 0 3 ++ [reply 0] ++ turn 0 3
  -- the first is finalised, then the second starts and is finalised as well
  let ended : List Label := ending 1 ++ failure 1 ++ turn 0 1 ++ turn 0 3 ++ ending 0
  have passes
      : (execute (step plainEnv) anyStep (plainCrawl pages) (admitted ++ ended)).any
          (fun state => decide (state.inFlight = 0
            ∧ state.shared.crawl.domainInflight "a.example" = 1)) = true := by
    decide +kernel
  obtain ⟨state, run, reached⟩ := exists_run_of_any passes
  obtain ⟨idle, leaked⟩ := of_decide_eq_true reached
  have zero := (claim plainEnv _ state (plainCrawl_begins pages) run).2 idle "a.example"
  rw [leaked] at zero
  cases zero

end State

end WebIndexer.Crawl
