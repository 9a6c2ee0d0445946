import WebIndexer.Crawl.Turns

/-! The limits of concurrent page fetches. The checks read the fetches in flight, but not the
items that have passed a check and wait for the database or for robots.txt, so the limits hold
as long as each item that passes still finds a slot when these are counted too.
-/

namespace WebIndexer.Crawl

open WebIndexer.Config
open WebIndexer.Library
open WebIndexer.Store

/-- The role takes up a slot of a domain, given by a test of its item: its page fetch is in
flight, or is past the limit of the domain.
-/
def Role.occupies (test : FrontierItem → Bool) : Role → Bool
  | .working job => test job
  | .holding visit => test visit.item
  | _ => false

namespace State

variable {env : Env} {state next : State}

/-- The slots that are taken or promised: every role is a page fetch in flight, or an item
past the limit of concurrent fetches that has not been started.
-/
def slots (state : State) : Nat :=
  state.roles.length

/-- The slots of a domain that are taken or promised. -/
def slotsOf (env : Env) (state : State) (domain : String) : Nat :=
  state.roles.countP (Role.occupies fun item => env.domainOf item = domain)

/-- The item that a step lets past the check of `active`, if it lets one past. -/
def entering (state : State) : Label → Option FrontierItem
  | .run _ =>
      match state.running with
      | some ⟨_, .forItem (item :: _) _⟩ =>
          if state.shared.active < concurrency then some item else none
      | _ => none
  | _ => none

/-- The item that a step lets past the check of its domain, if it lets one past. -/
def passing (env : Env) (state : State) : Label → Option FrontierItem
  | .run _ =>
      match state.running with
      | some ⟨_, .examine item _ _⟩ => if state.shared.admits env item then some item else none
      | _ => none
  | _ => none

/-- An item that passes a check finds a slot that is neither taken nor promised. -/
def FindsSlot (env : Env) (state : State) (label : Label) : Prop :=
  (∀ _ ∈ state.entering label, state.slots < concurrency)
  ∧ ∀ item ∈ state.passing env label, state.slotsOf env (env.domainOf item) < domainLimit

instance : DecidableRel (FindsSlot env) :=
  fun _ _ => inferInstanceAs (Decidable ((∀ _ ∈ _, _) ∧ ∀ _ ∈ _, _))

/-- The page fetches in flight are within the limits. -/
def WithinLimits (env : Env) (state : State) : Prop :=
  state.inFlight ≤ concurrency ∧ ∀ domain, state.inFlightOf env domain ≤ domainLimit

/-- The slots taken or promised are within the limits. -/
structure Reserved (env : Env) (state : State) : Prop where
  slots : state.slots ≤ concurrency
  domains : ∀ domain, state.slotsOf env domain ≤ domainLimit

/-- Reserved slots bound the page fetches in flight, which are among them. -/
theorem Reserved.withinLimits (reserved : state.Reserved env) : state.WithinLimits env where
  left := List.countP_le_length.trans reserved.slots
  right domain := by
    refine (List.countP_mono_left fun role _ => ?_).trans (reserved.domains domain)
    cases role <;> simp [Role.isWorking, Role.occupies]

/-- A turn that asks for no new slot keeps the slots within the limits. -/
theorem Reserved.of_no_more {old new rest : List Role} (reserved : state.Reserved env)
    (before : state.roles = old ++ rest) (after : next.roles = new ++ rest)
    (fewer : new.length ≤ old.length)
    (fewerOf : ∀ test, new.countP (Role.occupies test) ≤ old.countP (Role.occupies test))
    : next.Reserved env where
  slots := by
    have bound := reserved.slots
    simp only [State.slots, before, after, List.length_append] at bound ⊢
    omega
  domains domain := by
    have bound := reserved.domains domain
    have fewerHere := fewerOf fun item => env.domainOf item = domain
    simp only [slotsOf, before, after, List.countP_append] at bound ⊢
    omega

/-- A step whose items find slots keeps the slots within the limits, turn by turn: only the
two checks ask for a new slot.
-/
theorem step_reserved {label : Label} (reserved : state.Reserved env)
    (found : FindsSlot env state label) (taken : state.step env label = some next)
    : next.Reserved env := by
  cases step_slots taken with
  | still _ _ roles =>
      refine ⟨roles.length_eq.trans_le reserved.slots, fun domain => ?_⟩
      exact (roles.countP_eq _).trans_le (reserved.domains domain)
  | @turn seeds input point roles _ running turn before after =>
      cases turn with
      | leave _ _ _ =>
          exact reserved.of_no_more before after (Nat.zero_le _) fun _ => Nat.zero_le _
      | @ask item rest startedAny head below _ =>
          subst head
          have free : state.slots < concurrency :=
            found.1 item (by simp [entering, running, below])
          have before : state.roles = rolesOf state.pool := before
          constructor
          · simp only [State.slots, before, after, List.length_append,
              List.length_singleton] at free ⊢
            omega
          · intro domain
            have bound := reserved.domains domain
            simp only [slotsOf, before, after, List.countP_append] at bound ⊢
            split <;> simpa [Role.occupies] using bound
      | vet asked _ _ =>
          subst asked
          exact reserved.of_no_more before after le_rfl fun _ => le_rfl
      | @hold visit examined admits _ _ =>
          subst examined
          have free : state.slotsOf env (env.domainOf visit.item) < domainLimit :=
            found.2 visit.item (by simp [passing, running, admits])
          constructor
          · have bound := reserved.slots
            simp only [State.slots, before, after, List.length_append] at bound ⊢
            exact bound
          · intro domain
            have bound := reserved.domains domain
            simp only [slotsOf, before, after, List.countP_append] at bound free ⊢
            by_cases same : env.domainOf visit.item = domain
            · subst same
              simp only [Role.occupies, Point.role?, Option.toList_some, List.countP_singleton,
                decide_true, if_true] at free ⊢
              omega
            · simpa [Role.occupies, Point.role?, same] using bound
      | carry role _ _ =>
          rw [role] at before
          exact reserved.of_no_more before after le_rfl fun _ => le_rfl
      | start ready _ _ =>
          subst ready
          exact reserved.of_no_more before after le_rfl fun _ => le_rfl
      | work role _ =>
          rw [role] at before
          exact reserved.of_no_more before after le_rfl fun _ => le_rfl
      | finalise done _ _ =>
          subst done
          exact reserved.of_no_more before after (Nat.zero_le _) fun _ => Nat.zero_le _

/-- In a run in which each item that passes a check finds a slot that is neither taken nor
promised, the page fetches in flight stay within both limits.
-/
theorem admissionLimits {start : State} (begins : start.Begins)
    (run : Run (step env) (FindsSlot env) start state)
    : state.WithinLimits env := by
  have reserved : state.Reserved env := by
    refine run.invariant ?_ fun reserved found taken => step_reserved reserved found taken
    obtain ⟨roles, _, _⟩ := begins.slots
    constructor
    · simp [State.slots, roles]
    · simp [slotsOf, roles]
  exact reserved.withinLimits

/-- A crawl whose only page is being fetched is within the limits. -/
theorem admissionLimits_of_one
    : ∃ state, Run (step plainEnv) (FindsSlot plainEnv)
          (plainCrawl [⟨"https://a.example/1", 0, none⟩]) state
        ∧ state.inFlight = 1
        ∧ state.WithinLimits plainEnv := by
  let labels : List Label := boot ++ readBatch 2 ++ vet ++ turn 0 3
  have passes
      : (execute (step plainEnv) (FindsSlot plainEnv)
          (plainCrawl [⟨"https://a.example/1", 0, none⟩]) labels).any
            (fun state => decide (state.inFlight = 1)) = true := by
    decide +kernel
  obtain ⟨state, run, working⟩ := exists_run_of_any passes
  exact ⟨state, run, of_decide_eq_true working, admissionLimits (plainCrawl_begins _) run⟩

/-- Two invocations that overlap start three pages, all of one domain: the second page twice,
and the third.
-/
theorem admissionLimits_fails_for_overlap
    : ¬ ∀ (env : Env) (start state : State), start.Begins → Reaches (step env) start state →
        state.WithinLimits env := by
  intro claim
  have passes
      : (execute (step plainEnv) anyStep (plainCrawl overlapPages)
          (overlap ++ [.run [], .run [], reply 1] ++ turn 0 6)).any
            (fun state => decide (state.inFlight = 3
              ∧ state.inFlightOf plainEnv "b.example" = 3)) = true := by
    decide +kernel
  obtain ⟨state, run, reached⟩ := exists_run_of_any passes
  obtain ⟨all, _⟩ := of_decide_eq_true reached
  obtain ⟨total, _⟩ := claim plainEnv _ state (plainCrawl_begins overlapPages) run
  rw [all] at total
  exact absurd total (by decide)

end State

end WebIndexer.Crawl
