import WebIndexer.Fetcher.Exchange
import WebIndexer.Fetcher.Links

/-! That a call of `fetchHtmlRaw` in `src/fetcher.ts` settles. The timer of the latest request is
armed until the promise settles, unless a `Location` that cannot be resolved throws out of the
callback that has just cleared it.
-/

namespace WebIndexer.Fetcher.Exchange

open WebIndexer.Library
open WebIndexer.Runtime

namespace State

variable {env : Env} {state next : State} {label : Label} {since : Nat}

/-- The time by which the timers of all requests have gone off. -/
def limit (since : Nat) (state : State) : Nat :=
  since + state.requests.length * Config.fetchTimeout

/-- The call settles in time: no exception has escaped from a callback, and a promise that has not
settled yet is within the time of its timers, and settles within it.
-/
structure SettlesInTime (env : Env) (since : Nat) (state : State) : Prop where
  contained : state.escaped = false
  within : state.outcome = none → state.now ≤ state.limit since
  settles : state.outcome = none
    → ∃ after, Reaches (step env) state after ∧ after.outcome.isSome = true
      ∧ after.now ≤ state.limit since

/-- A `Location` that is followed can be resolved, unless it is followed as it is. -/
def Resolvable (env : Env) (state : State) : Label → Prop
  | .latest (.response res) =>
      res.redirects = true → startsWith res.location "http" = false
        → (env.api.resolve res.location state.latest.url).isSome = true
  | _ => True

instance (env : Env) : DecidableRel (Resolvable env) := fun state label =>
  match label with
  | .latest (.response res) =>
      inferInstanceAs (Decidable (_ → _ → (env.api.resolve res.location state.latest.url).isSome))
  | .tick _ | .earlier .. | .latest .timer | .latest (.data _) | .latest .finish
  | .latest (.error _) | .latest .timeout => .isTrue trivial

/-- While the promise has not settled, the latest timer is armed, and goes off within the time of
all timers.
-/
def Armed (since : Nat) (state : State) : Prop :=
  state.outcome = none
    → ∃ deadline, state.latest.timer = some deadline ∧ state.now ≤ deadline
      ∧ deadline ≤ state.limit since

/-- A promise that has settled needs no timer. -/
theorem armed_of_settled (settled : state.outcome.isSome = true) : state.Armed since := by
  intro unsettled
  rw [unsettled] at settled
  cases settled

@[simp] theorem isSome_settle (outcome : Outcome)
    : (state.settle outcome).outcome.isSome = true := by
  cases before : state.outcome <;> simp [settle, before]

/-- A call that begins has armed its timer. -/
theorem armed_start (api : UrlApi) (now : Nat) (url : String) : (start api now url).Armed now := by
  intro _
  exact ⟨now + Config.fetchTimeout, rfl, Nat.le_add_right _ _, by simp [limit, start, requests]⟩

/-- A redirect that is followed arms another timer while the last one has not gone off. -/
theorem armed_follow {acted : Request} {target : String} {depth : Nat} (armed : state.Armed since)
    (api : UrlApi)
    : (({ state with latest := acted } : State).follow api target depth).Armed since := by
  obtain ⟨-, same⟩ | ⟨outcome, -, same, ends⟩ :=
    follow_cases api { state with latest := acted } target depth
  · rw [same]
    exact armed_of_settled (isSome_settle _)
  · rw [same]
    intro unsettled
    obtain ⟨-, kept⟩ | ⟨-, settled⟩ := ends
    · obtain ⟨deadline, -, before, within⟩ := armed (kept.symm.trans unsettled)
      refine ⟨state.now + Config.fetchTimeout, rfl, Nat.le_add_right _ _, ?_⟩
      simp only [limit, requests, List.length_cons, Config.fetchTimeout] at within ⊢
      omega
    · have rejected : (state.settle (.rejected .thrown)).outcome = none :=
        settled.symm.trans unsettled
      have some_outcome : (state.settle (.rejected .thrown)).outcome.isSome = true :=
        isSome_settle _
      rw [rejected] at some_outcome
      cases some_outcome

/-- Each step keeps the timer armed, unless an exception escapes. -/
theorem armed_step (chained : state.Chained env.api) (armed : state.Armed since)
    (taken : state.step env label = some next) (contained : next.escaped = false)
    : next.Armed since := by
  obtain ⟨-, happened⟩ := step_cases taken
  cases happened with
  | tick quiet =>
      intro unsettled
      obtain ⟨deadline, timer, -, within⟩ := armed unsettled
      exact ⟨deadline, timer, quiet state.latest List.mem_cons_self deadline timer, within⟩
  | latest happens =>
      cases happens with
      | timer | refused | finish | error | timeout => exact armed_of_settled (isSome_settle _)
      | escaped => cases contained
      | followed => exact armed_follow armed env.api
      | accepted | data => exact armed
  | @earlier index event front back request acted effect parts happens =>
      have member := parts ▸ List.mem_append_right front List.mem_cons_self
      obtain ⟨failure, rfl, -⟩ :=
        late_cases (chained.closed _ member) (chained.unarmed _ member) happens
      exact armed_of_settled (isSome_settle _)

/-- An exception escapes exactly when a `Location` that is followed cannot be resolved. -/
theorem contained_step_iff (chained : state.Chained env.api)
    (taken : state.step env label = some next)
    : next.escaped = false ↔ Resolvable env state label := by
  obtain ⟨alive, happened⟩ := step_cases taken
  cases happened with
  | tick quiet => exact iff_of_true alive trivial
  | latest happens =>
      cases happens with
      | timer | finish | error | timeout | data => exact iff_of_true alive trivial
      | refused _ stays | accepted _ stays =>
          exact iff_of_true alive fun redirects => absurd (stays.symm.trans redirects) (by simp)
      | @escaped res awaiting redirects throws =>
          refine iff_of_false (by simp [apply]) fun resolvable => ?_
          cases absolute : startsWith res.location "http" with
          | true =>
              rw [redirectTarget, if_pos absolute] at throws
              cases throws
          | false =>
              obtain ⟨resolved, found⟩ :=
                Option.isSome_iff_exists.mp (resolvable redirects absolute)
              rw [redirectTarget, if_neg (by simp [absolute]), found] at throws
              cases throws
      | @followed res target awaiting redirects resolves =>
          refine iff_of_true (by rw [apply, escaped_follow]; exact alive) fun _ relative => ?_
          obtain ⟨resolved, found, -⟩ := resolved_of_redirectTarget relative resolves
          rw [found]
          rfl
  | @earlier index event front back request acted effect parts happens =>
      have member := parts ▸ List.mem_append_right front List.mem_cons_self
      obtain ⟨failure, rfl, -⟩ :=
        late_cases (chained.closed _ member) (chained.unarmed _ member) happens
      exact iff_of_true alive trivial

/-- The armed timer settles the promise: time passes until it goes off. -/
theorem settles_of_armed (chained : state.Chained env.api) (contained : state.escaped = false)
    (armed : state.Armed since) (unsettled : state.outcome = none)
    : ∃ after, Reaches (step env) state after ∧ after.outcome.isSome = true
        ∧ after.now ≤ state.limit since := by
  obtain ⟨deadline, timer, before, within⟩ := armed unsettled
  have then_now : state.now + (deadline - state.now) = deadline := Nat.add_sub_of_le before
  have quiet : state.Quiet (state.now + (deadline - state.now)) := by
    rw [then_now]
    refine List.forall_mem_cons.mpr ⟨?_, ?_⟩
    · intro time armed
      rw [timer] at armed
      exact (Option.some.inj armed).le
    · intro request member time armed
      rw [chained.unarmed request member] at armed
      cases armed
  let waited : State := { state with now := state.now + (deadline - state.now) }
  have waits : state.step env (.tick (deadline - state.now)) = some waited := by
    simp [step, contained, quiet, waited]
  have fires : waited.step env (.latest .timer)
      = some (({ waited with latest := { state.latest with timer := none } } : State).settle
        (.rejected .timeout)) := by
    simp [step, waited, contained, Request.on, timer, then_now, apply]
  refine ⟨_, .next (.next (.refl _) trivial waits) trivial fires, isSome_settle _, ?_⟩
  simpa [waited, then_now] using within

/-- What is armed, with no exception escaped, settles in time. -/
theorem settlesInTime_of_armed (chained : state.Chained env.api)
    (contained : state.escaped = false) (armed : state.Armed since)
    : state.SettlesInTime env since := by
  refine ⟨contained, fun unsettled => ?_, settles_of_armed chained contained armed⟩
  obtain ⟨deadline, -, before, within⟩ := armed unsettled
  exact before.trans within

/-- Along a run whose redirects can be resolved no exception escapes, and a timer is armed, by
induction on the run.
-/
theorem armed_of_run {url : String}
    (run : Run (step env) (Resolvable env) (start env.api since url) state)
    : state.escaped = false ∧ state.Armed since := by
  induction run with
  | refl => exact ⟨rfl, armed_start env.api since url⟩
  | next run resolvable taken ih =>
      have chained := chained_of_run run
      have contained := (contained_step_iff chained taken).mpr resolvable
      exact ⟨contained, armed_step chained ih.2 taken contained⟩

end State

end WebIndexer.Fetcher.Exchange
