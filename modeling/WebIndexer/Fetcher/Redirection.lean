import WebIndexer.Fetcher.Exchange
import WebIndexer.Fetcher.Links

/-! Where `fetchHtmlRaw` of `src/fetcher.ts` goes when it is redirected. A `Location` is resolved
against the address of the request, except that one which begins with `http` is followed as it is.
-/

namespace WebIndexer.Fetcher.Exchange

open WebIndexer.Library
open WebIndexer.Runtime

/-- The newer request goes where the response of the older one says: to the address that its
`Location` has against that of the older request, if it has one.
-/
def Standard (api : UrlApi) (newer older : String × Option Answer) : Prop :=
  ∀ res target, older.2 = some res → api.resolve res.location older.1 = some target
    → api.parse newer.1 = api.parse target.href

namespace State

variable {env : Env} {state next : State} {label : Label}

/-- The redirects of a call follow the standard: each request goes where the response before it
says, there are at most five redirects, and a page comes with the address of the last request.
-/
structure FollowsStandard (api : UrlApi) (state : State) : Prop where
  targets : state.trail.IsChain (Standard api)
  few : state.earlier.length ≤ 5
  final : ∀ result, state.outcome = some (.resolved result)
    → result.finalUrl = state.latest.url

/-- A `Location` that is followed as it is has the same address by itself as against that of the
request.
-/
def ParsesAlike (env : Env) (state : State) : Label → Prop
  | .latest (.response res) =>
      res.redirects = true → state.latest.depth < 5 → startsWith res.location "http" = true
        → ∀ target ∈ env.api.resolve res.location state.latest.url,
          env.api.parse res.location = env.api.parse target.href
  | _ => True

instance (env : Env) : DecidableRel (ParsesAlike env) := fun state label =>
  match label with
  | .latest (.response res) =>
      inferInstanceAs (Decidable (_ → _ → _ →
        ∀ target ∈ env.api.resolve res.location state.latest.url, _ = env.api.parse target.href))
  | .tick _ | .earlier .. | .latest .timer | .latest (.data _) | .latest .finish
  | .latest (.error _) | .latest .timeout => .isTrue trivial

/-- What an event leaves of the trail: nothing changes; or the latest request has its response,
which is not followed; or the response has redirected it, and one request more is made.
-/
inductive TrailCase (env : Env) (state : State) : Label → List (String × Option Answer) → Prop
  | same {label : Label} (quiet : ∀ res, label ≠ .latest (.response res))
    : TrailCase env state label state.trail
  | answered {res : Answer}
    (stays : res.redirects = true → state.latest.depth < 5
      → redirectTarget env.api res.location state.latest.url = none)
    : TrailCase env state (.latest (.response res))
        ((state.latest.url, some res) :: state.trail.tail)
  | followed {res : Answer} {target : String} (redirects : res.redirects = true)
    (shallow : state.latest.depth < 5)
    (resolves : redirectTarget env.api res.location state.latest.url = some target)
    : TrailCase env state (.latest (.response res))
        ((target, none) :: (state.latest.url, some res) :: state.trail.tail)

/-- Inversion of a step on the trail. -/
theorem trail_cases (chained : state.Chained env.api) (taken : state.step env label = some next)
    : TrailCase env state label next.trail := by
  obtain ⟨-, happened⟩ := step_cases taken
  cases happened with
  | tick quiet => exact .same (by simp)
  | latest happens =>
      cases happens with
      | timer | error | timeout | data | finish => exact .same (by simp)
      | escaped _ _ throws => exact .answered fun _ _ => throws
      | refused _ stays | accepted _ stays =>
          exact .answered fun redirects => absurd (stays.symm.trans redirects) (by simp)
      | @followed res target awaiting redirects resolves =>
          obtain ⟨deep, same⟩ | ⟨outcome, shallow, same, -⟩ := follow_cases env.api
            { state with latest := state.latest.drop res } target (state.latest.depth + 1)
          · rw [apply, same]
            exact .answered fun _ shallow => absurd shallow (by omega)
          · rw [apply, same]
            exact .followed redirects shallow resolves
  | @earlier index event front back request acted effect parts happens =>
      have member := parts ▸ List.mem_append_right front List.mem_cons_self
      obtain ⟨failure, rfl, late⟩ :=
        late_cases (chained.closed _ member) (chained.unarmed _ member) happens
      have same : (({ state with earlier := front ++ acted :: back } : State).trail)
          = state.trail := by
        cases late <;> simp [trail, requests, parts]
      rw [apply, trail_settle, same]
      exact .same (by simp)

/-- A request that follows a redirect follows the standard exactly when the `Location` parses alike.
-/
theorem standard_iff {res : Answer} {target : String} (redirects : res.redirects = true)
    (shallow : state.latest.depth < 5)
    (resolves : redirectTarget env.api res.location state.latest.url = some target)
    : Standard env.api (target, none) (state.latest.url, some res)
      ↔ ParsesAlike env state (.latest (.response res)) := by
  have standard : Standard env.api (target, none) (state.latest.url, some res)
      ↔ ∀ resolved ∈ env.api.resolve res.location state.latest.url,
        env.api.parse target = env.api.parse resolved.href := by
    constructor
    · intro standard resolved found
      exact standard res resolved rfl found
    · rintro alike _ resolved ⟨⟩ found
      exact alike resolved found
  rw [standard]
  cases absolute : startsWith res.location "http" with
  | true =>
      rw [redirectTarget, if_pos absolute] at resolves
      obtain rfl := Option.some.inj resolves
      simp [ParsesAlike, redirects, shallow, absolute]
  | false =>
      obtain ⟨resolved, found, rfl⟩ := resolved_of_redirectTarget absolute resolves
      simp [ParsesAlike, absolute, found]

/-- A response that is not followed parses alike. -/
theorem parsesAlike_of_stays {res : Answer}
    (stays : res.redirects = true → state.latest.depth < 5
      → redirectTarget env.api res.location state.latest.url = none)
    : ParsesAlike env state (.latest (.response res)) := by
  intro redirects shallow absolute
  have none_found := stays redirects shallow
  rw [redirectTarget, if_pos absolute] at none_found
  cases none_found

/-- A step from requests that follow the standard leads to such requests exactly when it parses
alike.
-/
theorem targets_step_iff (chained : state.Chained env.api)
    (targets : state.trail.IsChain (Standard env.api))
    (taken : state.step env label = some next)
    : next.trail.IsChain (Standard env.api) ↔ ParsesAlike env state label := by
  have answered (res : Answer)
      : ((state.latest.url, some res) :: state.trail.tail).IsChain (Standard env.api) := by
    have whole : state.trail = (state.latest.url, state.latest.answer) :: state.trail.tail := rfl
    rw [whole] at targets
    refine targets.imp_head fun standard => ?_
    exact standard
  generalize after : next.trail = trail
  have moved := after ▸ trail_cases chained taken
  cases moved with
  | same quiet =>
      refine iff_of_true targets ?_
      unfold ParsesAlike
      split
      · rename_i res
        exact absurd rfl (quiet res)
      · trivial
  | answered stays => exact iff_of_true (answered _) (parsesAlike_of_stays stays)
  | followed redirects shallow resolves =>
      rw [← standard_iff redirects shallow resolves, List.isChain_cons_cons]
      exact and_iff_left (answered _)

/-- A call that begins follows the standard. -/
theorem targets_start (api : UrlApi) (now : Nat) (url : String)
    : (start api now url).trail.IsChain (Standard api) :=
  List.isChain_singleton _

/-- Chained requests follow the standard as far as their targets do. -/
theorem Chained.followsStandard_iff {api : UrlApi} (chained : state.Chained api)
    : state.FollowsStandard api ↔ state.trail.IsChain (Standard api) := by
  constructor
  · exact FollowsStandard.targets
  · intro targets
    exact ⟨targets, chained.few, fun result resolved => (chained.resolved result resolved).2.1⟩

/-- Along a run whose redirects parse alike, all requests follow the standard, by induction on the
run.
-/
theorem targets_of_run {now : Nat} {url : String}
    (run : Run (step env) (ParsesAlike env) (start env.api now url) state)
    : state.trail.IsChain (Standard env.api) := by
  induction run with
  | refl => exact targets_start env.api now url
  | next run alike taken ih => exact (targets_step_iff (chained_of_run run) ih taken).mpr alike

/-- Along a run whose redirects parse alike the standard is followed, and a step more follows it
exactly when it parses alike.
-/
theorem followsStandard {now : Nat} {url : String}
    (run : Run (step env) (ParsesAlike env) (start env.api now url) state)
    : state.FollowsStandard env.api
      ∧ ∀ label next, state.step env label = some next
        → (next.FollowsStandard env.api ↔ ParsesAlike env state label) := by
  have chained := chained_of_run run
  have targets := targets_of_run run
  refine ⟨chained.followsStandard_iff.mpr targets, fun label next taken => ?_⟩
  rw [(chained_step chained taken).followsStandard_iff]
  exact targets_step_iff chained targets taken

/-- A page that is found behind a relative redirect. -/
theorem followsStandard_of_relative
    : ∃ state, Run (step plainEnv) (ParsesAlike plainEnv)
          (start folderUrlApi 0 "https://a.example/docs/first") state
        ∧ state.outcome = some (.resolved ⟨"A", "https://a.example/docs/next"⟩)
        ∧ state.FollowsStandard folderUrlApi := by
  have passes
      : (execute (step plainEnv) (ParsesAlike plainEnv)
          (start folderUrlApi 0 "https://a.example/docs/first")
          (.latest (.response ⟨302, "next", ""⟩) :: page [65])).any
            (fun state => decide (state.outcome
              = some (.resolved ⟨"A", "https://a.example/docs/next"⟩))) = true := by
    decide +kernel
  obtain ⟨state, run, resolved⟩ := exists_run_of_any passes
  exact ⟨state, run, of_decide_eq_true resolved, (followsStandard run).1⟩

/-- A relative redirect to a file whose name begins with `http` goes to no address at all. -/
theorem followsStandard_fails_for_httpdocs
    : ¬ ∀ (env : Env) (now : Nat) (url : String) (state : State),
        Reaches (step env) (start env.api now url) state → state.FollowsStandard env.api := by
  intro claim
  have passes
      : (execute (step plainEnv) anyStep (start folderUrlApi 0 "https://a.example/docs/first")
          [.latest (.response ⟨302, "httpdocs", ""⟩)]).any
            (fun state => decide (state.trail = [
              ("httpdocs", none),
              ("https://a.example/docs/first", some ⟨302, "httpdocs", ""⟩)
            ])) = true := by
    decide +kernel
  obtain ⟨state, run, reached⟩ := exists_run_of_any passes
  have targets := (claim plainEnv 0 _ state run).targets
  rw [of_decide_eq_true reached, List.isChain_cons_cons] at targets
  have elsewhere
      : (folderUrlApi.resolve "httpdocs" "https://a.example/docs/first").any (fun target =>
          decide (folderUrlApi.parse "httpdocs" ≠ folderUrlApi.parse target.href)) = true := by
    decide +kernel
  obtain ⟨target, found, differs⟩ := (Option.any_eq_true _ _).mp elsewhere
  exact of_decide_eq_true differs (targets.1 _ target rfl found)

end State

end WebIndexer.Fetcher.Exchange
