import WebIndexer.Fetcher.Exchange

/-! The two views of `fetchHtmlRaw` of `src/fetcher.ts`: where the network answers each address as a
function of it says, the requests of a call settle as the recursion over that function does.
-/

namespace WebIndexer.Fetcher.Exchange

open WebIndexer.Library
open WebIndexer.Runtime

/-- The head of what a server answers. -/
def headOf (message : IncomingMessage) : Answer where
  statusCode := message.statusCode
  location := message.location
  contentType := message.contentType

/-- The page of a promise that is resolved. -/
def Outcome.page : Outcome → Option FetchResult
  | .resolved result => some result
  | .rejected _ => none

namespace State

variable {env : Env} {servers : Servers} {url : String} {state next : State} {label : Label}

/-- What a call leaves behind once it has settled, or has ended the process. -/
def settlement (state : State) : Option Settlement :=
  if state.escaped then some none else state.outcome.map fun outcome => some outcome.page

/-- The network answers an address as a function of it says: with the head and the text of its
message, and nothing else happens to the request; or with none, and only errors and time-outs do.
-/
def Serves (servers : Servers) (env : Env) (state : State) : Label → Prop
  | .tick _ | .latest (.data _) => True
  | .latest (.response res) => ∃ message ∈ servers state.latest.url, res = headOf message
  | .latest .finish =>
      ∀ ct body, state.latest.stage = .receiving ct body →
        ∃ message ∈ servers state.latest.url, htmlOf env.decoders ct body.buffer = message.html
  | .latest .timer | .latest (.error _) | .latest .timeout => servers state.latest.url = none
  | .earlier _ _ => False

/-- What the recursion gives for the first address: nothing if the process has ended, how the
promise has settled, or what it gives for the latest address with the requests that are left.
-/
inductive Serving (servers : Servers) (env : Env) (url : String) (state : State) : Prop
  | ended (escaped : state.escaped = true) (same : fetchHtmlRaw env.api servers url 6 = none)
  | settled {outcome : Outcome} (alive : state.escaped = false)
    (settled : state.outcome = some outcome)
    (same : fetchHtmlRaw env.api servers url 6 = some outcome.page)
    (unanswered : state.latest.stage = .awaiting → servers state.latest.url = none)
  | pending {requests : Nat} (alive : state.escaped = false) (pending : state.outcome = none)
    (left : state.latest.depth + requests = 5)
    (issued : requestable env.api state.latest.url = true)
    (same : fetchHtmlRaw env.api servers url 6
      = fetchHtmlRaw env.api servers state.latest.url (requests + 1))
    (read : ∀ ct body, state.latest.stage = .receiving ct body →
      ∀ message ∈ servers state.latest.url, (headOf message).accepted = true)

-----------------------------------------------------------------------------------------
-- The recursion
-----------------------------------------------------------------------------------------

section Recursion

variable {api : UrlApi} {requests : Nat} {message : IncomingMessage}

/-- An address that cannot be requested is rejected. -/
theorem fetchHtmlRaw_of_not_requestable (refused : requestable api url = false)
    : fetchHtmlRaw api servers url requests = some none := by
  cases requests with
  | zero => rfl
  | succ requests => rw [fetchHtmlRaw, if_neg (by simp [refused])]

/-- So is one that no server answers. -/
theorem fetchHtmlRaw_of_none (issued : requestable api url = true) (silent : servers url = none)
    : fetchHtmlRaw api servers url (requests + 1) = some none := by
  rw [fetchHtmlRaw, if_pos issued, silent]

/-- The head of a message is a redirect where the recursion follows it. -/
theorem redirects_headOf_iff (message : IncomingMessage)
    : (headOf message).redirects = true
      ↔ 300 ≤ message.statusCode ∧ message.statusCode < 400 ∧ message.location ≠ "" := by
  rw [Answer.redirects, Bool.and_eq_true, Bool.and_eq_true, decide_eq_true_eq, decide_eq_true_eq,
    decide_eq_true_eq, and_assoc]
  exact Iff.rfl

/-- A redirect goes on at its target. -/
theorem fetchHtmlRaw_of_redirects (issued : requestable api url = true)
    (served : message ∈ servers url) (redirects : (headOf message).redirects = true)
    : fetchHtmlRaw api servers url (requests + 1)
      = (redirectTarget api message.location url).bind fun target =>
          fetchHtmlRaw api servers target requests := by
  rw [fetchHtmlRaw, if_pos issued, Option.mem_def.mp served]
  exact if_pos ((redirects_headOf_iff message).mp redirects)

/-- A page is read, and any other answer rejected. -/
theorem fetchHtmlRaw_of_stays (issued : requestable api url = true)
    (served : message ∈ servers url) (stays : (headOf message).redirects = false)
    : fetchHtmlRaw api servers url (requests + 1)
      = some (if (headOf message).accepted then some ⟨message.html, url⟩ else none) := by
  have unmoved := mt (redirects_headOf_iff message).mpr (Bool.not_eq_true _ ▸ stays)
  have accepts : (headOf message).accepted = true
      ↔ message.statusCode < 500 ∧ namesHtml message.contentType = true := by
    rw [Answer.accepted, stays, Bool.not_false, Bool.true_and, Bool.and_eq_true, decide_eq_true_eq]
    exact Iff.rfl
  rw [fetchHtmlRaw, if_pos issued, Option.mem_def.mp served]
  simp only [if_neg unmoved, accepts]
  by_cases failed : 500 ≤ message.statusCode
  · rw [if_pos failed, if_neg fun read => absurd read.1 (Nat.not_lt.mpr failed)]
  · rw [if_neg failed]
    by_cases html : namesHtml message.contentType = true
    · rw [if_pos html, if_pos ⟨Nat.lt_of_not_le failed, html⟩]
    · rw [if_neg html, if_neg fun read => html read.2]

end Recursion

-----------------------------------------------------------------------------------------
-- Runs
-----------------------------------------------------------------------------------------

/-- A call that begins asks for what the recursion does. -/
theorem serving_start (servers : Servers) (env : Env) (now : Nat) (url : String)
    : Serving servers env url (start env.api now url) := by
  by_cases issued : requestable env.api url = true
  · refine @Serving.pending servers env url _ 5 rfl (if_pos issued) rfl issued rfl ?_
    intro ct body receiving
    simp only [start, send, if_pos issued] at receiving
    cases receiving
  · have refused := Bool.not_eq_true _ ▸ issued
    refine .settled rfl (if_neg issued) (fetchHtmlRaw_of_not_requestable refused) ?_
    intro awaiting
    simp only [start, send, if_neg issued] at awaiting
    cases awaiting

/-- Nothing that happens to the latest request of a call that has settled changes that. -/
theorem settled_latest {outcome : Outcome} {event : Event} {acted : Request} {effect : Effect}
    (alive : state.escaped = false) (settled : state.outcome = some outcome)
    (same : fetchHtmlRaw env.api servers url 6 = some outcome.page)
    (unanswered : state.latest.stage = .awaiting → servers state.latest.url = none)
    (met : Serves servers env state (.latest event))
    (happens : OnCase env state.now state.latest event acted effect)
    : Serving servers env url (({ state with latest := acted } : State).apply env.api effect) := by
  have kept := @outcome_apply env.api { state with latest := acted } outcome effect settled
  have silent {res : Answer} (awaiting : state.latest.stage = .awaiting)
      (answered : Serves servers env state (.latest (.response res)))
      : False := by
    obtain ⟨message, served, -⟩ := answered
    rw [unanswered awaiting] at served
    cases served
  cases happens with
  | followed awaiting => exact (silent awaiting met).elim
  | escaped awaiting => exact (silent awaiting met).elim
  | refused awaiting => exact (silent awaiting met).elim
  | accepted awaiting => exact (silent awaiting met).elim
  | timer | error => exact .settled alive kept same unanswered
  | data | finish | timeout => exact .settled alive kept same nofun

/-- What happens to the latest request of a call that has not settled is what the recursion does
with its address.
-/
theorem pending_latest {requests : Nat} {event : Event} {acted : Request} {effect : Effect}
    (alive : state.escaped = false) (pending : state.outcome = none)
    (left : state.latest.depth + requests = 5)
    (issued : requestable env.api state.latest.url = true)
    (same : fetchHtmlRaw env.api servers url 6
      = fetchHtmlRaw env.api servers state.latest.url (requests + 1))
    (read : ∀ ct body, state.latest.stage = .receiving ct body →
      ∀ message ∈ servers state.latest.url, (headOf message).accepted = true)
    (met : Serves servers env state (.latest event))
    (happens : OnCase env state.now state.latest event acted effect)
    : Serving servers env url (({ state with latest := acted } : State).apply env.api effect) := by
  have settles (outcome : Outcome)
      : (({ state with latest := acted } : State).settle outcome).outcome = some outcome := by
    rw [settle, pending, Option.none_or]
  cases happens with
  | timer | error =>
      refine .settled alive (settles _) ?_ fun _ => met
      exact same.trans (fetchHtmlRaw_of_none issued met)
  | timeout =>
      refine .settled alive (settles _) ?_ (by simp [apply, settle])
      exact same.trans (fetchHtmlRaw_of_none issued met)
  | @data c ct body receiving =>
      exact .pending alive pending left issued same fun _ _ _ => read ct body receiving
  | @finish ct body receiving =>
      obtain ⟨message, served, html⟩ := met ct body receiving
      refine .settled alive (settles _) ?_ (by simp [apply, settle])
      have accepted := read ct body receiving message served
      have stays : (headOf message).redirects = false := by
        rw [Answer.accepted, Bool.and_eq_true, Bool.and_eq_true, Bool.not_eq_true'] at accepted
        exact accepted.1.1
      rw [same, fetchHtmlRaw_of_stays issued served stays, if_pos accepted, html]
      rfl
  | @accepted res awaiting stays accepted =>
      obtain ⟨message, served, rfl⟩ := met
      refine .pending alive pending left issued same fun _ _ _ other member => ?_
      obtain rfl := Option.mem_unique member served
      exact accepted
  | @refused res failure awaiting stays refused =>
      obtain ⟨message, served, rfl⟩ := met
      refine .settled alive (settles _) ?_ (by simp [apply, settle, Request.drop])
      rw [same, fetchHtmlRaw_of_stays issued served stays, if_neg (by simp [refused])]
      rfl
  | @escaped res awaiting redirects throws =>
      obtain ⟨message, served, rfl⟩ := met
      refine .ended rfl ?_
      rw [same, fetchHtmlRaw_of_redirects issued served redirects]
      have nowhere : redirectTarget env.api message.location state.latest.url = none := throws
      rw [nowhere, Option.bind_none]
  | @followed res target awaiting redirects resolves =>
      obtain ⟨message, served, rfl⟩ := met
      have later : fetchHtmlRaw env.api servers url 6
          = fetchHtmlRaw env.api servers target requests := by
        have leads : redirectTarget env.api message.location state.latest.url = some target :=
          resolves
        rw [same, fetchHtmlRaw_of_redirects issued served redirects, leads, Option.bind_some]
      obtain ⟨deep, follows⟩ | ⟨outcome, shallow, follows, ends⟩ := follow_cases env.api
        { state with latest := state.latest.drop (headOf message) } target (state.latest.depth + 1)
      · rw [apply, follows]
        refine .settled alive (settles _) ?_ (by simp [settle, Request.drop])
        obtain rfl : requests = 0 := by omega
        exact later
      · rw [apply, follows]
        obtain ⟨requests, rfl⟩ : ∃ more, requests = more + 1 := ⟨requests - 1, by omega⟩
        obtain ⟨sent, rfl⟩ | ⟨thrown, rfl⟩ := ends
        · refine .pending alive pending ?_ sent later ?_
          · change state.latest.depth + 1 + requests = 5
            omega
          · intro ct body receiving
            simp only [send, if_pos sent] at receiving
            cases receiving
        · refine .settled alive (settles _) (later.trans ?_) ?_
          · exact fetchHtmlRaw_of_not_requestable thrown
          · intro awaits
            simp only [send, thrown] at awaits
            cases awaits

/-- Each step of a call that is served keeps what the recursion gives. -/
theorem serving_step (serving : Serving servers env url state)
    (met : Serves servers env state label) (taken : state.step env label = some next)
    : Serving servers env url next := by
  obtain ⟨alive, happened⟩ := step_cases taken
  cases happened with
  | tick quiet =>
      cases serving with
      | ended escaped same => exact .ended escaped same
      | settled alive settled same unanswered => exact .settled alive settled same unanswered
      | pending alive pending left issued same read =>
          exact .pending alive pending left issued same read
  | earlier => exact met.elim
  | latest happens =>
      cases serving with
      | ended escaped => exact absurd (alive.symm.trans escaped) Bool.false_ne_true
      | settled _ settled same unanswered =>
          exact settled_latest alive settled same unanswered met happens
      | pending _ pending left issued same read =>
          exact pending_latest alive pending left issued same read met happens

/-- Where the network answers as a function of the address says, a call settles as the recursion
over the function does.
-/
theorem settlement_of_run {now : Nat}
    (run : Run (step env) (Serves servers env) (start env.api now url) state)
    : ∀ settlement ∈ state.settlement, settlement = fetchHtmlRaw env.api servers url 6 := by
  have serving := run.invariant (serving_start servers env now url) serving_step
  intro settlement reached
  unfold State.settlement at reached
  cases serving with
  | ended escaped same =>
      rw [if_pos escaped] at reached
      exact (Option.some.inj reached).symm.trans same.symm
  | settled alive settled same =>
      rw [if_neg (by simp [alive]), settled] at reached
      exact (Option.some.inj reached).symm.trans same.symm
  | pending alive pending =>
      rw [if_neg (by simp [alive]), pending] at reached
      cases reached

end State

end WebIndexer.Fetcher.Exchange
