import WebIndexer.Fetcher.Body
import WebIndexer.Fetcher.RobotsCheck
import WebIndexer.Library.Runs
import Mathlib.Data.List.Chain

/-! The requests of one call of `fetchHtmlRaw` in `src/fetcher.ts`, event by event. The network
and the servers decide which event comes next: a response, a part of a body or its end, an error, a
timeout of the socket. Each redirect that is followed makes one more request, with a timer of its
own, whose promise settles those of the requests before it.
-/

namespace WebIndexer.Fetcher.Exchange

open WebIndexer.Library
open WebIndexer.Runtime

-----------------------------------------------------------------------------------------
-- From bytes to text
-----------------------------------------------------------------------------------------

/-- The decoders of the runtime: `buf.toString("utf-8")`, and `new TextDecoder(label).decode(buf)`,
with `none` where the label is unknown and the constructor throws.
-/
structure Decoders where
  utf8 : List UInt8 → String
  decode : String → List UInt8 → Option String

/-- The capture of `charset=([^\s;]+)` at the head of a text. -/
def charsetAt (text : List Char) : Option (List Char) :=
  (afterHead? "charset=".toList text).bind fun rest =>
    let captured := rest.takeWhile fun char => ¬ (isSpace char ∨ char = ';')
    if captured = [] then none else some captured

/-- The capture of the first match in a text. -/
def charsetIn : List Char → Option (List Char)
  | [] => none
  | char :: rest => (charsetAt (char :: rest)).or (charsetIn rest)

/-- `detectedEncoding`: the charset that the content type names, without its quotes. -/
def detectedEncoding (ct : String) : String :=
  match charsetIn ct.toList with
  | some captured => String.ofList (captured.filter fun char => ¬ (char = '"' ∨ char = '\''))
  | none => "utf-8"

/-- The capture of `charset=["']?([^"'\s;>]+)` at the head of a text, in either case. -/
def metaCharsetAt (text : List Char) : Option (List Char) :=
  (afterHead? "charset=".toList text).bind fun rest =>
    let value :=
      match rest with
      | quote :: more => if quote = '"' ∨ quote = '\'' then more else rest
      | [] => []
    let captured := value.takeWhile fun char =>
      ¬ (char = '"' ∨ char = '\'' ∨ isSpace char ∨ char = ';' ∨ char = '>')
    if captured = [] then none else some captured

/-- The capture of the last match in a text: the run before it takes what it can. -/
def lastCharsetIn : List Char → Option (List Char)
  | [] => none
  | char :: rest => (lastCharsetIn rest).or (metaCharsetAt (char :: rest))

/-- The capture of `/<meta[^>]+charset=["']?([^"'\s;>]+)/i`: that of the first tag with one, where
at least one character stands before `charset=`.
-/
def metaCharset : List Char → Option (List Char)
  | [] => none
  | char :: rest =>
      let inTag := (afterHead? "<meta".toList (char :: rest)).bind fun tag =>
        lastCharsetIn ((tag.takeWhile fun char => char ≠ '>').drop 1)
      inTag.or (metaCharset rest)

/-- The text that the `end` handler makes of the bytes. -/
def htmlOf (decoders : Decoders) (ct : String) (buf : List UInt8) : String :=
  let detected := detectedEncoding ct
  let html :=
    if detected = "utf-8" ∨ detected = "utf8" then
      decoders.utf8 buf
    else
      (decoders.decode detected buf).getD (decoders.utf8 buf)
  match metaCharset html.toList with
  | some charset =>
      if String.ofList charset = detected then
        html
      else
        (decoders.decode (String.ofList charset) buf).getD html
  | none => html

example
    : detectedEncoding "text/html; charset=\"iso-8859-1\"" = "iso-8859-1"
      ∧ metaCharset "<p><META charset='koi8-r'>".toList = some "koi8-r".toList := by
  decide +kernel

-----------------------------------------------------------------------------------------
-- One request
-----------------------------------------------------------------------------------------

/-- The head of a response. A header that is missing is the empty string. -/
structure Answer where
  statusCode : Nat
  location : String
  contentType : String
  deriving DecidableEq, Repr

/-- The response is a redirect that the handler follows. -/
def Answer.redirects (res : Answer) : Bool :=
  300 ≤ res.statusCode && res.statusCode < 400 && res.location ≠ ""

/-- The response is one whose body the handler reads. -/
def Answer.accepted (res : Answer) : Bool :=
  !res.redirects && res.statusCode < 500 && namesHtml res.contentType

/-- Why a promise is rejected. -/
inductive Failure where
  | redirects
  | thrown
  | timeout
  | http (statusCode : Nat)
  | notHtml
  | network (message : String)
  deriving DecidableEq, Repr

/-- How a promise settles. -/
inductive Outcome where
  | resolved (result : FetchResult)
  | rejected (failure : Failure)
  deriving DecidableEq, Repr

/-- How far a request has come: `http.get` threw, no response has come yet, the response is dropped
without reading its body, its body comes, it has ended, or the request has been destroyed.
-/
inductive Stage where
  | thrown
  | awaiting
  | dropped
  | receiving (ct : String) (body : Body)
  | ended
  | destroyed
  deriving DecidableEq, Repr

/-- The response, or more of it, is still to come. -/
def Stage.isOpen : Stage → Bool
  | .awaiting | .receiving .. => true
  | _ => false

/-- A request: its address, its depth in the recursion, the time at which its timer goes off, how
far it has come, and the response that came to it.
-/
structure Request where
  url : String
  depth : Nat
  timer : Option Nat
  stage : Stage
  answer : Option Answer
  deriving DecidableEq, Repr

/-- What can happen to a request. -/
inductive Event where
  | timer
  | response (res : Answer)
  | data (c : Chunk)
  | finish
  | error (message : String)
  | timeout
  deriving DecidableEq

/-- What a callback of a request does beyond it. -/
inductive Effect where
  | nothing
  | settle (outcome : Outcome)
  | follow (url : String) (depth : Nat)
  | escape
  deriving DecidableEq

/-- What `fetchHtmlRaw` uses of the runtime. -/
structure Env where
  api : UrlApi
  decoders : Decoders

namespace Request

/-- The response is dropped, and the timer cleared. -/
def drop (request : Request) (res : Answer) : Request :=
  { request with timer := none, stage := .dropped, answer := some res }

/-- The callback of `http.get`. An address that cannot be resolved throws out of it, after the timer
has been cleared.
-/
def onResponse (api : UrlApi) (request : Request) (res : Answer) : Request × Effect :=
  if res.redirects then
    match redirectTarget api res.location request.url with
    | some target => (request.drop res, .follow target (request.depth + 1))
    | none => (request.drop res, .escape)
  else if 500 ≤ res.statusCode then
    (request.drop res, .settle (.rejected (.http res.statusCode)))
  else if namesHtml res.contentType then
    ({ request with stage := .receiving res.contentType.toLower .empty, answer := some res },
      .nothing)
  else
    (request.drop res, .settle (.rejected .notHtml))

/-- The callbacks of a request. The timer does not destroy the request, whose response may come
after it. A response that is destroyed does not end, and there are no more events of a request that
has not been sent.
-/
def on (env : Env) (now : Nat) (request : Request) : Event → Option (Request × Effect)
  | .timer =>
      match request.timer with
      | some deadline =>
          if deadline ≤ now then
            some ({ request with timer := none }, .settle (.rejected .timeout))
          else
            none
      | none => none
  | .response res =>
      match request.stage with
      | .awaiting => some (request.onResponse env.api res)
      | _ => none
  | .data c =>
      match request.stage with
      | .receiving ct body =>
          some ({ request with stage := .receiving ct (body.receive c) }, .nothing)
      | _ => none
  | .finish =>
      match request.stage with
      | .receiving ct body =>
          if body.destroyed then
            none
          else
            some ({ request with timer := none, stage := .ended },
              .settle (.resolved ⟨htmlOf env.decoders ct body.buffer, request.url⟩))
      | _ => none
  | .error message =>
      match request.stage with
      | .thrown => none
      | _ => some ({ request with timer := none }, .settle (.rejected (.network message)))
  | .timeout =>
      match request.stage with
      | .thrown | .destroyed => none
      | _ =>
          some ({ request with timer := none, stage := .destroyed }, .settle (.rejected .timeout))

end Request

-----------------------------------------------------------------------------------------
-- All requests of a call
-----------------------------------------------------------------------------------------

/-- The latest request and the ones before it, how the promise of the call has settled, the clock,
and whether an exception has escaped from a callback, which ends the process.
-/
structure State where
  latest : Request
  earlier : List Request
  outcome : Option Outcome
  now : Nat
  escaped : Bool
  deriving DecidableEq, Repr

/-- What can happen next. -/
inductive Label where
  | tick (elapsed : Nat)
  | latest (event : Event)
  | earlier (index : Nat) (event : Event)
  deriving DecidableEq

namespace State

/-- All requests, the latest first. -/
def requests (state : State) : List Request :=
  state.latest :: state.earlier

/-- The promise of a request settles, and with it those of the requests before. Only the first
settlement of a promise counts.
-/
def settle (state : State) (outcome : Outcome) : State :=
  { state with outcome := state.outcome.or (some outcome) }

/-- A request that is made now: its timer is set, and it is sent unless `http.get` throws. -/
def send (api : UrlApi) (now : Nat) (url : String) (depth : Nat) : Request where
  url := url
  depth := depth
  timer := some (now + Config.fetchTimeout)
  stage := if requestable api url then .awaiting else .thrown
  answer := none

/-- `fetchHtmlRaw` for a redirect. -/
def follow (api : UrlApi) (state : State) (url : String) (depth : Nat) : State :=
  if 5 < depth then
    state.settle (.rejected .redirects)
  else
    let made := {
      state with
      latest := send api state.now url depth
      earlier := state.requests
    }
    if requestable api url then made else made.settle (.rejected .thrown)

/-- The effect of a callback. -/
def apply (api : UrlApi) (state : State) : Effect → State
  | .nothing => state
  | .settle outcome => state.settle outcome
  | .follow url depth => state.follow api url depth
  | .escape => { state with escaped := true }

/-- `fetchHtmlRaw(url)`, called at a time. -/
def start (api : UrlApi) (now : Nat) (url : String) : State where
  latest := send api now url 0
  earlier := []
  outcome := if requestable api url then none else some (.rejected .thrown)
  now := now
  escaped := false

/-- No timer goes off before a time. -/
def Quiet (state : State) (time : Nat) : Prop :=
  ∀ request ∈ state.requests, ∀ deadline ∈ request.timer, time ≤ deadline

instance (state : State) (time : Nat) : Decidable (state.Quiet time) :=
  inferInstanceAs (Decidable (∀ request ∈ state.requests, ∀ deadline ∈ request.timer, _))

/-- One step of a call. Time does not pass a timer that has not gone off yet. -/
def step (env : Env) (state : State) (label : Label) : Option State :=
  if state.escaped then
    none
  else
    match label with
    | .tick elapsed =>
        if state.Quiet (state.now + elapsed) then
          some { state with now := state.now + elapsed }
        else
          none
    | .latest event =>
        (state.latest.on env state.now event).map fun acted =>
          { state with latest := acted.1 }.apply env.api acted.2
    | .earlier index event =>
        state.earlier[index]?.bind fun request =>
          (request.on env state.now event).map fun acted =>
            { state with earlier := state.earlier.set index acted.1 }.apply env.api acted.2

end State

-----------------------------------------------------------------------------------------
-- What a step can do
-----------------------------------------------------------------------------------------

/-- What the callback of an event does to a request, and beyond it. -/
inductive OnCase (env : Env) (now : Nat) (request : Request)
    : Event → Request → Effect → Prop
  | timer {deadline : Nat} (armed : request.timer = some deadline) (due : deadline ≤ now)
    : OnCase env now request .timer { request with timer := none } (.settle (.rejected .timeout))
  | followed {res : Answer} {target : String} (awaiting : request.stage = .awaiting)
    (redirects : res.redirects = true)
    (resolves : redirectTarget env.api res.location request.url = some target)
    : OnCase env now request (.response res) (request.drop res)
        (.follow target (request.depth + 1))
  | escaped {res : Answer} (awaiting : request.stage = .awaiting)
    (redirects : res.redirects = true)
    (throws : redirectTarget env.api res.location request.url = none)
    : OnCase env now request (.response res) (request.drop res) .escape
  | refused {res : Answer} {failure : Failure} (awaiting : request.stage = .awaiting)
    (redirects : res.redirects = false) (accepted : res.accepted = false)
    : OnCase env now request (.response res) (request.drop res) (.settle (.rejected failure))
  | accepted {res : Answer} (awaiting : request.stage = .awaiting)
    (redirects : res.redirects = false) (accepted : res.accepted = true)
    : OnCase env now request (.response res)
        { request with stage := .receiving res.contentType.toLower .empty, answer := some res }
        .nothing
  | data {c : Chunk} {ct : String} {body : Body} (receiving : request.stage = .receiving ct body)
    : OnCase env now request (.data c)
        { request with stage := .receiving ct (body.receive c) } .nothing
  | finish {ct : String} {body : Body} (receiving : request.stage = .receiving ct body)
    (alive : body.destroyed = false)
    : OnCase env now request .finish { request with timer := none, stage := .ended }
        (.settle (.resolved ⟨htmlOf env.decoders ct body.buffer, request.url⟩))
  | error {message : String}
    : OnCase env now request (.error message) { request with timer := none }
        (.settle (.rejected (.network message)))
  | timeout
    : OnCase env now request .timeout { request with timer := none, stage := .destroyed }
        (.settle (.rejected .timeout))

variable {env : Env} {now : Nat} {request acted : Request} {event : Event} {effect : Effect}

/-- The callback of a response, by its branches. -/
theorem Request.onResponse_cases {res : Answer} (awaiting : request.stage = .awaiting)
    (responds : request.onResponse env.api res = (acted, effect))
    : OnCase env now request (.response res) acted effect := by
  unfold Request.onResponse at responds
  split at responds
  · rename_i redirects
    split at responds
    · rename_i target resolves
      obtain ⟨rfl, rfl⟩ := Prod.mk.inj responds
      exact .followed awaiting redirects resolves
    · rename_i throws
      obtain ⟨rfl, rfl⟩ := Prod.mk.inj responds
      exact .escaped awaiting redirects throws
  · rename_i stays
    rw [Bool.not_eq_true] at stays
    split at responds
    · rename_i failed
      obtain ⟨rfl, rfl⟩ := Prod.mk.inj responds
      exact .refused awaiting stays (by simp [Answer.accepted]; omega)
    · rename_i low
      split at responds
      · rename_i html
        obtain ⟨rfl, rfl⟩ := Prod.mk.inj responds
        exact .accepted awaiting stays (by simp [Answer.accepted, stays, html]; omega)
      · rename_i other
        obtain ⟨rfl, rfl⟩ := Prod.mk.inj responds
        exact .refused awaiting stays (by simp [Answer.accepted, other])

/-- Inversion of a callback, event by event. -/
theorem Request.on_cases (happens : request.on env now event = some (acted, effect))
    : OnCase env now request event acted effect := by
  cases event with
  | timer =>
      simp only [Request.on] at happens
      split at happens
      · rename_i deadline armed
        split at happens
        · rename_i due
          obtain ⟨rfl, rfl⟩ := Prod.mk.inj (Option.some.inj happens)
          exact .timer armed due
        · cases happens
      · cases happens
  | response res =>
      simp only [Request.on] at happens
      split at happens
      · rename_i awaiting
        exact Request.onResponse_cases awaiting (Option.some.inj happens)
      · cases happens
  | data c =>
      simp only [Request.on] at happens
      split at happens
      · rename_i ct body receiving
        obtain ⟨rfl, rfl⟩ := Prod.mk.inj (Option.some.inj happens)
        exact .data receiving
      · cases happens
  | finish =>
      simp only [Request.on] at happens
      split at happens
      · rename_i ct body receiving
        split at happens
        · cases happens
        · rename_i alive
          obtain ⟨rfl, rfl⟩ := Prod.mk.inj (Option.some.inj happens)
          exact .finish receiving (Bool.not_eq_true _ ▸ alive)
      · cases happens
  | error message =>
      simp only [Request.on] at happens
      split at happens
      · cases happens
      · obtain ⟨rfl, rfl⟩ := Prod.mk.inj (Option.some.inj happens)
        exact .error
  | timeout =>
      simp only [Request.on] at happens
      split at happens
      · cases happens
      · cases happens
      · obtain ⟨rfl, rfl⟩ := Prod.mk.inj (Option.some.inj happens)
        exact .timeout

/-- What one step does: time passes, or an event of the latest or of an earlier request happens. -/
inductive StepCase (env : Env) (state : State) : Label → State → Prop
  | tick {elapsed : Nat} (quiet : state.Quiet (state.now + elapsed))
    : StepCase env state (.tick elapsed) { state with now := state.now + elapsed }
  | latest {event : Event} {acted : Request} {effect : Effect}
    (happens : OnCase env state.now state.latest event acted effect)
    : StepCase env state (.latest event) ({ state with latest := acted }.apply env.api effect)
  | earlier {index : Nat} {event : Event} {front back : List Request} {request acted : Request}
    {effect : Effect} (parts : state.earlier = front ++ request :: back)
    (happens : OnCase env state.now request event acted effect)
    : StepCase env state (.earlier index event)
        ({ state with earlier := front ++ acted :: back }.apply env.api effect)

/-- Inversion of a step, which only a process that has not ended takes. -/
theorem State.step_cases {state next : State} {label : Label}
    (taken : state.step env label = some next)
    : state.escaped = false ∧ StepCase env state label next := by
  unfold State.step at taken
  split at taken
  · cases taken
  rename_i alive
  refine ⟨Bool.not_eq_true _ ▸ alive, ?_⟩
  cases label with
  | tick elapsed =>
      simp only at taken
      split at taken
      · rename_i quiet
        obtain rfl := Option.some.inj taken
        exact .tick quiet
      · cases taken
  | latest event =>
      obtain ⟨⟨acted, effect⟩, happens, rfl⟩ := Option.map_eq_some_iff.mp taken
      exact .latest (Request.on_cases happens)
  | earlier index event =>
      obtain ⟨request, found, acts⟩ := Option.bind_eq_some_iff.mp taken
      obtain ⟨⟨acted, effect⟩, happens, rfl⟩ := Option.map_eq_some_iff.mp acts
      obtain ⟨below, rfl⟩ := List.getElem?_eq_some_iff.mp found
      rw [List.set_eq_take_append_cons_drop, if_pos below]
      refine .earlier ?_ (Request.on_cases happens)
      rw [List.getElem_cons_drop, List.take_append_drop]

-----------------------------------------------------------------------------------------
-- The chain of requests
-----------------------------------------------------------------------------------------

/-- The newer request goes where the older one's response redirected it. -/
def Redirected (api : UrlApi) (newer older : String × Option Answer) : Prop :=
  ∃ res, older.2 = some res ∧ res.redirects = true
    ∧ redirectTarget api res.location older.1 = some newer.1

/-- The addresses of all requests with the responses that came, the latest first. -/
def State.trail (state : State) : List (String × Option Answer) :=
  state.requests.map fun request => (request.url, request.answer)

/-- The requests of a call are linked by redirects, of which there are at most five. Only the latest
is open, its depth counts those before it, and a promise that is resolved is resolved with its page.
-/
structure State.Chained (api : UrlApi) (state : State) : Prop where
  closed : ∀ request ∈ state.earlier, request.stage.isOpen = false
  unarmed : ∀ request ∈ state.earlier, request.timer = none
  depth : state.latest.depth = state.earlier.length
  few : state.earlier.length ≤ 5
  linked : state.trail.IsChain (Redirected api)
  read : ∀ ct body, state.latest.stage = .receiving ct body
    → ∃ res, state.latest.answer = some res ∧ res.accepted = true
  resolved : ∀ result, state.outcome = some (.resolved result)
    → state.latest.stage.isOpen = false ∧ result.finalUrl = state.latest.url
      ∧ ∃ res, state.latest.answer = some res ∧ res.accepted = true

namespace State

variable {api : UrlApi} {state next : State} {label : Label}

@[simp] theorem latest_settle (outcome : Outcome) : (state.settle outcome).latest = state.latest :=
  rfl

@[simp] theorem earlier_settle (outcome : Outcome)
    : (state.settle outcome).earlier = state.earlier :=
  rfl

@[simp] theorem trail_settle (outcome : Outcome) : (state.settle outcome).trail = state.trail := rfl

@[simp] theorem now_settle (outcome : Outcome) : (state.settle outcome).now = state.now := rfl

@[simp] theorem escaped_settle (outcome : Outcome)
    : (state.settle outcome).escaped = state.escaped :=
  rfl

/-- A rejection resolves no promise. -/
theorem resolved_of_settle {failure : Failure} {result : FetchResult}
    (resolved : (state.settle (.rejected failure)).outcome = some (.resolved result))
    : state.outcome = some (.resolved result) := by
  cases before : state.outcome with
  | some outcome => simpa [settle, before] using resolved
  | none => simp [settle, before] at resolved

/-- Following an address past the fifth redirect rejects, and otherwise makes one request more,
which is rejected at once if it cannot be sent.
-/
theorem follow_cases (api : UrlApi) (state : State) (url : String) (depth : Nat)
    : (5 < depth ∧ state.follow api url depth = state.settle (.rejected .redirects))
      ∨ ∃ outcome, depth ≤ 5
        ∧ state.follow api url depth = {
            state with
            latest := send api state.now url depth
            earlier := state.requests
            outcome := outcome
          }
        ∧ ((requestable api url = true ∧ outcome = state.outcome)
          ∨ (requestable api url = false
            ∧ outcome = state.outcome.or (some (.rejected .thrown)))) := by
  unfold follow
  split
  · rename_i deep
    exact .inl ⟨deep, rfl⟩
  · rename_i shallow
    refine .inr ?_
    split
    · rename_i sent
      exact ⟨state.outcome, Nat.le_of_not_lt shallow, rfl, .inl ⟨sent, rfl⟩⟩
    · rename_i thrown
      exact ⟨_, Nat.le_of_not_lt shallow, rfl, .inr ⟨Bool.not_eq_true _ ▸ thrown, rfl⟩⟩

/-- Following a redirect lets no exception escape. -/
theorem escaped_follow (api : UrlApi) (target : String) (depth : Nat)
    : (state.follow api target depth).escaped = state.escaped := by
  obtain ⟨-, same⟩ | ⟨outcome, -, same, -⟩ := follow_cases api state target depth <;> rw [same]
  rfl

/-- A promise that has settled stays as it is, whatever a callback does. -/
theorem outcome_apply {outcome : Outcome} (effect : Effect)
    (settled : state.outcome = some outcome)
    : (state.apply api effect).outcome = some outcome := by
  cases effect with
  | nothing | escape => exact settled
  | settle later => simp [apply, settle, settled]
  | follow url depth =>
      obtain ⟨-, same⟩ | ⟨after, -, same, ends⟩ := follow_cases api state url depth
      · simp [apply, same, settle, settled]
      · rw [apply, same]
        obtain ⟨-, rfl⟩ | ⟨-, rfl⟩ := ends
        · exact settled
        · simp [settled]

/-- Each step leaves a promise that has settled. -/
theorem outcome_step {env : Env} {outcome : Outcome} (settled : state.outcome = some outcome)
    (taken : state.step env label = some next)
    : next.outcome = some outcome := by
  obtain ⟨-, happened⟩ := step_cases taken
  cases happened with
  | tick => exact settled
  | latest | earlier => exact outcome_apply _ settled

/-- A call that begins has one request. -/
theorem chained_start (api : UrlApi) (now : Nat) (url : String)
    : (start api now url).Chained api := by
  refine ⟨by simp [start], by simp [start], rfl, by simp [start], ?_, ?_, ?_⟩
  · exact List.isChain_singleton _
  · simp only [start, send]
    split <;> simp
  · simp only [start]
    split <;> simp

/-- While the latest request waits for its response, no promise is resolved. -/
theorem Chained.unresolved (chained : state.Chained api) (awaiting : state.latest.stage = .awaiting)
    (result : FetchResult)
    : state.outcome ≠ some (.resolved result) := by
  intro resolved
  have closed := (chained.resolved result resolved).1
  rw [awaiting] at closed
  cases closed

/-- The chain stays linked while the address of the latest request does not change. -/
theorem Chained.relinked {acted : Request} (chained : state.Chained api)
    (same : acted.url = state.latest.url)
    : (({ state with latest := acted } : State).trail).IsChain (Redirected api) := by
  refine chained.linked.imp_head fun redirected => ?_
  obtain ⟨res, answered, redirects, resolves⟩ := redirected
  exact ⟨res, answered, redirects, resolves.trans (congrArg some same.symm)⟩

/-- A redirect that is followed adds a request to the chain. -/
theorem Chained.followed {res : Answer} {target : String} (chained : state.Chained api)
    (awaiting : state.latest.stage = .awaiting) (redirects : res.redirects = true)
    (resolves : redirectTarget api res.location state.latest.url = some target)
    : (({ state with latest := state.latest.drop res } : State).follow api target
        (state.latest.depth + 1)).Chained api := by
  have unresolved := chained.unresolved awaiting
  have dropped : (state.latest.drop res).url = state.latest.url := rfl
  have linked := chained.relinked dropped
  obtain ⟨-, same⟩ | ⟨outcome, shallow, same, ends⟩ := follow_cases api
    { state with latest := state.latest.drop res } target (state.latest.depth + 1)
  · rw [same]
    refine ⟨chained.closed, chained.unarmed, chained.depth, chained.few, linked, ?_, ?_⟩
    · intro ct body receiving
      cases receiving
    · intro result resolved
      exact absurd (resolved_of_settle resolved) (unresolved result)
  · rw [same]
    have depth := chained.depth
    refine ⟨?_, ?_, ?_, ?_, ?_, ?_, ?_⟩
    · exact List.forall_mem_cons.mpr ⟨rfl, chained.closed⟩
    · exact List.forall_mem_cons.mpr ⟨rfl, chained.unarmed⟩
    · simp [send, requests, depth]
    · simp only [requests, List.length_cons]
      omega
    · exact List.isChain_cons_cons.mpr ⟨⟨res, rfl, redirects, resolves⟩, linked⟩
    · intro ct body receiving
      simp only [send] at receiving
      split at receiving <;> cases receiving
    · intro result resolved
      obtain ⟨-, kept⟩ | ⟨-, settled⟩ := ends
      · exact absurd (kept.symm.trans resolved) (unresolved result)
      · exact absurd (resolved_of_settle (settled.symm.trans resolved)) (unresolved result)

/-- An event of the latest request keeps the chain. -/
theorem Chained.latest {event : Event} {acted : Request} {effect : Effect}
    (chained : state.Chained api) {decoders : Decoders}
    (happens : OnCase ⟨api, decoders⟩ state.now state.latest event acted effect)
    : (({ state with latest := acted } : State).apply api effect).Chained api := by
  cases happens with
  | timer armed due =>
      exact ⟨chained.closed, chained.unarmed, chained.depth, chained.few, chained.linked,
        chained.read, fun result resolved => chained.resolved result (resolved_of_settle resolved)⟩
  | followed awaiting redirects resolves => exact chained.followed awaiting redirects resolves
  | escaped awaiting redirects throws =>
      refine ⟨chained.closed, chained.unarmed, chained.depth, chained.few, chained.relinked rfl, ?_,
        ?_⟩
      · intro ct body receiving
        cases receiving
      · intro result resolved
        exact absurd resolved (chained.unresolved awaiting result)
  | refused awaiting redirects accepted =>
      refine ⟨chained.closed, chained.unarmed, chained.depth, chained.few, chained.relinked rfl, ?_,
        ?_⟩
      · intro ct body receiving
        cases receiving
      · intro result resolved
        exact absurd (resolved_of_settle resolved) (chained.unresolved awaiting result)
  | @accepted res awaiting redirects accepted =>
      refine ⟨chained.closed, chained.unarmed, chained.depth, chained.few, chained.relinked rfl, ?_,
        ?_⟩
      · intro ct body receiving
        exact ⟨res, rfl, accepted⟩
      · intro result resolved
        exact absurd resolved (chained.unresolved awaiting result)
  | @data c ct body receiving =>
      refine ⟨chained.closed, chained.unarmed, chained.depth, chained.few, chained.relinked rfl, ?_,
        ?_⟩
      · intro _ _ _
        exact chained.read ct body receiving
      · intro result resolved
        have closed := (chained.resolved result resolved).1
        rw [receiving] at closed
        cases closed
  | @finish ct body receiving alive =>
      refine ⟨chained.closed, chained.unarmed, chained.depth, chained.few, chained.relinked rfl, ?_,
        ?_⟩
      · intro _ _ receiving
        cases receiving
      · intro result resolved
        cases before : state.outcome with
        | none =>
            simp only [apply, settle, before, Option.none_or, Option.some.injEq,
              Outcome.resolved.injEq] at resolved
            subst resolved
            exact ⟨rfl, rfl, chained.read ct body receiving⟩
        | some outcome =>
            simp only [apply, settle, before, Option.some_or] at resolved
            have closed := (chained.resolved result (before.trans resolved)).1
            rw [receiving] at closed
            cases closed
  | error =>
      exact ⟨chained.closed, chained.unarmed, chained.depth, chained.few, chained.linked,
        chained.read, fun result resolved => chained.resolved result (resolved_of_settle resolved)⟩
  | timeout =>
      refine ⟨chained.closed, chained.unarmed, chained.depth, chained.few, chained.relinked rfl, ?_,
        ?_⟩
      · intro _ _ receiving
        cases receiving
      · intro result resolved
        obtain ⟨-, same, read⟩ := chained.resolved result (resolved_of_settle resolved)
        exact ⟨rfl, same, read⟩

/-- Of the requests before the latest, no event does more than reject. -/
inductive LateCase (request : Request) : Event → Request → Failure → Prop
  | error {message : String}
    : LateCase request (.error message) { request with timer := none } (.network message)
  | timeout
    : LateCase request .timeout { request with timer := none, stage := .destroyed } .timeout

/-- A request that is closed, with its timer cleared, can only reject. -/
theorem late_cases {env : Env} {now : Nat} {request acted : Request} {event : Event}
    {effect : Effect} (closed : request.stage.isOpen = false) (unarmed : request.timer = none)
    (happens : OnCase env now request event acted effect)
    : ∃ failure, effect = .settle (.rejected failure) ∧ LateCase request event acted failure := by
  cases happens with
  | timer armed due => exact absurd (unarmed.symm.trans armed) (by simp)
  | followed awaiting | escaped awaiting | refused awaiting | accepted awaiting =>
      rw [awaiting] at closed
      cases closed
  | data receiving | finish receiving =>
      rw [receiving] at closed
      cases closed
  | error => exact ⟨_, rfl, .error⟩
  | timeout => exact ⟨_, rfl, .timeout⟩

/-- An event of an earlier request keeps the chain. -/
theorem Chained.earlier {front back : List Request} {request acted : Request} {failure : Failure}
    {event : Event} (chained : state.Chained api)
    (parts : state.earlier = front ++ request :: back)
    (happens : LateCase request event acted failure)
    : (({ state with earlier := front ++ acted :: back } : State).settle
        (.rejected failure)).Chained api := by
  have facts : acted.stage.isOpen = false ∧ acted.timer = none
      ∧ acted.url = request.url ∧ acted.answer = request.answer := by
    have closed := chained.closed request (parts ▸ List.mem_append_right _ List.mem_cons_self)
    cases happens with
    | error => exact ⟨closed, rfl, rfl, rfl⟩
    | timeout => exact ⟨rfl, rfl, rfl, rfl⟩
  obtain ⟨closed, unarmed, url, answer⟩ := facts
  have lengths : (front ++ acted :: back).length = state.earlier.length := by simp [parts]
  have trail
      : (({ state with earlier := front ++ acted :: back } : State).trail) = state.trail := by
    simp [State.trail, requests, parts, url, answer]
  have replaced {holds : Request → Prop} (all : ∀ request ∈ state.earlier, holds request)
      (here : holds acted)
      : ∀ request ∈ front ++ acted :: back, holds request := by
    rw [parts] at all
    simp only [List.forall_mem_append, List.forall_mem_cons] at all ⊢
    exact ⟨all.1, here, all.2.2⟩
  refine ⟨replaced chained.closed closed, replaced chained.unarmed unarmed, ?_, ?_, ?_,
    chained.read, fun result resolved => chained.resolved result (resolved_of_settle resolved)⟩
  · exact chained.depth.trans lengths.symm
  · exact lengths.trans_le chained.few
  · rw [trail_settle, trail]
    exact chained.linked

/-- Each step keeps the chain. -/
theorem chained_step {env : Env} (chained : state.Chained env.api)
    (taken : state.step env label = some next)
    : next.Chained env.api := by
  obtain ⟨-, happened⟩ := step_cases taken
  cases happened with
  | tick quiet =>
      exact ⟨chained.closed, chained.unarmed, chained.depth, chained.few, chained.linked,
        chained.read, chained.resolved⟩
  | latest happens => exact chained.latest happens
  | earlier parts happens =>
      have member := parts ▸ List.mem_append_right _ List.mem_cons_self
      obtain ⟨failure, rfl, late⟩ :=
        late_cases (chained.closed _ member) (chained.unarmed _ member) happens
      exact chained.earlier parts late

/-- In every run the requests are chained. -/
theorem chained_of_run {env : Env} {guard : State → Label → Prop} {now : Nat} {url : String}
    (run : Run (step env) guard (start env.api now url) state)
    : state.Chained env.api :=
  run.invariant (chained_start env.api now url) fun chained _ taken => chained_step chained taken

end State

-----------------------------------------------------------------------------------------
-- A small setting
-----------------------------------------------------------------------------------------

/-- The folder of a path: all of it up to the last slash. -/
def folder (path : List Char) : List Char :=
  (path.reverse.dropWhile fun char => char ≠ '/').reverse

/-- The `URL` class on plain addresses, on addresses without a scheme, and on the names of files,
which it resolves in the folder of the base.
-/
def folderUrlApi : UrlApi where
  parse := plainUrl
  resolve text base :=
    (plainUrl text).or ((plainUrl base).bind fun url =>
      if startsWith text "//" then
        plainUrl (url.protocol ++ text)
      else
        plainUrl (url.origin ++ String.ofList (folder url.pathname.toList) ++ text))

/-- Plain addresses, and bytes that are read as ASCII. -/
def plainEnv : Env where
  api := folderUrlApi
  decoders := {
    utf8 := fun bytes => String.ofList (bytes.map fun byte => Char.ofNat byte.toNat)
    decode := fun _ _ => none
  }

/-- A page is answered with some bytes. -/
def page (bytes : List UInt8) : List Label := [
  .latest (.response ⟨200, "", "text/html"⟩),
  .latest (.data bytes),
  .latest .finish
]

example
    : (folderUrlApi.resolve "next" "https://a.example/docs/first").map Url.href
      = some "https://a.example/docs/next" := by
  decide +kernel

end WebIndexer.Fetcher.Exchange
