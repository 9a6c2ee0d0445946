import Mathlib
import WebIndexer.Circuit.CircuitBreaker
import WebIndexer.Config
import WebIndexer.Server.QueryText

/-! The handler of `/api/search` in `server.ts`, from the parameter `q` to the response. What the
search engines, the databases and the clock answer is given by a world, with what other requests
do to the shared variables while the handler waits.
-/

namespace WebIndexer.Server

open Std.Do
open WebIndexer.Circuit
open WebIndexer.Config
open WebIndexer.Runtime

set_option mvcgen.warning false

/-- The body of a response, with the rows that the chosen backend found. -/
structure SearchBody (Row : Type) where
  results : List Row
  query : List Nat
  source : Option String := none
  error : Option String := none
  degraded : Bool := false

/-- The variables that the searches share: `dbBreaker`, whether `searchDb` is set, and what is
noted of it.
-/
structure SearchShared where
  dbBreaker : CircuitBreaker
  searchDb : Bool
  searchDbHealth : Bool
  searchDbLastOpen : Nat

/-- The shared variables, and the responses to the request so far. -/
structure SearchState (Row : Type) extends SearchShared where
  responses : List (SearchBody Row)

/-- How opening the search database goes: it opens, it opens and its settings fail, or it fails. -/
inductive DbOpening where
  | opens
  | pragmaThrows
  | throws
  deriving DecidableEq, Repr

/-- The places where the handler waits. -/
inductive Suspension where
  | searchPages
  | query
  | openDb
  deriving DecidableEq, Repr

/-- What a search meets. Calls that can fail have a message where they throw. -/
structure SearchWorld (Row : Type) where
  esEnabled : Bool
  dbBackend : Backend
  requireElasticsearch : Except String Unit
  isConnected : Except String Bool
  searchPages (query : List Nat) (limit : Nat) : Except String (Option (List Row))
  getPool : Except String Unit
  poolQuery (parameter : List Nat) : Except String (List Row)
  now : Nat
  opening : DbOpening
  settledAt : Nat
  matchAll (ftsQuery : List Nat) : Except String (List Row)
  meanwhile (suspension : Suspension) (shared : SearchShared) : SearchShared

/-- A part of the handler: it can throw, and what it has done before stays done. -/
abbrev Handler (Row : Type) := EStateM String (SearchState Row)

/-- `SEARCH_DB_TTL`. -/
def searchDbTtl : Nat := 60000

namespace SearchShared

/-- `closeSearchDb`. -/
def closeSearchDb (shared : SearchShared) : SearchShared :=
  { shared with searchDb := false, searchDbHealth := false, searchDbLastOpen := 0 }

/-- `getSearchDb`; afterwards the database is the one that it returned, unless it returned `null`,
as it does when only the settings fail.
-/
def getSearchDb (shared : SearchShared) (now : Nat) (opening : DbOpening)
    : SearchShared × Bool :=
  let current :=
    if shared.searchDb ∧ searchDbTtl < now - shared.searchDbLastOpen then
      shared.closeSearchDb
    else
      shared
  if current.searchDb then
    (current, true)
  else
    match opening with
    | .opens =>
        ({ current with searchDb := true, searchDbHealth := true, searchDbLastOpen := now }, true)
    | .pragmaThrows => ({ current with searchDb := true, searchDbHealth := false }, false)
    | .throws => ({ current with searchDbHealth := false }, false)

end SearchShared

namespace Search

section

variable {Row : Type} (world : SearchWorld Row)

/-- `res.json`. -/
def json (body : SearchBody Row) : Handler Row Unit :=
  modify fun state => { state with responses := state.responses ++ [body] }

/-- Change the shared variables. -/
def share (change : SearchShared → SearchShared) : Handler Row Unit :=
  modify fun state => { state with toSearchShared := change state.toSearchShared }

/-- A call of code outside the handler. -/
def external {α : Type} (answer : Except String α) : Handler Row α :=
  match answer with
  | .ok value => pure value
  | .error message => throw message

/-- Wait, while other requests go on. -/
def suspend (suspension : Suspension) : Handler Row Unit :=
  share (world.meanwhile suspension)

/-- `((req.query.q as string) || "").trim()`: neither an array nor an object has such a method. -/
def trimmedParameter : QueryValue → Handler Row (List Nat)
  | .absent => pure []
  | .text units => pure (trimUnits units)
  | .array _ | .object _ => throw "(req.query.q || \"\").trim is not a function"

/-- The search by Elasticsearch, and whether it has responded. -/
def searchElasticsearch (q : List Nat) : Handler Row Bool := do
  if world.esEnabled then
    external world.requireElasticsearch
    let connected ← external world.isConnected
    if connected then
      suspend world .searchPages
      match ← external (world.searchPages q 30) with
      | some results =>
          json { results := results, query := q, source := some "elasticsearch" }
          pure true
      | none => pure false
    else
      pure false
  else
    pure false

/-- The search by PostgreSQL. -/
def searchPostgres (q : List Nat) : Handler Row Unit := do
  external world.getPool
  if searchWords q = [] then
    json { results := [], query := q }
  else
    suspend world .query
    let rows ← external (world.poolQuery (tsQuery q))
    json { results := rows, query := q, source := some "postgresql" }

/-- `dbBreaker.execute(fn, () => fallback)`, where `fn` itself does not wait. -/
def execute {α : Type} (fn : Handler Row α) (fallback : α) : Handler Row α := do
  let state ← get
  share fun shared => { shared with dbBreaker := (state.dbBreaker.gate world.now).1 }
  match (state.dbBreaker.gate world.now).2 with
  | .rejected _ => pure fallback
  | .started =>
      tryCatch
        (do
          let result ← fn
          suspend world .openDb
          share fun shared =>
            { shared with dbBreaker := shared.dbBreaker.settle world.settledAt true }
          pure result)
        (fun _ => do
          share fun shared =>
            { shared with dbBreaker := shared.dbBreaker.settle world.settledAt false }
          pure fallback)

/-- The function that the SQLite branch runs through the breaker. -/
def openSearchDb : Handler Row Bool := do
  let state ← get
  let (shared, opened) := state.toSearchShared.getSearchDb world.now world.opening
  share fun _ => shared
  if opened then pure true else throw "Search DB not available"

/-- The search by SQLite. -/
def searchSqlite (q : List Nat) : Handler Row Unit := do
  let db ← execute world (openSearchDb world) false
  if db then
    if searchWords q = [] then
      json { results := [], query := q }
    else
      let results ← external (world.matchAll (ftsQuery q))
      json { results := results, query := q, source := some "sqlite" }
  else
    json { results := [], query := q, error := some "DB not ready", degraded := true }

/-- What the handler tries. -/
def searchBackends (q : List Nat) : Handler Row Unit := do
  let responded ← searchElasticsearch world q
  if responded then
    pure ()
  else
    match world.dbBackend with
    | .pg => searchPostgres world q
    | .sqlite => searchSqlite world q

/-- `GET /api/search`, for a request with the given parameter `q`. -/
def getSearch (parameter : QueryValue) : Handler Row Unit := do
  let text ← trimmedParameter parameter
  let q := sanitizeInput (.text (text.take 500))
  if q = [] then
    json { results := [], query := q }
  else
    tryCatch (searchBackends world q) fun _ =>
      json { results := [], query := q, error := some "Search temporarily unavailable" }

end

-----------------------------------------------------------------------------------------
-- What each part sends
-----------------------------------------------------------------------------------------

section

variable {Row : Type} {world : SearchWorld Row} {sent : List (SearchBody Row)}

/-- What a caught exception interrupts stays done. -/
@[simp] theorem restore_eq (state : SearchState Row) (saved : PUnit)
    : EStateM.Backtrackable.restore state saved = state :=
  rfl

/-- One response more has been sent. -/
def OneMore (sent responses : List (SearchBody Row)) : Prop :=
  ∃ body, responses = sent ++ [body]

@[spec] theorem json_spec (body : SearchBody Row)
    : ⦃fun state => ⌜state.responses = sent⌝⦄
      json body
      ⦃post⟨fun _ state => ⌜OneMore sent state.responses⌝, fun _ _ => ⌜False⌝⟩⦄ := by
  mvcgen [json]
  rename_i same _
  exact ⟨body, congrArg (· ++ [body]) same⟩

@[spec] theorem share_spec (change : SearchShared → SearchShared)
    : ⦃fun state => ⌜state.responses = sent⌝⦄
      (share change : Handler Row Unit)
      ⦃post⟨fun _ state => ⌜state.responses = sent⌝, fun _ _ => ⌜False⌝⟩⦄ := by
  mvcgen [share]

@[spec] theorem suspend_spec (suspension : Suspension)
    : ⦃fun state => ⌜state.responses = sent⌝⦄
      suspend world suspension
      ⦃post⟨fun _ state => ⌜state.responses = sent⌝, fun _ _ => ⌜False⌝⟩⦄ := by
  mvcgen [suspend]

@[spec] theorem external_spec {α : Type} (answer : Except String α)
    : ⦃fun state => ⌜state.responses = sent⌝⦄
      (external answer : Handler Row α)
      ⦃post⟨fun _ state => ⌜state.responses = sent⌝,
        fun _ state => ⌜state.responses = sent⌝⟩⦄ := by
  cases answer <;> mvcgen [external]

@[spec] theorem searchElasticsearch_spec (q : List Nat)
    : ⦃fun state => ⌜state.responses = sent⌝⦄
      searchElasticsearch world q
      ⦃post⟨fun responded state =>
          ⌜if responded then OneMore sent state.responses else state.responses = sent⌝,
        fun _ state => ⌜state.responses = sent⌝⟩⦄ := by
  mvcgen [searchElasticsearch]
  all_goals simp_all

@[spec] theorem searchPostgres_spec (q : List Nat)
    : ⦃fun state => ⌜state.responses = sent⌝⦄
      searchPostgres world q
      ⦃post⟨fun _ state => ⌜OneMore sent state.responses⌝,
        fun _ state => ⌜state.responses = sent⌝⟩⦄ := by
  mvcgen [searchPostgres]
  all_goals simp_all

@[spec] theorem openSearchDb_spec
    : ⦃fun state => ⌜state.responses = sent⌝⦄
      openSearchDb world
      ⦃post⟨fun _ state => ⌜state.responses = sent⌝,
        fun _ state => ⌜state.responses = sent⌝⟩⦄ := by
  mvcgen [openSearchDb]
  all_goals simp_all

/-- A function that sends nothing sends nothing through the breaker, which catches what it
throws.
-/
@[spec] theorem execute_spec {α : Type} (fn : Handler Row α) (fallback : α)
    (quiet : ∀ sent, ⦃fun state => ⌜state.responses = sent⌝⦄ fn
      ⦃post⟨fun _ state => ⌜state.responses = sent⌝,
        fun _ state => ⌜state.responses = sent⌝⟩⦄)
    : ⦃fun state => ⌜state.responses = sent⌝⦄
      execute world fn fallback
      ⦃post⟨fun _ state => ⌜state.responses = sent⌝, fun _ _ => ⌜False⌝⟩⦄ := by
  mvcgen [execute, quiet]
  all_goals simp_all

@[spec] theorem searchSqlite_spec (q : List Nat)
    : ⦃fun state => ⌜state.responses = sent⌝⦄
      searchSqlite world q
      ⦃post⟨fun _ state => ⌜OneMore sent state.responses⌝,
        fun _ state => ⌜state.responses = sent⌝⟩⦄ := by
  mvcgen [searchSqlite]
  all_goals simp_all

/-- What the handler tries ends with a response, or with an exception and none. -/
@[spec] theorem searchBackends_spec (q : List Nat)
    : ⦃fun state => ⌜state.responses = sent⌝⦄
      searchBackends world q
      ⦃post⟨fun _ state => ⌜OneMore sent state.responses⌝,
        fun _ state => ⌜state.responses = sent⌝⟩⦄ := by
  mvcgen [searchBackends]
  all_goals simp_all

/-- After the parameter is trimmed, the handler responds and throws nothing. -/
theorem getSearch_spec {parameter : QueryValue}
    (plain : parameter = .absent ∨ ∃ text, parameter = .text text)
    : ⦃fun state => ⌜state.responses = sent⌝⦄
      getSearch world parameter
      ⦃post⟨fun _ state => ⌜OneMore sent state.responses⌝, fun _ _ => ⌜False⌝⟩⦄ := by
  obtain rfl | ⟨text, rfl⟩ := plain
  all_goals
    mvcgen -trivial [getSearch, trimmedParameter]
    all_goals simp_all

end

/-- The request is answered once, and the promise of the handler is fulfilled. -/
def AnswersOnce {Row : Type} (handler : Handler Row Unit) (start : SearchState Row) : Prop :=
  match handler start with
  | .ok _ after => OneMore start.responses after.responses
  | .error _ _ => False

/-- A specification of the handler, read at the state in which the request comes. -/
theorem answersOnce_of_triple {Row : Type} {handler : Handler Row Unit}
    {start : SearchState Row}
    (specified : ⦃fun state => ⌜state.responses = start.responses⌝⦄ handler
      ⦃post⟨fun _ state => ⌜OneMore start.responses state.responses⌝, fun _ _ => ⌜False⌝⟩⦄)
    : AnswersOnce handler start := by
  have ran : EStateM.run handler start = handler start := rfl
  apply EStateM.of_wp_run_eq ran fun result => match result with
    | .ok _ after => OneMore start.responses after.responses
    | .error _ _ => False
  exact fun _ => specified start rfl

/-- A request is answered once, and its promise fulfilled, exactly when its parameter `q` is missing
or a single text, whatever the searched systems do. An array or an object makes `.trim` throw before
anything is tried, and then nothing is sent.
-/
theorem answersOnce_iff {Row : Type} (world : SearchWorld Row) (parameter : QueryValue)
    (start : SearchState Row)
    : AnswersOnce (getSearch world parameter) start
      ↔ parameter = .absent ∨ ∃ text, parameter = .text text := by
  constructor
  · intro answered
    cases parameter with
    | absent => exact .inl rfl
    | text text => exact .inr ⟨text, rfl⟩
    | array items => exact answered.elim
    | object fields => exact answered.elim
  · intro plain
    exact answersOnce_of_triple (getSearch_spec plain)

/-- The shared variables when the script has run. -/
def sharedAtStart (now : Nat) : SearchShared where
  dbBreaker := .create
    { name := some "database", failureThreshold := some 3, resetTimeout := some 15000 } now
  searchDb := false
  searchDbHealth := false
  searchDbLastOpen := 0

/-- A server that searches an empty SQLite database alone. -/
def emptyWorld : SearchWorld Empty where
  esEnabled := false
  dbBackend := .sqlite
  requireElasticsearch := .ok ()
  isConnected := .ok false
  searchPages _ _ := .ok none
  getPool := .ok ()
  poolQuery _ := .ok []
  now := 1
  opening := .opens
  settledAt := 1
  matchAll _ := .ok []
  meanwhile _ shared := shared

/-- A repeated parameter leaves the request without an answer. -/
theorem answersOnce_fails_for_repetition
    : ¬∀ (world : SearchWorld Empty) (parameter : QueryValue) (start : SearchState Empty),
        AnswersOnce (getSearch world parameter) start := by
  intro answered
  exact answered emptyWorld (.array [.text (codeUnits "lean"), .text (codeUnits "proofs")])
    ⟨sharedAtStart 0, []⟩

end Search

end WebIndexer.Server
