import WebIndexer.Library.RowLocks
import WebIndexer.Library.Runs
import WebIndexer.Store.Tables

/-! `createPgTransactions` of `src/db-pg.ts`, query by query. Calls of `saveNode` and
`insertManyFrontier` overlap, each with a client of the pool of its own; queries are refused, and
connections break. Rows have no ids here, since these statements do not read them.
-/

namespace WebIndexer.Store

open WebIndexer.Library

-----------------------------------------------------------------------------------------
-- The statements
-----------------------------------------------------------------------------------------

/-- The primary keys of the three tables. -/
inductive RowKey where
  | node (url : String)
  | visited (url : String)
  | queued (url : String)
  deriving DecidableEq

/-- The rows of the three tables. -/
inductive RowValue where
  | node (row : NodeRow)
  | visited
  | queued (item : FrontierItem)

/-- The calls of the two functions. -/
inductive Request where
  | saveNode (page : PageData)
  | insertManyFrontier (items : List FrontierItem)

/-- The statements that the two functions run, each with its arguments. -/
inductive SqlStatement where
  | upsertNode (page : PageData)
  | markVisited (url : String)
  | deleteFromFrontier (url : String)
  | insertFrontier (item : FrontierItem)
  deriving DecidableEq

/-- What a statement does to its row. -/
def SqlStatement.row : SqlStatement → RowStatement RowKey RowValue
  | .upsertNode page => .upsert (.node page.url) (.node (Tables.nodeRow page))
  | .markVisited url => .insert (.visited url) .visited
  | .deleteFromFrontier url => .delete (.queued url)
  | .insertFrontier item => .insert (.queued item.url) (.queued item)

/-- The statements between `BEGIN` and `COMMIT`. -/
def Request.statements : Request → List SqlStatement
  | .saveNode page =>
      [.upsertNode page, .markVisited page.url, .deleteFromFrontier page.url]
        ++ if page.origUrl ≠ page.url then
            [.markVisited page.origUrl, .deleteFromFrontier page.origUrl]
          else
            []
  | .insertManyFrontier items => items.map .insertFrontier

-----------------------------------------------------------------------------------------
-- The calls
-----------------------------------------------------------------------------------------

/-- The queries of a call before its `ROLLBACK`. -/
inductive Query where
  | begin
  | statement (statement : SqlStatement)
  | commit
  deriving DecidableEq

/-- The queries of a call, unless one fails. -/
def Request.queries (request : Request) : List Query :=
  .begin :: request.statements.map .statement ++ [.commit]

/-- How far a call has come: it waits for a client; the first of some queries is with the database,
or the `ROLLBACK` of the `catch`; or its promise is resolved or rejected.
-/
inductive CallStage (clients : Nat) where
  | connecting
  | trying (client : Fin clients) (todo : List Query)
  | rollingBack (client : Fin clients)
  | resolved
  | rejected
  deriving DecidableEq

/-- The client that a call holds. -/
def CallStage.client? {clients : Nat} : CallStage clients → Option (Fin clients)
  | .trying client _ | .rollingBack client => some client
  | _ => none

/-- The database, the clients of the pool, and the calls by their numbers. -/
structure PgState (clients : Nat) where
  rows : Rows RowKey RowValue
  sessions : Fin clients → Session RowKey RowValue
  idle : Fin clients → Bool
  stage : Nat → CallStage clients

/-- What becomes of a query: it succeeds, the database refuses it, or the connection breaks before
the query has run or after it.
-/
inductive Reply where
  | succeeds
  | refused
  | lost
  | lostAfter
  deriving DecidableEq

/-- What can happen next: the pool gives a client to a call or `connect` throws, or a query ends. -/
inductive PgLabel (clients : Nat) where
  | connect (call : Nat) (client : Fin clients)
  | connectFails (call : Nat)
  | reply (call : Nat) (reply : Reply)

/-- The call that a label is about. -/
def PgLabel.call {clients : Nat} : PgLabel clients → Nat
  | .connect call _ | .connectFails call | .reply call _ => call

namespace PgState

variable {clients : Nat}

/-- The database runs a query: the rows after it, and the session. -/
def serve (state : PgState clients) (client : Fin clients) (query : Query)
    : Option (Rows RowKey RowValue × Session RowKey RowValue) :=
  match query, state.sessions client with
  | .begin, .outside => some (state.rows, .inside fun _ => none)
  | .statement statement, .inside pending =>
      if Waits state.rows state.sessions client statement.row then
        none
      else
        some (state.rows, .inside (statement.row.write state.rows pending))
  | .commit, .inside pending => some (overlay state.rows pending, .outside)
  | _, _ => none

/-- A query that is refused: a statement fails its transaction, and a `COMMIT` ends it without
effect.
-/
def refuse (query : Query) (session : Session RowKey RowValue) : Session RowKey RowValue :=
  match query, session with
  | .statement _, .inside _ => .failed
  | .commit, .inside _ => .outside
  | _, session => session

/-- A call goes on. -/
def move (state : PgState clients) (call : Nat) (client : Fin clients)
    (rows : Rows RowKey RowValue) (session : Session RowKey RowValue) (stage : CallStage clients)
    : PgState clients := {
  state with
  rows := rows
  sessions := Function.update state.sessions client session
  stage := Function.update state.stage call stage
}

/-- `p.connect()` gives an idle client to a call, which sends its queries. -/
def connect (state : PgState clients) (call : Nat) (client : Fin clients) (request : Request)
    : PgState clients := {
  state with
  idle := Function.update state.idle client false
  stage := Function.update state.stage call (.trying client request.queries)
}

/-- The session that the pool keeps of a client that is given back: it replaces one whose connection
is lost.
-/
def kept : Session RowKey RowValue → Session RowKey RowValue
  | .lost => .outside
  | session => session

/-- `client.release()`, after which the call ends. -/
def release (state : PgState clients) (call : Nat) (client : Fin clients)
    (rows : Rows RowKey RowValue) (session : Session RowKey RowValue) (stage : CallStage clients)
    : PgState clients := {
  state.move call client rows (kept session) stage with
  idle := Function.update state.idle client true
}

/-- The query of a call ends. -/
def answer (state : PgState clients) (call : Nat) (client : Fin clients) (query : Query)
    (todo : List Query)
    : Reply → Option (PgState clients)
  | .succeeds =>
      (state.serve client query).map fun served =>
        if todo.isEmpty then
          state.release call client served.1 served.2 .resolved
        else
          state.move call client served.1 served.2 (.trying client todo)
  | .refused =>
      some (state.move call client state.rows (refuse query (state.sessions client))
        (.rollingBack client))
  | .lost => some (state.move call client state.rows .lost (.rollingBack client))
  | .lostAfter =>
      (state.serve client query).map fun served =>
        state.move call client served.1 .lost (.rollingBack client)

/-- The `ROLLBACK` of a call ends, which only a lost connection can keep from succeeding. -/
def rollBack (state : PgState clients) (call : Nat) (client : Fin clients)
    : Reply → Option (PgState clients)
  | .succeeds =>
      match state.sessions client with
      | .lost => none
      | _ => some (state.release call client state.rows .outside .rejected)
  | .refused => none
  | .lost | .lostAfter => some (state.release call client state.rows .lost .rejected)

/-- One step. -/
def step (requests : Nat → Request) (state : PgState clients)
    : PgLabel clients → Option (PgState clients)
  | .connect call client =>
      match state.stage call, state.idle client with
      | .connecting, true =>
          some (state.connect call client (requests call))
      | _, _ => none
  | .connectFails call =>
      match state.stage call with
      | .connecting =>
          some { state with stage := Function.update state.stage call .rejected }
      | _ => none
  | .reply call reply =>
      match state.stage call with
      | .trying client (query :: todo) => state.answer call client query todo reply
      | .rollingBack client => state.rollBack call client reply
      | _ => none

/-- The pool before any call. -/
def fresh (rows : Rows RowKey RowValue) : PgState clients where
  rows := rows
  sessions _ := .outside
  idle _ := true
  stage _ := .connecting

-----------------------------------------------------------------------------------------
-- Steps
-----------------------------------------------------------------------------------------

/-- How the database runs a query. -/
inductive ServeCase (state : PgState clients) (client : Fin clients)
    : Query → Rows RowKey RowValue → Session RowKey RowValue → Prop
  | begin (within : state.sessions client = .outside)
    : ServeCase state client .begin state.rows (.inside fun _ => none)
  | statement {statement : SqlStatement} {pending : Pending RowKey RowValue}
    (within : state.sessions client = .inside pending)
    (goes : ¬ Waits state.rows state.sessions client statement.row)
    : ServeCase state client (.statement statement) state.rows
        (.inside (statement.row.write state.rows pending))
  | commit {pending : Pending RowKey RowValue} (within : state.sessions client = .inside pending)
    : ServeCase state client .commit (overlay state.rows pending) .outside

/-- What one step does: a client is given to a call, `connect` throws, a query is served and the
call goes on or ends, a query is served or not and its answer is an error, or the client is
released after the `ROLLBACK`.
-/
inductive StepCase (requests : Nat → Request) (state : PgState clients)
    : PgLabel clients → PgState clients → Prop
  | connected {call : Nat} {client : Fin clients} (waits : state.stage call = .connecting)
    (free : state.idle client = true)
    : StepCase requests state (.connect call client)
        (state.connect call client (requests call))
  | thrown {call : Nat} (waits : state.stage call = .connecting)
    : StepCase requests state (.connectFails call)
        { state with stage := Function.update state.stage call .rejected }
  | resolved {call : Nat} {client : Fin clients} {query : Query} {rows : Rows RowKey RowValue}
    {session : Session RowKey RowValue}
    (trying : state.stage call = .trying client [query])
    (served : ServeCase state client query rows session)
    : StepCase requests state (.reply call .succeeds)
        (state.release call client rows session .resolved)
  | served {call : Nat} {client : Fin clients} {query : Query} {todo : List Query}
    {rows : Rows RowKey RowValue} {session : Session RowKey RowValue}
    (trying : state.stage call = .trying client (query :: todo)) (more : todo ≠ [])
    (served : ServeCase state client query rows session)
    : StepCase requests state (.reply call .succeeds)
        (state.move call client rows session (.trying client todo))
  | failed {call : Nat} {client : Fin clients} {query : Query} {todo : List Query}
    {session : Session RowKey RowValue} {reply : Reply}
    (trying : state.stage call = .trying client (query :: todo))
    (fewer : ∀ key, session.locks key = true → (state.sessions client).locks key = true)
    : StepCase requests state (.reply call reply)
        (state.move call client state.rows session (.rollingBack client))
  | broken {call : Nat} {client : Fin clients} {query : Query} {todo : List Query}
    {rows : Rows RowKey RowValue} {session : Session RowKey RowValue}
    (trying : state.stage call = .trying client (query :: todo))
    (served : ServeCase state client query rows session)
    : StepCase requests state (.reply call .lostAfter)
        (state.move call client rows .lost (.rollingBack client))
  | rejected {call : Nat} {client : Fin clients} {session : Session RowKey RowValue} {reply : Reply}
    (rolling : state.stage call = .rollingBack client) (ended : kept session = .outside)
    : StepCase requests state (.reply call reply)
        (state.release call client state.rows session .rejected)

variable {requests : Nat → Request} {state next : PgState clients} {label : PgLabel clients}
  {call : Nat} {client : Fin clients}

/-- Inversion of `serve`. -/
theorem serve_cases {query : Query} {rows : Rows RowKey RowValue}
    {session : Session RowKey RowValue} (served : state.serve client query = some (rows, session))
    : ServeCase state client query rows session := by
  unfold serve at served
  split at served
  · rename_i within
    obtain ⟨rfl, rfl⟩ := Prod.mk.inj (Option.some.inj served)
    exact .begin within
  · rename_i statement pending within
    split at served
    · cases served
    · rename_i goes
      obtain ⟨rfl, rfl⟩ := Prod.mk.inj (Option.some.inj served)
      exact .statement within goes
  · rename_i pending within
    obtain ⟨rfl, rfl⟩ := Prod.mk.inj (Option.some.inj served)
    exact .commit within
  · cases served

/-- A query that is refused leaves no new locks. -/
theorem locks_refuse {query : Query} {session : Session RowKey RowValue} {key : RowKey}
    (held : (refuse query session).locks key = true)
    : session.locks key = true := by
  unfold refuse at held
  split at held
  · cases held
  · cases held
  · exact held

/-- Inversion of a step. -/
theorem step_cases (taken : state.step requests label = some next)
    : StepCase requests state label next := by
  cases label with
  | connect call client =>
      simp only [step] at taken
      split at taken
      · rename_i waits free
        obtain rfl := Option.some.inj taken
        exact .connected waits free
      · cases taken
  | connectFails call =>
      simp only [step] at taken
      split at taken
      · rename_i waits
        obtain rfl := Option.some.inj taken
        exact .thrown waits
      · cases taken
  | reply call reply =>
      simp only [step] at taken
      split at taken
      · rename_i client query todo trying
        cases reply with
        | succeeds =>
            obtain ⟨⟨rows, session⟩, served, rfl⟩ := Option.map_eq_some_iff.mp taken
            have served := serve_cases served
            cases todo with
            | nil => exact .resolved trying served
            | cons => exact .served trying (List.cons_ne_nil _ _) served
        | refused =>
            obtain rfl := Option.some.inj taken
            exact .failed trying fun key held => locks_refuse held
        | lost =>
            obtain rfl := Option.some.inj taken
            exact .failed trying nofun
        | lostAfter =>
            obtain ⟨⟨rows, session⟩, served, rfl⟩ := Option.map_eq_some_iff.mp taken
            exact .broken trying (serve_cases served)
      · rename_i client rolling
        cases reply with
        | succeeds =>
            simp only [rollBack] at taken
            split at taken
            · cases taken
            · obtain rfl := Option.some.inj taken
              exact .rejected rolling rfl
        | refused => cases taken
        | lost | lostAfter =>
            obtain rfl := Option.some.inj taken
            exact .rejected rolling rfl
      · cases taken

-----------------------------------------------------------------------------------------
-- The pool
-----------------------------------------------------------------------------------------

/-- The call holds the client. -/
def Holds (state : PgState clients) (call : Nat) (client : Fin clients) : Prop :=
  (state.stage call).client? = some client

/-- A call holds the client that its queries run on. -/
theorem holds_of_trying {todo : List Query} (trying : state.stage call = .trying client todo)
    : state.Holds call client :=
  congrArg CallStage.client? trying

/-- A call holds the client that it rolls back on. -/
theorem holds_of_rolling (rolling : state.stage call = .rollingBack client)
    : state.Holds call client :=
  congrArg CallStage.client? rolling

/-- The session that a call goes on with. -/
theorem sessions_move (state : PgState clients) (call : Nat) (client : Fin clients)
    (rows : Rows RowKey RowValue) (session : Session RowKey RowValue) (stage : CallStage clients)
    : (state.move call client rows session stage).sessions client = session :=
  Function.update_self _ _ _

/-- The clients that are idle are those that no call holds, they are outside a transaction, and no
two calls hold the same. The queries of a call end with its `COMMIT`.
-/
structure Pooled (state : PgState clients) : Prop where
  outside : ∀ client, state.idle client = true → state.sessions client = .outside
  idle_iff : ∀ client, state.idle client = true ↔ ∀ call, ¬ state.Holds call client
  once : ∀ client first second,
    state.Holds first client → state.Holds second client → first = second
  ends : ∀ call client todo, state.stage call = .trying client todo → .commit ∈ todo.getLast?

/-- The client that a call holds is not idle. -/
theorem Pooled.busy (pooled : state.Pooled) (holds : state.Holds call client)
    : state.idle client = false :=
  Bool.eq_false_iff.mpr fun idle => (pooled.idle_iff client).mp idle call holds

/-- What the calls hold when one of them goes on. -/
theorem holds_update (state : PgState clients) {stage : CallStage clients} {other : Nat}
    {any : Fin clients}
    (moved : next.stage = Function.update state.stage call stage)
    : next.Holds other any
      ↔ if other = call then stage.client? = some any else state.Holds other any := by
  unfold Holds
  rw [moved]
  by_cases same : other = call
  · subst same
    rw [Function.update_self, if_pos rfl]
  · rw [Function.update_of_ne same, if_neg same]

/-- The queries of the calls when one of them goes on. -/
theorem ends_update {stages : Nat → CallStage clients} {stage : CallStage clients}
    (before : ∀ call client todo, stages call = .trying client todo → .commit ∈ todo.getLast?)
    (own : ∀ client todo, stage = .trying client todo → .commit ∈ todo.getLast?)
    (other : Nat) (client : Fin clients) (todo : List Query)
    (trying : Function.update stages call stage other = .trying client todo)
    : .commit ∈ todo.getLast? := by
  by_cases same : other = call
  · subst same
    rw [Function.update_self] at trying
    exact own client todo trying
  · rw [Function.update_of_ne same] at trying
    exact before other client todo trying

/-- A call that goes on with its client leaves the pool as it was. -/
theorem Pooled.move {rows : Rows RowKey RowValue} {session : Session RowKey RowValue}
    {stage : CallStage clients} (pooled : state.Pooled) (holds : state.Holds call client)
    (stays : stage.client? = some client)
    (ends : ∀ client todo, stage = .trying client todo → .commit ∈ todo.getLast?)
    : (state.move call client rows session stage).Pooled := by
  have same (other : Nat) (any : Fin clients)
      : (state.move call client rows session stage).Holds other any
        ↔ state.Holds other any := by
    rw [holds_update state rfl]
    split
    · rename_i own
      rw [stays, own, Holds, holds]
    · rfl
  refine ⟨fun any idle => ?_, fun any => ?_, fun any first second left right => ?_,
    ends_update pooled.ends ends⟩
  · have differs : any ≠ client := by
      rintro rfl
      exact Bool.noConfusion ((pooled.busy holds).symm.trans idle)
    exact (Function.update_of_ne differs _ _).trans (pooled.outside any idle)
  · exact (pooled.idle_iff any).trans (forall_congr' fun other => not_congr (same other any).symm)
  · exact pooled.once any first second ((same first any).mp left) ((same second any).mp right)

/-- A call that ends gives its client back. -/
theorem Pooled.release {rows : Rows RowKey RowValue} {session : Session RowKey RowValue}
    {stage : CallStage clients} (pooled : state.Pooled) (holds : state.Holds call client)
    (clean : kept session = .outside) (ends : stage.client? = none)
    : (state.release call client rows session stage).Pooled := by
  have same (other : Nat) (any : Fin clients)
      : (state.release call client rows session stage).Holds other any
        ↔ other ≠ call ∧ state.Holds other any := by
    rw [holds_update state rfl]
    split
    · rename_i own
      rw [ends]
      exact ⟨nofun, fun held => absurd own held.1⟩
    · rename_i differs
      exact ⟨fun held => ⟨differs, held⟩, And.right⟩
  refine ⟨fun any idle => ?_, fun any => ?_, fun any first second left right => ?_,
    ends_update pooled.ends fun client todo trying => ?_⟩
  · by_cases own : any = client
    · subst own
      exact (Function.update_self _ _ _).trans clean
    · have same : (state.release call client rows session stage).idle any = state.idle any :=
        Function.update_of_ne own _ _
      have before : state.idle any = true := same ▸ idle
      exact (Function.update_of_ne own _ _).trans (pooled.outside any before)
  · by_cases own : any = client
    · subst own
      refine iff_of_true (Function.update_self _ _ _) fun other held => ?_
      obtain ⟨differs, held⟩ := (same other any).mp held
      exact differs (pooled.once any other call held holds)
    · have before : (state.release call client rows session stage).idle any = state.idle any :=
        Function.update_of_ne own _ _
      rw [before, pooled.idle_iff any]
      refine forall_congr' fun other => not_congr ?_
      rw [same]
      refine ⟨fun held => ⟨?_, held⟩, And.right⟩
      rintro rfl
      exact own (Option.some.inj (held.symm.trans holds))
  · exact pooled.once any first second ((same first any).mp left).2 ((same second any).mp right).2
  · rw [trying] at ends
    cases ends

/-- The queries of a call end with its `COMMIT`. -/
theorem queries_getLast (request : Request) : .commit ∈ request.queries.getLast? :=
  List.getLast?_concat

/-- A call that takes an idle client holds it alone. -/
theorem Pooled.connect {request : Request} (pooled : state.Pooled)
    (waits : state.stage call = .connecting) (free : state.idle client = true)
    : (state.connect call client request).Pooled := by
  have nobody := (pooled.idle_iff client).mp free
  have busy : (state.connect call client request).idle client = false :=
    Function.update_self _ _ _
  have same (any : Fin clients) (differs : any ≠ client)
      : (state.connect call client request).idle any = state.idle any :=
    Function.update_of_ne differs _ _
  have holds (other : Nat) (any : Fin clients)
      : (state.connect call client request).Holds other any
        ↔ if other = call then some client = some any else state.Holds other any := by
    rw [holds_update state rfl]
    rfl
  refine ⟨fun any idle => ?_, fun any => ?_, fun any first second left right => ?_,
    ends_update pooled.ends fun client todo trying => ?_⟩
  · have differs : any ≠ client := by
      rintro rfl
      exact Bool.noConfusion (busy.symm.trans idle)
    exact pooled.outside any ((same any differs) ▸ idle)
  · by_cases own : any = client
    · subst own
      refine iff_of_false (fun idle => Bool.noConfusion (busy.symm.trans idle)) fun none => ?_
      exact none call ((holds call any).mpr ((if_pos rfl).mpr rfl))
    · rw [same any own, pooled.idle_iff any]
      refine forall_congr' fun other => not_congr ?_
      rw [holds]
      split
      · rename_i self
        rw [self, Holds, waits]
        exact ⟨nofun, fun held => absurd (Option.some.inj held).symm own⟩
      · rfl
  · rw [holds] at left right
    split at left <;> split at right
    · rename_i one other
      exact one.trans other.symm
    · obtain rfl := Option.some.inj left
      exact absurd right (nobody second)
    · obtain rfl := Option.some.inj right
      exact absurd left (nobody first)
    · exact pooled.once any first second left right
  · obtain ⟨-, rfl⟩ := CallStage.trying.inj trying
    exact queries_getLast request

/-- A call whose `connect` throws holds nothing. -/
theorem Pooled.throw (pooled : state.Pooled) (waits : state.stage call = .connecting)
    : Pooled { state with stage := Function.update state.stage call .rejected } := by
  have same (other : Nat) (any : Fin clients)
      : Holds { state with stage := Function.update state.stage call .rejected } other any
        ↔ state.Holds other any := by
    rw [holds_update state rfl]
    split
    · rename_i own
      rw [own, Holds, waits]
      exact Iff.rfl
    · rfl
  refine ⟨pooled.outside, fun any => ?_, fun any first second left right => ?_,
    ends_update pooled.ends nofun⟩
  · exact (pooled.idle_iff any).trans (forall_congr' fun other => not_congr (same other any).symm)
  · exact pooled.once any first second ((same first any).mp left) ((same second any).mp right)

/-- The pool is in order before any call. -/
theorem pooled_fresh (rows : Rows RowKey RowValue) : (fresh rows : PgState clients).Pooled := by
  refine ⟨fun _ _ => rfl, fun client => ?_, nofun, nofun⟩
  exact iff_of_true rfl fun _ => nofun

/-- A step leaves the pool in order. -/
theorem Pooled.step (pooled : state.Pooled) (taken : state.step requests label = some next)
    : next.Pooled := by
  cases step_cases taken with
  | connected waits free => exact pooled.connect waits free
  | thrown waits => exact pooled.throw waits
  | @resolved call client query rows session trying served =>
      obtain rfl := Option.some.inj (pooled.ends call client [query] trying)
      cases served
      exact pooled.release (holds_of_trying trying) rfl rfl
  | served trying more =>
      refine pooled.move (holds_of_trying trying) rfl fun client todo same => ?_
      obtain ⟨-, rfl⟩ := CallStage.trying.inj same
      have ends := pooled.ends _ _ _ trying
      rwa [List.getLast?_cons_of_ne_nil more] at ends
  | failed trying | broken trying =>
      exact pooled.move (holds_of_trying trying) rfl nofun
  | rejected rolling ended =>
      exact pooled.release (holds_of_rolling rolling) ended rfl

-----------------------------------------------------------------------------------------
-- Locks
-----------------------------------------------------------------------------------------

/-- A query that is served leaves the locks exclusive. -/
theorem exclusive_serve {query : Query} {rows : Rows RowKey RowValue}
    {session : Session RowKey RowValue} (exclusive : Exclusive state.sessions)
    (served : ServeCase state client query rows session)
    : Exclusive (Function.update state.sessions client session) := by
  cases served with
  | begin | commit => exact exclusive.fewer nofun
  | statement within goes => exact exclusive.write within goes

/-- A step leaves the locks exclusive. -/
theorem exclusive_step (exclusive : Exclusive state.sessions)
    (taken : state.step requests label = some next)
    : Exclusive next.sessions := by
  cases step_cases taken with
  | connected | thrown => exact exclusive
  | resolved trying served =>
      have after := exclusive_serve exclusive served
      cases served <;> exact after
  | served trying more served => exact exclusive_serve exclusive served
  | failed trying fewer => exact exclusive.fewer fewer
  | broken => exact exclusive.fewer nofun
  | rejected rolling ended =>
      refine exclusive.fewer fun key held => ?_
      rw [ended] at held
      cases held

/-- However the calls overlap, and whatever is refused or breaks, the pool is in order: the clients
that no call holds are idle, none of them is inside a transaction, no two calls share a client, and
no two hold the lock of a row.
-/
theorem pool_in_order {rows : Rows RowKey RowValue}
    (reached : Reaches (step requests) (fresh rows) state)
    : (∀ client, state.idle client = true ↔ ∀ call, ¬ state.Holds call client)
      ∧ (∀ client, state.idle client = true → state.sessions client = .outside)
      ∧ (∀ client first second,
          state.Holds first client → state.Holds second client → first = second)
      ∧ Exclusive state.sessions := by
  have sound : state.Pooled ∧ Exclusive state.sessions := by
    induction reached with
    | refl => exact ⟨pooled_fresh rows, nofun⟩
    | next _ _ taken before => exact ⟨before.1.step taken, exclusive_step before.2 taken⟩
  exact ⟨sound.1.idle_iff, sound.1.outside, sound.1.once, sound.2⟩

/-- A call that saves a redirected page, and others that queue the address that redirects. -/
def redirectRequests : Nat → Request
  | 0 =>
      .saveNode ⟨"https://b.org/", "", "", "b.org", 1, none, 0, "", 1, "", "", "", 0, 0,
        "https://a.org/"⟩
  | _ => .insertManyFrontier [⟨"https://a.org/", 1, none⟩]

/-- The page is saved while another call queues the address. -/
def overlap : List (PgLabel 2) :=
  [.connect 0 0, .connect 1 1, .reply 0 .succeeds, .reply 1 .succeeds, .reply 1 .succeeds]
    ++ List.replicate 5 (.reply 0 .succeeds) ++ [.reply 1 .succeeds, .reply 0 .succeeds]

/-- The page is saved before another call queues the address. -/
def inTurn : List (PgLabel 2) :=
  .connect 0 0 :: List.replicate 7 (.reply 0 .succeeds)
    ++ .connect 1 0 :: List.replicate 3 (.reply 1 .succeeds)

/-- Both calls of the overlap come to an end. -/
theorem overlap_resolves
    : ∃ state : PgState 2, Reaches (step redirectRequests) (fresh fun _ => none) state
        ∧ state.stage 0 = .resolved ∧ state.stage 1 = .resolved := by
  have passes : (execute (step redirectRequests) anyStep (fresh fun _ => none) overlap).any
      (fun state => state.stage 0 = .resolved ∧ state.stage 1 = .resolved) := by
    decide +kernel
  obtain ⟨state, reached, both⟩ := exists_run_of_any passes
  exact ⟨state, reached, of_decide_eq_true both⟩

theorem pool_in_order_of_overlap
    : ∃ state : PgState 2, Reaches (step redirectRequests) (fresh fun _ => none) state
        ∧ state.stage 0 = .resolved
        ∧ (∀ client, state.idle client = true → state.sessions client = .outside)
        ∧ Exclusive state.sessions := by
  obtain ⟨state, reached, resolved, -⟩ := overlap_resolves
  have ordered := pool_in_order reached
  exact ⟨state, reached, resolved, ordered.2.1, ordered.2.2.2⟩

-----------------------------------------------------------------------------------------
-- A transaction
-----------------------------------------------------------------------------------------

/-- How far a transaction has come: the queries that are left, its session, and what holds of the
statements that it has run and the writes that they have left.
-/
inductive Progress (request : Request)
    (holds : List SqlStatement → Pending RowKey RowValue → Prop)
    : Session RowKey RowValue → List Query → Prop
  | waiting : Progress request holds .outside request.queries
  | working {done rest : List SqlStatement} {pending : Pending RowKey RowValue}
    (statements : request.statements = done ++ rest) (so : holds done pending)
    : Progress request holds (.inside pending) (rest.map .statement ++ [.commit])

/-- A transaction whose writes are as they should be goes on when the rows change. -/
theorem Progress.mono {request : Request}
    {holds after : List SqlStatement → Pending RowKey RowValue → Prop}
    {session : Session RowKey RowValue} {todo : List Query}
    (progress : Progress request holds session todo)
    (still : ∀ done pending, holds done pending → after done pending)
    : Progress request after session todo := by
  cases progress with
  | waiting => exact .waiting
  | working statements so => exact .working statements (still _ _ so)

/-- A query of a transaction is served: it goes on, or commits what all its statements have left. -/
theorem progress_serve {request : Request}
    {holds : List SqlStatement → Pending RowKey RowValue → Prop} {query : Query}
    {todo : List Query} {rows : Rows RowKey RowValue} {session : Session RowKey RowValue}
    (start : holds [] fun _ => none)
    (write : ∀ done statement rest pending,
      request.statements = done ++ statement :: rest → holds done pending →
        holds (done ++ [statement]) (statement.row.write state.rows pending))
    (progress : Progress request holds (state.sessions client) (query :: todo))
    (served : ServeCase state client query rows session)
    : todo ≠ [] ∧ rows = state.rows ∧ Progress request holds session todo
      ∨ todo = [] ∧ ∃ pending, holds request.statements pending
        ∧ rows = overlay state.rows pending := by
  generalize before : state.sessions client = earlier at progress
  generalize queries : query :: todo = all at progress
  cases progress with
  | waiting =>
      cases served with
      | begin =>
          obtain ⟨-, rfl⟩ := List.cons.inj queries
          exact .inl ⟨List.concat_ne_nil _ _, rfl, .working rfl start⟩
      | statement within | commit within => cases before.symm.trans within
  | @working done rest pending statements so =>
      cases served with
      | begin within => cases before.symm.trans within
      | @statement statement _ within goes =>
          obtain rfl := Session.inside.inj (before.symm.trans within)
          cases rest with
          | nil => cases queries
          | cons next rest =>
              obtain ⟨same, rfl⟩ := List.cons.inj queries
              obtain rfl := Query.statement.inj same
              exact .inl ⟨List.concat_ne_nil _ _, rfl,
                .working (statements.trans (List.append_cons ..)) (write _ _ _ _ statements so)⟩
      | commit within =>
          obtain rfl := Session.inside.inj (before.symm.trans within)
          cases rest with
          | cons next rest => cases queries
          | nil =>
              obtain ⟨-, rfl⟩ := List.cons.inj queries
              obtain rfl : request.statements = done := statements.trans (List.append_nil done)
              exact .inr ⟨rfl, pending, so, rfl⟩

end PgState

end WebIndexer.Store
