import Mathlib
import WebIndexer.Store.PgTransactions

/-! The calls of `createPgTransactions` one after another: where no two of them overlap, the
database goes from one result of `saveNode` or `insertManyFrontier` to the next, as if each were
one statement.
-/

namespace WebIndexer.Store

open WebIndexer.Library

-----------------------------------------------------------------------------------------
-- The rows of tables
-----------------------------------------------------------------------------------------

/-- The rows of tables, without ids and the search index. -/
def Tables.rowsOf (tables : Tables) : Rows RowKey RowValue
  | .node url => (tables.nodes.get? url).map .node
  | .visited url => if url ∈ tables.visited then some .visited else none
  | .queued url =>
      (tables.frontier.rows.find? fun row => row.url = url).map fun row =>
        .queued row.toFrontierItem

/-- What a statement does to tables. -/
def SqlStatement.perform (tables : Tables) : SqlStatement → Tables
  | .upsertNode page => tables.upsertNode page
  | .markVisited url => tables.markVisited url
  | .deleteFromFrontier url => tables.deleteFromFrontier url
  | .insertFrontier item => tables.insertFrontier item

/-- What a call does to tables as one statement. -/
def Request.perform (tables : Tables) : Request → Tables
  | .saveNode page => tables.saveNode .pg page false
  | .insertManyFrontier items => tables.insertManyFrontier items

namespace Tables

variable {tables : Tables}

/-- Saving a page puts its row. -/
theorem rowsOf_upsertNode (page : PageData)
    : (tables.upsertNode page).rowsOf
      = (SqlStatement.upsertNode page).row.apply tables.rowsOf := by
  refine Function.eq_update_iff.mpr ⟨?_, fun key differs => ?_⟩
  · simp [rowsOf, upsertNode]
  · cases key with
    | node url =>
        have other : url ≠ page.url := fun same => differs (congrArg _ same)
        simp [rowsOf, upsertNode, InsertionMap.get?_set_of_ne other]
    | visited | queued => rfl

/-- Marking an address puts its row, unless it is there. -/
theorem rowsOf_markVisited (url : String)
    : (tables.markVisited url).rowsOf
      = (SqlStatement.markVisited url).row.apply tables.rowsOf := by
  simp only [SqlStatement.row, RowStatement.apply]
  have others (key : RowKey) (differs : key ≠ .visited url)
      : (tables.markVisited url).rowsOf key = tables.rowsOf key := by
    cases key with
    | visited other =>
        have other : other ≠ url := fun same => differs (congrArg _ same)
        simp [rowsOf, markVisited, other]
    | node | queued => rfl
  have own : (tables.markVisited url).rowsOf (.visited url) = some .visited := by
    simp [rowsOf, markVisited]
  split
  · rename_i present
    funext key
    by_cases same : key = .visited url
    · subst same
      rw [own]
      by_cases member : url ∈ tables.visited
      · simp [rowsOf, member]
      · simp [rowsOf, member] at present
    · exact others key same
  · exact Function.eq_update_iff.mpr ⟨own, others⟩

/-- An address that is taken off the frontier loses its row. -/
theorem rowsOf_deleteFromFrontier (url : String)
    : (tables.deleteFromFrontier url).rowsOf
      = (SqlStatement.deleteFromFrontier url).row.apply tables.rowsOf := by
  refine Function.eq_update_iff.mpr ⟨?_, fun key differs => ?_⟩
  · simp [rowsOf, deleteFromFrontier, Frontier.filter]
  · cases key with
    | queued other =>
        have another : other ≠ url := fun same => differs (congrArg _ same)
        have both (row : FrontierRow)
            : decide (decide (row.url ≠ url) = true ∧ decide (row.url = other) = true)
              = decide (row.url = other) := by
          by_cases same : row.url = other <;> simp [same, another]
        simp only [rowsOf, deleteFromFrontier, Frontier.filter, List.find?_filter, both]
    | node | visited => rfl

/-- An address that is put on the frontier has a row, the one that was there or its own. -/
theorem rowsOf_insertFrontier (item : FrontierItem)
    : (tables.insertFrontier item).rowsOf
      = (SqlStatement.insertFrontier item).row.apply tables.rowsOf := by
  have listed : (tables.rowsOf (.queued item.url)).isSome = decide (item.url ∈ tables.frontier.urls)
      := by
    rw [Bool.eq_iff_iff]
    simp [rowsOf, Frontier.urls, List.find?_isSome]
  simp only [SqlStatement.row, RowStatement.apply, listed, decide_eq_true_eq]
  split
  · rename_i present
    unfold insertFrontier Frontier.insert
    rw [dif_neg (not_not.mpr present)]
    rfl
  · rename_i absent
    refine Function.eq_update_iff.mpr ⟨?_, fun key differs => ?_⟩
    · have unseen : tables.frontier.rows.find? (fun row => row.url = item.url) = none := by
        rw [List.find?_eq_none]
        intro row member same
        exact absent (List.mem_map.mpr ⟨row, member, of_decide_eq_true same⟩)
      simp [rowsOf, insertFrontier, Frontier.insert, absent, Frontier.append, unseen]
    · cases key with
      | queued other =>
          have other : item.url ≠ other := fun same => differs (congrArg _ same.symm)
          simp [rowsOf, insertFrontier, Frontier.insert, absent, Frontier.append, other]
      | node | visited => rfl

end Tables

/-- A statement does to the rows of tables what it does to the tables. -/
theorem rowsOf_perform (tables : Tables) (statement : SqlStatement)
    : (statement.perform tables).rowsOf = statement.row.apply tables.rowsOf := by
  cases statement with
  | upsertNode page => exact tables.rowsOf_upsertNode page
  | markVisited url => exact tables.rowsOf_markVisited url
  | deleteFromFrontier url => exact tables.rowsOf_deleteFromFrontier url
  | insertFrontier item => exact tables.rowsOf_insertFrontier item

/-- The statements of a call, one after another. -/
def applyAll (rows : Rows RowKey RowValue) (statements : List SqlStatement)
    : Rows RowKey RowValue :=
  statements.foldl (fun rows statement => statement.row.apply rows) rows

/-- Statements do to the rows of tables what they do to the tables, by induction on them. -/
theorem rowsOf_foldl (tables : Tables) (statements : List SqlStatement)
    : (statements.foldl SqlStatement.perform tables).rowsOf
      = applyAll tables.rowsOf statements := by
  induction statements generalizing tables with
  | nil => rfl
  | cons statement rest ih =>
      rw [List.foldl_cons, ih, rowsOf_perform]
      rfl

/-- A call is its statements. -/
theorem perform_eq (tables : Tables) (request : Request)
    : request.perform tables = request.statements.foldl SqlStatement.perform tables := by
  cases request with
  | saveNode page =>
      simp only [Request.perform, Request.statements, Tables.saveNode]
      split <;> rfl
  | insertManyFrontier items =>
      simp only [Request.perform, Request.statements, Tables.insertManyFrontier, List.foldl_map]
      rfl

/-- A call does to the rows of tables what its statements do. -/
theorem rowsOf_request (tables : Tables) (request : Request)
    : (request.perform tables).rowsOf = applyAll tables.rowsOf request.statements := by
  rw [perform_eq, rowsOf_foldl]

-----------------------------------------------------------------------------------------
-- One call at a time
-----------------------------------------------------------------------------------------

/-- A transaction sees what its statements have done. -/
def Sees (rows : Rows RowKey RowValue) (done : List SqlStatement)
    (pending : Pending RowKey RowValue)
    : Prop :=
  overlay rows pending = applyAll rows done

/-- A transaction that runs one more statement sees what that does as well. -/
theorem Sees.write {rows : Rows RowKey RowValue} {done : List SqlStatement}
    {pending : Pending RowKey RowValue} (sees : Sees rows done pending)
    (statement : SqlStatement)
    : Sees rows (done ++ [statement]) (statement.row.write rows pending) := by
  unfold Sees applyAll
  rw [overlay_write, List.foldl_append]
  exact congrArg statement.row.apply sees

namespace PgState

variable {clients : Nat} {requests : Nat → Request} {state next : PgState clients}
  {label : PgLabel clients} {call : Nat} {client : Fin clients} {tables : Tables} {lossy : Prop}
  {committed : List Nat}

/-- A call gets a client only when all are idle. Unless the database may be lossy, no connection
breaks after a query has run.
-/
def Serial (lossy : Prop) (state : PgState clients) : PgLabel clients → Prop
  | .connect _ _ => ∀ client, state.idle client = true
  | .reply _ .lostAfter => lossy
  | _ => True

instance [Decidable lossy] (state : PgState clients) (label : PgLabel clients)
    : Decidable (Serial lossy state label) :=
  match label with
  | .connect _ _ => inferInstanceAs (Decidable (∀ client, state.idle client = true))
  | .connectFails _ => .isTrue trivial
  | .reply _ .lostAfter => inferInstanceAs (Decidable lossy)
  | .reply _ .succeeds | .reply _ .refused | .reply _ .lost => .isTrue trivial

/-- Calls as statements, one after another. -/
def performAll (requests : Nat → Request) (tables : Tables) (calls : List Nat) : Tables :=
  calls.foldl (fun tables call => (requests call).perform tables) tables

/-- The calls that have committed make up the tables. At most one call holds a client, and its
transaction sees what its statements have done to them.
-/
structure OneByOne (requests : Nat → Request) (tables : Tables) (lossy : Prop)
    (committed : List Nat) (state : PgState clients)
    : Prop where
  alone : ∀ first second left right,
    state.Holds first left → state.Holds second right → first = second
  rows : state.rows = (performAll requests tables committed).rowsOf
  nodup : committed.Nodup
  resolved : ∀ call, state.stage call = .resolved → call ∈ committed
  ended : ∀ call ∈ committed, state.stage call = .resolved
    ∨ lossy ∧ (state.stage call = .rejected ∨ ∃ client, state.stage call = .rollingBack client)
  progress : ∀ call client todo, state.stage call = .trying client todo →
    Progress (requests call) (Sees state.rows) (state.sessions client) todo

/-- A call that waits for a client, or whose queries run, has not committed. -/
theorem OneByOne.uncommitted (byOne : state.OneByOne requests tables lossy committed)
    (running : state.stage call = .connecting
      ∨ ∃ client todo, state.stage call = .trying client todo)
    : call ∉ committed := by
  intro member
  rcases byOne.ended call member with ended | ⟨-, ended | ⟨any, ended⟩⟩
  all_goals
    rcases running with running | ⟨client, todo, running⟩ <;> cases running.symm.trans ended

/-- The call that holds a client is the only one. -/
theorem OneByOne.only (byOne : state.OneByOne requests tables lossy committed)
    (holds : state.Holds call client) (other : Nat) (any : Fin clients)
    (held : state.Holds other any)
    : other = call :=
  byOne.alone other call any client held holds

/-- A query of a transaction that is alone is served: it goes on, or all of it is in the tables. -/
theorem sees_serve {request : Request} {query : Query} {todo : List Query}
    {rows : Rows RowKey RowValue} {session : Session RowKey RowValue}
    (progress : Progress request (Sees state.rows) (state.sessions client) (query :: todo))
    (served : ServeCase state client query rows session)
    : todo ≠ [] ∧ rows = state.rows ∧ Progress request (Sees state.rows) session todo
      ∨ todo = [] ∧ rows = applyAll state.rows request.statements := by
  refine (progress_serve ?_ ?_ progress served).imp_right ?_
  · rfl
  · exact fun _ statement _ _ _ sees => Sees.write sees statement
  · rintro ⟨none, pending, sees, rfl⟩
    exact ⟨none, sees⟩

/-- A call comes to a stage, and no other holds a client. -/
theorem OneByOne.move {stage : CallStage clients} {later : List Nat}
    (byOne : state.OneByOne requests tables lossy committed)
    (alone : ∀ other any, state.Holds other any → other = call)
    (stages : next.stage = Function.update state.stage call stage)
    (rows : next.rows = (performAll requests tables later).rowsOf)
    (more : committed ⊆ later) (nodup : later.Nodup)
    (others : ∀ other ∈ later, other ≠ call → other ∈ committed)
    (resolved : stage = .resolved → call ∈ later)
    (ended : call ∈ later → stage = .resolved
      ∨ lossy ∧ (stage = .rejected ∨ ∃ client, stage = .rollingBack client))
    (progress : ∀ client todo, stage = .trying client todo →
      Progress (requests call) (Sees next.rows) (next.sessions client) todo)
    : next.OneByOne requests tables lossy later := by
  have held (other : Nat) (any : Fin clients) (holding : next.Holds other any)
      : other = call := by
    rw [holds_update state stages] at holding
    split at holding
    · assumption
    · exact alone other any holding
  have elsewhere (other : Nat) (differs : other ≠ call) : next.stage other = state.stage other := by
    rw [stages, Function.update_of_ne differs]
  have own : next.stage call = stage := by
    rw [stages, Function.update_self]
  refine ⟨fun first second left right one two => (held first left one).trans
    (held second right two).symm, rows, nodup, fun other done => ?_, fun other member => ?_,
    fun other any todo trying => ?_⟩
  · by_cases differs : other = call
    · subst differs
      exact resolved (own.symm.trans done)
    · exact more (byOne.resolved other ((elsewhere other differs).symm.trans done))
  · by_cases differs : other = call
    · subst differs
      rw [own]
      exact ended member
    · rw [elsewhere other differs]
      exact byOne.ended other (others other member differs)
  · obtain rfl := held other any (holds_of_trying trying)
    exact progress any todo (own.symm.trans trying)

/-- A call goes on or ends without a commit. -/
theorem OneByOne.stay {stage : CallStage clients}
    (byOne : state.OneByOne requests tables lossy committed)
    (alone : ∀ other any, state.Holds other any → other = call)
    (stages : next.stage = Function.update state.stage call stage) (rows : next.rows = state.rows)
    (unresolved : stage ≠ .resolved)
    (ended : call ∈ committed →
      lossy ∧ (stage = .rejected ∨ ∃ client, stage = .rollingBack client))
    (progress : ∀ client todo, stage = .trying client todo →
      Progress (requests call) (Sees next.rows) (next.sessions client) todo)
    : next.OneByOne requests tables lossy committed :=
  byOne.move alone stages (rows.trans byOne.rows) (List.Subset.refl _) byOne.nodup
    (fun _ member _ => member) (fun resolved => absurd resolved unresolved)
    (fun member => .inr (ended member)) progress

/-- The call that holds a client commits. -/
theorem OneByOne.commit {stage : CallStage clients} {query : Query} {todo : List Query}
    (byOne : state.OneByOne requests tables lossy committed)
    (trying : state.stage call = .trying client (query :: todo))
    (stages : next.stage = Function.update state.stage call stage)
    (rows : next.rows = applyAll state.rows (requests call).statements)
    (ended : stage = .resolved
      ∨ lossy ∧ (stage = .rejected ∨ ∃ client, stage = .rollingBack client))
    : next.OneByOne requests tables lossy (committed ++ [call]) := by
  have fresh := byOne.uncommitted (.inr ⟨_, _, trying⟩)
  refine byOne.move (byOne.only (holds_of_trying trying)) stages ?_
    (List.subset_append_left ..) ?_ (fun other member differs => ?_) (fun _ => ?_)
    (fun _ => ended) fun any rest same => ?_
  · rw [rows, byOne.rows, ← rowsOf_request, performAll, performAll, List.foldl_append]
    rfl
  · exact byOne.nodup.append (List.nodup_singleton call) (by simpa using fresh)
  · rcases List.mem_append.mp member with before | own
    · exact before
    · exact absurd (List.mem_singleton.mp own) differs
  · exact List.mem_append_right _ (List.mem_singleton_self call)
  · rcases ended with resolved | ⟨-, rejected | ⟨any, rolling⟩⟩
    · cases same.symm.trans resolved
    · cases same.symm.trans rejected
    · cases same.symm.trans rolling

/-- A call whose `connect` throws leaves everything as it was. -/
theorem OneByOne.throw (byOne : state.OneByOne requests tables lossy committed)
    (waits : state.stage call = .connecting)
    : OneByOne requests tables lossy committed
        { state with stage := Function.update state.stage call .rejected } := by
  have elsewhere {other : Nat} (differs : other ≠ call)
      : Function.update state.stage call .rejected other = state.stage other :=
    Function.update_of_ne differs _ _
  have running {other : Nat} {stage : CallStage clients} (runs : stage ≠ .rejected)
      (same : Function.update state.stage call .rejected other = stage)
      : state.stage other = stage := by
    by_cases own : other = call
    · subst own
      rw [Function.update_self] at same
      exact absurd same.symm runs
    · exact (elsewhere own).symm.trans same
  refine ⟨fun first second left right one two => ?_, byOne.rows, byOne.nodup,
    fun other done => byOne.resolved other (running nofun done), fun other member => ?_,
    fun other any todo trying => byOne.progress other any todo (running nofun trying)⟩
  · rw [holds_update state rfl] at one two
    split at one
    · cases one
    · split at two
      · cases two
      · exact byOne.alone first second left right one two
  · by_cases own : other = call
    · subst own
      exact absurd member (byOne.uncommitted (.inl waits))
    · rcases byOne.ended other member with ended | ⟨lost, ended | ⟨any, ended⟩⟩
      · exact .inl ((elsewhere own).trans ended)
      · exact .inr ⟨lost, .inl ((elsewhere own).trans ended)⟩
      · exact .inr ⟨lost, .inr ⟨any, (elsewhere own).trans ended⟩⟩

/-- A step of a serial run keeps the calls one by one. -/
theorem OneByOne.step (byOne : state.OneByOne requests tables lossy committed)
    (pooled : state.Pooled) (serial : state.Serial lossy label)
    (taken : state.step requests label = some next)
    : next.OneByOne requests tables lossy committed
      ∨ ∃ call, next.OneByOne requests tables lossy (committed ++ [call]) := by
  cases step_cases taken with
  | @connected call client waits free =>
      have alone (other : Nat) (any : Fin clients) (held : state.Holds other any)
          : other = call :=
        absurd held ((pooled.idle_iff any).mp (serial any) other)
      refine .inl (byOne.stay alone rfl rfl nofun
        (fun member => absurd member (byOne.uncommitted (.inl waits))) fun any rest same => ?_)
      obtain ⟨rfl, rfl⟩ := CallStage.trying.inj same
      have outside : (state.connect call client (requests call)).sessions client = .outside :=
        pooled.outside client free
      rw [outside]
      exact .waiting
  | @thrown call waits => exact .inl (byOne.throw waits)
  | @resolved call client query rows session trying served =>
      rcases sees_serve (byOne.progress _ _ _ trying) served with ⟨more, -⟩ | ⟨-, rows⟩
      · exact absurd rfl more
      · exact .inr ⟨call, byOne.commit trying rfl rows (.inl rfl)⟩
  | @served call client query todo rows session trying more served =>
      rcases sees_serve (byOne.progress _ _ _ trying) served with ⟨-, same, progress⟩ | ⟨none, -⟩
      · refine .inl (byOne.stay (byOne.only (holds_of_trying trying)) rfl same nofun
          (fun member => absurd member (byOne.uncommitted (.inr ⟨_, _, trying⟩)))
          fun any rest stage => ?_)
        obtain ⟨rfl, rfl⟩ := CallStage.trying.inj stage
        have unchanged : (state.move call client rows session (.trying client todo)).rows
            = state.rows :=
          same
        rw [sessions_move, unchanged]
        exact progress
      · exact absurd none more
  | @failed call client query todo session reply trying fewer =>
      exact .inl (byOne.stay (byOne.only (holds_of_trying trying)) rfl rfl nofun
        (fun member => absurd member (byOne.uncommitted (.inr ⟨_, _, trying⟩))) nofun)
  | @broken call client query todo rows session trying served =>
      have lost : lossy := serial
      rcases sees_serve (byOne.progress _ _ _ trying) served with ⟨-, same, -⟩ | ⟨-, rows⟩
      · exact .inl (byOne.stay (byOne.only (holds_of_trying trying)) rfl same nofun
          (fun member => absurd member (byOne.uncommitted (.inr ⟨_, _, trying⟩))) nofun)
      · exact .inr ⟨call, byOne.commit trying rfl rows (.inr ⟨lost, .inr ⟨client, rfl⟩⟩)⟩
  | @rejected call client session reply rolling ended =>
      refine .inl (byOne.stay (byOne.only (holds_of_rolling rolling)) rfl rfl nofun
        (fun member => ?_) nofun)
      rcases byOne.ended call member with resolved | ⟨lost, -⟩
      · cases rolling.symm.trans resolved
      · exact ⟨lost, .inl rfl⟩

/-- Where no two calls overlap, the database holds what the calls that have committed make of it,
one after another and each as a whole. A call that is resolved has committed. One that has committed
is resolved, unless its connection broke after a query had run.
-/
theorem serial_runs_refine
    (reached : Run (step requests) (Serial lossy) (fresh tables.rowsOf) state)
    : ∃ committed : List Nat,
        committed.Nodup
        ∧ state.rows = (performAll requests tables committed).rowsOf
        ∧ (∀ call, state.stage call = .resolved → call ∈ committed)
        ∧ ∀ call ∈ committed, state.stage call = .resolved
          ∨ lossy ∧ (state.stage call = .rejected
            ∨ ∃ client, state.stage call = .rollingBack client) := by
  have sound : state.Pooled
      ∧ ∃ committed, state.OneByOne requests tables lossy committed := by
    induction reached with
    | refl => exact ⟨pooled_fresh _, [], nofun, rfl, .nil, nofun, nofun, nofun⟩
    | next _ serial taken before =>
        obtain ⟨pooled, committed, byOne⟩ := before
        refine ⟨pooled.step taken, ?_⟩
        rcases byOne.step pooled serial taken with byOne | ⟨call, byOne⟩
        · exact ⟨committed, byOne⟩
        · exact ⟨committed ++ [call], byOne⟩
  obtain ⟨-, committed, byOne⟩ := sound
  exact ⟨committed, byOne.nodup, byOne.rows, byOne.resolved, byOne.ended⟩

theorem serial_runs_refine_in_turn
    : ∃ state : PgState 2,
        Run (step redirectRequests) (Serial False) (fresh Tables.empty.rowsOf) state
        ∧ ∃ committed, 0 ∈ committed ∧ 1 ∈ committed
          ∧ state.rows = (performAll redirectRequests .empty committed).rowsOf := by
  have passes : (execute (step redirectRequests) (Serial False) (fresh Tables.empty.rowsOf)
      inTurn).any fun state => state.stage 0 = .resolved ∧ state.stage 1 = .resolved := by
    decide +kernel
  obtain ⟨state, run, both⟩ := exists_run_of_any passes
  obtain ⟨saved, queued⟩ := of_decide_eq_true both
  obtain ⟨committed, -, rows, resolved, -⟩ := serial_runs_refine run
  exact ⟨state, run, committed, resolved 0 saved, resolved 1 queued, rows⟩

end PgState

end WebIndexer.Store
