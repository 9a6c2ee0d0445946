import WebIndexer.Store.PgTransactions

/-! What overlapping calls of the two functions of `createPgTransactions` leave in the tables. An
address leaves the frontier only when it is visited, and nothing that is saved goes away.
-/

namespace WebIndexer.Store

open WebIndexer.Library

/-- The rows that nothing deletes. -/
def RowKey.lasts : RowKey → Bool
  | .queued _ => false
  | _ => true

/-- What stays of rows: those that last, and each address of the frontier unless it is visited. -/
structure Grows (rows later : Rows RowKey RowValue) : Prop where
  stays : ∀ key, key.lasts = true → (rows key).isSome → (later key).isSome
  settles : ∀ url,
    (rows (.queued url)).isSome → (later (.queued url)).isSome ∨ (later (.visited url)).isSome

/-- Rows stay as they are. -/
theorem Grows.refl (rows : Rows RowKey RowValue) : Grows rows rows :=
  ⟨fun _ _ => id, fun _ => .inl⟩

/-- What stays after one change and then another. -/
theorem Grows.trans {rows middle later : Rows RowKey RowValue} (first : Grows rows middle)
    (second : Grows middle later)
    : Grows rows later := by
  refine ⟨fun key lasts present => second.stays key lasts (first.stays key lasts present),
    fun url queued => ?_⟩
  rcases first.settles url queued with queued | visited
  · exact second.settles url queued
  · exact .inr (second.stays _ rfl visited)

/-- What a statement has left in the rows. -/
def Leaves (rows : Rows RowKey RowValue) : SqlStatement → Prop
  | .upsertNode page => (rows (.node page.url)).isSome
  | .markVisited url => (rows (.visited url)).isSome
  | .deleteFromFrontier _ => True
  | .insertFrontier item =>
      (rows (.queued item.url)).isSome ∨ (rows (.visited item.url)).isSome

/-- What a statement has left stays. -/
theorem Leaves.grow {rows later : Rows RowKey RowValue} {statement : SqlStatement}
    (left : Leaves rows statement) (grows : Grows rows later)
    : Leaves later statement := by
  cases statement with
  | upsertNode page => exact grows.stays _ rfl left
  | markVisited url => exact grows.stays _ rfl left
  | deleteFromFrontier url => trivial
  | insertFrontier item =>
      rcases left with queued | visited
      · exact grows.settles _ queued
      · exact .inr (grows.stays _ rfl visited)

/-- A row that is put is there, and the others are as they were. -/
theorem isSome_update {rows : Rows RowKey RowValue} {key other : RowKey} {value : RowValue}
    (present : (rows other).isSome)
    : (Function.update rows key (some value) other).isSome := by
  by_cases same : other = key
  · subst same
    rw [Function.update_self]
    rfl
  · rwa [Function.update_of_ne same]

/-- Rows to which one is added. -/
theorem grows_update (rows : Rows RowKey RowValue) (key : RowKey) (value : RowValue)
    : Grows rows (Function.update rows key (some value)) :=
  ⟨fun _ _ => isSome_update, fun _ queued => .inl (isSome_update queued)⟩

/-- An insertion leaves its row, and the others. -/
theorem grows_insert (rows : Rows RowKey RowValue) (key : RowKey) (value : RowValue)
    : Grows rows ((RowStatement.insert key value).apply rows)
      ∧ ((RowStatement.insert key value).apply rows key).isSome := by
  simp only [RowStatement.apply]
  split
  · rename_i present
    exact ⟨.refl rows, present⟩
  · refine ⟨grows_update rows key value, ?_⟩
    rw [Function.update_self]
    rfl

/-- A statement leaves what it should, and keeps the rest, if it takes only what is visited off the
frontier.
-/
theorem grows_apply {rows : Rows RowKey RowValue} {statement : SqlStatement}
    (visited : ∀ url, statement = .deleteFromFrontier url → (rows (.visited url)).isSome)
    : Grows rows (statement.row.apply rows) ∧ Leaves (statement.row.apply rows) statement := by
  cases statement with
  | upsertNode page =>
      refine ⟨grows_update rows _ _, ?_⟩
      simp [Leaves, SqlStatement.row, RowStatement.apply]
  | markVisited url => exact grows_insert rows _ _
  | insertFrontier item => exact (grows_insert rows _ _).imp_right .inl
  | deleteFromFrontier url =>
      have others {key : RowKey} (differs : key ≠ .queued url)
          : (RowStatement.delete (.queued url)).apply rows key = rows key :=
        Function.update_of_ne differs _ _
      refine ⟨⟨fun key lasts present => ?_, fun other queued => ?_⟩, trivial⟩
      · have differs : key ≠ .queued url := by
          rintro rfl
          cases lasts
        exact (others differs).symm ▸ present
      · by_cases same : other = url
        · subst same
          have differs : RowKey.visited other ≠ .queued other := RowKey.noConfusion
          exact .inr ((others differs).symm ▸ visited other rfl)
        · have differs : RowKey.queued other ≠ .queued url := fun key =>
            same (RowKey.queued.inj key)
          exact .inl ((others differs).symm ▸ queued)

-----------------------------------------------------------------------------------------
-- The order of the statements
-----------------------------------------------------------------------------------------

/-- `saveNode` marks an address as visited before it takes it off the frontier. -/
theorem marked_before {request : Request} {done rest : List SqlStatement} {url : String}
    (statements : request.statements = done ++ .deleteFromFrontier url :: rest)
    : .markVisited url ∈ done := by
  cases request with
  | saveNode page =>
      simp only [Request.statements] at statements
      split at statements
      all_goals
        simp only [List.cons_append, List.nil_append, List.append_nil, List.cons_eq_append_iff,
          List.nil_eq_append_iff] at statements
        grind
  | insertManyFrontier items =>
      have member : .deleteFromFrontier url ∈ items.map SqlStatement.insertFrontier :=
        (show items.map _ = _ from statements) ▸ List.mem_append_right done (List.mem_cons_self ..)
      obtain ⟨item, -, same⟩ := List.mem_map.mp member
      cases same

/-- `saveNode` marks the address of its page as visited. -/
theorem marked_with {request : Request} {page : PageData}
    (writes : .upsertNode page ∈ request.statements)
    : .markVisited page.url ∈ request.statements := by
  cases request with
  | saveNode saved =>
      simp only [Request.statements] at writes ⊢
      split at writes <;> simp_all
  | insertManyFrontier items =>
      obtain ⟨item, -, same⟩ := List.mem_map.mp writes
      cases same

-----------------------------------------------------------------------------------------
-- A transaction
-----------------------------------------------------------------------------------------

/-- What the writes of a transaction that has run some statements do to the rows. -/
structure Orderly (request : Request) (rows : Rows RowKey RowValue) (done : List SqlStatement)
    (pending : Pending RowKey RowValue)
    : Prop where
  lasts : ∀ key, key.lasts = true → pending key ≠ some none
  visited : ∀ url,
    pending (.queued url) = some none → (overlay rows pending (.visited url)).isSome
  saved : ∀ url, (pending (.node url)).isSome → .markVisited url ∈ request.statements
  left : ∀ statement ∈ done, Leaves (overlay rows pending) statement

namespace Orderly

variable {request : Request} {rows later : Rows RowKey RowValue} {done rest : List SqlStatement}
  {pending : Pending RowKey RowValue} {statement : SqlStatement}

/-- A transaction that has written nothing. -/
theorem start (request : Request) (rows : Rows RowKey RowValue)
    : Orderly request rows [] fun _ => none :=
  ⟨nofun, nofun, nofun, nofun⟩

/-- A transaction runs its next statement. -/
theorem write (orderly : Orderly request rows done pending)
    (statements : request.statements = done ++ statement :: rest)
    : Orderly request rows (done ++ [statement]) (statement.row.write rows pending) := by
  have visited (url : String) (deletes : statement = .deleteFromFrontier url)
      : (overlay rows pending (.visited url)).isSome :=
    orderly.left (.markVisited url) (marked_before (deletes ▸ statements))
  obtain ⟨grows, leaves⟩ := grows_apply visited
  have sees := overlay_write rows pending statement.row
  refine ⟨fun key lasts deleted => ?_, fun url deleted => ?_, fun url written => ?_,
    fun any member => ?_⟩
  · rcases deleted_cases deleted with before | own
    · exact orderly.lasts key lasts before
    · cases statement with
      | deleteFromFrontier url =>
          obtain rfl := RowStatement.delete.inj own
          cases lasts
      | upsertNode | markVisited | insertFrontier => cases own
  · rw [sees]
    rcases deleted_cases deleted with before | own
    · exact grows.stays _ rfl (orderly.visited url before)
    · cases statement with
      | deleteFromFrontier other =>
          obtain rfl := RowKey.queued.inj (RowStatement.delete.inj own)
          exact grows.stays _ rfl (visited other rfl)
      | upsertNode | markVisited | insertFrontier => cases own
  · rcases write_cases written with before | ⟨own, -⟩
    · exact orderly.saved url before
    · cases statement with
      | upsertNode page =>
          obtain rfl := RowKey.node.inj own
          exact marked_with (statements ▸ List.mem_append_right done (List.mem_cons_self ..))
      | markVisited | deleteFromFrontier | insertFrontier => cases own
  · rw [sees]
    rcases List.mem_append.mp member with before | own
    · exact (orderly.left any before).grow grows
    · obtain rfl := List.mem_singleton.mp own
      exact leaves

/-- What a transaction sees when another commits. -/
theorem grows_overlay (orderly : Orderly request rows done pending) (grows : Grows rows later)
    : Grows (overlay rows pending) (overlay later pending) := by
  refine ⟨fun key lasts => overlay_mono (grows.stays key lasts), fun url queued => ?_⟩
  cases own : pending (.queued url) with
  | some value =>
      simp only [overlay, own] at queued
      simp only [overlay, own]
      exact .inl queued
  | none =>
      simp only [overlay, own] at queued
      rcases grows.settles url queued with queued | visited
      · exact .inl (overlay_stays (by simp [own]) queued)
      · exact .inr (overlay_stays (orderly.lasts _ rfl) visited)

/-- A transaction goes on undisturbed when another commits. -/
theorem grow (orderly : Orderly request rows done pending) (grows : Grows rows later)
    : Orderly request later done pending where
  lasts := orderly.lasts
  visited := fun url deleted =>
    overlay_mono (grows.stays _ rfl) (orderly.visited url deleted)
  saved := orderly.saved
  left := fun statement member =>
    (orderly.left statement member).grow (orderly.grows_overlay grows)

/-- What stays of the rows when the transaction commits. -/
theorem commit (orderly : Orderly request rows done pending)
    : Grows rows (overlay rows pending) := by
  refine ⟨fun key lasts present => overlay_stays (orderly.lasts key lasts) present,
    fun url queued => ?_⟩
  by_cases deleted : pending (.queued url) = some none
  · exact .inr (orderly.visited url deleted)
  · exact .inl (overlay_stays deleted queued)

end Orderly

-----------------------------------------------------------------------------------------
-- The calls
-----------------------------------------------------------------------------------------

/-- Every saved page is visited. -/
def Integral (rows : Rows RowKey RowValue) : Prop :=
  ∀ url, (rows (.node url)).isSome → (rows (.visited url)).isSome

/-- A transaction that has run all its statements keeps every saved page visited. -/
theorem Orderly.integral {request : Request} {rows : Rows RowKey RowValue}
    {pending : Pending RowKey RowValue}
    (orderly : Orderly request rows request.statements pending) (before : Integral rows)
    : Integral (overlay rows pending) := by
  intro url present
  cases own : pending (.node url) with
  | some value => exact orderly.left (.markVisited url) (orderly.saved url (own ▸ rfl))
  | none =>
      simp only [overlay, own] at present
      exact overlay_stays (orderly.lasts _ rfl) (before url present)

namespace PgState

variable {clients : Nat} {requests : Nat → Request} {state next : PgState clients}
  {label : PgLabel clients} {call : Nat} {client : Fin clients}

/-- What stays of the rows, and what a transaction has left, when one of its queries is served. -/
theorem grows_serve {request : Request} {query : Query} {todo : List Query}
    {rows : Rows RowKey RowValue} {session : Session RowKey RowValue}
    (progress : Progress request (Orderly request state.rows) (state.sessions client)
      (query :: todo))
    (served : ServeCase state client query rows session)
    : Grows state.rows rows
      ∧ (Integral state.rows → Integral rows)
      ∧ (todo ≠ [] → Progress request (Orderly request rows) session todo)
      ∧ (todo = [] → ∀ statement ∈ request.statements, Leaves rows statement) := by
  have goes := progress_serve (.start request state.rows)
    (fun _ _ _ _ statements orderly => orderly.write statements) progress served
  rcases goes with ⟨more, rfl, progress⟩ | ⟨none, pending, orderly, rfl⟩
  · exact ⟨.refl state.rows, id, fun _ => progress, fun none => absurd none more⟩
  · exact ⟨orderly.commit, orderly.integral, fun more => absurd none more, fun _ => orderly.left⟩

/-- The tables and the calls on the way: each transaction has come some way, every saved page is
visited, and what the calls that are resolved have left is there.
-/
structure Sound (requests : Nat → Request) (state : PgState clients) : Prop where
  progress : ∀ call client todo, state.stage call = .trying client todo →
    Progress (requests call) (Orderly (requests call) state.rows) (state.sessions client) todo
  integral : Integral state.rows
  left : ∀ call, state.stage call = .resolved →
    ∀ statement ∈ (requests call).statements, Leaves state.rows statement

/-- A call comes to a stage, and the sessions that the others hold are as before. -/
theorem Sound.update {stage : CallStage clients} (sound : state.Sound requests)
    (stages : next.stage = Function.update state.stage call stage)
    (others : ∀ other any, other ≠ call → state.Holds other any →
      next.sessions any = state.sessions any)
    (grows : Grows state.rows next.rows) (integral : Integral next.rows)
    (progress : ∀ any todo, stage = .trying any todo →
      Progress (requests call) (Orderly (requests call) next.rows) (next.sessions any) todo)
    (left : stage = .resolved → ∀ statement ∈ (requests call).statements,
      Leaves next.rows statement)
    : next.Sound requests := by
  refine ⟨fun other any todo trying => ?_, integral, fun other resolved => ?_⟩
  · rw [stages] at trying
    by_cases own : other = call
    · subst own
      rw [Function.update_self] at trying
      exact progress any todo trying
    · rw [Function.update_of_ne own] at trying
      rw [others other any own (holds_of_trying trying)]
      exact (sound.progress other any todo trying).mono fun _ _ orderly => orderly.grow grows
  · rw [stages] at resolved
    by_cases own : other = call
    · subst own
      rw [Function.update_self] at resolved
      exact left resolved
    · rw [Function.update_of_ne own] at resolved
      exact fun statement member => (sound.left other resolved statement member).grow grows

/-- The session of the client of one call is not that of another. -/
theorem Pooled.others {session : Session RowKey RowValue} (pooled : state.Pooled)
    (holds : state.Holds call client) (other : Nat) (any : Fin clients) (differs : other ≠ call)
    (held : state.Holds other any)
    : Function.update state.sessions client session any = state.sessions any := by
  refine Function.update_of_ne ?_ _ _
  rintro rfl
  exact differs (pooled.once any other call held holds)

/-- A step leaves the tables sound. -/
theorem Sound.step (sound : state.Sound requests) (pooled : state.Pooled)
    (taken : state.step requests label = some next)
    : next.Sound requests ∧ Grows state.rows next.rows := by
  cases step_cases taken with
  | connected waits free =>
      refine ⟨sound.update rfl (fun _ _ _ _ => rfl) (.refl _) sound.integral
        (fun any todo same => ?_) nofun, .refl _⟩
      obtain ⟨rfl, rfl⟩ := CallStage.trying.inj same
      exact (pooled.outside _ free) ▸ .waiting
  | thrown waits =>
      exact ⟨sound.update rfl (fun _ _ _ _ => rfl) (.refl _) sound.integral nofun nofun, .refl _⟩
  | @resolved call client query rows session trying served =>
      have holds := holds_of_trying trying
      obtain ⟨grows, integral, -, left⟩ :=
        grows_serve (sound.progress call client [query] trying) served
      exact ⟨sound.update rfl (pooled.others holds) grows (integral sound.integral) nofun
        fun _ => left rfl, grows⟩
  | @served call client query todo rows session trying more served =>
      have holds := holds_of_trying trying
      obtain ⟨grows, integral, progress, -⟩ :=
        grows_serve (sound.progress call client (query :: todo) trying) served
      refine ⟨sound.update rfl (pooled.others holds) grows (integral sound.integral)
        (fun any rest same => ?_) nofun, grows⟩
      obtain ⟨rfl, rfl⟩ := CallStage.trying.inj same
      rw [sessions_move]
      exact progress more
  | @failed call client query todo session reply trying fewer =>
      have holds := holds_of_trying trying
      exact ⟨sound.update rfl (pooled.others holds) (.refl _) sound.integral nofun nofun, .refl _⟩
  | @broken call client query todo rows session trying served =>
      have holds := holds_of_trying trying
      obtain ⟨grows, integral, -, -⟩ :=
        grows_serve (sound.progress call client (query :: todo) trying) served
      exact ⟨sound.update rfl (pooled.others holds) grows (integral sound.integral) nofun nofun,
        grows⟩
  | @rejected call client session reply rolling ended =>
      have holds := holds_of_rolling rolling
      exact ⟨sound.update rfl (pooled.others holds) (.refl _) sound.integral nofun nofun, .refl _⟩

/-- What a call that is resolved promises: the page and its two addresses are saved, or each item
is on the frontier or visited.
-/
def Promised (rows : Rows RowKey RowValue) : Request → Prop
  | .saveNode page =>
      (rows (.node page.url)).isSome ∧ (rows (.visited page.url)).isSome
      ∧ (rows (.visited page.origUrl)).isSome
  | .insertManyFrontier items =>
      ∀ item ∈ items, (rows (.queued item.url)).isSome ∨ (rows (.visited item.url)).isSome

/-- A call keeps its promise where its statements have left what they should. -/
theorem promised_of_leaves {rows : Rows RowKey RowValue} {request : Request}
    (left : ∀ statement ∈ request.statements, Leaves rows statement)
    : Promised rows request := by
  cases request with
  | saveNode page =>
      have marked := left (.markVisited page.url) (by simp [Request.statements])
      refine ⟨left (.upsertNode page) (by simp [Request.statements]), marked, ?_⟩
      by_cases moved : page.origUrl = page.url
      · exact moved ▸ marked
      · exact left (.markVisited page.origUrl) (by simp [Request.statements, moved])
  | insertManyFrontier items =>
      exact fun item member => left (.insertFrontier item) (List.mem_map_of_mem member)

/-- However the calls overlap, and whatever is refused or breaks: every saved page is visited, a
call that is resolved keeps its promise for good, pages and visited addresses stay, and an address
leaves the frontier only when it is visited.
-/
theorem tables_in_order {rows : Rows RowKey RowValue} (integral : Integral rows)
    (reached : Reaches (step requests) (fresh rows) state)
    : Integral state.rows
      ∧ (∀ call, state.stage call = .resolved → Promised state.rows (requests call))
      ∧ Grows rows state.rows := by
  have sound : state.Pooled ∧ state.Sound requests ∧ Grows rows state.rows := by
    induction reached with
    | refl => exact ⟨pooled_fresh rows, ⟨nofun, integral, nofun⟩, .refl rows⟩
    | next _ _ taken before =>
        obtain ⟨pooled, sound, grows⟩ := before
        have later := sound.step pooled taken
        exact ⟨pooled.step taken, later.1, grows.trans later.2⟩
  exact ⟨sound.2.1.integral, fun call resolved => promised_of_leaves (sound.2.1.left call resolved),
    sound.2.2⟩

theorem tables_in_order_of_overlap
    : ∃ state : PgState 2, Reaches (step redirectRequests) (fresh fun _ => none) state
        ∧ Promised state.rows (redirectRequests 0) ∧ Promised state.rows (redirectRequests 1) := by
  obtain ⟨state, reached, saved, queued⟩ := overlap_resolves
  have integral : Integral fun _ => none := nofun
  have promised := (tables_in_order integral reached).2.1
  exact ⟨state, reached, promised 0 saved, promised 1 queued⟩

end PgState

end WebIndexer.Store
