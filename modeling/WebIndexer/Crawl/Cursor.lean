import WebIndexer.Crawl.Places
import WebIndexer.Crawl.Stalling

/-! The cursor of the frontier, in `src/queue.ts`. An invocation of `processNext` moves the cursor
past its whole batch and then goes through the rows one by one, so that rows are skipped when
it stops early: at the limit of concurrent fetches, or when a statement is rejected. On PostgreSQL
a row can also become visible behind the cursor, when two insertions overlap.
-/

namespace WebIndexer.Crawl

open WebIndexer.Config
open WebIndexer.Library
open WebIndexer.Store

-----------------------------------------------------------------------------------------
-- The rows that an invocation goes through
-----------------------------------------------------------------------------------------

/-- The addresses that an invocation has before it, at a point of its admission loop. -/
def Point.pending? : Point → Option (List String)
  | .forItem items _ => some (items.map FrontierItem.url)
  | .visitedRead item rest _ | .examine item rest _ => some ((item :: rest).map FrontierItem.url)
  | .skipped url rest _ => some (url :: rest.map FrontierItem.url)
  | .checkRobots visit | .robotsFetched visit | .robotsGate visit | .blockedMarked visit
  | .blockedDeleted visit | .start visit => some ((visit.item :: visit.rest).map FrontierItem.url)
  | _ => none

/-- The address that the admission loop deletes at a point. -/
def Point.discards? : Point → Option String
  | .skipped url _ _ => some url
  | .blockedDeleted visit => some visit.item.url
  | _ => none

/-- The addresses that a thread has before it. A deletion that is over has been seen to. -/
def Thread.pending (thread : Thread) : List String :=
  match thread.point, thread.phase with
  | .skipped _ rest _, .ready (.reply _) => rest.map FrontierItem.url
  | .blockedDeleted visit, .ready (.reply _) => visit.rest.map FrontierItem.url
  | point, _ => point.pending?.getD []

/-- The address that a piece is done with, without a statement: its item is started, or passed
over because its domain is at its limit.
-/
def Shared.examines? (env : Env) (shared : Shared) : Point → Option String
  | .start visit => some visit.item.url
  | .examine item _ _ =>
      if env.domainOf item ≠ "" ∧ env.domainOf item ∉ shared.crawl.domainBlacklist
          ∧ domainLimit ≤ shared.crawl.domainInflight (env.domainOf item) then
        some item.url
      else
        none
  | _ => none

/-- The addresses of the rows that a move of the cursor passes. -/
def Shared.passed (shared : Shared) (cursor : Nat) : List String :=
  (shared.tables.frontier.rows.filter fun row =>
    shared.frontierCursor < row.id ∧ row.id ≤ cursor).map fun row => row.url

/-- An empty batch takes the cursor back to the start. -/
def Point.wraps (point : Point) (input : Input) : Bool :=
  match point, input.value? with
  | .batchRead _, some (.rows []) => true
  | _, _ => false

/-- Any other batch moves it to the last row. -/
def Input.bringsRows (input : Input) : Bool :=
  match input.value? with
  | some (.rows (_ :: _)) => true
  | _ => false

-----------------------------------------------------------------------------------------
-- Debts
-----------------------------------------------------------------------------------------

/-- The rows that the cursor has been moved past, by their addresses. Each thread owes those that
it has moved the cursor past and not examined yet; they stand in the order of the threads.
Those are lost whose invocation has ended, or that the cursor wrapped before, unexamined.
-/
structure Debts where
  owed : List (List String)
  lost : List String

namespace Debts

/-- The addresses without one that has been examined. -/
def without (own : List String) (examined : Option String) : List String :=
  own.filter fun url => some url ≠ examined

/-- A thread begins that owes nothing. -/
def begin (debts : Debts) : Debts :=
  { debts with owed := [] :: debts.owed }

/-- A thread of the pool moves on, and may have examined an address. -/
def move (debts : Debts) (index : Nat) (examined : Option String) : Debts :=
  match pick debts.owed index with
  | some (own, others) => { debts with owed := without own examined :: others }
  | none => debts

/-- What the piece that runs owes. -/
def own (debts : Debts) : List String :=
  debts.owed.headD []

/-- What the others owe. -/
def others (debts : Debts) : List (List String) :=
  debts.owed.tail

/-- A piece leaves what it owes to the thread that goes on with its loop. Without one it is lost,
and so is all that the others owe when the cursor wraps.
-/
def run (debts : Debts) (due : List String) (threads : List Thread) (wraps : Bool) : Debts where
  owed :=
    threads.map (fun thread => if thread.point.pending?.isSome then due else [])
      ++ if wraps then debts.others.map fun _ => [] else debts.others
  lost :=
    debts.lost
      ++ (if threads.any fun thread => thread.point.pending?.isSome then [] else due)
      ++ if wraps then debts.others.flatten else []

end Debts

namespace State

/-- The debts after a step. -/
def account (env : Env) (state : State) (label : Label) (debts : Debts) : Debts :=
  match label with
  | .run seeds =>
      match state.running with
      | some ⟨.ready input, point⟩ =>
          let outcome := state.shared.resume env seeds input point
          let due := Debts.without debts.own (state.shared.examines? env point)
            ++ state.shared.passed outcome.shared.frontierCursor
          debts.run due outcome.threads (point.wraps input)
      | _ => debts
  | .exec index ending choice =>
      debts.move index
        (if ending = .rejected then
          none
        else
          (state.acting (.exec index ending choice)).bind fun thread => thread.point.discards?)
  | .http index _ | .record index | .wake index => debts.move index none
  | .statsTimer | .message .. => debts.begin
  | .clearTimer => if env.backend = .pg then debts else debts.begin
  | .tick _ | .diskTimer .. => debts

/-- The step of a crawl, with the debts of its threads. -/
def accounting (env : Env) : State × Debts → Label → Option (State × Debts) :=
  observing (step env) (account env)

end State

/-- A piece stops short of nothing that it owes: it has a free slot or no debts when it would go
on with its loop, and an await without a handler gets its answer. A batch has all rows that
the cursor moves past, and an empty one comes when nobody owes anything.
-/
def Debts.Spared (shared : Shared) (input : Input) (debts : Debts) : Point → Prop
  | .forItem .. => concurrency ≤ shared.active → debts.own = []
  | .visitedRead .. | .blockedMarked _ | .blockedDeleted _ =>
      input.value?.isNone = true → debts.own = []
  | .batchRead cursor =>
      (Point.wraps (.batchRead cursor) input = true → ∀ own ∈ debts.others, own = [])
      ∧ (input.bringsRows = true →
        ∀ row ∈ shared.tables.frontier.rows, row.id ≤ shared.frontierCursor ∨ cursor < row.id)
  | _ => True

instance (shared : Shared) (input : Input) (debts : Debts)
    : DecidablePred (debts.Spared shared input) := fun point =>
  match point with
  | .forItem .. => inferInstanceAs (Decidable (_ → _))
  | .visitedRead .. | .blockedMarked _ | .blockedDeleted _ =>
      inferInstanceAs (Decidable (input.value?.isNone = true → debts.own = []))
  | .batchRead _ => inferInstanceAs (Decidable ((_ → ∀ _ ∈ _, _) ∧ (_ → ∀ _ ∈ _, _)))
  | .cursorRead | .entry | .yielded | .recrawlRead _ | .recrawlLoop _ | .recrawlInserted ..
  | .examine .. | .skipped .. | .checkRobots _ | .robotsFetched _ | .robotsGate _ | .start _
  | .seedLoop .. | .seedVisited .. | .seedInserted .. | .seedCounted _ | .fetched _ | .saved ..
  | .linksInserted .. | .recrawlMarked _ | .recrawlDeleted _ | .failMarked _ | .failDeleted _
  | .finalise _ | .nodesCounted _ | .frontierCounted _ | .popRead _ | .refreshed _ | .countsRead
  | .statsBody | .cleared | .consumed _ => .isTrue trivial

/-- A thread that is about to run is spared. -/
def Debts.Spares (shared : Shared) (debts : Debts) : Thread → Prop
  | ⟨.ready input, point⟩ => debts.Spared shared input point
  | _ => True

instance (shared : Shared) (debts : Debts) : DecidablePred (debts.Spares shared) := fun thread =>
  match thread with
  | ⟨.ready input, point⟩ => inferInstanceAs (Decidable (debts.Spared shared input point))
  | ⟨.statement, _⟩ | ⟨.http .., _⟩ | ⟨.settled _, _⟩ => .isTrue trivial

/-- The piece that runs is spared, and no deletion of a row that its invocation owes is rejected. -/
def State.ExaminesAll (state : State × Debts) : Label → Prop
  | .run _ => ∀ thread ∈ state.1.running, state.2.Spares state.1.shared thread
  | .exec index ending choice =>
      ending = .rejected →
        ∀ url ∈ (state.1.acting (.exec index ending choice)).bind fun thread =>
            thread.point.discards?,
          ∀ picked ∈ pick state.2.owed index, url ∉ picked.1
  | _ => True

instance : DecidableRel State.ExaminesAll := fun _ label =>
  match label with
  | .run _ => inferInstanceAs (Decidable (∀ _ ∈ _, _))
  | .exec _ _ _ => inferInstanceAs (Decidable (_ → ∀ _ ∈ _, ∀ _ ∈ _, _))
  | .tick _ | .http .. | .record _ | .wake _ | .statsTimer | .clearTimer | .diskTimer ..
  | .message .. => .isTrue trivial

/-- The thread waits for a statement that inserts rows into `frontier`. -/
def Thread.isInserting (thread : Thread) : Bool :=
  match thread.phase, thread.point.statement with
  | .statement, some (.insertFrontier _) | .statement, some (.insertManyFrontier _) => true
  | _, _ => false

/-- On PostgreSQL no two insertions of frontier rows are with the database at once. Each draws its
ids inside a transaction of its own, and rows come to be seen in the order of their ids, as they
do in `Tables`, only as long as these transactions do not overlap. SQLite runs its statements
one after the other.
-/
def State.InsertsInTurn (env : Env) (state : State) : Prop :=
  env.backend = .pg → state.threads.countP Thread.isInserting ≤ 1

instance (env : Env) (state : State) : Decidable (state.InsertsInTurn env) :=
  inferInstanceAs (Decidable (_ → _))

/-- A step skips no row: rows become visible in the order of their ids, and those that the cursor
has been moved past are all examined.
-/
def State.Thorough (env : Env) (state : State × Debts) (label : Label) : Prop :=
  state.1.InsertsInTurn env ∧ State.ExaminesAll state label

instance (env : Env) : DecidableRel (State.Thorough env) :=
  fun _ _ => inferInstanceAs (Decidable (_ ∧ _))

-----------------------------------------------------------------------------------------
-- What threads have read of the frontier
-----------------------------------------------------------------------------------------

/-- A batch that has arrived has all rows between its cursor and its end, and the least id that has
been read is above no row. Both hold of rows to come, which have new ids.
-/
structure Thread.Reads (frontier : Frontier) (thread : Thread) : Prop where
  batch
    : ∀ cursor rows last,
        thread = ⟨.ready (.reply (some (.rows rows))), .batchRead cursor⟩ →
        last ∈ rows.getLast? →
        last.id < frontier.nextId
        ∧ ∀ row ∈ frontier.rows, cursor < row.id → row.id ≤ last.id → row ∈ rows
  least
    : ∀ id,
        thread = ⟨.ready (.reply (some (.minId (some (id + 1))))), .cursorRead⟩ →
        id < frontier.nextId ∧ ∀ row ∈ frontier.rows, id < row.id

/-- A thread without a reply has read nothing. -/
theorem Thread.Reads.of_fresh {frontier : Frontier} {thread : Thread}
    (fresh : thread.phase.isReply = false)
    : thread.Reads frontier := by
  constructor
  · rintro _ _ _ rfl
    cases fresh
  · rintro _ rfl
    cases fresh

/-- What has been read stays true of the frontier. -/
theorem Thread.Reads.later {before after : Frontier} {thread : Thread}
    (reads : thread.Reads before) (later : Frontier.Later before after)
    : thread.Reads after := by
  constructor
  · intro cursor rows last same ends
    obtain ⟨drawn, all⟩ := reads.batch cursor rows last same ends
    refine ⟨Nat.lt_of_lt_of_le drawn later.nextId, fun row member above below => ?_⟩
    rcases later.rows row member with old | new
    · exact all row old above below
    · omega
  · intro id same
    obtain ⟨drawn, all⟩ := reads.least id same
    refine ⟨Nat.lt_of_lt_of_le drawn later.nextId, fun row member => ?_⟩
    rcases later.rows row member with old | new
    · exact all row old
    · omega

variable {env : Env}

/-- A statement leads to a later frontier. -/
theorem Executed.later {tables after : Tables} {statement : Statement} {ending : Ending}
    {reply : Option Value} (executed : Executed env tables statement ending after reply)
    : Frontier.Later tables.frontier after.frontier := by
  cases executed with
  | done ran | lost ran => exact Tables.later_run ran
  | rejected => exact .refl _

/-- A batch and a least id are read from the frontier as it is. -/
theorem Executed.reads {tables after : Tables} {point : Point} {statement : Statement}
    {ending : Ending} {reply : Option Value} (waits : point.statement = some statement)
    (executed : Executed env tables statement ending after reply)
    : (Thread.mk (.ready (.reply reply)) point).Reads after.frontier := by
  constructor
  · rintro cursor rows last ⟨⟩ ends
    obtain rfl := Option.some.inj waits
    cases executed with
    | done ran =>
        have listed := Tables.rows_getBatch ran (List.mem_of_mem_getLast? ends)
        have all (row : FrontierRow) (member : row ∈ tables.frontier.rows)
            (above : cursor < row.id) (below : row.id ≤ last.id) : row ∈ rows :=
          Tables.mem_getBatch ran ends member above below
        obtain ⟨rfl, _⟩ := Prod.mk.inj (Option.some.inj ran)
        exact ⟨tables.frontier.ids_lt last listed, all⟩
  · rintro id ⟨⟩
    obtain rfl := Option.some.inj waits
    cases executed with
    | done ran =>
        obtain ⟨rfl, same⟩ := Prod.mk.inj (Option.some.inj ran)
        obtain ⟨member, least⟩ := List.min?_eq_some_iff.mp (Value.minId.inj same)
        obtain ⟨first, listed, same⟩ := List.mem_map.mp member
        have drawn := tables.frontier.ids_lt first listed
        refine ⟨by omega, fun row member => ?_⟩
        exact least row.id (List.mem_map_of_mem member)

namespace State

variable {start : State} {label : Label}

/-- A step leads to a later frontier. -/
theorem later_of_step {state next : State} (taken : state.step env label = some next)
    : Frontier.Later state.shared.tables.frontier next.shared.tables.frontier := by
  cases step_cases taken with
  | still _ _ _ shared | begin _ _ _ shared | settle _ shared | record shared =>
      rw [shared]
      exact .refl _
  | run _ shared =>
      rw [shared, Shared.tables_resume]
      exact .refl _
  | exec _ _ executed shared =>
      rw [shared]
      exact executed.later
  | redirect fetch =>
      rw [(Extends.of_fetch fetch).tables]
      exact .refl _

/-- What threads have read stays true, step by step. -/
theorem reads_of_step {state next : State}
    (reads : ∀ thread ∈ state.threads, thread.Reads state.shared.tables.frontier)
    (taken : state.step env label = some next)
    : ∀ thread ∈ next.threads, thread.Reads next.shared.tables.frontier := by
  have kept : ∀ thread ∈ state.threads, thread.Reads next.shared.tables.frontier :=
    fun thread member => (reads thread member).later (later_of_step taken)
  refine forall_threads_of_step taken kept ?begun ?left ?answered ?redirected ?settled ?recorded
  case begun => exact fun thread background => .of_fresh background.fresh
  case left =>
    intro seeds input point _ _ _ _ thread member
    exact .of_fresh ((state.shared.resume_cases env seeds input point).fresh thread member)
  case answered =>
    intro point statement ending tables reply waits executed shared _
    rw [shared]
    exact executed.reads waits
  case redirected => exact fun _ _ _ _ _ _ fetch _ => .of_fresh fetch.fresh
  case settled => exact fun _ _ _ _ _ _ => .of_fresh rfl
  case recorded => exact fun _ _ _ => .of_fresh rfl

end State

-----------------------------------------------------------------------------------------
-- What a piece does to its debts
-----------------------------------------------------------------------------------------

/-- A thread outside the admission loop has nothing before it. -/
theorem Thread.pending_of_outside {phase : Phase} {point : Point}
    (outside : point.pending? = none)
    : (Thread.mk phase point).pending = [] := by
  cases point <;> first | rfl | cases outside

/-- A thread that has no reply has all addresses of its point before it. -/
theorem Thread.pending_of_fresh {thread : Thread} (fresh : thread.phase.isReply = false)
    : thread.pending = thread.point.pending?.getD [] := by
  obtain ⟨phase, point⟩ := thread
  cases point with
  | skipped | blockedDeleted =>
      cases phase with
      | ready input =>
          cases input with
          | reply => cases fresh
          | nothing | response => rfl
      | statement | http | settled => rfl
  | _ => rfl

/-- Removing what has been examined leaves fewer. -/
theorem Debts.without_subset (own : List String) (examined : Option String)
    : Debts.without own examined ⊆ own :=
  List.filter_sublist.subset

/-- Nothing is left of nothing. -/
@[simp] theorem Debts.without_nil (examined : Option String) : Debts.without [] examined = [] :=
  rfl

/-- Removing the first address leaves the others. -/
theorem Debts.without_subset_of_cons {own rest : List String} {url : String}
    (within : own ⊆ url :: rest)
    : Debts.without own (some url) ⊆ rest := by
  intro other member
  obtain ⟨owed, differs⟩ := List.mem_filter.mp member
  refine (List.mem_cons.mp (within owed)).resolve_left fun same => ?_
  exact of_decide_eq_true differs (congrArg some same)

/-- The threads carry what is due: one that goes on with the loop has it before it, and nothing is
due without one.
-/
structure Carries (due : List String) (threads : List Thread) : Prop where
  within : ∀ thread ∈ threads, thread.point.pending?.isSome → due ⊆ thread.pending
  settled : (threads.any fun thread => thread.point.pending?.isSome) = false → due = []

/-- Nothing is carried by any threads. -/
theorem Carries.nothing (threads : List Thread) : Carries [] threads :=
  ⟨fun _ _ _ => List.nil_subset _, fun _ => rfl⟩

/-- The only thread carries what it has before it. -/
theorem Carries.single {due : List String} {threads : List Thread} {only : Thread}
    (single : threads = [only]) (goes : only.point.pending?.isSome = true)
    (within : due ⊆ only.pending)
    : Carries due threads := by
  subst single
  refine ⟨fun thread member _ => ?_, fun ended => ?_⟩
  · obtain rfl := List.mem_singleton.mp member
    exact within
  · simp [goes] at ended

section Pieces

variable {shared : Shared} {seeds : List String} {input : Input} {point : Point}
  {outcome : Outcome} {debts : Debts}

/-- A piece of the loop that is spared carries on what it owes; those that read a batch or check a
domain are looked at below.
-/
theorem Flow.carries (flow : Flow env shared seeds input point outcome)
    (sound : (Thread.mk (.ready input) point).Sound env)
    (within : debts.own ⊆ (Thread.mk (.ready input) point).pending)
    (spared : debts.Spared shared input point)
    (elsewhere : ∀ cursor, point ≠ .batchRead cursor)
    (unchecked : ∀ item rest startedAny, point ≠ .examine item rest startedAny)
    : Carries (Debts.without debts.own (shared.examines? env point)) outcome.threads := by
  have settled (none : debts.own = [])
      : Carries (Debts.without debts.own (shared.examines? env point)) outcome.threads := by
    rw [none]
    exact .nothing _
  have outside (none : point.pending? = none)
      : Carries (Debts.without debts.own (shared.examines? env point)) outcome.threads := by
    rw [Thread.pending_of_outside none] at within
    exact settled (List.subset_nil.mp within)
  have fewer : Debts.without debts.own (shared.examines? env point) ⊆ debts.own :=
    Debts.without_subset _ _
  cases flow with
  | lost unguarded rejected =>
      obtain ⟨statement, waits⟩ := Point.statement_of_isUnguarded unguarded
      obtain rfl := sound.eq_rejection waits rejected
      cases point with
      | visitedRead | blockedMarked | blockedDeleted => exact settled (spared rfl)
      | batchRead | recrawlRead | seedVisited | seedCounted => exact outside rfl
      | _ => cases unguarded
  | thrown parsed invalid =>
      rcases parsed with rfl | rfl <;> exact absurd invalid (sound.parses _ rfl)
  | loopIdle ended | loopOver ended =>
      rcases ended with rfl | full
      · exact settled (List.subset_nil.mp within)
      · exact settled (spared full)
  | ask | askRecrawl | seen | unseen => exact .single rfl rfl (List.Subset.trans fewer within)
  | skipped =>
      rcases sound.replied rfl with asked | ⟨reply, same, _⟩
      · cases asked
      · cases same
        exact .single rfl rfl (List.Subset.trans fewer within)
  | known | cached | rulesRead | rulesFailed | blocked | passed | blockedMarked =>
      exact .single rfl rfl (List.Subset.trans fewer within)
  | asking _ _ _ fetch =>
      refine .single rfl (by rw [fetch.point_eq]; rfl) ?_
      rw [Thread.pending_of_fresh fetch.fresh, fetch.point_eq]
      exact List.Subset.trans fewer within
  | blockedDeleted answered =>
      subst answered
      exact .single rfl rfl (List.Subset.trans fewer within)
  | @started visit after thread fetch =>
      have left : Debts.without debts.own (some visit.item.url)
          ⊆ visit.rest.map FrontierItem.url :=
        Debts.without_subset_of_cons within
      refine ⟨fun other member goes => ?_, fun ended => ?_⟩
      · rcases List.mem_pair.mp member with rfl | rfl
        · exact left
        · rw [fetch.point_eq] at goes
          cases goes
      · simp [Outcome.threads, Point.pending?] at ended
  | recrawling | seeding | waiting | batch => exact absurd rfl (elsewhere _)
  | dropped | crowded | admitRecrawl | admitted => exact absurd rfl (unchecked _ _ _)
  | seeded ended => rcases ended with rfl | rfl <;> exact outside rfl
  | refilled _ ended => rcases ended with rfl | rfl | rfl <;> exact outside rfl
  | recrawled ended | failed ended => rcases ended with rfl | rfl <;> exact outside rfl
  | refreshFailed ended => rcases ended with rfl | rfl | rfl <;> exact outside rfl
  | _ => exact outside rfl

/-- The checks of a domain discard the item, pass it over, or let it in. -/
theorem Shared.examine_carries {item : FrontierItem} {rest : List FrontierItem}
    {startedAny : Bool}
    (within : debts.own
      ⊆ (Thread.mk (.ready input) (.examine item rest startedAny)).pending)
    : Carries (Debts.without debts.own (shared.examines? env (.examine item rest startedAny)))
        (shared.examine env item rest startedAny).threads := by
  have fewer : Debts.without debts.own (shared.examines? env (.examine item rest startedAny))
      ⊆ (item :: rest).map FrontierItem.url :=
    List.Subset.trans (Debts.without_subset _ _) within
  unfold examine
  simp only
  split
  · exact .single rfl rfl fewer
  · rename_i valid
    split
    · exact .single rfl rfl fewer
    · rename_i unlisted
      split
      · rename_i full
        have passes : shared.examines? env (.examine item rest startedAny) = some item.url :=
          if_pos ⟨valid, unlisted, full⟩
        rw [passes]
        exact .single rfl rfl (Debts.without_subset_of_cons within)
      · split
        · exact .single rfl rfl fewer
        · exact .single rfl rfl fewer

/-- A cursor that does not move forward passes no row. -/
theorem Shared.passed_of_le {cursor : Nat} (back : cursor ≤ shared.frontierCursor)
    : shared.passed cursor = [] := by
  rw [passed, List.map_eq_nil_iff, List.filter_eq_nil_iff]
  intro row _ passes
  have between := of_decide_eq_true passes
  omega

/-- Nobody owes anything when a batch that is spared wraps the cursor. -/
theorem Debts.Spared.of_wraps (spared : debts.Spared shared input point)
    (wraps : point.wraps input = true)
    : ∀ own ∈ debts.others, own = [] := by
  cases point with
  | batchRead cursor => exact spared.1 wraps
  | _ => cases wraps

/-- What follows an empty batch leaves the cursor. -/
theorem Shared.idle_frontierCursor
    : (shared.idle seeds).shared.frontierCursor = shared.frontierCursor := by
  unfold idle
  split
  · split <;> rfl
  · rfl

/-- A batch that is spared has the rows that the cursor moves past, and goes through them. -/
theorem Shared.batchRead_carries {cursor : Nat}
    (reads : (Thread.mk (.ready input) (.batchRead cursor)).Reads shared.tables.frontier)
    (spared : debts.Spared shared input (.batchRead cursor))
    : Carries (shared.passed (shared.batchRead seeds input).shared.frontierCursor)
        (shared.batchRead seeds input).threads := by
  unfold batchRead
  split
  · rename_i batch found
    obtain rfl := Input.eq_of_value? found
    cases batch with
    | nil =>
        have back : shared.passed 0 = [] := Shared.passed_of_le (Nat.zero_le _)
        simp only
        split
        · rw [Shared.idle_frontierCursor]
          exact back ▸ .nothing _
        · exact back ▸ .nothing _
    | cons first rest =>
        obtain ⟨last, ends⟩ : ∃ last, (first :: rest).getLast? = some last :=
          ⟨_, List.getLast?_cons⟩
        obtain ⟨_, all⟩ := reads.batch cursor _ last rfl ends
        simp only [ends, List.cons_ne_nil, false_and, if_false]
        refine .single rfl rfl fun url member => ?_
        -- the rows past the cursor are past the one that the batch was read from
        obtain ⟨row, passes, rfl⟩ := List.mem_map.mp member
        obtain ⟨listed, between⟩ := List.mem_filter.mp passes
        obtain ⟨above, below⟩ : shared.frontierCursor < row.id ∧ row.id ≤ last.id :=
          of_decide_eq_true between
        have beyond : cursor < row.id :=
          (spared.2 rfl row listed).resolve_left (Nat.not_le.mpr above)
        have read := all row listed beyond below
        exact List.mem_map.mpr ⟨row.toFrontierItem, List.mem_map_of_mem read, rfl⟩
  · have same : shared.passed shared.stop.shared.frontierCursor = [] :=
      Shared.passed_of_le (Nat.le_refl _)
    rw [same]
    exact .nothing _

/-- Other pieces leave the cursor, apart from the closure that sets it. -/
theorem Flow.frontierCursor_eq (flow : Flow env shared seeds input point outcome)
    (elsewhere : ∀ cursor, point ≠ .batchRead cursor) (set : point ≠ .cursorRead)
    : outcome.shared.frontierCursor = shared.frontierCursor := by
  cases flow with
  | recrawling | seeding | waiting | batch => exact absurd rfl (elsewhere _)
  | cursorRead => exact absurd rfl set
  | asking _ _ _ fetch | started fetch => cases fetch <;> rfl
  | _ => rfl

/-- The closure that sets the cursor passes no row. -/
theorem Shared.cursorRead_passed
    (reads : (Thread.mk (.ready input) .cursorRead).Reads shared.tables.frontier)
    : shared.passed (shared.resume env seeds input .cursorRead).shared.frontierCursor = [] := by
  simp only [resume]
  split
  · rename_i id found
    obtain rfl := Input.eq_of_value? found
    obtain ⟨_, least⟩ := reads.least id rfl
    rw [passed, List.map_eq_nil_iff, List.filter_eq_nil_iff]
    intro row member passes
    have above := least row member
    have between : shared.frontierCursor < row.id ∧ row.id ≤ id := of_decide_eq_true passes
    omega
  · exact Shared.passed_of_le (Nat.le_refl _)

/-- A piece that is spared carries on what it owes, and what it moves the cursor past. -/
theorem Shared.resume_carries (shared : Shared) (seeds : List String)
    (sound : (Thread.mk (.ready input) point).Sound env)
    (reads : (Thread.mk (.ready input) point).Reads shared.tables.frontier)
    (within : debts.own ⊆ (Thread.mk (.ready input) point).pending)
    (spared : debts.Spared shared input point)
    : Carries
        (Debts.without debts.own (shared.examines? env point)
          ++ shared.passed (shared.resume env seeds input point).shared.frontierCursor)
        (shared.resume env seeds input point).threads := by
  have flow := shared.resume_flow env seeds input point
  cases point with
  | batchRead cursor =>
      have none : debts.own = [] := List.subset_nil.mp within
      rw [none]
      exact Shared.batchRead_carries reads spared
  | cursorRead =>
      have none : debts.own = [] := List.subset_nil.mp within
      rw [none, Shared.cursorRead_passed reads]
      exact .nothing _
  | examine item rest startedAny =>
      rw [flow.frontierCursor_eq (by simp) (by simp), Shared.passed_of_le (Nat.le_refl _),
        List.append_nil]
      exact Shared.examine_carries within
  | _ =>
      rw [flow.frontierCursor_eq (by simp) (by simp), Shared.passed_of_le (Nat.le_refl _),
        List.append_nil]
      exact flow.carries sound within spared (by simp) (by simp)

end Pieces

namespace State

variable {start : State} {state next : State × Debts} {label : Label}

/-- Each thread owes addresses that it has before it. -/
def Owes (threads : List Thread) (owed : List (List String)) : Prop :=
  List.Forall₂ (fun thread own => own ⊆ thread.pending) threads owed

/-- A thread that moves on with what it owes before it leaves the others alone. -/
theorem Owes.move {threads after rest : List Thread} {debts : Debts} {index : Nat}
    {old new : Thread} {examined : Option String} (owes : Owes threads debts.owed)
    (picked : pick threads index = some (old, rest)) (moved : after = new :: rest)
    (within : ∀ own others, pick debts.owed index = some (own, others) →
      own ⊆ old.pending → Debts.without own examined ⊆ new.pending)
    : Owes after (debts.move index examined).owed
      ∧ (debts.move index examined).lost = debts.lost := by
  obtain ⟨own, others, found, before, left⟩ := forall₂_pick owes picked
  rw [Debts.move, found, moved]
  exact ⟨.cons (within own others found before) left, rfl⟩

/-- A thread that begins owes nothing. -/
theorem Owes.begin {threads after : List Thread} {debts : Debts} {thread : Thread}
    (owes : Owes threads debts.owed) (begun : after = thread :: threads)
    : Owes after debts.begin.owed ∧ debts.begin.lost = debts.lost := by
  rw [begun]
  exact ⟨.cons (List.nil_subset _) owes, rfl⟩

/-- A piece that carries what is due loses nothing, if nobody owes anything when the cursor wraps.
-/
theorem Owes.run {thread : Thread} {pool threads : List Thread} {debts : Debts}
    {due : List String} {wraps : Bool} (owes : Owes (thread :: pool) debts.owed)
    (carries : Carries due threads) (spared : wraps = true → ∀ own ∈ debts.others, own = [])
    : Owes (threads ++ pool) (debts.run due threads wraps).owed
      ∧ (debts.run due threads wraps).lost = debts.lost := by
  obtain ⟨owed, lost⟩ := debts
  cases owes with
  | @cons _ own _ others held left =>
      constructor
      · refine List.rel_append ?_ ?_
        · refine List.forall₂_map_right_iff.mpr (List.forall₂_same.mpr fun thread member => ?_)
          split
          · rename_i goes
            exact carries.within thread member goes
          · exact List.nil_subset _
        · split
          · exact List.forall₂_map_right_iff.mpr (left.imp fun _ _ _ => List.nil_subset _)
          · exact left
      · have settled : (if threads.any fun thread => thread.point.pending?.isSome then [] else due)
            = [] := by
          split
          · rfl
          · rename_i ended
            exact carries.settled (Bool.eq_false_iff.mpr ended)
        have paid : (if wraps then others.flatten else []) = [] := by
          split
          · rename_i wrapped
            exact List.flatten_eq_nil_iff.mpr (spared wrapped)
          · rfl
        simp only [Debts.run, Debts.others, List.tail_cons, settled, paid, List.append_nil]

/-- The piece that runs owes addresses that it has before it. -/
theorem Owes.own_subset {thread : Thread} {pool : List Thread} {debts : Debts}
    (owes : Owes (thread :: pool) debts.owed)
    : debts.own ⊆ thread.pending := by
  obtain ⟨owed, lost⟩ := debts
  cases owes with
  | cons held => exact held

/-- The deletion of a statement that is not rejected is examined, and the others are before the
thread still.
-/
theorem pending_of_answer {point : Point} {reply : Option Value} {ending : Ending}
    {own : List String} (within : own ⊆ (Thread.mk .statement point).pending)
    (kept : ending = .rejected → ∀ url ∈ point.discards?, url ∉ own)
    : Debts.without own (if ending = .rejected then none else point.discards?)
      ⊆ (Thread.mk (.ready (.reply reply)) point).pending := by
  have discards (url : String) (rest : List String) (names : point.discards? = some url)
      (within : own ⊆ url :: rest)
      : Debts.without own (if ending = .rejected then none else point.discards?) ⊆ rest := by
    by_cases rejected : ending = .rejected
    · intro other member
      have owed := Debts.without_subset _ _ member
      refine (List.mem_cons.mp (within owed)).resolve_left ?_
      rintro rfl
      exact kept rejected other names owed
    · rw [if_neg rejected, names]
      exact Debts.without_subset_of_cons within
  cases point with
  | skipped url rest startedAny => exact discards url _ rfl within
  | blockedDeleted visit => exact discards visit.item.url _ rfl within
  | _ => exact List.Subset.trans (Debts.without_subset _ _) within

/-- A thread without a reply that stays at its point has the same addresses before it. -/
theorem pending_of_fresh_eq {old new : Thread} (before : old.phase.isReply = false)
    (after : new.phase.isReply = false) (same : new.point = old.point)
    : new.pending = old.pending := by
  rw [Thread.pending_of_fresh before, Thread.pending_of_fresh after, same]

/-- What a step does to the threads, in their order, and to the debts: nothing, a thread begins, a
thread of the pool moves on or is answered, or the piece that runs leaves its threads.
-/
inductive AccountCase (env : Env) (state next : State) (debts : Debts) : Label → Debts → Prop
  | still {label : Label} (after : next.threads = state.threads)
    : AccountCase env state next debts label debts
  | begin {label : Label} {thread : Thread} (after : next.threads = thread :: state.threads)
    : AccountCase env state next debts label debts.begin
  | move {label : Label} {index : Nat} {old new : Thread} {rest : List Thread}
    (picked : pick state.threads index = some (old, rest)) (after : next.threads = new :: rest)
    (same : new.pending = old.pending)
    : AccountCase env state next debts label (debts.move index none)
  | answer {index : Nat} {ending : Ending} {choice : Choice} {point : Point}
    {reply : Option Value} {rest : List Thread}
    (acting : state.acting (.exec index ending choice) = some ⟨.statement, point⟩)
    (picked : pick state.threads index = some (⟨.statement, point⟩, rest))
    (after : next.threads = ⟨.ready (.reply reply), point⟩ :: rest)
    : AccountCase env state next debts (.exec index ending choice)
        (debts.move index (if ending = .rejected then none else point.discards?))
  | run {seeds : List String} {input : Input} {point : Point}
    (running : state.running = some ⟨.ready input, point⟩)
    (before : state.threads = ⟨.ready input, point⟩ :: state.pool)
    (after : next.threads = (state.shared.resume env seeds input point).threads ++ state.pool)
    : AccountCase env state next debts (.run seeds)
        (debts.run
          (Debts.without debts.own (state.shared.examines? env point)
            ++ state.shared.passed
              (state.shared.resume env seeds input point).shared.frontierCursor)
          (state.shared.resume env seeds input point).threads (point.wraps input))

/-- Inversion of a step on the threads and the debts. -/
theorem account_cases {state next : State} (debts : Debts)
    (taken : state.step env label = some next)
    : AccountCase env state next debts label (state.account env label debts) := by
  have placed := place_cases taken
  cases label with
  | tick | diskTimer =>
      cases placed with
      | still after => exact .still after
  | statsTimer | message =>
      cases placed with
      | begin _ after => exact .begin after
  | clearTimer =>
      by_cases pg : env.backend = .pg
      · have place : Label.place env .clearTimer = .still := if_pos pg
        have same : state.account env .clearTimer debts = debts := if_pos pg
        rw [place] at placed
        rw [same]
        cases placed with
        | still after => exact .still after
      · have place : Label.place env .clearTimer = .begin := if_neg pg
        have same : state.account env .clearTimer debts = debts.begin := if_neg pg
        rw [place] at placed
        rw [same]
        cases placed with
        | begin _ after => exact .begin after
  | exec =>
      cases placed with
      | answer acting picked after =>
          simp only [State.account, acting, Option.bind_some]
          exact .answer acting picked after
      | move unasked => exact absurd rfl (unasked _ _ _)
  | http | record | wake =>
      cases placed with
      | move _ picked after same unread =>
          refine .move picked after ?_
          rcases unread with rfl | ⟨before, fresh⟩
          · rfl
          · exact pending_of_fresh_eq before fresh same
  | run =>
      cases placed with
      | run running before after =>
          simp only [State.account, running]
          exact .run running before after

/-- The threads owe addresses that they have before them, and none has been lost. -/
structure SkipsNone (env : Env) (state : State × Debts) : Prop where
  sound : ∀ thread ∈ state.1.threads, thread.Sound env
  reads : ∀ thread ∈ state.1.threads, thread.Reads state.1.shared.tables.frontier
  owes : Owes state.1.threads state.2.owed
  lost : state.2.lost = []

/-- A step that skips no row leaves debts that the threads have before them. -/
theorem SkipsNone.account {after : State} {debts : Debts} (skips : SkipsNone env state)
    (met : ExaminesAll state label)
    (happened : AccountCase env state.1 after state.2 label debts)
    : Owes after.threads debts.owed ∧ debts.lost = state.2.lost := by
  cases happened with
  | still unmoved => exact ⟨unmoved ▸ skips.owes, rfl⟩
  | begin begun => exact skips.owes.begin begun
  | move picked moved same =>
      refine skips.owes.move picked moved fun own _ _ before => ?_
      exact List.Subset.trans (Debts.without_subset _ _) (same ▸ before)
  | answer acting picked moved =>
      refine skips.owes.move picked moved fun own others found before => ?_
      refine pending_of_answer before fun rejected url names => ?_
      exact met rejected url (by rw [acting]; exact names) (own, others) found
  | @run seeds input point running before moved =>
      have member : ⟨.ready input, point⟩ ∈ state.1.threads := before ▸ List.mem_cons_self
      have spared : state.2.Spared state.1.shared input point := met _ running
      have owes := skips.owes
      rw [before] at owes
      have carries := state.1.shared.resume_carries seeds (skips.sound _ member)
        (skips.reads _ member) owes.own_subset spared
      rw [moved]
      exact owes.run carries spared.of_wraps

/-- A step that skips no row keeps the rows that are owed, and what threads know. -/
theorem SkipsNone.step (skips : SkipsNone env state) (met : Thorough env state label)
    (taken : accounting env state label = some next)
    : SkipsNone env next := by
  obtain ⟨stepped, noted⟩ := observing_cases taken
  obtain ⟨owes, lost⟩ := skips.account met.2 (noted ▸ account_cases state.2 stepped)
  exact ⟨sound_of_step skips.sound stepped, reads_of_step skips.reads stepped, owes,
    lost.trans skips.lost⟩

/-- A crawl that begins owes nothing. -/
theorem Begins.skipsNone (begins : start.Begins)
    : SkipsNone env (start, ⟨start.threads.map fun _ => [], []⟩) where
  sound := begins.forall_threads (.idle rfl (by simp [Point.parsing?])) (.waiting rfl)
  reads := begins.forall_threads (.of_fresh rfl) (.of_fresh rfl)
  owes :=
    List.forall₂_map_right_iff.mpr (List.forall₂_same.mpr fun _ _ => List.nil_subset _)
  lost := rfl

/-- In every run whose steps skip no row, and whose insertions do not overlap on PostgreSQL, every
row that an invocation of `processNext` moves the cursor past is examined by that invocation,
before it ends and before the cursor wraps.
-/
theorem skipsNothing (begins : start.Begins)
    (run : Run (accounting env) (Thorough env) (start, ⟨start.threads.map fun _ => [], []⟩) state)
    : state.2.lost = [] := by
  have skips : SkipsNone env state :=
    run.invariant begins.skipsNone fun skips met taken => skips.step met taken
  exact skips.lost

/-- One page, which is started. -/
theorem skipsNothing_of_one_page
    : ∃ state,
        Run (accounting plainEnv) (Thorough plainEnv)
            (plainCrawl [⟨"https://a.example/1", 0, none⟩], ⟨[[], []], []⟩) state
        ∧ state.1.shared.frontierCursor = 1
        ∧ state.1.shared.started = [⟨"https://a.example/1", 0, none⟩]
        ∧ state.2.lost = [] := by
  have executed
      : (execute (accounting plainEnv) (Thorough plainEnv)
          (plainCrawl [⟨"https://a.example/1", 0, none⟩], ⟨[[], []], []⟩)
          (boot ++ readBatch 2 ++ vet ++ turn 0 3)).any
          (fun state => state.1.shared.frontierCursor = 1
            ∧ state.1.shared.started = [⟨"https://a.example/1", 0, none⟩])
        = true := by
    decide +kernel
  obtain ⟨state, run, reached⟩ := exists_run_of_any executed
  obtain ⟨moved, started⟩ := of_decide_eq_true reached
  exact ⟨state, run, moved, started, skipsNothing (plainCrawl_begins _) run⟩

/-- Three pages of three domains. -/
def threePages : List FrontierItem :=
  [⟨"https://a.example/1", 0, none⟩, ⟨"https://b.example/2", 0, none⟩,
    ⟨"https://c.example/3", 0, none⟩]

/-- The two slots are taken, and the third page, which the cursor has passed, is left. -/
theorem skipsNothing_fails_at_concurrency
    : ¬ ∀ (env : Env) (start : State) (state : State × Debts),
        start.Begins →
          Reaches (accounting env) (start, ⟨start.threads.map fun _ => [], []⟩) state →
          state.2.lost = [] := by
  intro claim
  have executed
      : (execute (accounting plainEnv) anyStep (plainCrawl threePages, ⟨[[], []], []⟩)
          (boot ++ readBatch 2 ++ vet ++ turn 0 3 ++ vet ++ turn 0 3)).any
          (fun state => state.2.lost = ["https://c.example/3"])
        = true := by
    decide +kernel
  obtain ⟨state, run, reached⟩ := exists_run_of_any executed
  have none := claim plainEnv _ state (plainCrawl_begins threePages) run
  rw [of_decide_eq_true reached] at none
  cases none

end State

end WebIndexer.Crawl
