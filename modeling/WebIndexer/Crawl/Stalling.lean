import WebIndexer.Crawl.Flow
import WebIndexer.Crawl.Turns
import WebIndexer.Library.Runs

/-! What keeps the crawl going. An invocation of `processNext` that has started no page fetch
schedules another when it ends, and so does each page fetch; only an await without a handler
ends an invocation for nothing. Nothing waits for the promise of an invocation, so that such a
rejection is one that Node ends the process for.
-/

namespace WebIndexer.Crawl

open WebIndexer.Config
open WebIndexer.Fetcher
open WebIndexer.Library
open WebIndexer.Runtime
open WebIndexer.Store

variable {env : Env} {shared : Shared} {seeds : List String} {input : Input} {point : Point}
  {outcome : Outcome}

/-- `processNext` has started no page fetch yet when it calls `addSeedBatch`. -/
def SeedCaller.startedAny? : SeedCaller → Option Bool
  | .processNext => some false
  | .interval => none

/-- Whether an invocation of `processNext` has started a page fetch, at one of its points. -/
def Point.startedAny? : Point → Option Bool
  | .entry | .yielded | .batchRead _ | .recrawlRead _ | .recrawlLoop _ | .recrawlInserted .. =>
      some false
  | .seedLoop _ _ caller | .seedVisited _ _ _ caller | .seedInserted _ _ _ caller
  | .seedCounted caller => caller.startedAny?
  | .forItem _ startedAny | .visitedRead _ _ startedAny | .examine _ _ startedAny
  | .skipped _ _ startedAny => some startedAny
  | .checkRobots visit | .robotsFetched visit | .robotsGate visit | .blockedMarked visit
  | .blockedDeleted visit | .start visit => some visit.startedAny
  | _ => none

/-- An invocation of `processNext` that has started no page fetch. -/
def Point.isFresh (point : Point) : Bool :=
  point.startedAny? = some false

/-- Some thread is an invocation that has started no page fetch. -/
def anyFresh (threads : List Thread) : Bool :=
  threads.any fun thread => thread.point.isFresh

@[simp] theorem anyFresh_nil : anyFresh [] = false := rfl

@[simp] theorem anyFresh_cons (thread : Thread) (threads : List Thread)
    : anyFresh (thread :: threads) = (thread.point.isFresh || anyFresh threads) :=
  rfl

@[simp] theorem anyFresh_append (left right : List Thread)
    : anyFresh (left ++ right) = (anyFresh left || anyFresh right) :=
  List.any_append

/-- The point builds a `URL` of the item of a visit. -/
def Point.parsing? : Point → Option Visit
  | .checkRobots visit | .robotsFetched visit | .robotsGate visit => some visit
  | _ => none

/-- A thread at a statement waits for it or has a reply of the right kind, and addresses that
are admitted can be parsed.
-/
structure Thread.Sound (env : Env) (thread : Thread) : Prop where
  replied
    : thread.point.statement.isSome →
        thread.phase = .statement
        ∨ ∃ reply, thread.phase = .ready (.reply reply)
            ∧ ∀ value ∈ reply, thread.point.accepts value
  parses : ∀ visit ∈ thread.point.parsing?, env.api.parse visit.item.url ≠ none

/-- A thread at a point without a statement needs no reply. -/
theorem Thread.Sound.idle {thread : Thread} (idle : thread.point.statement = none)
    (parses : ∀ visit ∈ thread.point.parsing?, env.api.parse visit.item.url ≠ none)
    : thread.Sound env := by
  refine ⟨fun waits => ?_, parses⟩
  rw [idle] at waits
  cases waits

/-- A thread that waits for its statement has no reply yet. -/
theorem Thread.Sound.waiting (parses : point.parsing? = none)
    : (Thread.mk .statement point).Sound env := by
  refine ⟨fun _ => .inl rfl, fun visit parsing => ?_⟩
  rw [parses] at parsing
  cases parsing

/-- A thread that waits for no statement is at a point without one. -/
theorem Thread.Sound.statement_eq_none {thread : Thread} (sound : thread.Sound env)
    (unasked : thread.phase ≠ .statement)
    (unanswered : ∀ reply, thread.phase ≠ .ready (.reply reply))
    : thread.point.statement = none := by
  by_contra waits
  rcases sound.replied (Option.isSome_iff_ne_none.mpr waits) with asked | ⟨reply, answered, _⟩
  · exact unasked asked
  · exact unanswered reply answered

/-- A sound thread that gets no value of its statement sees a rejection. -/
theorem Thread.Sound.eq_rejection {statement : Statement}
    (sound : (Thread.mk (.ready input) point).Sound env)
    (waits : point.statement = some statement)
    (rejected : ∀ value, input = .reply (some value) → ¬ point.accepts value)
    : input = .reply none := by
  rcases sound.replied (Option.isSome_iff_exists.mpr ⟨statement, waits⟩) with asked | answered
  · cases asked
  · obtain ⟨reply, same, accepted⟩ := answered
    obtain rfl := Phase.ready.inj same
    cases reply with
    | none => rfl
    | some value => exact absurd (accepted value rfl) (rejected value rfl)

/-- An await without a handler is one of a statement. -/
theorem Point.statement_of_isUnguarded (unguarded : point.isUnguarded = true)
    : ∃ statement, point.statement = some statement := by
  cases point <;> first | exact ⟨_, rfl⟩ | cases unguarded

/-- An item with a domain has an address that can be parsed. -/
theorem Shared.parse_of_admits {item : FrontierItem} (admits : shared.admits env item)
    : env.api.parse item.url ≠ none := by
  intro invalid
  exact admits.1 (by simp [Env.domainOf, getDomain, invalid])

/-- A piece leaves sound threads. -/
theorem Flow.sound (flow : Flow env shared seeds input point outcome)
    (parses : ∀ visit ∈ point.parsing?, env.api.parse visit.item.url ≠ none)
    : ∀ thread ∈ outcome.threads, thread.Sound env := by
  cases flow with
  | lost | thrown | cursorRead | done | busy | loopOver | refilled | cleared | consumed =>
      exact Outcome.forall_none rfl
  | admitted admits =>
      refine Outcome.forall_single rfl (.idle rfl ?_)
      rintro visit ⟨⟩
      exact Shared.parse_of_admits admits
  | known | cached | rulesRead | rulesFailed =>
      exact Outcome.forall_single rfl (.idle rfl parses)
  | asking _ _ _ fetch =>
      refine Outcome.forall_single rfl (.idle (fetch.point_eq ▸ rfl) ?_)
      rw [fetch.point_eq]
      exact parses
  | started fetch =>
      refine Outcome.forall_pair rfl (.idle rfl nofun) (.idle (fetch.point_eq ▸ rfl) ?_)
      rw [fetch.point_eq]
      exact nofun
  | reading | recrawling | recrawlNext | ask | seen | dropped | blocked | blockedMarked
  | seedNext | seedsAdded | seedUnseen | recrawlFetched | pageFetched | fetchFailed
  | savedLinks | recrawlMarked | failMarked | nodesCounted | frontierCounted | refreshed =>
      exact Outcome.forall_single rfl (.waiting rfl)
  | _ => exact Outcome.forall_single rfl (.idle rfl nofun)

/-- The piece is an invocation that has started no page fetch, and ends at an await without a
handler whose value it does not get.
-/
structure Lost (input : Input) (point : Point) : Prop where
  unguarded : point.isUnguarded = true
  fresh : point.isFresh = true
  rejected : ∀ value, input = .reply (some value) → ¬ point.accepts value

/-- A piece that goes on, with a page fetch in flight or as an invocation that has started
none, leaves one of both, unless it finds the crawl full or is lost.
-/
theorem Flow.goesOn (flow : Flow env shared seeds input point outcome)
    (parses : ∀ visit ∈ point.parsing?, env.api.parse visit.item.url ≠ none)
    (alive : 0 < shared.active ∨ point.isFresh = true)
    : 0 < outcome.shared.active
      ∨ anyFresh outcome.threads = true
      ∨ (point = .entry ∧ maxNodes ≤ shared.crawl.nodeCount)
      ∨ Lost input point := by
  cases flow with
  | lost unguarded rejected =>
      exact alive.imp_right fun fresh => .inr (.inr ⟨unguarded, fresh, rejected⟩)
  | thrown parsed invalid =>
      rcases parsed with rfl | rfl <;> exact absurd invalid (parses _ rfl)
  | done full => exact .inr (.inr (.inl ⟨rfl, full⟩))
  | busy full => exact .inl (Nat.lt_of_lt_of_le (by decide) full)
  | loopOver _ work =>
      rcases work with rfl | busy
      · exact .inl (alive.resolve_right (by simp [Point.isFresh, Point.startedAny?]))
      · exact .inl busy
  -- a fetch is started, or is finalised and schedules the next invocation
  | started fetch => exact .inl ((SameSlots.of_fetch fetch).active ▸ Nat.succ_pos _)
  | finalised => exact .inr (.inl rfl)
  -- before the loop, and after one that has started nothing
  | yielding | reading | recrawling | seeding | waiting | batch | targets | recrawlDone
  | recrawlNext | recrawlInserted | loopIdle | seeded => exact .inr (.inl rfl)
  -- the loop and `addSeedBatch` go on for the same invocation
  | ask | askRecrawl | seen | unseen | dropped | crowded | admitRecrawl | admitted | skipped
  | known | cached | rulesRead | rulesFailed | blocked | passed | blockedMarked | blockedDeleted
  | seedNext | seedsAdded | seedSeen | seedUnseen | seedInserted =>
      exact alive.imp_right fun fresh => .inl ((Bool.or_false _).trans fresh)
  | asking _ _ _ fetch =>
      have same := (SameSlots.of_fetch fetch).active
      refine alive.imp (fun busy => same ▸ busy) fun fresh => .inl ?_
      have waits := congrArg Point.isFresh fetch.point_eq
      exact (Bool.or_false _).trans (waits.trans fresh)
  -- the other pieces are no invocations
  | refilled _ ended =>
      rcases ended with rfl | rfl | rfl <;> exact alive.imp_right fun fresh => nomatch fresh
  | refreshFailed ended =>
      rcases ended with rfl | rfl | rfl <;> exact alive.imp_right fun fresh => nomatch fresh
  | recrawled ended | failed ended =>
      rcases ended with rfl | rfl <;> exact alive.imp_right fun fresh => nomatch fresh
  | _ => exact alive.imp_right fun fresh => nomatch fresh

/-- Only a refresh moves the count of pages. -/
theorem Flow.nodeCount (flow : Flow env shared seeds input point outcome)
    : outcome.shared.crawl.nodeCount = shared.crawl.nodeCount
      ∨ ∃ full,
          point = .nodesCounted full
          ∧ input = .reply (some (.count outcome.shared.crawl.nodeCount)) := by
  cases flow with
  | asking _ _ _ fetch => exact .inl (congrArg CrawlState.nodeCount fetch.crawl_eq)
  | @started visit after _ fetch =>
      have same : after.crawl.nodeCount = (shared.take env visit).crawl.nodeCount := by
        rw [fetch.crawl_eq]
      exact .inl same
  | nodesCounted read => exact .inr ⟨_, rfl, read⟩
  | _ => exact .inl rfl

namespace State

variable {start state next : State} {label : Label}

/-- The point of an invocation of `processNext` at which the piece that runs gets a rejection
that no handler catches, if it does. The handler of the statistics timer catches those of its
own call of `addSeedBatch`.
-/
def unhandled (state : State) : Label → Option Point
  | .run _ =>
      match state.running with
      | some ⟨.ready (.reply none), point⟩ =>
          if point.isUnguarded = true ∧ point.startedAny?.isSome then some point else none
      | _ => none
  | _ => none

/-- The count of pages that a refresh has read, if the piece that runs is one. -/
def recounting (state : State) : Label → Option Nat
  | .run _ =>
      match state.running with
      | some ⟨.ready (.reply (some (.count count))), .nodesCounted _⟩ => some count
      | _ => none
  | _ => none

/-- Apart from the piece that runs, a page fetch is in flight or an invocation has started
none.
-/
def GoesOn (state : State) : Prop :=
  0 < state.shared.active ∨ anyFresh state.pool = true

/-- No invocation of `processNext` gets a rejection that no handler catches, and a refresh that
reads that the crawl is full no more leaves something that goes on.
-/
def Handled (state : State) (label : Label) : Prop :=
  state.unhandled label = none
  ∧ ∀ count ∈ state.recounting label, count < maxNodes →
      state.shared.crawl.nodeCount < maxNodes ∨ state.GoesOn

instance (state : State) : Decidable state.GoesOn :=
  inferInstanceAs (Decidable (_ ∨ _))

instance : DecidableRel Handled :=
  fun _ _ => inferInstanceAs (Decidable (_ = none ∧ ∀ _ ∈ _, _ → _))

/-- Unless the crawl is full, a page fetch is in flight, or an invocation of `processNext` runs
or is scheduled.
-/
def NotStalled (state : State) : Prop :=
  state.shared.crawl.nodeCount < maxNodes →
    0 < state.inFlight ∨ ∃ thread ∈ state.threads, thread.point.startedAny?.isSome

/-- A page fetch is in flight, or an invocation has started none. -/
def Alive (state : State) : Prop :=
  0 < state.shared.active ∨ anyFresh state.threads = true

/-- Unless the crawl is full, it is alive, and every thread is sound. -/
structure Lively (env : Env) (state : State) : Prop where
  active : state.shared.active = state.inFlight
  sound : ∀ thread ∈ state.threads, thread.Sound env
  alive : maxNodes ≤ state.shared.crawl.nodeCount ∨ state.Alive

/-- Then the crawl has not stalled. -/
theorem Lively.notStalled (lively : state.Lively env) : state.NotStalled := by
  intro room
  rcases lively.alive.resolve_left (Nat.not_le.mpr room) with busy | fresh
  · exact .inl (lively.active ▸ busy)
  · obtain ⟨thread, member, fresh⟩ := List.any_eq_true.mp fresh
    refine .inr ⟨thread, member, ?_⟩
    rw [of_decide_eq_true fresh]
    rfl

/-- A crawl that begins has an invocation that runs. -/
theorem Begins.lively (begins : start.Begins) : start.Lively env := by
  have sound : ∀ thread ∈ start.threads, thread.Sound env :=
    begins.forall_threads (.idle rfl nofun) (.waiting rfl)
  obtain ⟨_, _, _, _, _, _, rfl⟩ := begins
  exact ⟨rfl, sound, .inr (.inr rfl)⟩

/-- The slots are taken by the page fetches in flight. -/
theorem active_of_step (active : state.shared.active = state.inFlight)
    (taken : state.step env label = some next)
    : next.shared.active = next.inFlight := by
  cases step_flights taken with
  | steady _ same count => exact same.active.trans (active.trans (count _).symm)
  | started _ after _ count =>
      rw [after, active]
      exact (count _).symm
  | finalised _ after _ count =>
      have before : state.inFlight = next.inFlight + 1 := count _
      rw [after, active, before]
      rfl

/-- A step leaves sound threads. -/
theorem sound_of_step (sound : ∀ thread ∈ state.threads, thread.Sound env)
    (taken : state.step env label = some next)
    : ∀ thread ∈ next.threads, thread.Sound env := by
  refine forall_threads_of_step taken sound ?begun ?left ?answered ?redirected ?settled ?recorded
  case begun =>
    intro thread background
    cases background <;> exact .waiting rfl
  case left =>
    intro seeds input point _ _ member _
    exact (state.shared.resume_flow env seeds input point).sound (sound _ member).parses
  case answered =>
    intro point statement ending tables reply waits executed _ held
    refine ⟨fun _ => .inr ⟨reply, rfl, ?_⟩, held.parses⟩
    intro value replied
    subst replied
    cases executed with
    | done ran => exact ⟨statement, waits, Tables.answers_run ran⟩
  case redirected =>
    intro url redirects target point thread _ fetch held
    refine .idle ?_ ?_
    · rw [fetch.point_eq]
      exact held.statement_eq_none nofun nofun
    · rw [fetch.point_eq]
      exact held.parses
  case settled =>
    intro url redirects point response _ held
    exact .idle (held.statement_eq_none nofun nofun) held.parses
  case recorded =>
    intro point response held
    exact .idle (held.statement_eq_none nofun nofun) held.parses

/-- An answer leaves a thread at its point, so that it is as fresh as before. -/
theorem anyFresh_of_answer {old new : Thread} {rest : List Thread}
    (before : state.threads.Perm (old :: rest)) (after : next.threads = new :: rest)
    (same : new.point = old.point)
    : anyFresh next.threads = anyFresh state.threads := by
  have kept : anyFresh (new :: rest) = anyFresh (old :: rest) := by simp [same]
  rw [after, kept]
  exact before.any_eq.symm

/-- A piece that runs leaves the crawl alive, unless the crawl is full. -/
theorem Alive.of_run (alive : state.Alive) (handled : Handled state (.run seeds))
    (running : state.running = some ⟨.ready input, point⟩)
    (sound : (Thread.mk (.ready input) point).Sound env)
    (shared : next.shared = (state.shared.resume env seeds input point).shared)
    (before : state.threads = ⟨.ready input, point⟩ :: state.pool)
    (after : next.threads = (state.shared.resume env seeds input point).threads ++ state.pool)
    : ((∀ full, point ≠ .nodesCounted full) ∧ maxNodes ≤ state.shared.crawl.nodeCount)
      ∨ next.Alive := by
  have pooled (fresh : anyFresh state.pool = true) : next.Alive := by
    refine .inr ?_
    rw [after, anyFresh_append, fresh, Bool.or_true]
  have acting : 0 < state.shared.active ∨ point.isFresh = true ∨ anyFresh state.pool = true := by
    rwa [Alive, before, anyFresh_cons, Bool.or_eq_true] at alive
  rcases or_assoc.mpr acting with acting | fresh
  · have flow := state.shared.resume_flow env seeds input point
    rcases flow.goesOn sound.parses acting with busy | fresh | ⟨rfl, full⟩ | lost
    · exact .inr (.inl (shared ▸ busy))
    · refine .inr (.inr ?_)
      rw [after, anyFresh_append, fresh, Bool.true_or]
    · exact .inl ⟨nofun, full⟩
    · -- a rejection at an await without a handler
      obtain ⟨statement, waits⟩ := Point.statement_of_isUnguarded lost.unguarded
      obtain rfl := sound.eq_rejection waits lost.rejected
      have invocation : point.startedAny?.isSome := by
        rw [of_decide_eq_true lost.fresh]
        rfl
      have unhandled : state.unhandled (.run seeds) = some point := by
        simp [State.unhandled, running, lost.unguarded, invocation]
      exact nomatch handled.1.symm.trans unhandled
  · exact .inr (pooled fresh)

/-- A step leaves the crawl alive, unless it is full. -/
theorem Lively.alive_step (lively : state.Lively env) (handled : Handled state label)
    (taken : state.step env label = some next)
    : maxNodes ≤ next.shared.crawl.nodeCount ∨ next.Alive := by
  have alive : maxNodes ≤ state.shared.crawl.nodeCount ∨ state.Alive := lively.alive
  cases step_cases taken with
  | still _ _ _ shared after =>
      have same : anyFresh next.threads = anyFresh state.threads := after.any_eq
      rwa [Alive, shared, same]
  | begin _ _ _ shared after =>
      rw [Alive, shared, after, anyFresh_cons]
      exact alive.imp_right (Or.imp_right fun fresh => by rw [fresh, Bool.or_true])
  | exec _ _ _ shared before after =>
      rwa [Alive, shared, anyFresh_of_answer before after rfl]
  | redirect fetch before after =>
      rwa [Alive, fetch.crawl_eq, (SameSlots.of_fetch fetch).active,
        anyFresh_of_answer before after fetch.point_eq]
  | settle _ shared before after | record shared before after =>
      rwa [Alive, shared, anyFresh_of_answer before after rfl]
  | @run seeds input point _ running shared before after =>
      have sound := lively.sound _ (before ▸ List.mem_cons_self)
      have runs (alive : state.Alive) := alive.of_run handled running sound shared before after
      have moved := (state.shared.resume_flow env seeds input point).nodeCount
      rw [← shared] at moved
      rcases moved with same | ⟨refresh, rfl, read⟩
      · rw [same]
        exact alive.elim .inl fun alive => (runs alive).imp_left And.right
      · -- a refresh that reads that the crawl is full no more
        by_cases room : next.shared.crawl.nodeCount < maxNodes
        · have recounting : state.recounting (.run seeds) = some next.shared.crawl.nodeCount := by
            simp [State.recounting, running, read]
          have alive : state.Alive := by
            rcases handled.2 _ recounting room with before | busy | fresh
            · exact alive.resolve_left (Nat.not_le.mpr before)
            · exact .inl busy
            · refine .inr ?_
              rw [before, anyFresh_cons, fresh, Bool.or_true]
          exact .inr ((runs alive).resolve_left fun full => full.1 refresh rfl)
        · exact .inl (Nat.not_lt.mp room)

/-- A step whose rejections are handled leaves the crawl lively. -/
theorem Lively.step (lively : state.Lively env) (handled : Handled state label)
    (taken : state.step env label = some next)
    : next.Lively env where
  active := active_of_step lively.active taken
  sound := sound_of_step lively.sound taken
  alive := lively.alive_step handled taken

/-- In every run whose rejections are handled, and whose refreshes leave something that goes
on, the crawl does not stall.
-/
theorem notStalled_of_handled (begins : start.Begins)
    (run : Run (step env) Handled start state)
    : state.NotStalled := by
  have lively : state.Lively env :=
    run.invariant begins.lively fun lively handled taken => lively.step handled taken
  exact lively.notStalled

/-- The least id cannot be read, and two pages are started, one after the other. -/
def startsTwo : List Label :=
  [.run [], .exec 1 .rejected {}] ++ turn 0 1 ++ readBatch 2 ++ vet ++ turn 0 3
    ++ [reply 0] ++ turn 0 3 ++ failure 0 ++ turn 0 1 ++ turn 0 3

/-- A rejection has been handled, and the only invocation has ended while two pages are
fetched.
-/
theorem notStalled_of_pages_in_flight
    : ∃ state,
        Run (step plainEnv) Handled (plainCrawl overlapPages) state
        ∧ state.inFlight = 2
        ∧ (∀ thread ∈ state.threads, thread.point.startedAny? = none)
        ∧ state.NotStalled := by
  have passes
      : (execute (step plainEnv) Handled (plainCrawl overlapPages) startsTwo).any
          (fun state => decide (state.inFlight = 2
            ∧ ∀ thread ∈ state.threads, thread.point.startedAny? = none))
        = true := by
    decide +kernel
  obtain ⟨state, run, reached⟩ := exists_run_of_any passes
  obtain ⟨fetching, ended⟩ := of_decide_eq_true reached
  exact ⟨state, run, fetching, ended, notStalled_of_handled (plainCrawl_begins _) run⟩

/-- The first batch cannot be read, which no handler catches, and nothing is left. -/
theorem notStalled_fails_for_first_batch
    : ¬ ∀ (env : Env) (start state : State), start.Begins → Reaches (step env) start state →
        state.NotStalled := by
  intro claim
  have passes
      : (execute (step plainEnv) anyStep (plainCrawl overlapPages)
          (boot ++ turn 0 1 ++ [.exec 0 .rejected {}] ++ turn 0 1)).any
          (fun state => decide (state.shared.crawl.nodeCount < maxNodes
            ∧ state.threads.isEmpty = true))
        = true := by
    decide +kernel
  obtain ⟨state, run, reached⟩ := exists_run_of_any passes
  obtain ⟨room, empty⟩ := of_decide_eq_true reached
  have none : state.threads = [] := List.isEmpty_iff.mp empty
  rcases claim plainEnv _ state (plainCrawl_begins overlapPages) run room with busy | invocation
  · simp [inFlight, fetches, roles, none] at busy
  · rw [none] at invocation
    obtain ⟨_, member, _⟩ := invocation
    cases member

end State

end WebIndexer.Crawl
