import WebIndexer.Crawl.Cargo
import WebIndexer.Crawl.Vetting

/-! The pause of a full disk. Only the loop over links and the statistics timer consult the
flag, so a pause stops the crawl as long as nothing else has work to do: no thread is past the
flag when it is set, no item of a batch can be admitted, and the frontier is not low.
-/

namespace WebIndexer.Crawl

open WebIndexer.Config
open WebIndexer.Library
open WebIndexer.Store

variable {env : Env} {shared : Shared} {seeds : List String} {input : Input} {point : Point}
  {outcome : Outcome}

/-- The script goes on from the point to a page fetch or to an insertion, and no longer
consults the flag.
-/
def Point.isCommitted : Point → Bool
  | .recrawlRead _ | .recrawlLoop _ | .recrawlInserted .. | .checkRobots _ | .robotsFetched _
  | .robotsGate _ | .start _ | .seedLoop .. | .seedVisited .. | .seedInserted .. => true
  | .linksInserted _ items => !items.isEmpty
  | _ => false

/-- The insertions of a point without a Kafka message are those of a committed one. -/
theorem Point.isCommitted_of_inserts {statement : Statement} {item : FrontierItem}
    (waits : point.statement = some statement) (inserts : item ∈ statement.inserts)
    : point.isCommitted = true ∨ point = .consumed item := by
  cases point with
  | recrawlInserted | seedInserted => exact .inl rfl
  | linksInserted job items =>
      obtain rfl := Option.some.inj waits
      have some : items.isEmpty = false :=
        List.isEmpty_eq_false_iff_exists_mem.mpr ⟨item, inserts⟩
      exact .inl (by simp [isCommitted, some])
  | consumed message =>
      obtain rfl := Option.some.inj waits
      obtain rfl := List.mem_singleton.mp inserts
      exact .inr rfl
  | _ => first | (obtain rfl := Option.some.inj waits; cases inserts) | cases waits

/-- While the flag is set, a piece does not commit itself, unless it admits an item, or finds
an empty batch, no fetch in flight and a low frontier: the two places that do not consult the
flag.
-/
theorem Flow.uncommitted (flow : Flow env shared seeds input point outcome)
    (paused : shared.crawl.diskPaused = true)
    (unadmitted : ∀ item rest startedAny, point = .examine item rest startedAny →
      ¬ shared.admits env item)
    (stocked : ∀ cursor, point = .batchRead cursor → input = .reply (some (.rows [])) →
      shared.active = 0 → queueLowWater ≤ shared.crawl.frontierCount)
    (uncommitted : point.isCommitted = false)
    : ∀ thread ∈ outcome.threads, thread.point.isCommitted = false := by
  cases flow with
  | lost | thrown | cursorRead | done | busy | loopOver | refilled | cleared | consumed =>
      exact Outcome.forall_none rfl
  | recrawling empty idle low | seeding empty idle low =>
      exact absurd (stocked _ rfl empty idle) (Nat.not_le.mpr low)
  | admitRecrawl admits | admitted admits => exact absurd admits (unadmitted _ _ _ rfl)
  | refilling _ _ writable => exact Bool.noConfusion (paused.symm.trans writable)
  | @savedLinks job page links =>
      -- the loop over the links ends at once
      have none : (shared.countSuccess env job page).keptLinks env job page.url links = [] := by
        refine List.eq_nil_iff_forall_not_mem.mpr fun item kept => ?_
        have writable := (Shared.keptLink_of_mem kept).writable
        exact Bool.noConfusion (paused.symm.trans writable)
      rw [none]
      exact Outcome.forall_single rfl rfl
  | targets | recrawlDone | recrawlNext | recrawlInserted | known | cached | asking | rulesRead
  | rulesFailed | blocked | passed | started | seedNext | seedsAdded | seedSeen | seedUnseen
  | seedInserted => cases uncommitted
  | _ => exact Outcome.forall_single rfl rfl

/-- No piece moves the flag. -/
theorem Flow.diskPaused (flow : Flow env shared seeds input point outcome)
    : outcome.shared.crawl.diskPaused = shared.crawl.diskPaused := by
  cases flow with
  | asking _ _ _ fetch => exact congrArg CrawlState.diskPaused fetch.crawl_eq
  | @started visit after _ fetch =>
      have same : after.crawl.diskPaused = (shared.take env visit).crawl.diskPaused := by
        rw [fetch.crawl_eq]
      exact same
  | _ => rfl

namespace State

variable {start state next : State} {label : Label}

/-- A disk check that sets the flag. -/
def setsPause (label : Label) : Bool :=
  match label with
  | .diskTimer avail usagePct => avail < minDiskMb ∨ diskMaxUsagePct ≤ usagePct
  | _ => false

/-- The item whose domain a step examines, if it examines one. -/
def examining (state : State) : Label → Option FrontierItem
  | .run _ =>
      match state.running with
      | some ⟨_, .examine item _ _⟩ => some item
      | _ => none
  | _ => none

/-- The step goes on with an empty batch. -/
def findsNoRows (state : State) : Label → Bool
  | .run _ =>
      match state.running with
      | some ⟨.ready (.reply (some (.rows []))), .batchRead _⟩ => true
      | _ => false
  | _ => false

/-- A disk check that sets the flag finds no thread past it. While the flag is set, no item
that is examined can be admitted, and a batch that is empty while no fetch is in flight finds
a frontier that is not low.
-/
def PauseConsulted (env : Env) (state : State) (label : Label) : Prop :=
  (setsPause label = true → ∀ thread ∈ state.threads, thread.point.isCommitted = false)
  ∧ (state.shared.crawl.diskPaused = true →
      (∀ item ∈ state.examining label, ¬ state.shared.admits env item)
      ∧ (state.findsNoRows label = true → state.shared.active = 0 →
          queueLowWater ≤ state.shared.crawl.frontierCount))

instance : DecidableRel (PauseConsulted env) :=
  fun _ _ => inferInstanceAs (Decidable ((_ → ∀ _ ∈ _, _) ∧ (_ → (∀ _ ∈ _, _) ∧ (_ → _))))

/-- The step inserts a Kafka message. -/
def Consumes (state : State) (label : Label) : Prop :=
  ∃ item, state.acting label = some ⟨.statement, .consumed item⟩

/-- The step starts no page fetch, and adds no row to the frontier but for a Kafka message. -/
structure Halts (state : State) (label : Label) (next : State) : Prop where
  fetches : state.starting label = none
  rows
    : ∀ row ∈ next.shared.tables.frontier.rows,
        row ∈ state.shared.tables.frontier.rows ∨ state.Consumes label

/-- While the flag is set, no step has work to do. -/
def PauseHolds (env : Env) (state : State) : Prop :=
  state.shared.crawl.diskPaused = true →
    ∀ label next, state.step env label = some next → state.Halts label next

/-- While the flag is set, no thread is past it. -/
def PauseKept (state : State) : Prop :=
  state.shared.crawl.diskPaused = true →
    ∀ thread ∈ state.threads, thread.point.isCommitted = false

/-- A crawl that begins is not paused. -/
theorem Begins.pauseKept (begins : start.Begins) : start.PauseKept := by
  obtain ⟨_, _, _, _, _, _, rfl⟩ := begins
  intro paused
  cases paused

/-- Only a disk check sets the flag, and it moves no thread. -/
theorem diskPaused_of_step (taken : state.step env label = some next)
    (paused : next.shared.crawl.diskPaused = true)
    : state.shared.crawl.diskPaused = true
      ∨ setsPause label = true ∧ next.threads.Perm state.threads := by
  cases step_cases taken with
  | still _ flag _ shared after moved =>
      rw [shared] at paused
      obtain rfl : flag = true := paused
      rcases moved with kept | ⟨avail, usagePct, same, full⟩
      · exact .inl kept.symm
      · subst same
        exact .inr ⟨full.symm, after⟩
  | begin _ _ _ shared | exec _ _ _ shared | settle _ shared | record shared =>
      rw [shared] at paused
      exact .inl paused
  | run _ shared =>
      rw [shared, (state.shared.resume_flow ..).diskPaused] at paused
      exact .inl paused
  | redirect fetch =>
      rw [fetch.crawl_eq] at paused
      exact .inl paused

/-- A step keeps the threads behind the flag, if the flag is consulted where it matters. -/
theorem PauseKept.step (kept : state.PauseKept) (consulted : PauseConsulted env state label)
    (taken : state.step env label = some next)
    : next.PauseKept := by
  intro paused
  rcases diskPaused_of_step taken paused with before | ⟨full, threads⟩
  · refine forall_threads_of_step taken (kept before) ?begun ?left ?answered ?redirected ?settled
      ?recorded
    case begun =>
      intro thread background
      cases background <;> rfl
    case left =>
      intro seeds input point same running member _
      subst same
      obtain ⟨unadmitted, stocked⟩ := consulted.2 before
      refine (state.shared.resume_flow env seeds input point).uncommitted before ?_ ?_
        (kept before _ member)
      · intro item rest startedAny same
        exact unadmitted item (by simp [examining, running, same])
      · intro cursor same empty
        exact stocked (by simp [findsNoRows, running, same, empty])
    case answered =>
      intro point statement ending tables reply _ _ _ held
      exact held
    case redirected =>
      intro url redirects target point thread _ fetch held
      exact fetch.point_eq ▸ held
    case settled =>
      intro url redirects point response _ held
      exact held
    case recorded =>
      intro point response held
      exact held
  · intro thread member
    exact consulted.1 full thread (threads.mem_iff.mp member)

/-- Threads behind the flag neither start page fetches nor insert rows. -/
theorem PauseKept.holds (kept : state.PauseKept) : state.PauseHolds env := by
  intro paused label next taken
  constructor
  · refine Option.eq_none_iff_forall_ne_some.mpr fun visit starting => ?_
    obtain ⟨_, phase, _, running⟩ := running_of_starting starting
    have member : ⟨phase, .start visit⟩ ∈ state.threads := by
      simp [State.threads, running]
    exact Bool.noConfusion (kept paused _ member)
  · intro row listed
    rcases tables_of_step taken with same | ⟨point, _, _, _, acting, waiting, waits, executed⟩
    · exact .inl (same ▸ listed)
    · refine (executed.mem_rows listed).imp_right fun inserted => ?_
      rcases Point.isCommitted_of_inserts waits inserted with committed | rfl
      · exact Bool.noConfusion (committed.symm.trans (kept paused _ waiting))
      · exact ⟨_, acting⟩

/-- In every run in which the flag is consulted where it matters, a pause stops the crawl. -/
theorem pauseHolds_of_consulted (begins : start.Begins)
    (run : Run (step env) (PauseConsulted env) start state)
    : state.PauseHolds env := by
  have kept : state.PauseKept :=
    run.invariant begins.pauseKept fun kept consulted taken => kept.step consulted taken
  exact kept.holds

/-- The disk fills up while a page is fetched. The fetch ends, and no row is left. -/
def pauseMeanwhile : List Label :=
  boot ++ readBatch 2 ++ vet ++ turn 0 2 ++ [.run [], .diskTimer 100 0] ++ ending 0 ++ turn 0 1
    ++ readBatch 1

/-- A crawl that has fetched its only page, and is paused. -/
theorem pauseHolds_of_last_page
    : ∃ state,
        Run (step plainEnv) (PauseConsulted plainEnv)
          (plainCrawl [⟨"https://a.example/1", 0, none⟩]) state
        ∧ state.shared.crawl.diskPaused = true
        ∧ state.shared.started.length = 1
        ∧ state.PauseHolds plainEnv := by
  have passes
      : (execute (step plainEnv) (PauseConsulted plainEnv)
          (plainCrawl [⟨"https://a.example/1", 0, none⟩]) pauseMeanwhile).any
          (fun state => decide (state.shared.crawl.diskPaused = true
            ∧ state.shared.started.length = 1))
        = true := by
    decide +kernel
  obtain ⟨state, run, reached⟩ := exists_run_of_any passes
  obtain ⟨paused, fetched⟩ := of_decide_eq_true reached
  exact ⟨state, run, paused, fetched, pauseHolds_of_consulted (plainCrawl_begins _) run⟩

/-- The disk is full as soon as the loop has started, and its first page is fetched
nevertheless.
-/
theorem pauseHolds_fails_for_a_row
    : ¬ ∀ (env : Env) (start state : State), start.Begins → Reaches (step env) start state →
        state.PauseHolds env := by
  intro claim
  have passes
      : (execute (step plainEnv) anyStep (plainCrawl overlapPages)
          (boot ++ [.diskTimer 100 0] ++ readBatch 2 ++ vet ++ turn 0 1)).any
          (fun state => decide (state.shared.crawl.diskPaused = true
            ∧ (state.starting (.run [])).isSome = true
            ∧ (state.step plainEnv (.run [])).isSome = true))
        = true := by
    decide +kernel
  obtain ⟨state, run, reached⟩ := exists_run_of_any passes
  obtain ⟨paused, starts, enabled⟩ := of_decide_eq_true reached
  obtain ⟨next, taken⟩ := Option.isSome_iff_exists.mp enabled
  have halts := claim plainEnv _ state (plainCrawl_begins overlapPages) run paused _ _ taken
  rw [halts.fetches] at starts
  cases starts

end State

end WebIndexer.Crawl
