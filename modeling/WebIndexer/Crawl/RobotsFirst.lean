import WebIndexer.Crawl.Flow
import WebIndexer.Crawl.Outage
import WebIndexer.Crawl.Vetting
import WebIndexer.Fetcher.RobotsCheck

/-! robots.txt before pages. An origin counts as checked as soon as its robots.txt is asked for,
and stays so when its rules are evicted from the cache, so an item is only tested against the
rules of its origin when the cache still, or already, has an entry for it.
-/

namespace WebIndexer.Crawl

open WebIndexer.Config
open WebIndexer.Fetcher
open WebIndexer.Library
open WebIndexer.Runtime
open WebIndexer.Store

variable {env : Env}

/-- Every entry of the cache holds the rules that a check obtained for its origin. -/
def CacheRead (shared : Shared) : Prop :=
  ∀ entry ∈ shared.robotsCache.entries, ∃ rules,
    (entry.1, rules) ∈ shared.robotsRead ∧ entry.2 = robotsEntry rules

/-- The piece that has read a robots.txt caches it as `checkRobotsTxt` does. -/
theorem Shared.robotsCache_cacheRobots (shared : Shared) (origin : String) (rules : List String)
    : (shared.cacheRobots origin rules).robotsCache
      = cacheRules shared.robotsCache origin rules :=
  rfl

/-- Caching the rules that a check obtained keeps the entries so. -/
theorem CacheRead.cacheRobots {shared : Shared} (read : CacheRead shared) (origin : String)
    (rules : List String)
    : CacheRead (shared.cacheRobots origin rules) := by
  intro entry member
  have member : entry ∈ (shared.robotsCache.set origin (robotsEntry rules)).entries := by
    rw [Shared.robotsCache_cacheRobots] at member
    unfold cacheRules at member
    simp only at member
    split at member
    · exact InsertionMap.mem_of_mem_dropOldest member
    · exact member
  rcases InsertionMap.mem_of_mem_set member with rfl | old
  · exact ⟨rules, List.mem_cons_self, rfl⟩
  · obtain ⟨known, obtained, same⟩ := read entry old
    exact ⟨known, List.mem_cons_of_mem _ obtained, same⟩

/-- The origin whose robots.txt a point waits for. -/
def Point.awaited? (env : Env) : Point → Option String
  | .robotsFetched visit => (env.api.parse visit.item.url).map Url.origin
  | _ => none

/-- The origins whose robots.txt some threads wait for. -/
def awaitedBy (env : Env) (threads : List Thread) : List String :=
  threads.filterMap fun thread => thread.point.awaited? env

@[simp] theorem awaitedBy_nil : awaitedBy env [] = [] := rfl

@[simp] theorem awaitedBy_cons (thread : Thread) (threads : List Thread)
    : awaitedBy env (thread :: threads)
      = (thread.point.awaited? env).toList ++ awaitedBy env threads :=
  filterMap_cons_toList thread threads

@[simp] theorem awaitedBy_append (left right : List Thread)
    : awaitedBy env (left ++ right) = awaitedBy env left ++ awaitedBy env right :=
  List.filterMap_append

/-- What a piece or a step does to the checks: nothing, or a check begins for an origin that
did not count as checked, or ends with the rules of its origin.
-/
inductive CheckCase (before after : Shared) (old new : List String) : Prop
  | keeps (waits : new.Perm old)
    (checked : before.domainsChecked ⊆ after.domainsChecked)
    (read : after.robotsRead = before.robotsRead)
    (cache : after.robotsCache = before.robotsCache)
  | asks {origin : String}
    (waits : new.Perm (origin :: old))
    (unchecked : origin ∉ before.domainsChecked)
    (checked : after.domainsChecked = origin :: before.domainsChecked)
    (read : after.robotsRead = before.robotsRead)
    (cache : after.robotsCache = before.robotsCache)
  | reads {origin : String} {rules : List String}
    (waits : old.Perm (origin :: new))
    (recorded : after = before.cacheRobots origin rules)

/-- Other checks do not matter. -/
theorem CheckCase.frame {before after : Shared} {old new : List String}
    (check : CheckCase before after old new) (rest : List String)
    : CheckCase before after (old ++ rest) (new ++ rest) := by
  cases check with
  | keeps waits checked read cache =>
      exact .keeps (waits.append_right rest) checked read cache
  | asks waits unchecked checked read cache =>
      exact .asks (waits.append_right rest) unchecked checked read cache
  | reads waits recorded => exact .reads (waits.append_right rest) recorded

/-- A fetch changes neither the cache nor what has been checked. -/
structure SameChecks (before after : Shared) : Prop where
  checked : after.domainsChecked = before.domainsChecked
  read : after.robotsRead = before.robotsRead
  cache : after.robotsCache = before.robotsCache

theorem SameChecks.of_fetch {shared after : Shared} {url : String} {point : Point}
    {thread : Thread} (fetch : FetchCase shared url point (after, thread))
    : SameChecks shared after := by
  cases fetch <;> exact ⟨rfl, rfl, rfl⟩

/-- No check is in progress where no handler surrounds an await. -/
theorem Point.awaited?_of_isUnguarded {point : Point} (unguarded : point.isUnguarded = true)
    : point.awaited? env = none := by
  cases point <;> first | rfl | cases unguarded

/-- A piece whose robots.txt could be fetched begins a check, ends one, or does neither. -/
theorem Flow.checkCase {shared : Shared} {seeds : List String} {input : Input} {point : Point}
    {outcome : Outcome} (flow : Flow env shared seeds input point outcome)
    (fetched : ∀ visit, point = .robotsFetched visit →
      (env.api.parse visit.item.url).isSome ∧ input.page?.isSome)
    : CheckCase shared outcome.shared (point.awaited? env).toList
        (awaitedBy env outcome.threads) := by
  have subset := List.Subset.refl shared.domainsChecked
  cases flow with
  | lost unguarded _ =>
      rw [Point.awaited?_of_isUnguarded unguarded]
      exact .keeps (.refl _) subset rfl rfl
  | thrown parses _ =>
      rcases parses with rfl | rfl <;> exact .keeps (.refl _) subset rfl rfl
  | asking parse new uncached fetch =>
      have kept := SameChecks.of_fetch fetch
      refine .asks ?_ new kept.checked kept.read kept.cache
      simp [Outcome.threads, fetch.point_eq, Point.awaited?, parse]
  | started fetch =>
      have kept := SameChecks.of_fetch fetch
      refine .keeps ?_ (kept.checked ▸ subset) kept.read kept.cache
      simp [Outcome.threads, fetch.point_eq, Point.awaited?]
  | cached => exact .keeps (.refl _) (List.subset_cons_self ..) rfl rfl
  | rulesRead parse page =>
      refine .reads ?_ rfl
      simp only [Point.awaited?, parse, Option.map_some, Option.toList_some]
      exact .refl _
  | rulesFailed failed =>
      obtain ⟨parses, arrived⟩ := fetched _ rfl
      rcases failed with invalid | rejected
      · rw [invalid] at parses
        cases parses
      · rw [rejected] at arrived
        cases arrived
  | seeded ended => rcases ended with rfl | rfl <;> exact .keeps (.refl _) subset rfl rfl
  | recrawled ended | failed ended =>
      rcases ended with rfl | rfl <;> exact .keeps (.refl _) subset rfl rfl
  | refilled _ ended | refreshFailed ended =>
      rcases ended with rfl | rfl | rfl <;> exact .keeps (.refl _) subset rfl rfl
  | _ => exact .keeps (.refl _) subset rfl rfl

/-- A check for the origin of the address has completed, and none of its rules blocks it. -/
def Cleared (env : Env) (shared : Shared) (url : String) : Prop :=
  ∃ parsed rules,
    env.api.parse url = some parsed
    ∧ (parsed.origin, rules) ∈ shared.robotsRead
    ∧ rules.any (startsWith parsed.pathname) = false

/-- What a thread has gone through: a visit that starts has been cleared unless it is a
re-crawl, and one that waits for a robots.txt has an origin.
-/
structure Thread.Checked (env : Env) (shared : Shared) (thread : Thread) : Prop where
  start : ∀ visit, thread.point = .start visit → isRecrawl visit.item = false →
    Cleared env shared visit.item.url
  await : ∀ visit, thread.point = .robotsFetched visit →
    (env.api.parse visit.item.url).isSome

/-- The point waits for a robots.txt, or starts a page fetch. -/
def Point.isChecked : Point → Bool
  | .robotsFetched _ | .start _ => true
  | _ => false

namespace Thread.Checked

variable {shared after : Shared} {thread : Thread}

/-- Other threads need nothing. -/
theorem of_other (other : thread.point.isChecked = false) : thread.Checked env shared := by
  constructor
  · intro visit starts
    rw [starts] at other
    cases other
  · intro visit waits
    rw [waits] at other
    cases other

/-- What a check obtained is not forgotten. -/
theorem mono (grows : shared.robotsRead ⊆ after.robotsRead)
    (checked : thread.Checked env shared)
    : thread.Checked env after := by
  refine ⟨fun visit starts first => ?_, checked.await⟩
  obtain ⟨parsed, rules, parse, read, free⟩ := checked.start visit starts first
  exact ⟨parsed, rules, parse, grows read, free⟩

/-- A thread at the same point needs the same. -/
theorem of_point {other : Thread} (same : other.point = thread.point)
    (checked : thread.Checked env shared)
    : other.Checked env shared :=
  ⟨fun visit starts => checked.start visit (same ▸ starts),
    fun visit waits => checked.await visit (same ▸ waits)⟩

end Thread.Checked

/-- A piece starts a visit only when it is cleared, if the cache holds the rules that were
read, and an entry for the origin of an item that it tests.
-/
theorem Flow.checked {shared : Shared} {seeds : List String} {input : Input} {point : Point}
    {outcome : Outcome} (flow : Flow env shared seeds input point outcome)
    (read : CacheRead shared)
    (known : ∀ visit parsed, point = .robotsGate visit →
      env.api.parse visit.item.url = some parsed →
      (shared.robotsCache.get? parsed.origin).isSome)
    : ∀ thread ∈ outcome.threads, thread.Checked env outcome.shared := by
  cases flow with
  | asking parse new uncached fetch =>
      refine Outcome.forall_single rfl ⟨fun visit starts => ?_, fun visit waits => ?_⟩
      · cases fetch.point_eq.symm.trans starts
      · cases fetch.point_eq.symm.trans waits
        exact Option.isSome_iff_exists.mpr ⟨_, parse⟩
  | started fetch =>
      exact Outcome.forall_pair rfl (.of_other rfl) (.of_other (fetch.point_eq ▸ rfl))
  | admitRecrawl admits recrawl =>
      refine Outcome.forall_single rfl ⟨?_, nofun⟩
      intro visit starts first
      cases starts
      exact Bool.noConfusion (recrawl.symm.trans first)
  | @passed visit parsed parse free =>
      refine Outcome.forall_single rfl ⟨?_, nofun⟩
      intro other starts _
      cases starts
      obtain ⟨entry, found⟩ := Option.isSome_iff_exists.mp (known visit parsed rfl parse)
      obtain ⟨rules, obtained, same⟩ := read _ (InsertionMap.mem_of_get? found)
      refine ⟨parsed, rules, parse, obtained, ?_⟩
      by_cases empty : rules = []
      · rw [empty]
        rfl
      · have same : entry = some rules := same.trans (if_neg empty)
        exact free rules (same ▸ found)
  | lost | thrown | cursorRead | done | busy | loopOver | refilled | cleared | consumed =>
      exact Outcome.forall_none rfl
  | _ => exact Outcome.forall_single rfl (.of_other rfl)

namespace State

variable {start state next : State} {label : Label}

/-- The origins whose robots.txt is awaited. -/
def awaited (env : Env) (state : State) : List String :=
  awaitedBy env state.threads

/-- The response with which a step ends a check of robots.txt, if it ends one. -/
def checking (state : State) : Label → Option Input
  | .run _ =>
      match state.running with
      | some ⟨.ready input, .robotsFetched _⟩ => some input
      | _ => none
  | _ => none

/-- The visit that a step tests against the rules of its origin, if it tests one. -/
def testing (state : State) : Label → Option Visit
  | .run _ =>
      match state.running with
      | some ⟨_, .robotsGate visit⟩ => some visit
      | _ => none
  | _ => none

/-- The robots.txt that a piece goes on with could be fetched. -/
def RobotsArrive (state : State) (label : Label) : Prop :=
  ∀ input ∈ state.checking label, input.page?.isSome

instance : DecidableRel RobotsArrive :=
  fun _ _ => inferInstanceAs (Decidable (∀ _ ∈ _, _))

/-- The cache has an entry for the origin of an item that is tested against its rules. -/
def RobotsCached (env : Env) (state : State) (label : Label) : Prop :=
  ∀ visit ∈ state.testing label, ∀ parsed ∈ env.api.parse visit.item.url,
    (state.shared.robotsCache.get? parsed.origin).isSome

instance : DecidableRel (RobotsCached env) :=
  fun _ _ => inferInstanceAs (Decidable (∀ _ ∈ _, ∀ _ ∈ _, _))

/-- A page fetch that a step starts, other than a re-crawl, comes after a check of robots.txt
for its origin, and no rule that was obtained for the origin blocks it.
-/
def FetchesAfterRobots (env : Env) (state : State) (label : Label) : Prop :=
  ∀ visit, state.starting label = some visit → isRecrawl visit.item = false →
    ∃ parsed,
      env.api.parse visit.item.url = some parsed
      ∧ parsed.origin ∈ state.shared.robotsRead.map Prod.fst
      ∧ ∀ rules, (parsed.origin, rules) ∈ state.shared.robotsRead →
          rules.any (startsWith parsed.pathname) = false

/-- The cache and the threads know of robots.txt what checks obtained, and each origin is
checked once.
-/
structure RobotsKept (env : Env) (state : State) : Prop where
  cache : CacheRead state.shared
  threads : ∀ thread ∈ state.threads, thread.Checked env state.shared
  once : (state.awaited env ++ state.shared.robotsRead.map Prod.fst).Nodup
  checked
    : ∀ origin ∈ state.awaited env ++ state.shared.robotsRead.map Prod.fst,
        origin ∈ state.shared.domainsChecked

/-- A crawl that begins has checked nothing. -/
theorem Begins.robotsKept (begins : start.Begins) : start.RobotsKept env := by
  have checked : ∀ thread ∈ start.threads, thread.Checked env start.shared :=
    begins.forall_threads (.of_other rfl) (.of_other rfl)
  obtain ⟨_, _, _, _, _, _, rfl⟩ := begins
  exact ⟨nofun, checked, .nil, nofun⟩

/-- Threads that are the same up to order await the same checks up to order. -/
theorem awaitedBy_perm {left right : List Thread} (same : left.Perm right)
    : (awaitedBy env left).Perm (awaitedBy env right) :=
  same.filterMap _

/-- An answer leaves a thread at its point, so that it awaits the same check. -/
theorem awaited_of_answer {old new : Thread} {rest : List Thread}
    (before : state.threads.Perm (old :: rest)) (after : next.threads = new :: rest)
    (same : new.point = old.point)
    : (next.awaited env).Perm (state.awaited env) :=
  filterMap_perm_of_replace before after (congrArg (Point.awaited? env) same)

/-- Each step begins a check, ends one, or does neither, if robots.txt arrives. -/
theorem step_checkCase (kept : state.RobotsKept env) (arrive : RobotsArrive state label)
    (taken : state.step env label = some next)
    : CheckCase state.shared next.shared (state.awaited env) (next.awaited env) := by
  have subset := List.Subset.refl state.shared.domainsChecked
  cases step_cases taken with
  | still _ _ _ shared after =>
      exact .keeps (awaitedBy_perm after) (shared ▸ subset) (shared ▸ rfl) (shared ▸ rfl)
  | begin _ _ background shared after =>
      refine .keeps ?_ (shared ▸ subset) (shared ▸ rfl) (shared ▸ rfl)
      unfold awaited
      rw [after]
      cases background <;> exact .refl _
  | @run seeds input point _ running shared before after =>
      unfold awaited
      rw [before, after, shared, awaitedBy_cons, awaitedBy_append]
      refine ((state.shared.resume_flow env seeds input point).checkCase ?_).frame _
      rintro visit rfl
      have member : ⟨.ready input, .robotsFetched visit⟩ ∈ state.threads :=
        before ▸ List.mem_cons_self
      refine ⟨(kept.threads _ member).await visit rfl, ?_⟩
      exact arrive input (by simp [checking, running])
  | exec _ _ _ shared before after =>
      exact .keeps (awaited_of_answer before after rfl) (shared ▸ subset) (shared ▸ rfl)
        (shared ▸ rfl)
  | redirect fetch before after =>
      have same := SameChecks.of_fetch fetch
      exact .keeps (awaited_of_answer before after fetch.point_eq) (same.checked ▸ subset)
        same.read same.cache
  | settle _ shared before after | record shared before after =>
      exact .keeps (awaited_of_answer before after rfl) (shared ▸ subset) (shared ▸ rfl)
        (shared ▸ rfl)

/-- A step keeps the threads cleared, if the items that it tests find their rules cached. -/
theorem RobotsKept.threads_step (kept : state.RobotsKept env)
    (cached : RobotsCached env state label) (taken : state.step env label = some next)
    : ∀ thread ∈ next.threads, thread.Checked env next.shared := by
  have grows : state.shared.robotsRead ⊆ next.shared.robotsRead :=
    (step_remembers taken).robotsRead
  have old : ∀ thread ∈ state.threads, thread.Checked env next.shared :=
    fun thread member => (kept.threads thread member).mono grows
  refine forall_threads_of_step taken old ?begun ?left ?answered ?redirected ?settled ?recorded
  case begun =>
    intro thread background
    cases background <;> exact .of_other rfl
  case left =>
    intro seeds input point same running _ shared
    subst same
    rw [shared]
    refine (state.shared.resume_flow env seeds input point).checked kept.cache ?_
    rintro visit parsed rfl parse
    exact cached visit (by simp [testing, running]) parsed parse
  case answered =>
    intro point statement ending tables reply _ _ _ held
    exact ⟨held.start, held.await⟩
  case redirected =>
    intro url redirects target point thread _ fetch held
    exact held.of_point fetch.point_eq
  case settled =>
    intro url redirects point response _ held
    exact ⟨held.start, held.await⟩
  case recorded =>
    intro point response held
    exact ⟨held.start, held.await⟩

/-- A step keeps what is known of robots.txt. -/
theorem RobotsKept.step (kept : state.RobotsKept env)
    (guarded : RobotsArrive state label ∧ RobotsCached env state label)
    (taken : state.step env label = some next)
    : next.RobotsKept env := by
  have threads := kept.threads_step guarded.2 taken
  cases step_checkCase kept guarded.1 taken with
  | keeps waits checked read cache =>
      have same := waits.append_right (state.shared.robotsRead.map Prod.fst)
      refine ⟨?_, threads, ?_, ?_⟩
      · unfold CacheRead
        rw [cache, read]
        exact kept.cache
      · rw [read]
        exact same.nodup_iff.mpr kept.once
      · rw [read]
        intro origin member
        exact checked (kept.checked origin (same.mem_iff.mp member))
  | @asks origin waits unchecked checked read cache =>
      have same := waits.append_right (state.shared.robotsRead.map Prod.fst)
      refine ⟨?_, threads, ?_, ?_⟩
      · unfold CacheRead
        rw [cache, read]
        exact kept.cache
      · rw [read]
        refine same.nodup_iff.mpr (List.nodup_cons.mpr ⟨?_, kept.once⟩)
        exact fun member => unchecked (kept.checked origin member)
      · rw [read, checked]
        intro other member
        rcases List.mem_cons.mp (same.mem_iff.mp member) with rfl | old
        · exact List.mem_cons_self
        · exact List.mem_cons_of_mem _ (kept.checked other old)
  | @reads origin rules waits recorded =>
      have same : (next.awaited env ++ next.shared.robotsRead.map Prod.fst).Perm
          (state.awaited env ++ state.shared.robotsRead.map Prod.fst) := by
        rw [recorded]
        exact List.perm_middle.trans (waits.append_right _).symm
      refine ⟨recorded ▸ kept.cache.cacheRobots origin rules, threads, ?_, ?_⟩
      · exact same.nodup_iff.mpr kept.once
      · intro other member
        rw [recorded]
        exact kept.checked other (same.mem_iff.mp member)

/-- In every run in which robots.txt arrives, and items find their rules cached when they are
tested, page fetches come after the robots.txt of their origin and respect its rules.
-/
theorem fetchesAfterRobots (begins : start.Begins)
    (run : Run (step env)
      (fun state label => RobotsArrive state label ∧ RobotsCached env state label) start state)
    (label : Label)
    : FetchesAfterRobots env state label := by
  have kept : state.RobotsKept env :=
    run.invariant begins.robotsKept fun kept guarded taken => kept.step guarded taken
  intro visit starting first
  obtain ⟨_, phase, _, running⟩ := running_of_starting starting
  have member : ⟨phase, .start visit⟩ ∈ state.threads := by
    simp [State.threads, running]
  obtain ⟨parsed, rules, parse, read, free⟩ := (kept.threads _ member).start visit rfl first
  refine ⟨parsed, parse, List.mem_map_of_mem read, fun other obtained => ?_⟩
  -- each origin is checked once, so that the rules are those that cleared the visit
  have unique := (List.nodup_append.mp kept.once).2.1
  have same := List.inj_on_of_nodup_map unique obtained read rfl
  obtain rfl : other = rules := congrArg Prod.snd same
  exact free

/-- The first thread is told that its item is unvisited, and obtains a rule for its origin. -/
def vetInOrder : List Label :=
  [reply 0] ++ turn 0 3 ++ [.http 0 (.page "User-agent: *\nDisallow: /private"), .record 0]
    ++ turn 0 1

/-- A crawl that is about to fetch a page, with a rule of its origin that does not block it. -/
theorem fetchesAfterRobots_of_rule
    : ∃ state, Run (step plainEnv)
          (fun state label => RobotsArrive state label ∧ RobotsCached plainEnv state label)
          (plainCrawl overlapPages) state
        ∧ state.shared.robotsRead = [("https://a.example", ["/private"])]
        ∧ (state.starting (.run [])).isSome = true
        ∧ FetchesAfterRobots plainEnv state (.run []) := by
  have passes
      : (execute (step plainEnv)
          (fun state label => RobotsArrive state label ∧ RobotsCached plainEnv state label)
          (plainCrawl overlapPages) (boot ++ readBatch 2 ++ vetInOrder ++ turn 0 1)).any
          (fun state => decide (state.shared.robotsRead = [("https://a.example", ["/private"])]
            ∧ (state.starting (.run [])).isSome = true))
        = true := by
    decide +kernel
  obtain ⟨state, run, reached⟩ := exists_run_of_any passes
  obtain ⟨read, starts⟩ := of_decide_eq_true reached
  exact ⟨state, run, read, starts, fetchesAfterRobots (plainCrawl_begins _) run (.run [])⟩

/-- One invocation waits for the robots.txt of the second page. The first page ends, and the
invocation after it is about to start the second page, whose origin counts as checked.
-/
def ahead : List Label :=
  boot ++ readBatch 2 ++ vetInOrder ++ turn 0 3 ++ [reply 0] ++ turn 0 3
    -- the first page ends; the next invocation finds no more rows, and wraps around
    ++ ending 1 ++ turn 0 1 ++ readBatch 1
    -- it finds the second page unvisited
    ++ turn 0 1 ++ readBatch 2 ++ [reply 0] ++ turn 0 4

/-- A page is fetched ahead of the robots.txt of its origin, although robots.txt arrives. -/
theorem fetchesAfterRobots_fails_while_checking
    : ¬ ∀ (env : Env) (start state : State) (label : Label), start.Begins →
        Run (step env) RobotsArrive start state → FetchesAfterRobots env state label := by
  intro claim
  have passes
      : (execute (step plainEnv) RobotsArrive (plainCrawl overlapPages) ahead).any
          (fun state =>
            decide (state.shared.robotsRead = [("https://a.example", ["/private"])])
              && (state.starting (.run [])).any fun visit =>
                decide (isRecrawl visit.item = false
                  ∧ (plainEnv.api.parse visit.item.url).map Url.origin
                    = some "https://b.example"))
        = true := by
    decide +kernel
  obtain ⟨state, run, reached⟩ := exists_run_of_any passes
  obtain ⟨read, starts⟩ := (Bool.and_eq_true _ _).mp reached
  obtain ⟨visit, starting, early⟩ := (Option.any_eq_true _ _).mp starts
  obtain ⟨first, origin⟩ := of_decide_eq_true early
  obtain ⟨parsed, parse, checked, _⟩ :=
    claim plainEnv _ state (.run []) (plainCrawl_begins overlapPages) run visit starting first
  rw [parse] at origin
  rw [of_decide_eq_true read, Option.some.inj origin] at checked
  exact absurd checked (by decide)

end State

end WebIndexer.Crawl
