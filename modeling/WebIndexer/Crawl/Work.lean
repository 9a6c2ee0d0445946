import Mathlib
import WebIndexer.Crawl.Seeds
import WebIndexer.Crawl.Stalling

/-! The work that is left to a thread of the crawl: a bounded number of steps until it ends or
schedules the next invocation of `processNext`, whatever the database and the servers answer.
-/

namespace WebIndexer.Crawl

open WebIndexer.Config
open WebIndexer.Fetcher
open WebIndexer.Library
open WebIndexer.Runtime
open WebIndexer.Store

-----------------------------------------------------------------------------------------
-- Seeds
-----------------------------------------------------------------------------------------

/-- The most seeds that a batch draws: `SEED_BATCH` of each list, and the two fixed loops. -/
@[irreducible] def seedsMost : Nat := 2 * seedBatch + 80 + 30

/-- A batch draws no more. -/
theorem length_getRandomSeeds {lists : SeedLists} (draw : Draw lists)
    : (getRandomSeeds draw seedBatch).length ≤ seedsMost := by
  unfold seedsMost
  simp only [getRandomSeeds, List.length_append, List.length_map, List.length_take,
    List.length_range, seedBatch]
  omega

-----------------------------------------------------------------------------------------
-- The work of a thread
-----------------------------------------------------------------------------------------

/-- The most rows of a batch of the frontier. -/
@[irreducible] def batchMost : Nat := 50

/-- The rows or addresses that a reply brings. -/
def Input.rows : Input → Nat
  | .reply (some (.rows rows)) => rows.length
  | .reply (some (.urls urls)) => urls.length
  | _ => 0

/-- The most rows or addresses that the reply at a point brings: the limit of its query. -/
def Point.rowsMost : Point → Nat
  | .batchRead _ => batchMost
  | .recrawlRead limit => limit
  | _ => 0

/-- The steps that each of them costs. -/
def Point.rowWork : Point → Nat
  | .batchRead _ => 35
  | .recrawlRead _ => 4
  | _ => 0

/-- The most steps that a piece at a point, the threads that it starts and the pieces after it take
until the next invocation of `processNext` is scheduled. Apart from the rows of a reply, every
await costs two steps besides, the answer and the wake-up, and a later turn costs one.
-/
def Point.work : Point → Nat
  | .cursorRead | .cleared | .consumed _ | .finalise _ | .seedCounted _ => 1
  | .linksInserted .. | .recrawlDeleted _ | .failDeleted _ => 3
  | .saved .. | .recrawlMarked _ | .failMarked _ => 6
  | .fetched _ => 9
  | .recrawlRead _ => 2
  | .recrawlLoop targets => 1 + 4 * targets.length
  | .recrawlInserted _ targets => 2 + 4 * targets.length
  | .forItem items _ => 1 + 35 * items.length
  | .skipped _ rest _ => 2 + 35 * rest.length
  | .blockedDeleted visit => 2 + 35 * visit.rest.length
  | .blockedMarked visit => 5 + 35 * visit.rest.length
  | .start visit => 19 + 35 * visit.rest.length
  | .robotsGate visit => 20 + 35 * visit.rest.length
  | .robotsFetched visit => 22 + 35 * visit.rest.length
  | .checkRobots visit => 31 + 35 * visit.rest.length
  | .examine _ rest _ => 32 + 35 * rest.length
  | .visitedRead _ rest _ => 33 + 35 * rest.length
  | .seedLoop seeds _ _ => 4 + 7 * seeds.length
  | .seedInserted _ seeds _ _ => 5 + 7 * seeds.length
  | .seedVisited _ seeds _ _ => 8 + 7 * seeds.length
  | .statsBody => 5 + 7 * seedsMost
  | .countsRead => 7 + 7 * seedsMost
  | .refreshed _ => 10 + 7 * seedsMost
  | .popRead _ => 12 + 7 * seedsMost
  | .frontierCounted _ => 15 + 7 * seedsMost
  | .nodesCounted _ => 18 + 7 * seedsMost
  | .batchRead _ => 5 + 7 * seedsMost
  | .yielded => 8 + 7 * seedsMost + 35 * batchMost
  | .entry => 10 + 7 * seedsMost + 35 * batchMost

/-- The most steps that a thread takes, with at most five redirects and the answer of a request. -/
def Thread.work : Thread → Nat
  | ⟨.ready input, point⟩ => point.work + point.rowWork * input.rows
  | ⟨.statement, point⟩ => 1 + point.work + point.rowWork * point.rowsMost
  | ⟨.settled _, point⟩ => 1 + point.work
  | ⟨.http _ redirects, point⟩ => 2 + (5 - redirects) + point.work

/-- The thread is an invocation of `processNext` that has not begun. -/
def Thread.isEntry : Thread → Bool
  | ⟨.ready _, .entry⟩ => true
  | _ => false

/-- The most steps that a suspended thread takes, with its wake-up, unless it is an invocation that
has not begun.
-/
def Thread.wait (thread : Thread) : Nat :=
  if thread.isEntry then 0 else 1 + thread.work

/-- The most steps that some suspended threads take. -/
def waitOf (threads : List Thread) : Nat :=
  (threads.map Thread.wait).sum

/-- The work that a piece leaves. -/
def Outcome.work (outcome : Outcome) : Nat :=
  (outcome.next.map Point.work).getD 0 + waitOf outcome.spawned

section Pieces

variable {env : Env} {shared after : Shared} {seeds : List String} {input : Input} {point : Point}
  {outcome : Outcome} {thread : Thread} {url : String}

/-- A suspended thread takes its wake-up and its work. -/
theorem Thread.wait_le (thread : Thread) : thread.wait ≤ 1 + thread.work := by
  unfold Thread.wait
  split
  · exact Nat.zero_le _
  · exact Nat.le_refl _

/-- A fetch takes at most seven steps and its wake-up besides those of its point. -/
theorem FetchCase.wait_le (fetch : FetchCase shared url point (after, thread))
    : thread.wait ≤ 8 + point.work := by
  refine Nat.le_trans thread.wait_le ?_
  cases fetch <;> simp only [Thread.work, Input.rows, Nat.mul_zero] <;> omega

/-- A piece always has its own step to go. -/
theorem Point.work_pos (point : Point) : 0 < point.work := by
  unfold Point.work
  split <;> omega

/-- A ready thread has at least the work of its point to do. -/
theorem Thread.le_work (input : Input) (point : Point)
    : point.work ≤ Thread.work ⟨.ready input, point⟩ :=
  Nat.le_add_right _ _

/-- A piece that goes on leaves the work of its point. -/
theorem Shared.work_goto_eq (shared : Shared) (next : Point)
    : (shared.goto next).work = next.work :=
  rfl

/-- It is less than before when it is less than that of the point. -/
theorem Shared.work_goto {next : Point} (shared : Shared) (less : next.work < point.work)
    : (shared.goto next).work < Thread.work ⟨.ready input, point⟩ :=
  Nat.lt_of_lt_of_le less (Thread.le_work input point)

/-- A piece that waits for a statement leaves the answer, a wake-up and the work of its point. -/
theorem Shared.work_await {next : Point} (shared : Shared)
    (less : 2 + next.work + next.rowWork * next.rowsMost < point.work)
    : (shared.await next).work < Thread.work ⟨.ready input, point⟩ := by
  have wait : Thread.wait ⟨.statement, next⟩
      ≤ 1 + (1 + next.work + next.rowWork * next.rowsMost) := Thread.wait_le _
  have left : (shared.await next).work ≤ 2 + next.work + next.rowWork * next.rowsMost := by
    change 0 + (Thread.wait ⟨.statement, next⟩ + 0) ≤ _
    omega
  exact Nat.lt_of_lt_of_le (Nat.lt_of_le_of_lt left less) (Thread.le_work input point)

/-- A piece that is left to a later turn leaves a wake-up and the work of its point. -/
theorem Shared.work_schedule {next : Point} (shared : Shared) (less : 1 + next.work < point.work)
    : (shared.schedule next).work < Thread.work ⟨.ready input, point⟩ := by
  have wait : Thread.wait ⟨.ready .nothing, next⟩ ≤ 1 + (next.work + next.rowWork * 0) :=
    Thread.wait_le _
  have left : (shared.schedule next).work ≤ 1 + next.work := by
    change 0 + (Thread.wait ⟨.ready .nothing, next⟩ + 0) ≤ _
    omega
  exact Nat.lt_of_lt_of_le (Nat.lt_of_le_of_lt left less) (Thread.le_work input point)

/-- Every piece leaves less work than it had. -/
theorem Flow.work_lt (flow : Flow env shared seeds input point outcome)
    (few : seeds.length ≤ seedsMost)
    : outcome.work < Thread.work ⟨.ready input, point⟩ := by
  cases flow with
  -- the piece ends, or schedules the next invocation
  | lost | thrown | cursorRead | done | busy | loopOver | refilled | cleared | consumed
  | waiting | recrawlDone | loopIdle | seeded | finalised =>
      exact Nat.lt_of_lt_of_le (Point.work_pos _) (Thread.le_work input _)
  -- the work of a reply goes by its rows
  | batch read | targets read =>
      simp only [read, Shared.work_goto_eq, Thread.work, Input.rows, Point.work, Point.rowWork,
        List.length_map]
      omega
  | recrawling =>
      refine Shared.work_await _ ?_
      have most : 110 ≤ seedsMost := by unfold seedsMost; omega
      simp only [Point.work, Point.rowWork, Point.rowsMost]
      omega
  -- a fetch is started
  | asking _ _ _ fetch | started fetch =>
      have left := fetch.wait_le
      refine Nat.lt_of_lt_of_le ?_ (Thread.le_work input _)
      simp only [Outcome.work, waitOf, Option.map_none, Option.map_some, Option.getD_none,
        Option.getD_some, List.map_cons, List.map_nil, List.sum_cons, List.sum_nil,
        Point.work] at left ⊢
      omega
  -- the piece goes on
  | seeding | refilling | recrawlInserted | askRecrawl | unseen | crowded | admitRecrawl | admitted
  | skipped | known | passed | blockedDeleted | seedSeen | seedInserted | refreshedHalf =>
      refine Shared.work_goto _ ?_
      simp only [Point.work, List.length_cons]
      omega
  -- the piece waits for a statement
  | reading | recrawlNext | ask | seen | dropped | blocked | blockedMarked | seedNext | seedsAdded
  | seedUnseen | recrawlFetched | pageFetched | fetchFailed | savedLinks | recrawlMarked
  | failMarked | nodesCounted | frontierCounted | refreshed =>
      refine Shared.work_await _ ?_
      simp only [Point.work, Point.rowWork, Point.rowsMost, List.length_cons]
      omega
  -- the rest is left to a later turn
  | yielding | cached | rulesRead | rulesFailed | savedLeaf | saveFailed | linksInserted
  | popRead | countsRead =>
      refine Shared.work_schedule _ ?_
      simp only [Point.work]
      omega
  | refreshFailed ended =>
      refine Shared.work_schedule _ ?_
      rcases ended with rfl | rfl | rfl <;> simp only [Point.work] <;> omega
  | recrawled ended | failed ended =>
      refine Shared.work_schedule _ ?_
      rcases ended with rfl | rfl <;> simp only [Point.work] <;> omega

/-- A thread that waits for the database is at a point with a statement. -/
def Thread.Asks (thread : Thread) : Prop :=
  thread.phase = .statement → thread.point.statement.isSome

/-- The threads that a piece leaves ask something. -/
theorem Flow.asks (flow : Flow env shared seeds input point outcome)
    : ∀ thread ∈ outcome.threads, thread.Asks := by
  cases flow with
  | lost | thrown | cursorRead | done | busy | loopOver | refilled | cleared | consumed =>
      exact Outcome.forall_none rfl
  | asking _ _ _ fetch => exact Outcome.forall_single rfl (by cases fetch <;> nofun)
  | started fetch => exact Outcome.forall_pair rfl nofun (by cases fetch <;> nofun)
  | reading | recrawling | recrawlNext | ask | seen | dropped | blocked | blockedMarked
  | seedNext | seedsAdded | seedUnseen | recrawlFetched | pageFetched | fetchFailed
  | savedLinks | recrawlMarked | failMarked | nodesCounted | frontierCounted | refreshed =>
      exact Outcome.forall_single rfl fun _ => rfl
  | _ => exact Outcome.forall_single rfl nofun

end Pieces

end WebIndexer.Crawl
