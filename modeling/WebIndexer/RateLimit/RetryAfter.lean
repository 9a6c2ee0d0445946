import WebIndexer.RateLimit.Bounds

/-! What a client may rely on that the limiters of `src/ratelimit.ts` reject without Redis. The
header rounds the rest of the window up to seconds, while the window is over only when more than
its length has passed: where the rest is a whole number of seconds, the two meet.
-/

namespace WebIndexer.RateLimit

open WebIndexer.Library

/-- A request that a limiter rejects, after a history over which the clock never runs backwards.
The second reading of the clock, for the header, is the time of the rejection.
-/
structure Rejection where
  past : List Event
  counter : Counter
  ip : String
  now : Nat
  later : Nat
  retry : Int
  clocked : Clocked (⟨now, .request counter ip later⟩ :: past)
  reads : now ≤ later
  rejected
    : answer? (clientsAfter past) ⟨now, .request counter ip later⟩
      = some (.tooMany retry counter.error)

/-- The event is a request from an address to one of the limiters. -/
def Event.isFrom (ip : String) (event : Event) : Bool :=
  match event.action with
  | .request _ address _ => address = ip
  | .cleanup => false

namespace Rejection

variable (rejection : Rejection)

/-- The history up to the rejected request. -/
def history : List Event :=
  ⟨rejection.now, .request rejection.counter rejection.ip rejection.later⟩ :: rejection.past

/-- The record that the rejected request is counted in. -/
def client : Client := opened (clientsAfter rejection.past) rejection.ip rejection.now

/-- The time that has passed in the window at the rejection. -/
def elapsed : Nat := rejection.later - rejection.client.start

/-- A request from the same address is passed on by the same limiter, at any time after the
seconds of the header and with no request from the address in between.
-/
def Honest : Prop :=
  ∀ (between : List Event) (time reads : Nat),
    Clocked (⟨time, .request rejection.counter rejection.ip reads⟩
      :: (between ++ rejection.history)) →
    (∀ event ∈ between, rejection.later ≤ event.now ∧ event.isFrom rejection.ip = false) →
    rejection.later ≤ time →
    rejection.later + 1000 * rejection.retry ≤ time →
    answer? (clientsAfter (between ++ rejection.history))
        ⟨time, .request rejection.counter rejection.ip reads⟩
      = some .next

end Rejection

-----------------------------------------------------------------------------------------
-- The record of a client over time
-----------------------------------------------------------------------------------------

/-- A request finds or starts a record that has been started by then. -/
theorem start_opened_le {clients : Clients} {ip : String} {now : Nat}
    (started : ∀ client ∈ clients.get? ip, client.start ≤ now)
    : (opened clients ip now).start ≤ now := by
  unfold opened live
  cases found : clients.get? ip with
  | none => exact Nat.le_refl now
  | some client =>
      by_cases gone : rateLimitWindowMs < now - client.start
      · simp [Option.filter, gone]
      · simpa [Option.filter, gone] using started client found

/-- The records of a history have been started by its end, by induction over the history. -/
theorem start_le_of_clocked {events : List Event} (clocked : Clocked events) {ip : String}
    {now : Nat} (past : ∀ event ∈ events, event.now ≤ now)
    : ∀ client ∈ (clientsAfter events).get? ip, client.start ≤ now := by
  induction events generalizing now with
  | nil => intro client found; cases found
  | cons event earlier ih =>
      obtain ⟨before, clocked⟩ := List.pairwise_cons.mp clocked
      have started := ih clocked before
      have passed : event.now ≤ now := past event List.mem_cons_self
      obtain ⟨time, action⟩ := event
      intro client found
      cases action with
      | cleanup =>
          change (cleanupClients (clientsAfter earlier) time).get? ip = some client at found
          rw [cleanupClients, InsertionMap.get?_filter, Option.filter_eq_some_iff] at found
          exact Nat.le_trans (started client found.1) passed
      | request counter address later =>
          change (limiter counter (clientsAfter earlier) address time later).2.get? ip
            = some client at found
          by_cases own : ip = address
          · subst own
            rw [get?_limiter_self] at found
            obtain rfl := Option.some.inj found
            have bumped : ((opened (clientsAfter earlier) ip time).bump counter).start
                = (opened (clientsAfter earlier) ip time).start := by
              cases counter <;> rfl
            rw [bumped]
            exact Nat.le_trans (start_opened_le started) passed
          · rw [get?_limiter_of_ne own] at found
            exact Nat.le_trans (started client found) passed

/-- Without requests from an address its live record stays, by induction over what happens. -/
theorem live_append {between : List Event} (history : List Event) {ip : String} {time : Nat}
    (others : ∀ event ∈ between, event.now ≤ time ∧ event.isFrom ip = false)
    : live (clientsAfter (between ++ history)) ip time = live (clientsAfter history) ip time := by
  induction between with
  | nil => rfl
  | cons event between ih =>
      obtain ⟨⟨passed, other⟩, others⟩ := List.forall_mem_cons.mp others
      rw [← ih others]
      obtain ⟨now, action⟩ := event
      cases action with
      | cleanup => exact ((sameLive_cleanup _ now).mono passed ip).symm
      | request counter address later =>
          have differs : ip ≠ address := Ne.symm (of_decide_eq_false other)
          have kept := @get?_limiter_of_ne (clientsAfter (between ++ history)) counter address ip
            now later differs
          exact congrArg (Option.filter _) kept

-----------------------------------------------------------------------------------------
-- The header
-----------------------------------------------------------------------------------------

namespace Rejection

variable (rejection : Rejection)

/-- The counter of the record is at its limit. -/
theorem full : rejection.counter.max
    < (rejection.client.bump rejection.counter).read rejection.counter := by
  have rejected := rejection.rejected
  simp only [answer?, limiter_answer, Option.some.injEq] at rejected
  by_contra below
  unfold client at below
  rw [if_neg below] at rejected
  cases rejected

/-- The header is the rest of the window in seconds, rounded up. -/
theorem retry_eq
    : rejection.retry = retryAfter (rejection.client.bump rejection.counter) rejection.later := by
  have rejected := rejection.rejected
  simp only [answer?, limiter_answer, Option.some.injEq] at rejected
  have full := rejection.full
  unfold client at full
  rw [if_pos full] at rejected
  exact (Reply.tooMany.inj rejected).1.symm

/-- The record is started before the request that is rejected. -/
theorem start_le : rejection.client.start ≤ rejection.now := by
  obtain ⟨before, clocked⟩ := List.pairwise_cons.mp rejection.clocked
  exact start_opened_le (start_le_of_clocked clocked before)

/-- Counting a request does not move the start of the record. -/
theorem start_bump (counter : Counter) (client : Client)
    : (client.bump counter).start = client.start := by
  cases counter <;> rfl

/-- A later request is passed on exactly when more than the window has passed since its start:
until then it is counted in the full record, after that in a new one.
-/
theorem answer_iff {between : List Event} {time : Nat} (reads : Nat)
    (others : ∀ event ∈ between, event.now ≤ time ∧ event.isFrom rejection.ip = false)
    : answer? (clientsAfter (between ++ rejection.history))
          ⟨time, .request rejection.counter rejection.ip reads⟩
        = some .next
      ↔ rateLimitWindowMs < time - rejection.client.start := by
  have found : (clientsAfter rejection.history).get? rejection.ip
      = some (rejection.client.bump rejection.counter) :=
    get?_limiter_self
  have live_after := live_append rejection.history others
  unfold live at live_after
  rw [found] at live_after
  rw [answer?, Option.some.injEq, limiter_answer, opened, live, live_after]
  by_cases over_now : rateLimitWindowMs < time - rejection.client.start
  · have positive : ¬rejection.counter.max
        < (Client.bump ⟨time, 0, 0⟩ rejection.counter).read rejection.counter := by
      cases rejection.counter <;>
        simp [Client.bump, Client.read, Counter.max, rateLimitMax, rateLimitSearchMax]
    simp only [Option.filter, start_bump, over_now, not_true_eq_false, decide_false,
      Bool.false_eq_true, if_false, Option.getD_none, positive]
  · have again : rejection.counter.max
        < ((rejection.client.bump rejection.counter).bump rejection.counter).read
            rejection.counter := by
      have full := rejection.full
      revert full
      cases rejection.counter <;> simp only [Client.bump, Client.read] <;> omega
    simp only [Option.filter, start_bump, over_now, not_false_eq_true, decide_true, if_true,
      Option.getD_some, again, reduceCtorEq]

end Rejection

/-- The header of a rejected request is honest if and only if the time that has passed in the
window is not a whole number of seconds, or the window is over when the header is written.
-/
theorem retryAfter_honest_iff (rejection : Rejection)
    : rejection.Honest
      ↔ ¬ (1000 ∣ rejection.elapsed ∧ rejection.elapsed ≤ rateLimitWindowMs) := by
  have started := rejection.start_le
  have reads := rejection.reads
  have header := rejection.retry_eq
  unfold retryAfter rateLimitWindowMs at header
  rw [Rejection.start_bump] at header
  unfold Rejection.elapsed rateLimitWindowMs
  constructor
  · rintro honest ⟨whole, inside⟩
    -- the request at the last millisecond of the window
    have meets : rejection.later + 1000 * rejection.retry = rejection.client.start + 60000 := by
      omega
    have ends : rejection.later ≤ rejection.client.start + 60000 := by omega
    have clocked : Clocked (⟨rejection.client.start + 60000,
        .request rejection.counter rejection.ip 0⟩ :: ([] ++ rejection.history)) := by
      refine List.pairwise_cons.mpr ⟨fun event member => ?_, rejection.clocked⟩
      rcases List.mem_cons.mp member with rfl | earlier
      · exact Nat.le_trans reads ends
      · have before := (List.pairwise_cons.mp rejection.clocked).1 event earlier
        exact Nat.le_trans (Nat.le_trans before reads) ends
    have passed := honest [] _ 0 clocked (fun event member => absurd member List.not_mem_nil)
      ends (by omega)
    rw [rejection.answer_iff 0 (fun event member => absurd member List.not_mem_nil)] at passed
    unfold rateLimitWindowMs at passed
    omega
  · intro condition between time reads' clocked others after waited
    have before := (List.pairwise_cons.mp clocked).1
    refine (rejection.answer_iff reads' fun event member => ?_).mpr ?_
    · exact ⟨before event (List.mem_append_left _ member), (others event member).2⟩
    · unfold rateLimitWindowMs
      omega

/-- As many searches as the limit in one moment, and one more after some milliseconds. -/
def oneTooMany (wait : Nat)
    (rejected
      : answer? (clientsAfter (List.replicate 30 ⟨1000, .request .searchCount "10.0.0.1" 1000⟩))
          ⟨1000 + wait, .request .searchCount "10.0.0.1" (1000 + wait)⟩
        = some (.tooMany (60 - wait / 1000) Counter.searchCount.error))
    : Rejection where
  past := List.replicate 30 ⟨1000, .request .searchCount "10.0.0.1" 1000⟩
  counter := .searchCount
  ip := "10.0.0.1"
  now := 1000 + wait
  later := 1000 + wait
  retry := 60 - wait / 1000
  clocked := by
    refine List.pairwise_cons.mpr ⟨fun event member => ?_, ?_⟩
    · rw [List.eq_of_mem_replicate member]
      exact Nat.le_add_right _ _
    · exact List.pairwise_replicate.mpr (.inr (Nat.le_refl _))
  reads := Nat.le_refl _
  rejected := rejected

/-- Half a second into the window the header is honest. -/
theorem retryAfter_honest_of_half_second : (oneTooMany 500 (by decide +kernel)).Honest :=
  (retryAfter_honest_iff _).mpr (by decide +kernel)

/-- One second into the window, a client that waits as long as the header says is rejected
again.
-/
theorem retryAfter_fails_for_second : ¬ ∀ rejection : Rejection, rejection.Honest := by
  intro claim
  have passed := claim (oneTooMany 1000 (by decide +kernel)) [] 61000 61000 (by decide +kernel)
    (fun event member => absurd member List.not_mem_nil) (by decide) (by decide)
  exact absurd passed (by decide +kernel)

end WebIndexer.RateLimit
