import WebIndexer.Library.FixedWindow
import WebIndexer.RateLimit.Middleware

/-! What the limiters of `src/ratelimit.ts` pass on without Redis. A history is a list of
events, newest first. Runs of the cleanup timer only remove records that the next request
would replace, so that they change no answer; without them, either counter of a client is
one over fixed windows.
-/

namespace WebIndexer.RateLimit

open WebIndexer.Library

-----------------------------------------------------------------------------------------
-- Histories
-----------------------------------------------------------------------------------------

/-- What can happen: a request from an address reaches one of the two limiters, which reads
the clock once more if it rejects the request, or the cleanup timer fires.
-/
inductive Action where
  | request (counter : Counter) (ip : String) (later : Nat)
  | cleanup
  deriving DecidableEq, Repr

/-- Something that happens at a time. -/
structure Event where
  now : Nat
  action : Action
  deriving DecidableEq, Repr

/-- The limiter that counts with a counter, without Redis. -/
def limiter : Counter → Clients → String → Nat → Nat → Reply × Clients
  | .count => rateLimit none
  | .searchCount => searchRateLimit none

/-- What an event does to the records. -/
def handle (clients : Clients) (event : Event) : Clients :=
  match event.action with
  | .request counter ip later => (limiter counter clients ip event.now later).2
  | .cleanup => cleanupClients clients event.now

/-- The answer to an event that is a request. -/
def answer? (clients : Clients) (event : Event) : Option Reply :=
  match event.action with
  | .request counter ip later => some (limiter counter clients ip event.now later).1
  | .cleanup => none

/-- The records after a history. -/
def clientsAfter : List Event → Clients
  | [] => .empty
  | event :: past => handle (clientsAfter past) event

/-- The requests of a history with the answers that they got. -/
def replies : List Event → List (Event × Reply)
  | [] => []
  | event :: past =>
      ((answer? (clientsAfter past) event).map fun reply => (event, reply)).toList
        ++ replies past

/-- The clock never runs backwards. -/
def Clocked (events : List Event) : Prop :=
  events.Pairwise fun later earlier => earlier.now ≤ later.now

instance (events : List Event) : Decidable (Clocked events) :=
  inferInstanceAs (Decidable (events.Pairwise _))

/-- The event is a request. -/
def Event.isRequest (event : Event) : Bool :=
  match event.action with
  | .request .. => true
  | .cleanup => false

/-- The event is a request from an address to the limiter of a counter. -/
def Event.asks (counter : Counter) (ip : String) (event : Event) : Bool :=
  match event.action with
  | .request other address _ => other = counter && address = ip
  | .cleanup => false

/-- The limit of a counter. -/
def Counter.max : Counter → Nat
  | .count => rateLimitMax
  | .searchCount => rateLimitSearchMax

-----------------------------------------------------------------------------------------
-- One request
-----------------------------------------------------------------------------------------

/-- The text of a limiter's error. -/
def Counter.error : Counter → String
  | .count => "Too many requests. Try again later."
  | .searchCount => "Search rate limit exceeded. Try again later."

/-- The two limiters are one, with the limit and the text of their counters. -/
theorem limiter_eq (counter : Counter)
    : limiter counter = limit counter counter.max counter.error none := by
  cases counter <;> rfl

/-- The record of an address, unless its window has run out. -/
def live (clients : Clients) (ip : String) (now : Nat) : Option Client :=
  (clients.get? ip).filter fun client => ¬ rateLimitWindowMs < now - client.start

/-- The record that a request finds or starts. -/
def opened (clients : Clients) (ip : String) (now : Nat) : Client :=
  (live clients ip now).getD ⟨now, 0, 0⟩

section Limiter

variable {clients : Clients} {counter : Counter} {ip other : String} {now later : Nat}

/-- `getClient` finds or starts a record. -/
theorem getClient_eq_opened : (getClient clients ip now).1 = opened clients ip now := by
  unfold getClient opened live
  cases found : clients.get? ip with
  | none => rfl
  | some client =>
      by_cases gone : rateLimitWindowMs < now - client.start <;>
        simp [gone, Option.filter]

/-- It leaves the records of other addresses. -/
theorem get?_getClient_of_ne (differs : other ≠ ip)
    : (getClient clients ip now).2.get? other = clients.get? other := by
  unfold getClient
  cases clients.get? ip with
  | none => exact InsertionMap.get?_set_of_ne differs
  | some client =>
      by_cases gone : rateLimitWindowMs < now - client.start
      · simp only [gone, if_true]
        exact InsertionMap.get?_set_of_ne differs
      · simp only [gone, if_false]

/-- A request is counted in the record of its address. -/
theorem get?_limiter_self
    : (limiter counter clients ip now later).2.get? ip
      = some ((opened clients ip now).bump counter) := by
  rw [limiter_eq, ← getClient_eq_opened]
  unfold limit
  simp only
  split <;> exact InsertionMap.get?_set_self ..

/-- A request leaves the records of other addresses. -/
theorem get?_limiter_of_ne (differs : other ≠ ip)
    : (limiter counter clients ip now later).2.get? other = clients.get? other := by
  rw [limiter_eq]
  unfold limit
  simp only
  split <;> exact (InsertionMap.get?_set_of_ne differs).trans (get?_getClient_of_ne differs)

/-- The answer to a request depends on the record of its address. -/
theorem limiter_answer
    : (limiter counter clients ip now later).1
      = let counted := (opened clients ip now).bump counter
        if counter.max < counted.read counter then
          .tooMany (retryAfter counted later) counter.error
        else
          .next := by
  rw [limiter_eq, ← getClient_eq_opened]
  unfold limit
  simp only
  split <;> rfl

end Limiter

-----------------------------------------------------------------------------------------
-- Runs of the cleanup timer
-----------------------------------------------------------------------------------------

/-- Both maps hold the same records, apart from those whose windows have run out. -/
def SameLive (now : Nat) (left right : Clients) : Prop :=
  ∀ ip, live left ip now = live right ip now

section SameLive

variable {left right : Clients} {now later : Nat}

/-- A window that has run out stays so. -/
theorem live_mono (clients : Clients) (ip : String) (passed : now ≤ later)
    : live clients ip later
      = (live clients ip now).filter fun client => ¬ rateLimitWindowMs < later - client.start := by
  unfold live
  cases clients.get? ip with
  | none => rfl
  | some client =>
      by_cases gone : rateLimitWindowMs < now - client.start
      · have stays : rateLimitWindowMs < later - client.start := by omega
        simp [Option.filter, gone, stays]
      · simp [Option.filter, gone]

/-- Maps that hold the same live records still do so later. -/
theorem SameLive.mono (same : SameLive now left right) (passed : now ≤ later)
    : SameLive later left right := by
  intro ip
  rw [live_mono left ip passed, live_mono right ip passed, same ip]

/-- A request finds the same record in both. -/
theorem SameLive.opened_eq (same : SameLive now left right) (ip : String)
    : opened left ip now = opened right ip now :=
  congrArg (Option.getD · _) (same ip)

/-- A request gets the same answer from both. -/
theorem SameLive.answer_eq (same : SameLive now left right) (counter : Counter) (ip : String)
    (later : Nat)
    : (limiter counter left ip now later).1 = (limiter counter right ip now later).1 := by
  rw [limiter_answer, limiter_answer, same.opened_eq ip]

/-- A request leaves the same live records in both. -/
theorem SameLive.request (same : SameLive now left right) (counter : Counter) (ip : String)
    (later : Nat)
    : SameLive now (limiter counter left ip now later).2
        (limiter counter right ip now later).2 := by
  intro other
  by_cases own : other = ip
  · subst own
    unfold live
    rw [get?_limiter_self, get?_limiter_self, same.opened_eq]
  · have kept := same other
    unfold live at kept ⊢
    rw [get?_limiter_of_ne own, get?_limiter_of_ne own, kept]

/-- The timer removes no live record. -/
theorem sameLive_cleanup (clients : Clients) (now : Nat)
    : SameLive now clients (cleanupClients clients now) := by
  intro ip
  unfold live cleanupClients
  rw [InsertionMap.get?_filter]
  cases clients.get? ip with
  | none => rfl
  | some client =>
      by_cases ended : rateLimitWindowMs * 2 < now - client.start
      · have gone : rateLimitWindowMs < now - client.start := by omega
        simp [Option.filter, ended, gone]
      · simp [Option.filter, ended]

end SameLive

/-- Runs of the timer change no answer: without them, the requests find the same records. By
induction over the history.
-/
theorem replies_filter {events : List Event} (clocked : Clocked events)
    : replies (events.filter Event.isRequest) = replies events
      ∧ ∀ now, (∀ event ∈ events, event.now ≤ now) →
          SameLive now (clientsAfter (events.filter Event.isRequest)) (clientsAfter events) := by
  induction events with
  | nil => exact ⟨rfl, fun _ _ _ => rfl⟩
  | cons event past ih =>
      obtain ⟨before, clocked⟩ := List.pairwise_cons.mp clocked
      obtain ⟨sameReplies, sameRecords⟩ := ih clocked
      have same := sameRecords event.now before
      obtain ⟨time, action⟩ := event
      cases action with
      | cleanup =>
          refine ⟨sameReplies, fun now bounded ip => ?_⟩
          have passed : time ≤ now := bounded _ List.mem_cons_self
          have cleaned := sameLive_cleanup (clientsAfter past) time
          exact (same.mono passed ip).trans (cleaned.mono passed ip)
      | request counter ip later =>
          constructor
          · have answers := same.answer_eq counter ip later
            simp only [List.filter_cons, Event.isRequest, if_true, replies, answer?, sameReplies]
            rw [answers]
          · intro now bounded
            have passed : time ≤ now := bounded _ List.mem_cons_self
            exact (same.request counter ip later).mono passed

/-- Histories with the same requests get the same answers, wherever the timer runs. -/
theorem replies_eq_of_requests {events other : List Event} (clocked : Clocked events)
    (otherClocked : Clocked other)
    (same : other.filter Event.isRequest = events.filter Event.isRequest)
    : replies other = replies events := by
  calc replies other
    _ = replies (other.filter Event.isRequest) := (replies_filter otherClocked).1.symm
    _ = replies (events.filter Event.isRequest) := by rw [same]
    _ = replies events := (replies_filter clocked).1

-----------------------------------------------------------------------------------------
-- The counters of a client
-----------------------------------------------------------------------------------------

/-- A counter of a record, as one over fixed windows. -/
def Client.window (counter : Counter) (client : Client) : Window :=
  ⟨client.start, client.read counter⟩

/-- A counter that is increased has seen one more call. -/
theorem Client.window_bump (counter : Counter) (client : Client)
    : (client.bump counter).window counter = (client.window counter).hit := by
  cases counter <;> rfl

/-- The other counter is left as it is. -/
theorem Client.window_bump_of_ne {counter other : Counter} (client : Client)
    (differs : other ≠ counter)
    : (client.bump other).window counter = client.window counter := by
  cases counter <;> cases other <;> first | rfl | exact absurd rfl differs

/-- The requests of an address that the limiter of a counter has passed on. -/
def admissions (counter : Counter) (ip : String) : List Event → List Admission
  | [] => []
  | event :: past =>
      if event.asks counter ip ∧ answer? (clientsAfter past) event = some .next then
        ⟨event.now, (opened (clientsAfter past) ip event.now).start⟩ :: admissions counter ip past
      else
        admissions counter ip past

/-- They are the requests with that answer, by induction over the history. -/
theorem countP_admissions (counter : Counter) (ip : String) (events : List Event)
    (within : Nat → Bool)
    : (admissions counter ip events).countP (fun admission => within admission.time)
      = (replies events).countP (fun reply =>
          reply.1.asks counter ip && reply.2 = .next && within reply.1.now) := by
  induction events with
  | nil => rfl
  | cons event past ih =>
      unfold admissions replies
      rw [List.countP_append, ← ih]
      cases answered : answer? (clientsAfter past) event with
      | none => simp
      | some reply =>
          by_cases passes : event.asks counter ip = true ∧ reply = .next
          · simp [passes, List.countP_cons, Nat.add_comm]
          · have other : (event.asks counter ip && decide (reply = .next)) = false := by
              simpa using passes
            simp [passes, other]

/-- The window that a request falls into is that of the record that it finds or starts. -/
theorem window_opened (counter : Counter) (clients : Clients) (ip : String) (now : Nat)
    : (opened clients ip now).window counter
      = Window.current rateLimitWindowMs now
          ((clients.get? ip).map (Client.window counter)) := by
  unfold opened live
  cases clients.get? ip with
  | none => cases counter <;> rfl
  | some client =>
      by_cases gone : rateLimitWindowMs < now - client.start
      · cases counter <;> simp [Option.filter, gone, Window.current, Client.window, Client.read]
      · simp [Option.filter, gone, Window.current, Client.window]

section Own

variable {counter : Counter} {clients : Clients} {ip : String} {now : Nat} (later : Nat)
  {admitted : List Admission}

/-- A request to the limiter of the counter is passed on below the limit, and counted. -/
theorem counted_limiter
    (current : Counted rateLimitWindowMs counter.max now
      (some ((opened clients ip now).window counter)) admitted)
    : Counted rateLimitWindowMs counter.max now
        (((limiter counter clients ip now later).2.get? ip).map (Client.window counter))
        (if (limiter counter clients ip now later).1 = .next then
          ⟨now, (opened clients ip now).start⟩ :: admitted
        else
          admitted) := by
  rw [get?_limiter_self, limiter_answer, Option.map_some, Client.window_bump]
  have seen : ((opened clients ip now).bump counter).read counter
      = ((opened clients ip now).window counter).count + 1 :=
    congrArg Window.count (Client.window_bump counter (opened clients ip now))
  simp only [seen]
  by_cases full : counter.max < ((opened clients ip now).window counter).count + 1
  · simp only [full, if_true, reduceCtorEq, if_false]
    exact current.reject
  · simp only [full, if_false, if_true]
    have below : ((opened clients ip now).window counter).count < counter.max := by omega
    refine current.admission ?_ below
    rw [window_opened]
    exact Counted.current_open ..

/-- A request to the other limiter may open the window, and leaves the counter. -/
theorem counted_limiter_of_ne {other : Counter} (differs : other ≠ counter)
    (current : Counted rateLimitWindowMs counter.max now
      (some ((opened clients ip now).window counter)) admitted)
    : Counted rateLimitWindowMs counter.max now
        (((limiter other clients ip now later).2.get? ip).map (Client.window counter))
        admitted := by
  rw [get?_limiter_self, Option.map_some, Client.window_bump_of_ne _ differs]
  exact current

end Own

/-- The counter of a client counts the requests that were passed on, by induction over a
history of requests.
-/
theorem counted_admissions (counter : Counter) (ip : String) {events : List Event}
    (clocked : Clocked events) (requests : ∀ event ∈ events, event.isRequest = true)
    {now : Nat} (past : ∀ event ∈ events, event.now ≤ now)
    : Counted rateLimitWindowMs counter.max now
        (((clientsAfter events).get? ip).map (Client.window counter))
        (admissions counter ip events) := by
  induction events generalizing now with
  | nil => exact .start ..
  | cons event earlier ih =>
      obtain ⟨before, clocked⟩ := List.pairwise_cons.mp clocked
      have counted := ih clocked
        (fun other member => requests other (List.mem_cons_of_mem _ member)) before
      refine Counted.mono ?_ (past event List.mem_cons_self)
      obtain ⟨time, action⟩ := event
      cases action with
      | cleanup => exact Bool.noConfusion (requests _ List.mem_cons_self)
      | request other address later =>
          by_cases own : address = ip
          · subst own
            have current := counted.current (Nat.le_refl time)
            rw [← window_opened] at current
            by_cases same : other = counter
            · subst same
              simpa [clientsAfter, handle, admissions, Event.asks, answer?]
                using counted_limiter later current
            · simpa [clientsAfter, handle, admissions, Event.asks, same]
                using counted_limiter_of_ne later same current
          · have kept
                : (limiter other (clientsAfter earlier) address time later).2.get? ip
                  = (clientsAfter earlier).get? ip :=
              get?_limiter_of_ne (Ne.symm own)
            simpa [clientsAfter, handle, kept, admissions, Event.asks, own] using counted

/-- The number of requests from an address that the limiter of a counter has passed on within
the milliseconds of a window, from a time on.
-/
def passedOn (counter : Counter) (ip : String) (start : Nat) (events : List Event) : Nat :=
  (replies events).countP fun reply =>
    reply.1.asks counter ip && reply.2 = .next
      && decide (start ≤ reply.1.now ∧ reply.1.now < start + rateLimitWindowMs)

/-- An interval as long as a window has at most twice the limit, whatever the timer does. -/
theorem passedOn_le (counter : Counter) (ip : String) (start : Nat) {events : List Event}
    (clocked : Clocked events)
    : passedOn counter ip start events ≤ 2 * counter.max := by
  unfold passedOn
  rw [← (replies_filter clocked).1, ← countP_admissions counter ip _
    (fun time => decide (start ≤ time ∧ time < start + rateLimitWindowMs))]
  have requests : ∀ event ∈ events.filter Event.isRequest, event.isRequest = true :=
    fun event member => List.of_mem_filter member
  have clocked : Clocked (events.filter Event.isRequest) := clocked.sublist List.filter_sublist
  obtain ⟨now, past⟩ : ∃ now, ∀ event ∈ events.filter Event.isRequest, event.now ≤ now := by
    cases filtered : events.filter Event.isRequest with
    | nil => exact ⟨0, nofun⟩
    | cons event earlier =>
        rw [filtered] at clocked
        refine ⟨event.now, List.forall_mem_cons.mpr ⟨Nat.le_refl _, ?_⟩⟩
        exact (List.pairwise_cons.mp clocked).1
  have counted := counted_admissions counter ip clocked requests past
  refine Nat.le_trans (List.countP_mono_left ?_) (counted.anchored.countP_le start)
  intro admission _ inside
  have inside := of_decide_eq_true inside
  simp only [decide_eq_true_eq]
  omega

/-- Without Redis each limiter passes on at most twice its limit in any interval as long as a
window, and runs of the cleanup timer, added or removed anywhere, change no answer.
-/
theorem limiters_bounded {events : List Event} (clocked : Clocked events)
    : (∀ ip start, passedOn .count ip start events ≤ 2 * rateLimitMax)
      ∧ (∀ ip start, passedOn .searchCount ip start events ≤ 2 * rateLimitSearchMax)
      ∧ ∀ other,
          Clocked other →
          other.filter Event.isRequest = events.filter Event.isRequest →
          replies other = replies events :=
  ⟨fun ip start => passedOn_le .count ip start clocked,
    fun ip start => passedOn_le .searchCount ip start clocked,
    fun _ otherClocked same => replies_eq_of_requests clocked otherClocked same⟩

/-- A search and a request of one client, with a run of the timer in between. -/
def searchThenRequest : List Event := [
  ⟨200000, .request .count "10.0.0.1" 200000⟩,
  ⟨180000, .cleanup⟩,
  ⟨1000, .request .searchCount "10.0.0.1" 1000⟩
]

/-- The request is passed on, with the timer and without it. -/
theorem limiters_bounded_of_search
    : passedOn .count "10.0.0.1" 180000 searchThenRequest = 1
      ∧ passedOn .count "10.0.0.1" 180000 searchThenRequest ≤ 2 * rateLimitMax
      ∧ replies (searchThenRequest.filter Event.isRequest) = replies searchThenRequest := by
  have clocked : Clocked searchThenRequest := by decide
  have bounded := limiters_bounded clocked
  refine ⟨by decide, bounded.1 _ _, bounded.2.2 _ (by decide) (by decide)⟩

end WebIndexer.RateLimit
