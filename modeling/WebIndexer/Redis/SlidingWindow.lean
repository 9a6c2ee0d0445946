import WebIndexer.Library.SlidingWindow
import WebIndexer.Redis.RateLimiter

/-! A `RedisRateLimiter` on a healthy server: the sorted set of a key is a log of its calls,
admitted or not, from which those that no window can see any more are trimmed. The key's time
to live is over only when none of them is left to be seen. Calls are listed newest first.
-/

namespace WebIndexer.Redis

open WebIndexer.Library

namespace RedisRateLimiter

/-- A call of `isAllowed` on the limiter object of some server. -/
structure Request where
  limiter : RedisRateLimiter
  key : String
  now : Nat
  random : String

/-- The pipeline of a request, with `PEXPIRE` or without. -/
def Request.pipeline (withPexpire : Bool) (sets : SortedSets) (request : Request)
    : SortedSets × Exec :=
  RedisRateLimiter.pipeline request.limiter.toLimits withPexpire sets request.key request.now
    request.random

/-- The sorted sets after some requests, on a server that had none. -/
def setsAfter (withPexpire : Bool) : List Request → SortedSets
  | [] => fun _ => none
  | request :: past => (request.pipeline withPexpire (setsAfter withPexpire past)).1

/-- The answers to some requests. -/
def decisions (withPexpire : Bool) : List Request → List (Request × Bool)
  | [] => []
  | request :: past =>
      let exec := (request.pipeline withPexpire (setsAfter withPexpire past)).2
      (request, (request.limiter.isAllowed request.key exec request.now).1)
        :: decisions withPexpire past

/-- The clock never runs backwards. -/
def Timed (requests : List Request) : Prop :=
  requests.Pairwise fun later earlier => earlier.now ≤ later.now

/-- The member that a request adds. -/
def Request.name (request : Request) : String := member request.now request.random

/-- Requests for one key add distinct members. -/
def Distinct (requests : List Request) : Prop :=
  requests.Pairwise fun request other => request.key = other.key → request.name ≠ other.name

/-- The requests for a key. -/
def requestsOf (key : String) (requests : List Request) : List Request :=
  requests.filter fun request => request.key = key

/-- The times of the requests for a key. -/
def timesOf (key : String) (requests : List Request) : List Nat :=
  (requestsOf key requests).map Request.now

-----------------------------------------------------------------------------------------
-- Commands
-----------------------------------------------------------------------------------------

section Commands

open SortedSets

/-- The members of a set that may be missing. -/
def membersOf (set : Option SortedSet) : List (String × Nat) :=
  (set.map SortedSet.members).getD []

/-- Trimming keeps the members whose scores are still within the window. -/
theorem membersOf_zremrangebyscore (set : Option SortedSet) (now width : Nat)
    : membersOf (zremrangebyscore set 0 ((now : Int) - width))
      = (membersOf set).filter fun entry => now < entry.2 + width := by
  cases set with
  | none => rfl
  | some set =>
      have same
          : (set.members.filter fun entry =>
              ¬ ((0 : Int) ≤ entry.2 ∧ (entry.2 : Int) ≤ (now : Int) - width))
            = set.members.filter fun entry => now < entry.2 + width := by
        apply List.filter_congr
        intro entry _
        rw [decide_eq_decide]
        omega
      simp only [membersOf, zremrangebyscore, Option.map_some, Option.getD_some, same]
      by_cases empty : (set.members.filter fun entry => now < entry.2 + width) = []
      · simp [Option.filter, empty]
      · simp [Option.filter, empty]

/-- A new member goes to the end. -/
theorem members_zadd {set : Option SortedSet} (score : Nat) {name : String}
    (new : name ∉ (membersOf set).map Prod.fst)
    : (zadd set score name).members = membersOf set ++ [(name, score)] := by
  cases set with
  | none => rfl
  | some set =>
      have absent : name ∉ set.members.map Prod.fst := new
      simp only [zadd, absent, if_false, membersOf, Option.map_some, Option.getD_some]

/-- Trimming keeps the deadline. -/
theorem deadline_zremrangebyscore {set : Option SortedSet} {min max : Int} {kept : SortedSet}
    (found : kept ∈ zremrangebyscore set min max)
    : ∃ old ∈ set, old.deadline = kept.deadline := by
  obtain ⟨trimmed, _⟩ := Option.filter_eq_some_iff.mp found
  obtain ⟨old, same, rfl⟩ := Option.map_eq_some_iff.mp trimmed
  exact ⟨old, same, rfl⟩

/-- A set that gets a member keeps its deadline. -/
theorem deadline_zadd {set : Option SortedSet} {score : Nat} {name : String} {deadline : Nat}
    (kept : (zadd set score name).deadline = some deadline)
    : ∃ old ∈ set, old.deadline = some deadline := by
  cases set with
  | none => cases kept
  | some set =>
      refine ⟨set, rfl, ?_⟩
      simp only [zadd] at kept
      split at kept <;> exact kept

end Commands

-----------------------------------------------------------------------------------------
-- The set of a key
-----------------------------------------------------------------------------------------

/-- The set of a key counts the requests for it that a window can still see, and is there as
long as there is one.
-/
structure Tracks (width : Nat) (withPexpire : Bool) (requests : List Request) (now : Nat)
    (set : Option SortedSet)
    : Prop where
  counts
    : ∀ later, now ≤ later →
        (membersOf set).countP (fun entry => later < entry.2 + width)
          = recent width later (requests.map Request.now)
  past : ∀ entry ∈ membersOf set, entry.2 ≤ now
  named : ∀ entry ∈ membersOf set, ∃ request ∈ requests, request.name = entry.1
  outlived
    : ∀ found ∈ set, ∀ deadline ∈ found.deadline, ∀ entry ∈ found.members,
        entry.2 + width ≤ deadline
  lasting : withPexpire = false → ∀ found ∈ set, found.deadline = none

namespace Tracks

variable {width now later : Nat} {withPexpire : Bool} {requests : List Request}
  {set : Option SortedSet}

/-- Time passes. -/
theorem mono (tracks : Tracks width withPexpire requests now set) (passed : now ≤ later)
    : Tracks width withPexpire requests later set where
  counts last after := tracks.counts last (Nat.le_trans passed after)
  past entry member := Nat.le_trans (tracks.past entry member) passed
  named := tracks.named
  outlived := tracks.outlived
  lasting := tracks.lasting

/-- A set that is gone held nothing that a window can still see. -/
theorem live (tracks : Tracks width withPexpire requests now set)
    : Tracks width withPexpire requests now
        (set.filter fun found => found.deadline.all fun deadline => now < deadline) := by
  cases set with
  | none => exact tracks
  | some found =>
      by_cases alive : (found.deadline.all fun deadline => now < deadline) = true
      · simpa [Option.filter, alive] using tracks
      · obtain ⟨deadline, set, gone⟩
            : ∃ deadline, found.deadline = some deadline ∧ deadline ≤ now := by
          cases same : found.deadline with
          | none => simp [same] at alive
          | some deadline =>
              refine ⟨deadline, rfl, ?_⟩
              simpa [same] using alive
        have gone
            : (some found).filter (fun found => found.deadline.all fun deadline => now < deadline)
              = none := by
          simp [Option.filter, alive]
        rw [gone]
        refine ⟨fun later after => ?_, nofun, nofun, nofun, nofun⟩
        rw [← tracks.counts later after]
        refine (List.countP_eq_zero.mpr ?_).symm
        intro entry member seen
        have outlived := tracks.outlived found rfl deadline set entry member
        have seen := of_decide_eq_true seen
        omega

/-- The members that trimming leaves are those that the window of the call can see. -/
theorem length_trimmed (tracks : Tracks width withPexpire requests now set)
    : (membersOf (SortedSets.zremrangebyscore set 0 ((now : Int) - width))).length
      = recent width now (requests.map Request.now) := by
  rw [membersOf_zremrangebyscore, ← List.countP_eq_length_filter]
  exact tracks.counts now (Nat.le_refl now)

/-- The pipeline of a request adds it to the log, and trims what no later window can see. -/
theorem request {request : Request} {kept : SortedSet}
    (tracks : Tracks width withPexpire requests request.now set)
    (new : ∀ other ∈ requests, request.name ≠ other.name)
    (added : kept
      = SortedSets.zadd
          (SortedSets.zremrangebyscore set 0 ((request.now : Int) - width)) request.now
          request.name)
    : Tracks width withPexpire (request :: requests) request.now
        (some (if withPexpire then SortedSets.pexpire kept request.now width else kept)) := by
  have trimmed := membersOf_zremrangebyscore set request.now width
  have old {entry : String × Nat}
      (member : entry ∈ (membersOf set).filter fun entry => request.now < entry.2 + width)
      : entry ∈ membersOf set :=
    List.mem_of_mem_filter member
  have members : kept.members
      = (membersOf set).filter (fun entry => request.now < entry.2 + width)
        ++ [(request.name, request.now)] := by
    rw [added, members_zadd, trimmed]
    intro present
    rw [trimmed] at present
    obtain ⟨entry, member, same⟩ := List.mem_map.mp present
    obtain ⟨other, listed, named⟩ := tracks.named entry (old member)
    exact new other listed (same.symm.trans named.symm)
  have past : ∀ entry ∈ kept.members, entry.2 ≤ request.now := by
    intro entry member
    rw [members] at member
    rcases List.mem_append.mp member with before | last
    · exact tracks.past entry (old before)
    · obtain rfl := List.mem_singleton.mp last
      exact Nat.le_refl _
  have same
      : membersOf (some (if withPexpire then SortedSets.pexpire kept request.now width else kept))
        = kept.members := by
    cases withPexpire <;> rfl
  refine ⟨?_, ?_, ?_, ?_, ?_⟩
  · intro later after
    -- what is trimmed at the time of the request is out of every later window
    have seen
        : ((membersOf set).filter fun entry => request.now < entry.2 + width).countP
            (fun entry => later < entry.2 + width)
          = (membersOf set).countP (fun entry => later < entry.2 + width) := by
      rw [List.countP_filter]
      apply List.countP_congr
      intro entry _
      simp only [Bool.and_eq_true, decide_eq_true_eq]
      omega
    rw [same, members, List.countP_append, seen, tracks.counts later after]
    simp [recent, List.countP_cons]
  · rw [same]
    exact past
  · rw [same, members]
    intro entry member
    rcases List.mem_append.mp member with before | last
    · obtain ⟨other, listed, named⟩ := tracks.named entry (old before)
      exact ⟨other, List.mem_cons_of_mem _ listed, named⟩
    · obtain rfl := List.mem_singleton.mp last
      exact ⟨request, List.mem_cons_self, rfl⟩
  · rintro found ⟨⟩ deadline set entry member
    cases withPexpire with
    | true =>
        obtain rfl := Option.some.inj set
        have before := past entry member
        omega
    | false =>
        rw [if_neg Bool.false_ne_true, added] at set
        obtain ⟨middle, trimmed, set⟩ := deadline_zadd set
        obtain ⟨old, found, same⟩ := deadline_zremrangebyscore trimmed
        have lasting := tracks.lasting rfl old found
        rw [same, set] at lasting
        cases lasting
  · rintro rfl found ⟨⟩
    rw [if_neg Bool.false_ne_true, added]
    apply Option.eq_none_iff_forall_ne_some.mpr
    intro deadline set
    obtain ⟨middle, trimmed, set⟩ := deadline_zadd set
    obtain ⟨old, found, same⟩ := deadline_zremrangebyscore trimmed
    have lasting := tracks.lasting rfl old found
    rw [same, set] at lasting
    cases lasting

end Tracks

-----------------------------------------------------------------------------------------
-- Every run
-----------------------------------------------------------------------------------------

variable {limits : Limits} {withPexpire : Bool} {requests : List Request} {key : String}
  {now : Nat}

/-- Different keys have different sets. -/
theorem redisKey_injective (limits : Limits) : Function.Injective (redisKey limits) := by
  intro left right same
  have same := congrArg String.toList same
  simp only [redisKey, String.toList_append] at same
  exact String.toList_inj.mp (List.append_cancel_left same)

/-- The set of a key tracks the requests for it, by induction over them. -/
theorem tracks_setsAfter (servers : ∀ request ∈ requests, request.limiter.toLimits = limits)
    (timed : Timed requests) (distinct : Distinct requests)
    (past : ∀ request ∈ requests, request.now ≤ now)
    : Tracks limits.windowMs withPexpire (requestsOf key requests) now
        (setsAfter withPexpire requests (redisKey limits key)) := by
  induction requests generalizing now with
  | nil => exact ⟨fun _ _ => rfl, nofun, nofun, nofun, nofun⟩
  | cons request earlier ih =>
      obtain ⟨before, timed⟩ := List.pairwise_cons.mp timed
      obtain ⟨fresh, distinct⟩ := List.pairwise_cons.mp distinct
      have settings := servers request List.mem_cons_self
      have tracks := ih (fun other member => servers other (List.mem_cons_of_mem _ member)) timed
        distinct before
      refine Tracks.mono ?_ (past request List.mem_cons_self)
      by_cases own : request.key = key
      · subst own
        have new : ∀ other ∈ requestsOf request.key earlier, request.name ≠ other.name := by
          intro other member
          obtain ⟨listed, same⟩ := List.mem_filter.mp member
          exact fresh other listed (of_decide_eq_true same).symm
        have added := tracks.live.request new rfl
        simpa [requestsOf, setsAfter, Request.pipeline, RedisRateLimiter.pipeline, settings,
          SortedSets.store, SortedSets.live, Request.name] using added
      · have other : redisKey limits key ≠ redisKey limits request.key :=
          fun same => own (redisKey_injective limits same).symm
        simpa [requestsOf, setsAfter, Request.pipeline, RedisRateLimiter.pipeline, settings,
          SortedSets.store, own, other] using tracks

/-- A request is allowed when its window has room, with `PEXPIRE` or without. -/
theorem isAllowed_pipeline {request : Request}
    (servers : ∀ other ∈ request :: requests, other.limiter.toLimits = limits)
    (timed : Timed (request :: requests)) (distinct : Distinct (request :: requests))
    : (request.limiter.isAllowed request.key
          (request.pipeline withPexpire (setsAfter withPexpire requests)).2 request.now).1
      = decide (recent limits.windowMs request.now (timesOf request.key requests)
          < limits.maxRequests) := by
  obtain ⟨before, timed⟩ := List.pairwise_cons.mp timed
  obtain ⟨fresh, distinct⟩ := List.pairwise_cons.mp distinct
  obtain ⟨settings, servers⟩ := List.forall_mem_cons.mp servers
  have tracks
      : Tracks limits.windowMs withPexpire (requestsOf request.key requests) request.now
          (setsAfter withPexpire requests (redisKey limits request.key)) :=
    tracks_setsAfter servers timed distinct before
  have live := tracks.live
  have trimmed := live.length_trimmed
  have new
      : request.name
        ∉ (membersOf (SortedSets.zremrangebyscore
            ((setsAfter withPexpire requests).live (redisKey limits request.key) request.now) 0
            ((request.now : Int) - limits.windowMs))).map Prod.fst := by
    rw [membersOf_zremrangebyscore]
    intro present
    obtain ⟨entry, member, same⟩ := List.mem_map.mp present
    obtain ⟨other, asked, named⟩ := live.named entry (List.mem_of_mem_filter member)
    obtain ⟨listed, own⟩ := List.mem_filter.mp asked
    exact fresh other listed (of_decide_eq_true own).symm (same.symm.trans named.symm)
  have count := congrArg List.length (members_zadd request.now new)
  rw [List.length_append, List.length_singleton] at count
  have card := count.trans (congrArg (· + 1) trimmed)
  simp only [Request.pipeline, RedisRateLimiter.pipeline, settings, isAllowed,
    List.cons_append, List.getElem?_cons_succ, List.getElem?_cons_zero, SortedSets.zcard]
  rw [decide_eq_decide]
  exact Eq.to_iff (congrArg (· ≤ limits.maxRequests) card)

/-- The answers are the same with `PEXPIRE` and without, by induction over the requests. -/
theorem decisions_eq (servers : ∀ request ∈ requests, request.limiter.toLimits = limits)
    (timed : Timed requests) (distinct : Distinct requests)
    : decisions false requests = decisions true requests := by
  induction requests with
  | nil => rfl
  | cons request past ih =>
      have others := ih (fun other member => servers other (List.mem_cons_of_mem _ member))
        (List.pairwise_cons.mp timed).2 (List.pairwise_cons.mp distinct).2
      simp only [decisions, isAllowed_pipeline servers timed distinct, others]

/-- The requests for a key that are allowed are those that its log of requests admits. By
induction over the requests.
-/
theorem countP_decisions (servers : ∀ request ∈ requests, request.limiter.toLimits = limits)
    (timed : Timed requests) (distinct : Distinct requests) (key : String)
    (within : Nat → Bool)
    : (decisions true requests).countP (fun answer =>
          answer.1.key = key && answer.2 && within answer.1.now)
      = (admitted limits.windowMs limits.maxRequests (timesOf key requests)).countP within := by
  induction requests with
  | nil => rfl
  | cons request past ih =>
      have others := ih (fun other member => servers other (List.mem_cons_of_mem _ member))
        (List.pairwise_cons.mp timed).2 (List.pairwise_cons.mp distinct).2
      simp only [decisions, isAllowed_pipeline servers timed distinct]
      rw [List.countP_cons, others]
      by_cases own : request.key = key
      · subst own
        have times
            : timesOf request.key (request :: past)
              = request.now :: timesOf request.key past := by
          simp [timesOf, requestsOf]
        rw [times, admitted]
        by_cases room
            : recent limits.windowMs request.now (timesOf request.key past) < limits.maxRequests
        · simp [room, List.countP_cons]
        · simp [room]
      · have times : timesOf key (request :: past) = timesOf key past := by
          simp [timesOf, requestsOf, own]
        simp [times, own]

/-- With a healthy server, every window of every key allows at most the limit, and `PEXPIRE`
changes no answer.
-/
theorem slidingWindow (servers : ∀ request ∈ requests, request.limiter.toLimits = limits)
    (timed : Timed requests) (distinct : Distinct requests)
    : (∀ key last,
        (decisions true requests).countP (fun answer =>
            answer.1.key = key && answer.2
              && decide (answer.1.now ≤ last ∧ last < answer.1.now + limits.windowMs))
          ≤ limits.maxRequests)
      ∧ decisions false requests = decisions true requests := by
  refine ⟨fun key last => ?_, decisions_eq servers timed distinct⟩
  rw [countP_decisions servers timed distinct key
    (fun time => decide (time ≤ last ∧ last < time + limits.windowMs))]
  apply countP_admitted_le
  have sorted : (requestsOf key requests).Pairwise fun later earlier => earlier.now ≤ later.now :=
    timed.sublist List.filter_sublist
  exact List.pairwise_map.mpr sorted

/-- The limiter object of a server, which admits one call a second. -/
def server : RedisRateLimiter := create ⟨"general", 1, 1000⟩

/-- Three calls for one key. -/
def threeCalls : List Request := [
  ⟨server, "10.0.0.1", 2500, "0.3"⟩,
  ⟨server, "10.0.0.1", 1500, "0.2"⟩,
  ⟨server, "10.0.0.1", 1000, "0.1"⟩
]

/-- The first of three calls is allowed, and the second is not; the third is, since the second
has just left its window.
-/
theorem slidingWindow_of_three
    : (decisions true threeCalls).map Prod.snd = [true, false, true]
      ∧ (decisions true threeCalls).countP (fun answer =>
            answer.1.key = "10.0.0.1" && answer.2
              && decide (answer.1.now ≤ 2500 ∧ 2500 < answer.1.now + 1000))
          ≤ 1
      ∧ decisions false threeCalls = decisions true threeCalls := by
  have servers : ∀ request ∈ threeCalls, request.limiter.toLimits = ⟨"general", 1, 1000⟩ := by
    intro request member
    simp only [threeCalls, List.mem_cons, List.not_mem_nil, or_false] at member
    rcases member with rfl | rfl | rfl <;> rfl
  have holds := slidingWindow servers (by simp [Timed, threeCalls])
    (by simp [Distinct, threeCalls, Request.name]; decide)
  exact ⟨by decide, holds.1 "10.0.0.1" 2500, holds.2⟩

end RedisRateLimiter

end WebIndexer.Redis
