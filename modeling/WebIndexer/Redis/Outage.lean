import WebIndexer.Redis.RateLimiter

/-! A `RedisRateLimiter` while Redis is out. The in-memory fallback takes over only when
`pipeline.exec()` rejects: errors inside a resolved result count as an empty window, which
admits every call. A history lists the calls as their pipelines end, newest first.
-/

namespace WebIndexer.Redis

open WebIndexer.Library

/-- The third result of a pipeline, unless reading it throws; a failed command reads as zero.
-/
def Exec.count? : Exec → Option Nat
  | .resolved (some results) =>
      (results[2]? : Option CommandResult).map fun result =>
        match result with
        | .value count => count
        | .error _ => 0
  | .resolved none | .rejected => none

namespace RedisRateLimiter

/-- A call of `isAllowed` whose pipeline has ended. -/
structure Call where
  key : String
  exec : Exec
  now : Nat
  deriving DecidableEq, Repr

/-- The limiter after a history. -/
def after (limits : Limits) : List Call → RedisRateLimiter
  | [] => create limits
  | call :: past => ((after limits past).isAllowed call.key call.exec call.now).2

/-- The answers to the calls of a history. -/
def answers (limits : Limits) : List Call → List (Call × Bool)
  | [] => []
  | call :: past =>
      (call, ((after limits past).isAllowed call.key call.exec call.now).1) :: answers limits past

/-- The clock never runs backwards. -/
def Clocked (calls : List Call) : Prop :=
  calls.Pairwise fun later earlier => earlier.now ≤ later.now

instance (calls : List Call) : Decidable (Clocked calls) :=
  inferInstanceAs (Decidable (calls.Pairwise _))

/-- Each call whose commands all fail is decided by the fallback. -/
def FallsBack (limits : Limits) : List Call → Prop
  | [] => True
  | call :: past =>
      (call.exec.allFail = true →
        (after limits past).isAllowed call.key call.exec call.now
          = (after limits past).fallback call.key call.now)
      ∧ FallsBack limits past

/-- The number of calls for a key that returned true within a window, from a time on. -/
def allowedIn (limits : Limits) (key : String) (start : Nat) (calls : List Call) : Nat :=
  (answers limits calls).countP fun answer =>
    answer.1.key = key && answer.2
      && decide (start ≤ answer.1.now ∧ answer.1.now ≤ start + limits.windowMs)

/-- In an outage that lasts a whole window, at most twice the limit of calls return true. -/
def BoundedInOutages (limits : Limits) (calls : List Call) : Prop :=
  ∀ key start,
    (∀ call ∈ calls, start ≤ call.now → call.now ≤ start + limits.windowMs →
      call.exec.allFail = true) →
    allowedIn limits key start calls ≤ 2 * limits.maxRequests

variable {limits : Limits} {limiter : RedisRateLimiter} {key other : String} {exec : Exec}
  {now : Nat}

-----------------------------------------------------------------------------------------
-- The fallback
-----------------------------------------------------------------------------------------

/-- The fallback counts a call in the window that it falls into. -/
theorem fallback_eq
    : limiter.fallback key now
      = let window := Window.current limiter.windowMs now (limiter.localFallback.get? key)
        (decide (window.hit.count ≤ limiter.maxRequests),
          { limiter with localFallback := limiter.localFallback.set key window.hit }) := by
  unfold fallback
  cases limiter.localFallback.get? key with
  | none =>
      have stays : ¬ limiter.windowMs < now - now := by omega
      simp only [Option.getD_none, stays, if_false]
      rfl
  | some entry => rfl

/-- The fallback never leaves the limiter as it was, since it counts the call. -/
theorem fallback_ne : (limiter.fallback key now).2 ≠ limiter := by
  intro same
  rw [fallback_eq] at same
  have stored := congrArg (fun limiter => limiter.localFallback.get? key) same
  simp only [InsertionMap.get?_set_self] at stored
  cases found : limiter.localFallback.get? key with
  | none =>
      rw [found] at stored
      cases stored
  | some entry =>
      rw [found] at stored
      have counted := Option.some.inj stored
      by_cases gone : limiter.windowMs < now - entry.start
      · have start := congrArg Window.start counted
        simp only [Window.current, gone, if_true, Window.hit] at start
        omega
      · have count := congrArg Window.count counted
        simp only [Window.current, gone, if_false, Window.hit] at count
        omega

/-- The fallback decides when there is no count. -/
theorem isAllowed_eq
    : limiter.isAllowed key exec now
      = match exec.count? with
        | some count => (decide (count ≤ limiter.maxRequests), limiter)
        | none => limiter.fallback key now := by
  cases exec with
  | rejected => rfl
  | resolved results =>
      cases results with
      | none => rfl
      | some results =>
          simp only [isAllowed, Exec.count?]
          cases (results[2]? : Option CommandResult) with
          | none => rfl
          | some result => cases result <;> rfl

/-- A resolved pipeline whose four commands have failed gives a count, which is zero. -/
theorem count?_of_allFail (fails : exec.allFail = true) (resolved : exec ≠ .rejected)
    : exec.count? = some 0 := by
  cases exec with
  | rejected => exact absurd rfl resolved
  | resolved results =>
      cases results with
      | none => cases fails
      | some results =>
          simp only [Exec.allFail, Bool.and_eq_true, List.all_eq_true] at fails
          obtain ⟨length, failed⟩ := fails
          have four : results.length = 4 := of_decide_eq_true length
          have third : 2 < results.length := by omega
          have error := failed _ (List.getElem_mem third)
          simp only [Exec.count?, List.getElem?_eq_getElem third, Option.map_some]
          cases result : results[2] with
          | error message => rfl
          | value number =>
              rw [result] at error
              cases error

/-- Calls whose commands all fail are decided by the fallback exactly when their pipelines
reject. By induction over the history.
-/
theorem fallsBack_iff {calls : List Call}
    : FallsBack limits calls
      ↔ ∀ call ∈ calls, call.exec.allFail = true → call.exec = .rejected := by
  induction calls with
  | nil => simp [FallsBack]
  | cons call past ih =>
      rw [FallsBack, ih, List.forall_mem_cons]
      refine and_congr_left fun _ => imp_congr_right fun fails => ?_
      constructor
      · intro decided
        by_contra resolved
        rw [isAllowed_eq, count?_of_allFail fails resolved] at decided
        exact fallback_ne (congrArg Prod.snd decided).symm
      · intro rejected
        rw [rejected]
        rfl

-----------------------------------------------------------------------------------------
-- The bound
-----------------------------------------------------------------------------------------

/-- A call keeps the settings. -/
theorem after_toLimits (limits : Limits) (calls : List Call)
    : (after limits calls).toLimits = limits := by
  induction calls with
  | nil => rfl
  | cons call past ih =>
      rw [after, isAllowed_eq]
      cases call.exec.count? with
      | none => exact ih
      | some count => exact ih

/-- The calls for a key that the fallback has admitted. -/
def admissions (limits : Limits) (key : String) : List Call → List Admission
  | [] => []
  | call :: past =>
      let window := Window.current limits.windowMs call.now
        ((after limits past).localFallback.get? call.key)
      if call.key = key ∧ call.exec.count? = none ∧ window.count < limits.maxRequests then
        ⟨call.now, window.start⟩ :: admissions limits key past
      else
        admissions limits key past

/-- The fallback counts the calls of each key that it admits, by induction over the history.
-/
theorem counted_admissions (key : String) {calls : List Call} (clocked : Clocked calls)
    {now : Nat} (past : ∀ call ∈ calls, call.now ≤ now)
    : Counted limits.windowMs limits.maxRequests now
        ((after limits calls).localFallback.get? key) (admissions limits key calls) := by
  induction calls generalizing now with
  | nil => exact .start ..
  | cons call earlier ih =>
      obtain ⟨before, clocked⟩ := List.pairwise_cons.mp clocked
      refine Counted.mono ?_ (past call List.mem_cons_self)
      have counted := ih clocked before
      have settings := after_toLimits limits earlier
      rw [after, isAllowed_eq]
      cases decided : call.exec.count? with
      | some count => simpa [admissions, decided] using counted
      | none =>
          simp only [fallback_eq, settings]
          by_cases own : call.key = key
          · subst own
            have current := counted.current (Nat.le_refl call.now)
            rw [InsertionMap.get?_set_self]
            by_cases below : (Window.current limits.windowMs call.now
                ((after limits earlier).localFallback.get? call.key)).count < limits.maxRequests
            · simp only [admissions, decided, below, and_self, if_true]
              exact current.admission (Counted.current_open ..) below
            · simp only [admissions, below, and_false, if_false]
              exact current.reject
          · rw [InsertionMap.get?_set_of_ne (Ne.symm own)]
            simpa [admissions, own] using counted

/-- While the fallback decides every call, those that return true are its admissions. By
induction over the history.
-/
theorem allowedIn_le_admissions (key : String) (start : Nat) {calls : List Call}
    (falls : ∀ call ∈ calls, start ≤ call.now → call.now ≤ start + limits.windowMs →
      call.exec.count? = none)
    : allowedIn limits key start calls
      ≤ (admissions limits key calls).countP fun admission =>
          start ≤ admission.time ∧ admission.time ≤ start + limits.windowMs := by
  induction calls with
  | nil => exact Nat.zero_le _
  | cons call past ih =>
      have others := ih fun other member => falls other (List.mem_cons_of_mem _ member)
      have settings := after_toLimits limits past
      unfold allowedIn at others ⊢
      rw [answers, List.countP_cons]
      by_cases inside : start ≤ call.now ∧ call.now ≤ start + limits.windowMs
      · have decided := falls call List.mem_cons_self inside.1 inside.2
        rw [isAllowed_eq, decided]
        simp only [fallback_eq, settings, admissions, decided]
        by_cases own : call.key = key
        · subst own
          by_cases below : (Window.current limits.windowMs call.now
              ((after limits past).localFallback.get? call.key)).count < limits.maxRequests
          · have counted : (Window.current limits.windowMs call.now
                ((after limits past).localFallback.get? call.key)).hit.count
                  ≤ limits.maxRequests := below
            simpa [inside, below, counted] using others
          · have full : ¬ (Window.current limits.windowMs call.now
                ((after limits past).localFallback.get? call.key)).hit.count
                  ≤ limits.maxRequests := below
            simpa [below, full] using others
        · simpa [own] using others
      · simp only [inside, decide_false, Bool.and_false, Bool.false_eq_true, if_false, Nat.add_zero]
        refine Nat.le_trans others ?_
        simp only [admissions]
        split
        · exact (List.sublist_cons_self _ _).countP_le
        · exact Nat.le_refl _

/-- If failed pipelines reject, an outage of a whole window admits at most twice the limit. -/
theorem boundedInOutages_of_rejected {calls : List Call} (clocked : Clocked calls)
    (rejects : ∀ call ∈ calls, call.exec.allFail = true → call.exec = .rejected)
    : BoundedInOutages limits calls := by
  intro key start outage
  have falls : ∀ call ∈ calls, start ≤ call.now → call.now ≤ start + limits.windowMs →
      call.exec.count? = none := by
    intro call member begun unended
    rw [rejects call member (outage call member begun unended)]
    rfl
  obtain ⟨now, past⟩ : ∃ now, ∀ call ∈ calls, call.now ≤ now := by
    cases calls with
    | nil => exact ⟨0, nofun⟩
    | cons call earlier =>
        refine ⟨call.now, List.forall_mem_cons.mpr ⟨Nat.le_refl _, ?_⟩⟩
        exact (List.pairwise_cons.mp clocked).1
  have counted
      : Counted limits.windowMs limits.maxRequests now
          ((after limits calls).localFallback.get? key) (admissions limits key calls) :=
    counted_admissions key clocked past
  exact Nat.le_trans (allowedIn_le_admissions key start falls) (counted.anchored.countP_le start)

/-- The fallback takes over, and bounds the calls of an outage, exactly when no pipeline
resolves with the errors of all its commands.
-/
theorem fallsBack_and_bounded_iff (limits : Limits) {calls : List Call}
    (clocked : Clocked calls)
    : FallsBack limits calls ∧ BoundedInOutages limits calls
      ↔ ∀ call ∈ calls, call.exec.allFail = true → call.exec = .rejected := by
  constructor
  · intro claim
    exact fallsBack_iff.mp claim.1
  · intro rejects
    exact ⟨fallsBack_iff.mpr rejects, boundedInOutages_of_rejected clocked rejects⟩

/-- A limiter that admits one call a second. -/
def oneASecond : Limits := ⟨"general", 1, 1000⟩

/-- Rejected pipelines: the fallback admits one of two calls. -/
theorem fallsBack_of_rejected
    : allowedIn oneASecond "10.0.0.1" 0
          [⟨"10.0.0.1", .rejected, 1⟩, ⟨"10.0.0.1", .rejected, 0⟩] = 1
      ∧ FallsBack oneASecond [⟨"10.0.0.1", .rejected, 1⟩, ⟨"10.0.0.1", .rejected, 0⟩]
      ∧ BoundedInOutages oneASecond
          [⟨"10.0.0.1", .rejected, 1⟩, ⟨"10.0.0.1", .rejected, 0⟩] := by
  refine ⟨by decide, (fallsBack_and_bounded_iff oneASecond (by decide)).mpr ?_⟩
  intro call member _
  rcases List.mem_pair.mp member with rfl | rfl <;> rfl

/-- A call whose four commands failed, as ioredis reports it. -/
def refused (now : Nat) : Call :=
  ⟨"10.0.0.1", .resolved (some (List.replicate 4 (.error "Connection is closed."))), now⟩

/-- In an outage that ioredis reports as it does, all of three calls within a second return
true under a limit of one, and none is decided by the fallback.
-/
theorem fallsBack_fails_for_errors
    : ¬ ∀ (limits : Limits) (calls : List Call), Clocked calls →
        FallsBack limits calls ∧ BoundedInOutages limits calls := by
  intro claim
  have bounded := (claim oneASecond [refused 2, refused 1, refused 0] (by decide)).2
  have outage : ∀ call ∈ [refused 2, refused 1, refused 0], call.exec.allFail = true := by decide
  have three : allowedIn oneASecond "10.0.0.1" 0 [refused 2, refused 1, refused 0] = 3 := by decide
  have atMostTwo := bounded "10.0.0.1" 0 fun call member _ _ => outage call member
  rw [three] at atMostTwo
  exact absurd atMostTwo (by decide)

end RedisRateLimiter

end WebIndexer.Redis
