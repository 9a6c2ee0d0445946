import WebIndexer.Circuit.Calls

/-! How a half-open breaker closes. `_onSuccess` credits a completion to whatever episode is
current when it arrives, and a call rejected for lack of quota ends the episode, so recovery
rests on which calls complete and which arrive while the probes are in flight.
-/

namespace WebIndexer.Circuit

open WebIndexer.Library

namespace System

-----------------------------------------------------------------------------------------
-- The calls of an episode and the counters of the breaker
-----------------------------------------------------------------------------------------

/-- No call stems from an episode yet to come. In a half-open episode every success of one of
its probes is counted, the count is still short of the quota, and no probe has failed.
-/
structure EpisodeInvariant (system : System) : Prop where
  running : ∀ call ∈ system.inFlight, call.episode ≤ system.breaker.episode
  settled : ∀ settled ∈ system.finished, settled.1.episode ≤ system.breaker.episode
  credited
    : system.breaker.state = .halfOpen
      → system.successesOf system.breaker.episode ≤ system.breaker.successCount
  short
    : system.breaker.state = .halfOpen
      → system.breaker.successCount < system.breaker.halfOpenMax
  healthy
    : system.breaker.state = .halfOpen
      → ∀ settled ∈ system.finished,
          settled.1.isProbeOf system.breaker.episode = true → settled.2 = true

/-- A new breaker has no history. -/
theorem episodeInvariant_initial (options : CircuitBreakerOptions) (now : Nat)
    : (initial options now).EpisodeInvariant := by
  constructor <;> simp [initial, CircuitBreaker.create]

/-- Settling a call counts it for an episode exactly when it is a successful probe of it. -/
theorem successesOf_settled (system : System) (breaker : CircuitBreaker) (rest : List Call)
    (call : Call) (succeeded : Bool) (episode : Nat)
    : successesOf {
        system with
        breaker := breaker
        inFlight := rest
        finished := (call, succeeded) :: system.finished
      } episode
      = system.successesOf episode
        + if call.isProbeOf episode && succeeded then 1 else 0 := by
  simp [successesOf, List.countP_cons]

/-- No settled call is a probe of the episode after the current one. -/
theorem EpisodeInvariant.not_isProbeOf_succ {system : System}
    (known : system.EpisodeInvariant) {settled : Call × Bool}
    (member : settled ∈ system.finished)
    : settled.1.isProbeOf (system.breaker.episode + 1) = false := by
  have bound := known.settled settled member
  have differs : settled.1.episode ≠ system.breaker.episode + 1 := by omega
  simp [Call.isProbeOf, differs]

/-- The episode after the current one has no successes yet. -/
theorem EpisodeInvariant.successesOf_succ {system : System} (known : system.EpisodeInvariant)
    : system.successesOf (system.breaker.episode + 1) = 0 := by
  rw [successesOf, List.countP_eq_zero]
  intro settled member
  simp [known.not_isProbeOf_succ member]

/-- A step that begins the next episode keeps the invariant. -/
theorem EpisodeInvariant.begin {system next : System} (known : system.EpisodeInvariant)
    (episode : next.breaker.episode = system.breaker.episode + 1)
    (successes : next.breaker.successCount = 0)
    (running
      : ∀ call ∈ next.inFlight,
          call ∈ system.inFlight ∨ call.episode = next.breaker.episode)
    (finished : next.finished = system.finished)
    : next.EpisodeInvariant where
  running := by
    intro call member
    rcases running call member with earlier | current
    · rw [episode]
      exact (known.running call earlier).trans (Nat.le_succ _)
    · exact current.le
  settled := by
    intro settled member
    rw [episode]
    exact (known.settled settled (finished ▸ member)).trans (Nat.le_succ _)
  credited := by
    intro _
    rw [successesOf, finished, episode, ← successesOf, known.successesOf_succ]
    exact Nat.zero_le _
  short := by
    intro _
    rw [successes]
    exact next.breaker.halfOpenMax_pos
  healthy := by
    intro _ settled member own
    rw [finished] at member
    rw [episode, known.not_isProbeOf_succ member] at own
    cases own

/-- A step that leaves the breaker outside half-open, in the same episode, keeps the
invariant.
-/
theorem EpisodeInvariant.leave {system next : System} (known : system.EpisodeInvariant)
    (state : next.breaker.state ≠ .halfOpen)
    (episode : next.breaker.episode = system.breaker.episode)
    (running
      : ∀ call ∈ next.inFlight,
          call ∈ system.inFlight ∨ call.episode = system.breaker.episode)
    (settled
      : ∀ settled ∈ next.finished,
          settled ∈ system.finished ∨ settled.1 ∈ system.inFlight)
    : next.EpisodeInvariant where
  running := by
    intro call member
    rw [episode]
    rcases running call member with earlier | current
    · exact known.running call earlier
    · exact current.le
  settled := by
    intro pair member
    rw [episode]
    rcases settled pair member with earlier | inFlight
    · exact known.settled pair earlier
    · exact known.running pair.1 inFlight
  credited := fun halfOpen => absurd halfOpen state
  short := fun halfOpen => absurd halfOpen state
  healthy := fun halfOpen => absurd halfOpen state

/-- Each step keeps the invariant, by the outcomes of a step. -/
theorem EpisodeInvariant.step {system next : System} {label : Label}
    (known : system.EpisodeInvariant) (taken : system.step label = some next)
    : next.EpisodeInvariant := by
  cases step_cases taken with
  | tick | observe => exact { known with }
  | reopen due =>
      exact known.begin (by simp [CircuitBreaker.episode_transition]) (by simp)
        (fun call member => .inl member) rfl
  | rejected breaker message admission =>
      cases admission with
      | refused => exact known
      | excess =>
          exact known.leave (by simp) (by simp [CircuitBreaker.episode_transition])
            (fun call member => .inl member) (fun settled member => .inl member)
  | started breaker admission =>
      have added : ∀ call ∈ (system.start breaker).inFlight,
          call ∈ system.inFlight ∨ call.episode = breaker.episode := by
        intro call member
        rcases List.mem_cons.mp member with rfl | earlier
        · exact .inr rfl
        · exact .inl earlier
      cases admission with
      | regular state =>
          exact known.leave (by simp [state]) rfl added (fun settled member => .inl member)
      | firstProbe due =>
          have begun : (system.breaker.transition system.now .halfOpen).episode
              = system.breaker.episode + 1 := by
            simp [CircuitBreaker.episode_transition]
          exact known.begin begun rfl added rfl
      | probe state left =>
          exact {
            running := fun call member =>
              (added call member).elim (known.running call) fun current => current.le
            settled := known.settled
            credited := known.credited
            short := known.short
            healthy := known.healthy
          }
  | complete index succeeded call rest breaker picked outcome =>
      have remains : ∀ other ∈ rest,
          other ∈ system.inFlight ∨ other.episode = system.breaker.episode :=
        fun other member => .inl (mem_of_mem_rest picked member)
      have history : ∀ settled ∈ (call, succeeded) :: system.finished,
          settled ∈ system.finished ∨ settled.1 ∈ system.inFlight := by
        intro settled member
        rcases List.mem_cons.mp member with rfl | earlier
        · exact .inr (pick_mem picked)
        · exact .inl earlier
      cases outcome with
      | closing | opening =>
          exact known.leave (by simp) (by simp [CircuitBreaker.episode]) remains history
      | repaid state | counted state => exact known.leave state rfl remains history
      | credited state short =>
          refine {
            running := fun other member =>
              known.running other (mem_of_mem_rest picked member)
            settled := fun settled member =>
              (history settled member).elim (known.settled settled) (known.running settled.1)
            credited := ?_
            short := fun _ => short
            healthy := ?_
          }
          · intro _
            have before := known.credited state
            rw [successesOf_settled]
            change system.successesOf system.breaker.episode + _ ≤ _
            split <;> simp only <;> omega
          · intro _ settled member own
            rcases List.mem_cons.mp member with rfl | earlier
            · rfl
            · exact known.healthy state settled earlier own

/-- The invariant holds in every reachable state. -/
theorem episodeInvariant_of_reaches {options : CircuitBreakerOptions} {now : Nat}
    {system : System} (reached : Reaches step (initial options now) system)
    : system.EpisodeInvariant :=
  reached.invariant (episodeInvariant_initial options now) fun known _ taken => known.step taken

-----------------------------------------------------------------------------------------
-- Closing on the evidence of the current episode
-----------------------------------------------------------------------------------------

/-- The step from `system` to `next` does not close a half-open breaker, unless enough
probes of that episode have succeeded and none has failed.
-/
def ClosesOnEvidence (system next : System) : Prop :=
  system.breaker.state = .halfOpen
  → next.breaker.state = .closed
  → system.breaker.halfOpenMax ≤ next.successesOf system.breaker.episode
    ∧ ∀ settled ∈ next.finished,
        settled.1.isProbeOf system.breaker.episode = true → settled.2 = true

/-- If the step is a success that meets a half-open breaker, it is the success of a probe of
the current episode.
-/
def CreditsOwnProbe (system : System) (label : Label) : Prop :=
  system.breaker.state = .halfOpen
  → match label with
    | .complete index true =>
        (pick system.inFlight index).all
          (fun picked => picked.1.isProbeOf system.breaker.episode) = true
    | _ => True

instance (system : System) (label : Label) : Decidable (system.CreditsOwnProbe label) := by
  unfold CreditsOwnProbe
  split <;> infer_instance

/-- In a half-open episode the breaker has counted successes of its own probes only. -/
def CountsOwnProbes (system : System) : Prop :=
  system.breaker.state = .halfOpen
  → system.breaker.successCount ≤ system.successesOf system.breaker.episode

/-- Each step that credits no foreign call keeps the count to own probes. -/
theorem CountsOwnProbes.step {system next : System} {label : Label}
    (own : system.CountsOwnProbes) (credits : system.CreditsOwnProbe label)
    (taken : system.step label = some next)
    : next.CountsOwnProbes := by
  intro halfOpen
  cases step_cases taken with
  | tick | observe => exact own halfOpen
  | reopen due => exact Nat.zero_le _
  | rejected breaker message admission =>
      cases admission with
      | refused => exact own halfOpen
      | excess => simp at halfOpen
  | started breaker admission =>
      cases admission with
      | regular state => simp [state] at halfOpen
      | firstProbe due => exact Nat.zero_le _
      | probe state left => exact own state
  | complete index succeeded call rest breaker picked outcome =>
      cases outcome with
      | closing | opening => simp at halfOpen
      | repaid state | counted state => exact absurd halfOpen state
      | credited state short =>
          have credited : call.isProbeOf system.breaker.episode = true := by
            simpa [CreditsOwnProbe, picked] using credits state
          have before := own state
          rw [successesOf_settled]
          change system.breaker.successCount + 1
            ≤ system.successesOf system.breaker.episode
              + if call.isProbeOf system.breaker.episode && true then 1 else 0
          simpa [credited] using before

/-- Closing needs fresh evidence: it does along every run in which each success that meets a
half-open breaker is that of a probe of the current episode.
-/
theorem closingNeedsEvidence (options : CircuitBreakerOptions) (start : Nat)
    {system next : System} {label : Label}
    (run : Run step CreditsOwnProbe (initial options start) system)
    (credits : system.CreditsOwnProbe label)
    (taken : system.step label = some next)
    : system.ClosesOnEvidence next := by
  intro halfOpen closed
  have known := episodeInvariant_of_reaches run.reaches
  have own : system.CountsOwnProbes :=
    run.invariant (by simp [CountsOwnProbes, initial, CircuitBreaker.create])
      fun own credits taken => own.step credits taken
  cases step_cases taken with
  | tick | observe | reopen => simp [halfOpen] at closed
  | rejected breaker message admission =>
      cases admission <;> simp [halfOpen] at closed
  | started breaker admission =>
      cases admission with
      | regular state => simp [halfOpen] at state
      | firstProbe | probe => simp [halfOpen] at closed
  | complete index succeeded call rest breaker picked outcome =>
      cases outcome with
      | opening => simp at closed
      | credited | repaid | counted => simp [halfOpen] at closed
      | closing state enough =>
          have credited : call.isProbeOf system.breaker.episode = true := by
            simpa [CreditsOwnProbe, picked] using credits state
          have before := own state
          refine ⟨?_, ?_⟩
          · rw [successesOf_settled]
            simp only [credited, Bool.true_and, if_true]
            omega
          · intro settled member isOwn
            rcases List.mem_cons.mp member with rfl | earlier
            · rfl
            · exact known.healthy state settled earlier isOwn

/-- A probe that succeeds closes a breaker with a quota of one on its evidence. -/
theorem closingNeedsEvidence_of_probe
    : ∃ system next : System,
        system.ClosesOnEvidence next
        ∧ system.breaker.state = .halfOpen
        ∧ next.breaker.state = .closed := by
  have passes : (execute step CreditsOwnProbe (initial oneProbe 0)
      (outage ++ [.execute])).any
        (fun system => decide (
          system.CreditsOwnProbe (.complete 0 true)
          ∧ system.breaker.state = .halfOpen
          ∧ (system.step (.complete 0 true)).any
              (fun next => decide (next.breaker.state = .closed)) = true)) = true := by
    decide +kernel
  obtain ⟨system, run, reached⟩ := exists_run_of_any passes
  obtain ⟨credits, halfOpen, closes⟩ := of_decide_eq_true reached
  obtain ⟨next, taken, closed⟩ := (Option.any_eq_true _ _).mp closes
  exact ⟨system, next, closingNeedsEvidence oneProbe 0 run credits taken, halfOpen,
    of_decide_eq_true closed⟩

/-- A call left over from before the outage closes the breaker: two calls overlap, the first
fails and opens it, and the second succeeds in the half-open episode, without any probe.
-/
theorem closingNeedsEvidence_fails_for_leftover
    : ¬ ∀ (options : CircuitBreakerOptions) (start : Nat) (system next : System)
          (label : Label),
        Reaches step (initial options start) system
        → system.step label = some next
        → system.ClosesOnEvidence next := by
  intro claim
  have passes : (execute step anyStep (initial oneProbe 0)
      [.execute, .execute, .complete 0 false, .tick 1000, .observe]).any
        (fun system => decide (
          system.breaker.state = .halfOpen
          ∧ system.breaker.halfOpenMax = 1
          ∧ (system.step (.complete 0 true)).any
              (fun next => decide (
                next.breaker.state = .closed
                ∧ next.successesOf system.breaker.episode = 0)) = true)) = true := by
    decide +kernel
  obtain ⟨system, run, reached⟩ := exists_run_of_any passes
  obtain ⟨halfOpen, quota, closes⟩ := of_decide_eq_true reached
  obtain ⟨next, taken, result⟩ := (Option.any_eq_true _ _).mp closes
  obtain ⟨closed, none⟩ := of_decide_eq_true result
  have evidence := (claim oneProbe 0 system next _ run taken halfOpen closed).1
  omega

-----------------------------------------------------------------------------------------
-- Recovery while further calls arrive
-----------------------------------------------------------------------------------------

/-- If the step completes a call, it is the success of a probe of the given episode. -/
def OnlyProbesSucceed (episode : Nat) (system : System) : Label → Prop
  | .complete index succeeded =>
      succeeded = true
      ∧ (pick system.inFlight index).all (fun picked => picked.1.isProbeOf episode) = true
  | _ => True

instance (episode : Nat) (system : System) (label : Label)
    : Decidable (system.OnlyProbesSucceed episode label) := by
  unfold OnlyProbesSucceed
  split <;> infer_instance

/-- The breaker has closed, or it is still in the episode, short of the quota, and has
counted the successes of the episode's probes.
-/
def Recovering (episode : Nat) (system : System) : Prop :=
  system.breaker.state = .closed
  ∨ (system.breaker.state = .halfOpen
    ∧ system.breaker.episode = episode
    ∧ system.successesOf episode ≤ system.breaker.successCount
    ∧ system.breaker.successCount < system.breaker.halfOpenMax)

/-- While only probes of the episode complete, and succeed, and no call is in excess, the
breaker keeps recovering.
-/
theorem Recovering.step {episode : Nat} {system next : System} {label : Label}
    (recovering : system.Recovering episode)
    (met : system.OnlyProbesSucceed episode label ∧ system.QuotaLeft label)
    (taken : system.step label = some next)
    : next.Recovering episode := by
  obtain ⟨succeeds, left⟩ := met
  rcases recovering with closed | ⟨halfOpen, same, credited, short⟩
  · left
    cases step_cases taken with
    | tick | observe => exact closed
    | reopen due => simp [CircuitBreaker.state_of_probeDue due] at closed
    | rejected breaker message admission =>
        cases admission with
        | refused => exact closed
        | excess exhausted => exact absurd exhausted (left rfl)
    | started breaker admission =>
        cases admission with
        | regular => exact closed
        | firstProbe due => simp [CircuitBreaker.state_of_probeDue due] at closed
        | probe state => simp [closed] at state
    | complete index succeeded call rest breaker picked outcome =>
        obtain rfl : succeeded = true := succeeds.1
        cases outcome with
        | credited state | closing state => simp [closed] at state
        | repaid => exact closed
  · cases step_cases taken with
    | tick | observe => exact .inr ⟨halfOpen, same, credited, short⟩
    | reopen due => simp [CircuitBreaker.state_of_probeDue due] at halfOpen
    | rejected breaker message admission =>
        cases admission with
        | refused opened => simp [opened] at halfOpen
        | excess exhausted => exact absurd exhausted (left rfl)
    | started breaker admission =>
        cases admission with
        | regular closed => simp [closed] at halfOpen
        | firstProbe due => simp [CircuitBreaker.state_of_probeDue due] at halfOpen
        | probe => exact .inr ⟨halfOpen, same, credited, short⟩
    | complete index succeeded call rest breaker picked outcome =>
        obtain rfl : succeeded = true := succeeds.1
        cases outcome with
        | repaid state => exact absurd halfOpen state
        | closing => exact .inl (by simp)
        | credited _ below =>
            refine .inr ⟨halfOpen, same, ?_, below⟩
            rw [successesOf_settled]
            change system.successesOf episode + _ ≤ system.breaker.successCount + 1
            split <;> omega

/-- Rejected calls do not spoil recovery as long as none of them meets a used-up quota: once
the whole quota of an episode's probes has succeeded, and nothing else has completed since
the episode was half-open, the breaker is closed.
-/
theorem recoversWithoutExcess (options : CircuitBreakerOptions) (start : Nat)
    {system later : System}
    (reached : Reaches step (initial options start) system)
    (halfOpen : system.breaker.state = .halfOpen)
    (run
      : Run step
          (fun system' label =>
            system'.OnlyProbesSucceed system.breaker.episode label
            ∧ system'.QuotaLeft label)
          system later)
    (enough : later.breaker.halfOpenMax ≤ later.successesOf system.breaker.episode)
    : later.breaker.state = .closed := by
  have known := episodeInvariant_of_reaches reached
  have recovering : later.Recovering system.breaker.episode :=
    run.invariant
      (.inr ⟨halfOpen, rfl, known.credited halfOpen, known.short halfOpen⟩)
      fun recovering met taken => recovering.step met taken
  rcases recovering with closed | ⟨_, _, credited, short⟩
  · exact closed
  · omega

/-- A single probe that succeeds brings the breaker back. -/
theorem recoversWithoutExcess_of_probe
    : ∃ later : System, later.breaker.state = .closed := by
  have opens : (execute step anyStep (initial oneProbe 0)
      (outage ++ [.observe])).any
        (fun system => decide (
          system.breaker.state = .halfOpen
          ∧ (execute step
              (fun system' label =>
                system'.OnlyProbesSucceed system.breaker.episode label
                ∧ system'.QuotaLeft label)
              system [.execute, .complete 0 true]).any
              (fun later => decide (
                later.breaker.halfOpenMax ≤ later.successesOf system.breaker.episode))
            = true)) = true := by
    decide +kernel
  obtain ⟨system, reached, result⟩ := exists_run_of_any opens
  obtain ⟨halfOpen, recovers⟩ := of_decide_eq_true result
  obtain ⟨later, run, enough⟩ := exists_run_of_any recovers
  exact ⟨later,
    recoversWithoutExcess oneProbe 0 reached halfOpen run (of_decide_eq_true enough)⟩

/-- One call in excess spoils the recovery: it opens the breaker again, and the success of
the only probe no longer closes it.
-/
theorem recovery_fails_after_excess
    : ¬ ∀ (options : CircuitBreakerOptions) (start : Nat) (system later : System),
        Reaches step (initial options start) system
        → system.breaker.state = .halfOpen
        → system.breaker.halfOpenAttempts = 0
        → Run step (OnlyProbesSucceed system.breaker.episode) system later
        → later.breaker.halfOpenMax ≤ later.successesOf system.breaker.episode
        → later.breaker.state = .closed := by
  intro claim
  have opens : (execute step anyStep (initial oneProbe 0)
      (outage ++ [.observe])).any
        (fun system => decide (
          system.breaker.state = .halfOpen
          ∧ system.breaker.halfOpenAttempts = 0
          ∧ (execute step (OnlyProbesSucceed system.breaker.episode) system
              [.execute, .execute, .complete 0 true]).any
              (fun later => decide (
                later.breaker.halfOpenMax ≤ later.successesOf system.breaker.episode
                ∧ later.breaker.state = .opened))
            = true)) = true := by
    decide +kernel
  obtain ⟨system, reached, result⟩ := exists_run_of_any opens
  obtain ⟨halfOpen, fresh, stuck⟩ := of_decide_eq_true result
  obtain ⟨later, run, final⟩ := exists_run_of_any stuck
  obtain ⟨enough, opened⟩ := of_decide_eq_true final
  have closed := claim oneProbe 0 system later reached halfOpen fresh run enough
  rw [opened] at closed
  cases closed

end System

end WebIndexer.Circuit
