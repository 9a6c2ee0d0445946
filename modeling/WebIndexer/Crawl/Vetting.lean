import WebIndexer.Crawl.Turns

/-! No page is fetched twice, as far as each address is vetted by one invocation at a time. An
address is vetted from the answer that it is unvisited until its fetch starts or it is dropped;
nothing in the script keeps a second invocation from vetting it meanwhile.
-/

namespace WebIndexer.Crawl

open WebIndexer.Config
open WebIndexer.Library
open WebIndexer.Store

/-- The reply says that an address is unvisited. -/
def Phase.saysUnvisited : Phase → Bool
  | .ready (.reply (some (.found false))) => true
  | _ => false

/-- Only one reply says so. -/
theorem Phase.not_saysUnvisited {phase : Phase}
    (other : phase ≠ .ready (.reply (some (.found false))))
    : phase.saysUnvisited = false := by
  unfold saysUnvisited
  split
  · exact absurd rfl other
  · rfl

/-- Without a reply, nothing has been said. -/
theorem Phase.not_saysUnvisited_of_fresh {phase : Phase} (fresh : phase.isReply = false)
    : phase.saysUnvisited = false := by
  apply not_saysUnvisited
  rintro rfl
  cases fresh

/-- The address that a role has vetted, given whether it has just been told that the address
is unvisited. Pages to re-crawl are not vetted.
-/
def Role.vetted? (told : Bool) : Role → Option String
  | .asking item => if told then some item.url else none
  | .examining item => if isRecrawl item then none else some item.url
  | .holding visit => if isRecrawl visit.item then none else some visit.item.url
  | .working _ => none

/-- The address that a thread has vetted. -/
def Thread.vetted? (thread : Thread) : Option String :=
  thread.point.role?.bind (Role.vetted? thread.phase.saysUnvisited)

/-- Unless a thread asks whether its item is visited, a reply vets nothing. -/
theorem Thread.vetted?_of_point {old new : Thread} (same : new.point = old.point)
    (quiet : new.phase.saysUnvisited = old.phase.saysUnvisited
      ∨ ∀ item, old.point.role? ≠ some (.asking item))
    : new.vetted? = old.vetted? := by
  unfold Thread.vetted?
  rw [same]
  rcases quiet with quiet | other
  · rw [quiet]
  · cases found : old.point.role? with
    | none => rfl
    | some role =>
        cases role with
        | asking item => exact absurd found (other item)
        | examining | holding | working => rfl

/-- The addresses that some threads have vetted. -/
def vettedOf (threads : List Thread) : List String :=
  threads.filterMap Thread.vetted?

@[simp] theorem vettedOf_cons (thread : Thread) (threads : List Thread)
    : vettedOf (thread :: threads) = thread.vetted?.toList ++ vettedOf threads :=
  filterMap_cons_toList thread threads

@[simp] theorem vettedOf_append (left right : List Thread)
    : vettedOf (left ++ right) = vettedOf left ++ vettedOf right :=
  List.filterMap_append

/-- Threads without a reply have vetted what their roles say. -/
theorem vettedOf_of_fresh {threads : List Thread}
    (fresh : ∀ thread ∈ threads, thread.phase.isReply = false)
    : vettedOf threads = (rolesOf threads).filterMap (Role.vetted? false) := by
  rw [rolesOf, List.filterMap_filterMap]
  apply List.filterMap_congr
  intro thread member
  rw [Thread.vetted?, Phase.not_saysUnvisited_of_fresh (fresh thread member)]

namespace State

variable {env : Env} {state next : State}

/-- The addresses vetted in a state. -/
def vetted (state : State) : List String :=
  vettedOf state.threads

/-- The number of page fetches in flight of an address. -/
def inFlightAt (state : State) (url : String) : Nat :=
  state.fetches fun job => job.url = url

/-- The address that a step vets: the database tells a thread that it is unvisited. -/
def vetting (state : State) (label : Label) : Option String :=
  match label, state.acting label with
  | .exec _ .succeeds _, some ⟨.statement, .visitedRead item _ _⟩ =>
      if item.url ∈ state.shared.tables.visited then none else some item.url
  | _, _ => none

/-- The addresses that a step marks as visited. -/
def marking (state : State) (label : Label) : List String :=
  match label, state.acting label with
  | .exec _ ending _, some ⟨.statement, point⟩ =>
      if ending = .rejected then [] else (point.statement.map Statement.marks).getD []
  | _, _ => []

/-- Nothing disturbs the vetting of an address: none is vetted while it is vetted already or
being fetched, none is marked as visited while it is vetted, and none is re-crawled then.
-/
def Undisturbed (state : State) (label : Label) : Prop :=
  (∀ url ∈ state.vetting label, url ∉ state.vetted ∧ state.inFlightAt url = 0)
  ∧ (∀ url ∈ state.marking label, url ∉ state.vetted)
  ∧ ∀ visit ∈ state.starting label,
      isRecrawl visit.item = true → visit.item.url ∉ state.vetted

instance : DecidableRel Undisturbed :=
  fun _ _ => inferInstanceAs (Decidable ((∀ _ ∈ _, _) ∧ (∀ _ ∈ _, _) ∧ ∀ _ ∈ _, _))

/-- A page fetch that a step starts for the first time is of an address that is neither being
fetched nor visited.
-/
def StartsOnce (state : State) (label : Label) : Prop :=
  ∀ visit ∈ state.starting label, isRecrawl visit.item = false →
    state.inFlightAt visit.item.url = 0 ∧ visit.item.url ∉ state.shared.tables.visited

/-- Each address is vetted once at a time, and is neither being fetched nor visited then. -/
structure VettedOnce (state : State) : Prop where
  nodup : state.vetted.Nodup
  idle : ∀ url ∈ state.vetted,
    state.inFlightAt url = 0 ∧ url ∉ state.shared.tables.visited

/-- A first fetch starts from a vetted address. -/
theorem mem_vetted_of_starting {label : Label} {visit : Visit}
    (starting : state.starting label = some visit) (first : isRecrawl visit.item = false)
    : visit.item.url ∈ state.vetted := by
  unfold State.starting at starting
  split at starting
  · split at starting
    · rename_i phase other running
      obtain rfl := Option.some.inj starting
      refine List.mem_filterMap.mpr ⟨⟨phase, .start other⟩, ?_, ?_⟩
      · simp [threads, running]
      · simp [Thread.vetted?, Point.role?, Role.vetted?, first]
    · cases starting
  · cases starting

/-- Vetting once at a time is enough for fetching once at a time. -/
theorem VettedOnce.startsOnce {label : Label} (once : state.VettedOnce)
    : state.StartsOnce label :=
  fun _ starting first => once.idle _ (mem_vetted_of_starting starting first)

/-- The addresses vetted in threads that are the same up to order are so, too. -/
theorem vettedOf_perm {left right : List Thread} (same : left.Perm right)
    : (vettedOf left).Perm (vettedOf right) :=
  same.filterMap _

/-- An answer that vets nothing leaves the vetted addresses as they are. -/
theorem vetted_of_answer {old new : Thread} {rest : List Thread}
    (before : state.threads.Perm (old :: rest)) (after : next.threads = new :: rest)
    (kept : new.vetted? = old.vetted?)
    : next.vetted.Perm state.vetted :=
  filterMap_perm_of_replace before after kept

end State

/-- A turn vets nothing: what its new roles have vetted, the point had vetted before. -/
theorem Turn.vetted_sublist {env : Env} {shared after : Shared} {input : Input} {point : Point}
    {roles : List Role} (turn : Turn env shared input point after roles)
    : (roles.filterMap (Role.vetted? false)).Sublist
        (Thread.vetted? ⟨.ready input, point⟩).toList := by
  cases turn with
  | leave | finalise | work => exact List.nil_sublist _
  | start => exact List.nil_sublist _
  | @ask item =>
      have none : [if isRecrawl item then Role.examining item else .asking item].filterMap
          (Role.vetted? false) = [] := by
        cases recrawl : isRecrawl item <;> simp [Role.vetted?, recrawl]
      rw [none]
      exact List.nil_sublist _
  | @vet item rest startedAny asked found =>
      subst asked found
      have told
          : Thread.vetted? ⟨.ready (.reply (some (.found false))),
              .visitedRead item rest startedAny⟩
            = some item.url :=
        rfl
      rw [told]
      cases recrawl : isRecrawl item <;> simp [Role.vetted?, recrawl]
  | @hold visit examined =>
      subst examined
      exact .refl _
  | carry role =>
      rw [Thread.vetted?, role]
      exact .refl _

namespace State

variable {env : Env} {state next : State}

/-- A step vets the address that it says it vets, which is unvisited, and no other. -/
theorem step_vetted {label : Label} (taken : state.step env label = some next)
    : next.vetted.Subperm state.vetted
      ∨ ∃ url, state.vetting label = some url
          ∧ next.vetted.Perm (url :: state.vetted)
          ∧ url ∉ next.shared.tables.visited := by
  cases step_cases taken with
  | still _ _ _ _ after => exact .inl (vettedOf_perm after).subperm
  | begin _ _ background _ after =>
      have same : next.vetted = state.vetted := by
        unfold State.vetted
        rw [after]
        cases background <;> rfl
      exact .inl (same ▸ List.Subperm.refl _)
  | @run seeds input point _ running shared before after =>
      have piece := Shared.resume_cases env state.shared seeds input point
      have fewer := piece.turn.vetted_sublist
      rw [← vettedOf_of_fresh piece.fresh] at fewer
      have was : state.vetted = (Thread.vetted? ⟨.ready input, point⟩).toList
          ++ vettedOf state.pool := by
        rw [State.vetted, before, vettedOf_cons]
      have now : next.vetted = vettedOf (state.shared.resume env seeds input point).threads
          ++ vettedOf state.pool := by
        rw [State.vetted, after, vettedOf_append]
      rw [was, now]
      exact .inl (fewer.append (.refl _)).subperm
  | @exec index ending choice _ point statement tables reply rest acting waits executed
      shared before after =>
      by_cases asks : ∃ item others startedAny,
          point = .visitedRead item others startedAny ∧ reply = some (.found false)
      · obtain ⟨item, others, startedAny, rfl, rfl⟩ := asks
        obtain rfl := Option.some.inj waits
        obtain ⟨absent, rfl, rfl⟩ := executed.found
        have unvisited : item.url ∉ state.shared.tables.visited :=
          of_decide_eq_false absent.symm
        refine .inr ⟨item.url, ?_, ?_, shared ▸ unvisited⟩
        · simp [vetting, acting, unvisited]
        · have now : next.vetted = item.url :: vettedOf rest := by
            rw [State.vetted, after]
            rfl
          rw [now]
          exact (vettedOf_perm before).symm.cons item.url
      · refine .inl (vetted_of_answer before after (Thread.vetted?_of_point rfl ?_)).subperm
        by_cases tells : reply = some (.found false)
        · refine .inr fun item role => asks ?_
          cases point <;> cases role
          exact ⟨_, _, _, rfl, tells⟩
        · exact .inl (Phase.not_saysUnvisited fun same => tells (by injections))
  | redirect fetch before after =>
      have quiet := Phase.not_saysUnvisited_of_fresh fetch.fresh
      exact .inl (vetted_of_answer before after
        (Thread.vetted?_of_point fetch.point_eq (.inl quiet))).subperm
  | settle _ _ before after | record _ before after =>
      exact .inl (vetted_of_answer before after
        (Thread.vetted?_of_point rfl (.inl rfl))).subperm

/-- Only the addresses that a step marks become visited. -/
theorem step_visited {label : Label} {url : String}
    (taken : state.step env label = some next) (visited : url ∈ next.shared.tables.visited)
    : url ∈ state.marking label ∨ url ∈ state.shared.tables.visited := by
  cases step_cases taken with
  | still _ _ _ shared | begin _ _ _ shared | settle _ shared | record shared =>
      rw [shared] at visited
      exact .inr visited
  | run _ shared =>
      rw [shared, Shared.tables_resume] at visited
      exact .inr visited
  | redirect fetch =>
      rw [(Extends.of_fetch fetch).tables] at visited
      exact .inr visited
  | exec acting waits executed shared =>
      rw [shared] at visited
      refine (executed.visited_of_mem visited).imp_left fun ⟨accepted, marked⟩ => ?_
      simpa [marking, acting, waits, accepted] using marked

/-- A step that starts a page fetch runs the piece of its visit. -/
theorem running_of_starting {label : Label} {visit : Visit}
    (starting : state.starting label = some visit)
    : ∃ seeds phase, label = .run seeds ∧ state.running = some ⟨phase, .start visit⟩ := by
  unfold State.starting at starting
  split at starting
  · rename_i seeds
    split at starting
    · rename_i phase other running
      obtain rfl := Option.some.inj starting
      exact ⟨seeds, phase, rfl, running⟩
    · cases starting
  · cases starting

/-- An address that a step starts to fetch is no longer vetted afterwards: a first fetch takes
over the only vetting, and a re-crawl meets none.
-/
theorem not_vetted_of_starting {label : Label} {visit : Visit} (once : state.VettedOnce)
    (undisturbed : Undisturbed state label) (starting : state.starting label = some visit)
    (taken : state.step env label = some next)
    : visit.item.url ∉ next.vetted := by
  obtain ⟨seeds, phase, rfl, running⟩ := running_of_starting starting
  have now : next.vetted = vettedOf state.pool := by
    cases step_cases taken with
    | still _ _ quiet | begin _ quiet => exact absurd rfl (quiet seeds)
    | @run _ input _ _ same _ _ after =>
        obtain ⟨rfl, rfl⟩ := Thread.mk.inj (Option.some.inj (running.symm.trans same))
        obtain ⟨fetching, fetch, threads⟩ := state.shared.start_spec env visit
        have started : (state.shared.resume env seeds input (.start visit)).threads
            = [⟨.ready .nothing, .forItem visit.rest true⟩, fetching] := threads
        rw [State.vetted, after, started]
        simp [Thread.vetted?, fetch.point_eq, Point.role?, Role.vetted?]
  have was : state.vetted = (Thread.vetted? ⟨phase, .start visit⟩).toList
      ++ vettedOf state.pool := by
    simp [State.vetted, threads, running]
  rw [now]
  cases recrawl : isRecrawl visit.item with
  | true =>
      have absent := undisturbed.2.2 visit starting recrawl
      rw [was, List.mem_append, not_or] at absent
      exact absent.2
  | false =>
      have distinct := once.nodup
      have vetted : Thread.vetted? ⟨phase, .start visit⟩ = some visit.item.url := by
        simp [Thread.vetted?, Point.role?, Role.vetted?, recrawl]
      rw [was, vetted, Option.toList_some, List.singleton_append, List.nodup_cons] at distinct
      exact distinct.1

/-- An address that is still vetted after an undisturbed step is not being fetched. -/
theorem step_inFlightAt {label : Label} {url : String} (once : state.VettedOnce)
    (undisturbed : Undisturbed state label) (taken : state.step env label = some next)
    (idle : state.inFlightAt url = 0) (vetted : url ∈ next.vetted)
    : next.inFlightAt url = 0 := by
  cases step_flights taken with
  | steady _ _ count => exact (count _).trans idle
  | @started visit starting _ _ count =>
      have absent := not_vetted_of_starting once undisturbed starting taken
      have other : visit.item.url ≠ url := fun same => absent (same ▸ vetted)
      rw [inFlightAt, count, if_neg (by simpa using other)]
      exact idle
  | finalised _ _ _ count =>
      have total := count fun job => job.url = url
      have idle : state.fetches (fun job => job.url = url) = 0 := idle
      unfold inFlightAt
      omega

/-- An undisturbed step keeps the vetting. -/
theorem step_vettedOnce {label : Label} (once : state.VettedOnce)
    (undisturbed : Undisturbed state label) (taken : state.step env label = some next)
    : next.VettedOnce := by
  have unmarked : ∀ url ∈ state.vetted, url ∉ next.shared.tables.visited := by
    intro url member visited
    rcases step_visited taken visited with marked | old
    · exact undisturbed.2.1 url marked member
    · exact (once.idle url member).2 old
  rcases step_vetted taken with fewer | ⟨url, vetting, more, unvisited⟩
  · obtain ⟨kept, same, sublist⟩ := fewer
    refine ⟨same.nodup_iff.mp (once.nodup.sublist sublist), fun url member => ?_⟩
    have before := sublist.subset (same.mem_iff.mpr member)
    exact ⟨step_inFlightAt once undisturbed taken (once.idle url before).1 member,
      unmarked url before⟩
  · obtain ⟨fresh, idle⟩ := undisturbed.1 url vetting
    refine ⟨more.nodup_iff.mpr (List.nodup_cons.mpr ⟨fresh, once.nodup⟩), fun other member => ?_⟩
    rcases List.mem_cons.mp (more.mem_iff.mp member) with rfl | before
    · exact ⟨step_inFlightAt once undisturbed taken idle member, unvisited⟩
    · exact ⟨step_inFlightAt once undisturbed taken (once.idle other before).1 member,
        unmarked other before⟩

/-- In a run in which nothing disturbs the vetting of an address, no page fetch starts for an
address that is being fetched or has been visited.
-/
theorem startsEachOnce {start : State} {label : Label} (begins : start.Begins)
    (run : Run (step env) Undisturbed start state)
    : state.StartsOnce label := by
  have once : state.VettedOnce := by
    refine run.invariant ?_ fun once undisturbed taken =>
      step_vettedOnce once undisturbed taken
    obtain ⟨_, _, _, _, _, _, rfl⟩ := begins
    exact ⟨.nil, nofun⟩
  exact once.startsOnce

/-- A crawl that is about to fetch its only page for the first time. -/
theorem startsEachOnce_of_one
    : ∃ state, Run (step plainEnv) Undisturbed
          (plainCrawl [⟨"https://a.example/1", 0, none⟩]) state
        ∧ (state.starting (.run [])).isSome = true
        ∧ state.StartsOnce (.run []) := by
  let labels : List Label := boot ++ readBatch 2 ++ vet ++ turn 0 1
  have passes
      : (execute (step plainEnv) Undisturbed
          (plainCrawl [⟨"https://a.example/1", 0, none⟩]) labels).any
            (fun state => (state.starting (.run [])).isSome) = true := by
    decide +kernel
  obtain ⟨state, run, starts⟩ := exists_run_of_any passes
  exact ⟨state, run, starts, startsEachOnce (plainCrawl_begins _) run⟩

/-- An invocation that waits for robots.txt starts the second page, although the invocation
that overlaps it has vetted and started the same page meanwhile.
-/
theorem startsEachOnce_fails_for_overlap
    : ¬ ∀ (env : Env) (start state : State) (label : Label), start.Begins →
        Reaches (step env) start state → state.StartsOnce label := by
  intro claim
  have passes
      : (execute (step plainEnv) anyStep (plainCrawl overlapPages) overlap).any
          (fun state => (state.starting (.run [])).any fun visit =>
            decide (isRecrawl visit.item = false ∧ state.inFlightAt visit.item.url = 1))
          = true := by
    decide +kernel
  obtain ⟨state, run, reached⟩ := exists_run_of_any passes
  obtain ⟨visit, starting, again⟩ := (Option.any_eq_true _ _).mp reached
  obtain ⟨first, one⟩ := of_decide_eq_true again
  have idle := claim plainEnv _ state (.run []) (plainCrawl_begins overlapPages) run
    visit starting first
  rw [one] at idle
  cases idle.1

end State

end WebIndexer.Crawl
