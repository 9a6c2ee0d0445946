import WebIndexer.Crawl.Pieces

/-! The roles in a state, and what a step does to them: an item is asked about, vetted, held,
and turned into a page fetch, which works until it is finalised. The counters of fetches move
only at the start and at the end of a page fetch.
-/

namespace WebIndexer.Crawl

open WebIndexer.Config
open WebIndexer.Library
open WebIndexer.Store

/-- The roles of some threads. -/
def rolesOf (threads : List Thread) : List Role :=
  threads.filterMap fun thread => thread.point.role?

/-- The roles in a state. -/
def State.roles (state : State) : List Role :=
  rolesOf state.threads

@[simp] theorem rolesOf_nil : rolesOf [] = [] := rfl

@[simp] theorem rolesOf_cons (thread : Thread) (threads : List Thread)
    : rolesOf (thread :: threads) = thread.point.role?.toList ++ rolesOf threads :=
  filterMap_cons_toList thread threads

@[simp] theorem rolesOf_append (left right : List Thread)
    : rolesOf (left ++ right) = rolesOf left ++ rolesOf right :=
  List.filterMap_append

/-- The roles of a piece that goes on at one point are those of the point. -/
theorem Leads.roles {after : Shared} {next : Option Point} {outcome : Outcome}
    (leads : Leads after next outcome)
    : rolesOf outcome.threads = (next.bind Point.role?).toList := by
  obtain ⟨phase, _, threads⟩ := leads.threads_eq
  rw [threads]
  cases next <;> simp

/-- The counters of fetches are as before. -/
structure SameSlots (before after : Shared) : Prop where
  active : after.active = before.active
  inflight : after.crawl.domainInflight = before.crawl.domainInflight

namespace SameSlots

variable {before middle after shared : Shared}

/-- Nothing has changed. -/
theorem refl (shared : Shared) : SameSlots shared shared := ⟨rfl, rfl⟩

/-- Steps that keep the counters compose. -/
theorem trans (first : SameSlots before middle) (second : SameSlots middle after)
    : SameSlots before after :=
  ⟨second.active.trans first.active, second.inflight.trans first.inflight⟩

/-- The cursor and the counts are no counters of fetches. -/
theorem of_recount (recount : Recount shared after) : SameSlots shared after := by
  obtain ⟨_, _, inflight, _⟩ := recount
  exact ⟨rfl, inflight⟩

/-- Recording a robots.txt keeps the counters. -/
theorem of_record (record : RobotsRecord shared after) : SameSlots shared after := by
  cases record
  exact ⟨rfl, rfl⟩

/-- Sending a request keeps the counters. -/
theorem of_fetch {url : String} {point : Point} {thread : Thread}
    (fetch : FetchCase shared url point (after, thread))
    : SameSlots shared after := by
  cases fetch <;> exact ⟨rfl, rfl⟩

end SameSlots

/-- What a piece does to the role of its point and to the counters. -/
inductive Turn (env : Env) (shared : Shared) (input : Input) (point : Point)
    (after : Shared) : List Role → Prop
  | leave (free : ∀ job, point.role? ≠ some (.working job))
    (unstarted : ∀ visit, point ≠ .start visit)
    (same : SameSlots shared after)
    : Turn env shared input point after []
  | ask {item : FrontierItem} {rest : List FrontierItem} {startedAny : Bool}
    (head : point = .forItem (item :: rest) startedAny)
    (below : shared.active < concurrency)
    (same : SameSlots shared after)
    : Turn env shared input point after
        [if isRecrawl item then .examining item else .asking item]
  | vet {item : FrontierItem} {rest : List FrontierItem} {startedAny : Bool}
    (asked : point = .visitedRead item rest startedAny)
    (found : input = .reply (some (.found false)))
    (same : SameSlots shared after)
    : Turn env shared input point after [.examining item]
  | hold {visit : Visit}
    (examined : point = .examine visit.item visit.rest visit.startedAny)
    (admits : shared.admits env visit.item)
    (read : visit.inflight = shared.crawl.domainInflight (env.domainOf visit.item))
    (same : SameSlots shared after)
    : Turn env shared input point after [.holding visit]
  | carry {visit : Visit}
    (role : point.role? = some (.holding visit))
    (unstarted : ∀ other, point ≠ .start other)
    (same : SameSlots shared after)
    : Turn env shared input point after [.holding visit]
  | start {visit : Visit}
    (ready : point = .start visit)
    (active : after.active = shared.active + 1)
    (inflight : after.crawl.domainInflight
      = assign shared.crawl.domainInflight (env.domainOf visit.item) (visit.inflight + 1))
    : Turn env shared input point after [.working visit.item]
  | work {job : FrontierItem}
    (role : point.role? = some (.working job))
    (same : SameSlots shared after)
    : Turn env shared input point after [.working job]
  | finalise {job : FrontierItem}
    (done : point = .finalise job)
    (active : after.active = shared.active - 1)
    (inflight : after.crawl.domainInflight
      = assign shared.crawl.domainInflight (env.domainOf job)
          (shared.crawl.domainInflight (env.domainOf job) - 1))
    : Turn env shared input point after []

/-- Every piece is a turn, case by case. -/
theorem PieceCase.turn {env : Env} {shared : Shared} {input : Input} {point : Point}
    {outcome : Outcome} (piece : PieceCase env shared input point outcome)
    : Turn env shared input point outcome.shared (rolesOf outcome.threads) := by
  cases piece with
  | leave free unstarted leaves =>
      obtain ⟨recount, plain, leads⟩ := leaves
      have none : rolesOf outcome.threads = [] := by
        rw [leads.roles]
        rename_i next
        cases next with
        | none => rfl
        | some target => simp [Point.role?_of_isPlain (plain target rfl)]
      rw [none, leads.shared_eq]
      exact .leave free unstarted (.of_recount recount)
  | @ask item _ _ _ _ below same leads =>
      have asked : rolesOf outcome.threads
          = [if isRecrawl item then .examining item else .asking item] := by
        rw [leads.roles, same]
        split <;> rfl
      rw [asked, leads.shared_eq]
      exact .ask rfl below (.refl shared)
  | skipVisited found => exact .leave nofun nofun (.refl shared)
  | vet found => exact .vet rfl found (.refl shared)
  | skipDomain settled => exact .leave nofun nofun (.refl shared)
  | @hold visit next admits read same =>
      have held : rolesOf (shared.goto next).threads = [.holding visit] := by
        rw [(Leads.goto next).roles, same]
        split <;> rfl
      rw [held]
      exact .hold rfl admits read (.refl shared)
  | @askRobots visit _ checked _ thread fetch threads =>
      have asked : rolesOf outcome.threads = [.holding visit] := by
        simp [threads, fetch.point_eq, Point.role?]
      rw [asked]
      have noted : SameSlots shared { shared with domainsChecked := checked } := ⟨rfl, rfl⟩
      exact .carry rfl nofun (noted.trans (.of_fetch fetch))
  | @carry _ _ visit _ _ role unstarted record same leads =>
      have carried : rolesOf outcome.threads = [.holding visit] := by
        rw [leads.roles]
        rcases same with rfl | rfl <;> rfl
      rw [carried, leads.shared_eq]
      exact .carry role unstarted (.of_record record)
  | block | unblock => exact .leave nofun nofun (.refl shared)
  | @start visit =>
      obtain ⟨thread, fetch, threads⟩ := shared.start_spec env visit
      have started : rolesOf (shared.start env visit).threads = [.working visit.item] := by
        simp [threads, fetch.point_eq, Point.role?]
      rw [started]
      have kept := SameSlots.of_fetch fetch
      exact .start rfl kept.active kept.inflight
  | save => exact .work rfl (.refl shared)
  | @mark job next after recount same =>
      have marks : rolesOf (after.await next).threads = [.working job] := by
        rw [(Leads.await next).roles]
        rcases same with rfl | rfl <;> rfl
      rw [marks]
      exact .work rfl (.of_recount recount)
  | @delete job _ _ _ marked =>
      rcases marked with ⟨rfl, rfl⟩ | ⟨rfl, rfl⟩ <;> exact .work rfl (.refl shared)
  | @close job _ _ _ _ role recount same leads =>
      have closes : rolesOf outcome.threads = [.working job] := by
        rw [leads.roles]
        rcases same with rfl | ⟨items, rfl⟩ <;> rfl
      rw [closes, leads.shared_eq]
      exact .work role (.of_recount recount)
  | finalise => exact .finalise rfl rfl rfl

/-- What a step does to the roles in a state: it keeps them, up to order, unless a piece takes
its turn.
-/
inductive SlotCase (env : Env) (state : State) : Label → State → Prop
  | still {label : Label} {next : State} (quiet : ∀ seeds, label ≠ .run seeds)
    (same : SameSlots state.shared next.shared)
    (roles : next.roles.Perm state.roles)
    : SlotCase env state label next
  | turn {seeds : List String} {input : Input} {point : Point} {roles : List Role}
    {next : State}
    (running : state.running = some ⟨.ready input, point⟩)
    (turn : Turn env state.shared input point next.shared roles)
    (before : state.roles = point.role?.toList ++ rolesOf state.pool)
    (after : next.roles = roles ++ rolesOf state.pool)
    : SlotCase env state (.run seeds) next

/-- Threads that are the same up to order have the same roles up to order. -/
theorem rolesOf_perm {left right : List Thread} (same : left.Perm right)
    : (rolesOf left).Perm (rolesOf right) :=
  same.filterMap _

/-- An answer leaves a thread at its point, so that it keeps its role. -/
theorem roles_of_answer {state next : State} {old new : Thread} {rest : List Thread}
    (before : state.threads.Perm (old :: rest)) (after : next.threads = new :: rest)
    (same : new.point = old.point)
    : next.roles.Perm state.roles :=
  filterMap_perm_of_replace before after (congrArg Point.role? same)

/-- Every step keeps the roles or is a turn, case by case. -/
theorem State.step_slots {env : Env} {state next : State} {label : Label}
    (taken : state.step env label = some next)
    : SlotCase env state label next := by
  cases step_cases taken with
  | still _ _ quiet shared after =>
      exact .still quiet (shared ▸ ⟨rfl, rfl⟩) (rolesOf_perm after)
  | begin _ quiet background shared after =>
      refine .still quiet (shared ▸ ⟨rfl, rfl⟩) ?_
      unfold roles
      rw [after]
      cases background <;> exact .refl _
  | run running shared before after =>
      refine .turn running (shared ▸ (Shared.resume_cases ..).turn) ?_ ?_
      · rw [roles, before, rolesOf_cons]
      · rw [roles, after, rolesOf_append]
  | exec _ _ _ shared before after =>
      exact .still nofun (shared ▸ ⟨rfl, rfl⟩) (roles_of_answer before after rfl)
  | redirect fetch before after =>
      exact .still nofun (.of_fetch fetch) (roles_of_answer before after fetch.point_eq)
  | settle _ shared before after | record shared before after =>
      exact .still nofun (shared ▸ ⟨rfl, rfl⟩) (roles_of_answer before after rfl)

/-- A crawl that begins has no roles yet, and all counters at zero. -/
theorem State.Begins.slots {state : State} (begins : state.Begins)
    : state.roles = [] ∧ state.shared.active = 0
      ∧ ∀ domain, state.shared.crawl.domainInflight domain = 0 := by
  obtain ⟨_, _, _, _, _, _, rfl⟩ := begins
  exact ⟨rfl, rfl, fun _ => rfl⟩

-----------------------------------------------------------------------------------------
-- Counting roles
-----------------------------------------------------------------------------------------

/-- A page fetch in flight, of an item that passes a test. -/
def Role.isWorking (test : FrontierItem → Bool) : Role → Bool
  | .working job => test job
  | _ => false

namespace State

/-- The number of page fetches in flight whose item passes a test: they have been started,
and not finalised yet.
-/
def fetches (state : State) (test : FrontierItem → Bool) : Nat :=
  state.roles.countP (Role.isWorking test)

/-- The number of page fetches in flight. -/
def inFlight (state : State) : Nat :=
  state.fetches fun _ => true

/-- The number of page fetches in flight whose item is of a domain. -/
def inFlightOf (env : Env) (state : State) (domain : String) : Nat :=
  state.fetches fun job => env.domainOf job = domain

/-- The fetches of a domain are among all. -/
theorem inFlightOf_le (env : Env) (state : State) (domain : String)
    : state.inFlightOf env domain ≤ state.inFlight := by
  apply List.countP_mono_left
  intro role _
  cases role <;> simp [Role.isWorking]

/-- The visit whose page fetch a step starts, if it starts one. -/
def starting (state : State) : Label → Option Visit
  | .run _ =>
      match state.running with
      | some ⟨_, .start visit⟩ => some visit
      | _ => none
  | _ => none

end State

/-- What a step does to the page fetches in flight, and to their counters. -/
inductive FlightCase (env : Env) (state : State) (label : Label) (next : State) : Prop
  | steady (starting : state.starting label = none)
    (same : SameSlots state.shared next.shared)
    (count : ∀ test, next.fetches test = state.fetches test)
  | started {visit : Visit} (starting : state.starting label = some visit)
    (active : next.shared.active = state.shared.active + 1)
    (inflight : next.shared.crawl.domainInflight
      = assign state.shared.crawl.domainInflight (env.domainOf visit.item) (visit.inflight + 1))
    (count : ∀ test,
      next.fetches test = state.fetches test + if test visit.item then 1 else 0)
  | finalised {job : FrontierItem} (starting : state.starting label = none)
    (active : next.shared.active = state.shared.active - 1)
    (inflight : next.shared.crawl.domainInflight
      = assign state.shared.crawl.domainInflight (env.domainOf job)
          (state.shared.crawl.domainInflight (env.domainOf job) - 1))
    (count : ∀ test, state.fetches test = next.fetches test + if test job then 1 else 0)

/-- A role that is not working counts as no page fetch. -/
theorem countP_isWorking_of_free {role : Option Role} {test : FrontierItem → Bool}
    (free : ∀ job, role ≠ some (.working job))
    : role.toList.countP (Role.isWorking test) = 0 := by
  cases role with
  | none => rfl
  | some role =>
      cases role with
      | working job => exact absurd rfl (free job)
      | asking | examining | holding => rfl

/-- A page fetch counts when its item passes the test. -/
theorem countP_isWorking_working (job : FrontierItem) (test : FrontierItem → Bool)
    : [Role.working job].countP (Role.isWorking test) = if test job then 1 else 0 := by
  cases passes : test job <;> simp [Role.isWorking, passes]

/-- Every step starts a page fetch, finalises one, or keeps those in flight. -/
theorem State.step_flights {env : Env} {state next : State} {label : Label}
    (taken : state.step env label = some next)
    : FlightCase env state label next := by
  cases step_slots taken with
  | still quiet same roles =>
      refine .steady ?_ same fun test => roles.countP_eq _
      cases label with
      | run seeds => exact absurd rfl (quiet seeds)
      | _ => rfl
  | @turn seeds input point roles _ running turn before after =>
      have starting : ∀ visit, state.starting (.run seeds) = some visit ↔ point = .start visit := by
        intro visit
        cases point <;> simp [State.starting, running]
      have unstarted : (∀ visit, point ≠ .start visit) → state.starting (.run seeds) = none :=
        fun other => Option.eq_none_iff_forall_ne_some.mpr fun visit found =>
          other visit ((starting visit).mp found)
      have counts : ∀ test,
          state.fetches test
              = point.role?.toList.countP (Role.isWorking test)
                + (rolesOf state.pool).countP (Role.isWorking test)
            ∧ next.fetches test
              = roles.countP (Role.isWorking test)
                + (rolesOf state.pool).countP (Role.isWorking test) := by
        intro test
        simp only [fetches, before, after, List.countP_append, and_self]
      cases turn with
      | leave free other same =>
          refine .steady (unstarted other) same fun test => ?_
          rw [(counts test).1, (counts test).2, countP_isWorking_of_free free, List.countP_nil]
      | ask head _ same =>
          subst head
          refine .steady (unstarted nofun) same fun test => ?_
          rw [(counts test).1, (counts test).2]
          split <;> rfl
      | vet asked _ same =>
          subst asked
          refine .steady (unstarted nofun) same fun test => ?_
          rw [(counts test).1, (counts test).2]
          rfl
      | hold examined _ _ same =>
          subst examined
          refine .steady (unstarted nofun) same fun test => ?_
          rw [(counts test).1, (counts test).2]
          rfl
      | carry role other same =>
          refine .steady (unstarted other) same fun test => ?_
          rw [(counts test).1, (counts test).2, role]
          rfl
      | @start visit ready active inflight =>
          subst ready
          refine .started ((starting visit).mpr rfl) active inflight fun test => ?_
          have held : (Point.start visit).role?.toList.countP (Role.isWorking test) = 0 := rfl
          rw [(counts test).1, (counts test).2, countP_isWorking_working, held, Nat.zero_add,
            Nat.add_comm]
      | work role same =>
          refine .steady (unstarted ?_) same fun test => ?_
          · rintro visit rfl
            cases role
          · rw [(counts test).1, (counts test).2, role]
            rfl
      | @finalise job done active inflight =>
          subst done
          refine .finalised (unstarted nofun) active inflight fun test => ?_
          have worked : (Point.finalise job).role?.toList.countP (Role.isWorking test)
              = if test job then 1 else 0 :=
            countP_isWorking_working job test
          rw [(counts test).1, (counts test).2, worked, List.countP_nil, Nat.zero_add,
            Nat.add_comm]

end WebIndexer.Crawl
