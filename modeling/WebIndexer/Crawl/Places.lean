import WebIndexer.Crawl.Pieces
import WebIndexer.Library.History

/-! The threads of a crawl in their order. A step moves at most one of them, and it is known where
from and where to, so that a list of marks can be kept beside a run, one for each thread: what
the thread remembers of its own pieces before.
-/

namespace WebIndexer.Crawl

open WebIndexer.Library
open WebIndexer.Store

-----------------------------------------------------------------------------------------
-- Places
-----------------------------------------------------------------------------------------

/-- What a label does to the order of the threads: it leaves them, a thread begins in front, a
thread of the pool moves to the front, or the one that runs is replaced by those that it leaves.
-/
inductive Place where
  | still
  | begin
  | move (index : Nat)
  | run

/-- The place of a label. The timer that clears processed rows does nothing on PostgreSQL. -/
def Label.place (env : Env) : Label → Place
  | .tick _ | .diskTimer .. => .still
  | .clearTimer => if env.backend = .pg then .still else .begin
  | .statsTimer | .message .. => .begin
  | .exec index _ _ | .http index _ | .record index | .wake index => .move index
  | .run _ => .run

/-- What a step does to the threads, in their order. A thread that moves stays at its point, and
only one whose statement has ended has read a reply.
-/
inductive PlaceCase (env : Env) (state next : State) : Label → Place → Prop
  | still {label : Label} (after : next.threads = state.threads)
    : PlaceCase env state next label .still
  | begin {label : Label} {thread : Thread} (background : Background env label thread)
    (after : next.threads = thread :: state.threads)
    : PlaceCase env state next label .begin
  | answer {index : Nat} {ending : Ending} {choice : Choice} {point : Point}
    {reply : Option Value} {rest : List Thread}
    (acting : state.acting (.exec index ending choice) = some ⟨.statement, point⟩)
    (picked : pick state.threads index = some (⟨.statement, point⟩, rest))
    (after : next.threads = ⟨.ready (.reply reply), point⟩ :: rest)
    : PlaceCase env state next (.exec index ending choice) (.move index)
  | move {label : Label} {index : Nat} {old new : Thread} {rest : List Thread}
    (unasked : ∀ index ending choice, label ≠ .exec index ending choice)
    (picked : pick state.threads index = some (old, rest)) (after : next.threads = new :: rest)
    (same : new.point = old.point)
    (unread : new = old ∨ old.phase.isReply = false ∧ new.phase.isReply = false)
    : PlaceCase env state next label (.move index)
  | run {seeds : List String} {input : Input} {point : Point}
    (running : state.running = some ⟨.ready input, point⟩)
    (before : state.threads = ⟨.ready input, point⟩ :: state.pool)
    (after : next.threads = (state.shared.resume env seeds input point).threads ++ state.pool)
    : PlaceCase env state next (.run seeds) .run

/-- The answer to a request leaves a thread at its point, without a reply. -/
theorem respond_fresh {env : Env} {shared after : Shared} {url : String} {redirects : Nat}
    {point : Point} {event : HttpEvent} {thread : Thread}
    (responded : State.respond env shared url redirects point event = some (after, thread))
    : thread.phase.isReply = false ∧ thread.point = point := by
  cases event with
  | redirect location =>
      obtain ⟨target, _, same⟩ := Option.map_eq_some_iff.mp responded
      have fetch := shared.fetchHtmlRaw_spec env target (redirects + 1) point
      rw [same] at fetch
      exact ⟨fetch.fresh, fetch.point_eq⟩
  | page html =>
      obtain ⟨rfl, rfl⟩ := Prod.mk.inj (Option.some.inj responded)
      exact ⟨rfl, rfl⟩
  | failure =>
      obtain ⟨rfl, rfl⟩ := Prod.mk.inj (Option.some.inj responded)
      exact ⟨rfl, rfl⟩

namespace State

variable {env : Env} {state next : State} {label : Label}

/-- Inversion of a step on the threads, in their order. -/
theorem place_cases (taken : state.step env label = some next)
    : PlaceCase env state next label (label.place env) := by
  cases label with
  | tick elapsed =>
      obtain rfl := Option.some.inj taken
      exact .still rfl
  | diskTimer avail usagePct =>
      simp only [step] at taken
      split at taken
      · obtain rfl := Option.some.inj taken
        exact .still rfl
      · cases taken
  | statsTimer =>
      simp only [step] at taken
      split at taken
      · rename_i idle
        obtain rfl := Option.some.inj taken
        exact .begin (.stats _) (threads_begin idle _ _)
      · cases taken
  | clearTimer =>
      simp only [step] at taken
      split at taken
      · rename_i idle
        split at taken
        · rename_i pg
          obtain rfl := Option.some.inj taken
          have place : Label.place env .clearTimer = .still := if_pos pg
          rw [place]
          exact .still rfl
        · rename_i sqlite
          obtain rfl := Option.some.inj taken
          have place : Label.place env .clearTimer = .begin := if_neg sqlite
          rw [place]
          exact .begin .clear (threads_begin idle _ _)
      · cases taken
  | message url depth parent =>
      simp only [step] at taken
      split at taken
      · rename_i idle
        split at taken
        · rename_i enabled
          obtain rfl := Option.some.inj taken
          exact .begin (.consume url depth parent enabled) (threads_begin idle _ _)
        · cases taken
      · cases taken
  | exec index ending choice =>
      obtain ⟨point, statement, tables, reply, rest, idle, picked, _, _, _, moved⟩ :=
        step_exec taken
      have acting : state.acting (.exec index ending choice) = some ⟨.statement, point⟩ := by
        simp [State.acting, picked]
      rw [← threads_of_idle idle] at picked
      exact .answer acting picked moved
  | http index event =>
      obtain ⟨url, redirects, point, rest, thread, idle, picked, responded, _, moved⟩ :=
        step_http taken
      obtain ⟨fresh, stays⟩ := respond_fresh responded
      rw [← threads_of_idle idle] at picked
      exact .move (by simp) picked moved stays (.inr ⟨rfl, fresh⟩)
  | record index =>
      simp only [step] at taken
      split at taken
      · rename_i response point rest idle picked
        have moved : next.threads = ⟨.ready (.response response), point⟩ :: rest := by
          rw [← Option.some.inj taken]
          simp [threads, idle]
        rw [← threads_of_idle idle] at picked
        exact .move (by simp) picked moved rfl (.inr ⟨rfl, rfl⟩)
      · cases taken
  | wake index =>
      simp only [step] at taken
      split at taken
      · rename_i input point rest idle picked
        obtain rfl := Option.some.inj taken
        rw [← threads_of_idle idle] at picked
        exact .move (by simp) picked rfl rfl (.inl rfl)
      · cases taken
  | run seeds =>
      simp only [step] at taken
      split at taken
      · rename_i input point running
        obtain rfl := Option.some.inj taken
        refine .run running (by simp [threads, running]) ?_
        simp [threads, Outcome.threads, Option.toList_map]
      · cases taken

-----------------------------------------------------------------------------------------
-- Marks
-----------------------------------------------------------------------------------------

section Marks

variable {μ : Type} {blank : μ} {note : Shared → Input → Point → μ → μ}

/-- The marks after a step. A thread that begins has a blank one, a thread that moves takes its own
along, and the piece that runs notes what the threads that it leaves go on with.
-/
def remark (env : Env) (blank : μ) (note : Shared → Input → Point → μ → μ) (state : State)
    (label : Label) (marks : List μ)
    : List μ :=
  match label.place env with
  | .still => marks
  | .begin => blank :: marks
  | .move index =>
      match pick marks index with
      | some (own, others) => own :: others
      | none => marks
  | .run =>
      match label, state.running with
      | .run seeds, some ⟨.ready input, point⟩ =>
          (state.shared.resume env seeds input point).threads.map
            (fun _ => note state.shared input point (marks.headD blank))
            ++ marks.tail
      | _, _ => marks

/-- The marks that a crawl begins with. -/
def blanks (blank : μ) (state : State) : List μ :=
  state.threads.map fun _ => blank

/-- The step of a crawl, with the marks of its threads. -/
def remarking (env : Env) (blank : μ) (note : Shared → Input → Point → μ → μ)
    : State × List μ → Label → Option (State × List μ) :=
  observing (step env) (remark env blank note)

/-- What is known of the points of the threads and their marks. -/
def Noted (holds : Point → μ → Prop) (threads : List Thread) (marks : List μ) : Prop :=
  List.Forall₂ (fun thread mark => holds thread.point mark) threads marks

/-- A crawl that begins has blank marks. -/
theorem Begins.noted {start : State} {holds : Point → μ → Prop} (begins : start.Begins)
    (entry : holds .entry blank) (cursor : holds .cursorRead blank)
    : Noted holds start.threads (start.blanks blank) := by
  refine List.forall₂_map_right_iff.mpr (List.forall₂_same.mpr ?_)
  exact begins.forall_threads entry cursor

/-- The piece that runs has the first mark. -/
theorem Noted.own {holds : Point → μ → Prop} {thread : Thread} {pool : List Thread}
    {marks : List μ} (noted : Noted holds (thread :: pool) marks)
    : ∃ own others, marks = own :: others ∧ holds thread.point own ∧ Noted holds pool others := by
  cases noted with
  | cons held left => exact ⟨_, _, rfl, held, left⟩

/-- The rule for marks: what holds of the points and their marks goes on to hold, as soon as it
holds of the threads that begin and of those that a piece leaves.
-/
theorem noted_of_step {holds : Point → μ → Prop} {marks : List μ}
    (taken : state.step env label = some next) (noted : Noted holds state.threads marks)
    (begun : ∀ thread, Background env label thread → holds thread.point blank)
    (left : ∀ seeds input point own, holds point own →
      ∀ thread ∈ (state.shared.resume env seeds input point).threads,
        holds thread.point (note state.shared input point own))
    : Noted holds next.threads (state.remark env blank note label marks) := by
  have placed := place_cases taken
  unfold remark
  generalize label.place env = place at placed
  cases placed with
  | still after => exact after ▸ noted
  | begin background after =>
      rw [after]
      exact .cons (begun _ background) noted
  | answer _ picked after =>
      obtain ⟨own, others, found, held, rest⟩ := forall₂_pick noted picked
      rw [after]
      simp only [found]
      exact .cons held rest
  | move _ picked after same =>
      obtain ⟨own, others, found, held, rest⟩ := forall₂_pick noted picked
      rw [after]
      simp only [found]
      exact .cons (same ▸ held) rest
  | @run seeds input point running before after =>
      rw [before] at noted
      obtain ⟨own, others, rfl, held, rest⟩ := noted.own
      rw [after]
      simp only [running]
      refine List.rel_append ?_ rest
      refine List.forall₂_map_right_iff.mpr (List.forall₂_same.mpr ?_)
      exact left seeds input point own held

end Marks

end State

end WebIndexer.Crawl
