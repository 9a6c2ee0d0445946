import Mathlib.Data.List.Basic
import Mathlib.Order.Defs.PartialOrder

/-! Items that are taken in order until one of them fails, which leaves the rest untaken. -/

namespace WebIndexer.Library

variable {σ ι : Type*}

/-- How far items were taken: the state that is left, the items taken, and the one that failed. -/
structure Progress (σ ι : Type*) where
  state : σ
  done : List ι
  failed : Option ι

/-- Take items in order, until one fails. -/
def takeInOrder (act : σ → ι → Option σ) : σ → List ι → Progress σ ι
  | state, [] => ⟨state, [], none⟩
  | state, item :: rest =>
      match act state item with
      | none => ⟨state, [], some item⟩
      | some next =>
          let later := takeInOrder act next rest
          { later with done := item :: later.done }

variable {act : σ → ι → Option σ} {state next : σ} {item : ι} {items : List ι}

theorem takeInOrder_cons_of_none (fails : act state item = none)
    : takeInOrder act state (item :: items) = ⟨state, [], some item⟩ := by
  simp only [takeInOrder, fails]

theorem takeInOrder_cons_of_some (taken : act state item = some next)
    : takeInOrder act state (item :: items)
      = { takeInOrder act next items with done := item :: (takeInOrder act next items).done } := by
  simp only [takeInOrder, taken]

/-- The items are those taken, the one that failed, and those behind it; induction on the items. -/
theorem takeInOrder_split (act : σ → ι → Option σ) (state : σ) (items : List ι)
    : ((takeInOrder act state items).failed = none ∧ (takeInOrder act state items).done = items)
      ∨ ∃ item back,
          (takeInOrder act state items).failed = some item
          ∧ items = (takeInOrder act state items).done ++ item :: back := by
  induction items generalizing state with
  | nil => exact .inl ⟨rfl, rfl⟩
  | cons item rest ih =>
      cases taken : act state item with
      | none =>
          rw [takeInOrder_cons_of_none taken]
          exact .inr ⟨item, rest, rfl, rfl⟩
      | some next =>
          rw [takeInOrder_cons_of_some taken]
          rcases ih next with ⟨none_failed, all_done⟩ | ⟨stop, back, failed, split⟩
          · exact .inl ⟨none_failed, congrArg (item :: ·) all_done⟩
          · exact .inr ⟨stop, back, failed, congrArg (item :: ·) split⟩

/-- The items taken are items that some state took. -/
theorem taken_of_mem_done {taken : ι} (member : taken ∈ (takeInOrder act state items).done)
    : ∃ before after, act before taken = some after := by
  induction items generalizing state with
  | nil => cases member
  | cons item rest ih =>
      cases outcome : act state item with
      | none =>
          rw [takeInOrder_cons_of_none outcome] at member
          cases member
      | some next =>
          rw [takeInOrder_cons_of_some outcome] at member
          rcases List.mem_cons.mp member with rfl | later
          · exact ⟨state, next, outcome⟩
          · exact ih later

/-- A fact that each taken item keeps holds of the state that is left. -/
theorem takeInOrder_invariant {holds : σ → Prop}
    (kept : ∀ state item next, holds state → act state item = some next → holds next)
    (start : holds state)
    : holds (takeInOrder act state items).state := by
  induction items generalizing state with
  | nil => exact start
  | cons item rest ih =>
      cases taken : act state item with
      | none =>
          rw [takeInOrder_cons_of_none taken]
          exact start
      | some next =>
          rw [takeInOrder_cons_of_some taken]
          exact ih (kept state item next start taken)

section Log

variable {α : Type*} {act : List α → ι → Option (List α)} {entry : ι → α}

/-- A log that each taken item adds its entry to ends with the entries of the items taken. -/
theorem takeInOrder_log
    (logs : ∀ log item next, act log item = some next → next = log ++ [entry item])
    (log : List α) (items : List ι)
    : (takeInOrder act log items).state = log ++ (takeInOrder act log items).done.map entry := by
  induction items generalizing log with
  | nil => exact (List.append_nil log).symm
  | cons item rest ih =>
      cases taken : act log item with
      | none =>
          rw [takeInOrder_cons_of_none taken]
          exact (List.append_nil log).symm
      | some next =>
          rw [takeInOrder_cons_of_some taken]
          change (takeInOrder act next rest).state = _
          rw [ih next, logs log item next taken, List.append_assoc, List.singleton_append,
            List.map_cons]

/-- Of items with different entries that the log has not, only those fail that are expected to. -/
theorem expected_of_failed (expected : ι → Prop) {log : List α}
    (logs : ∀ log item next, act log item = some next → next = log ++ [entry item])
    (refuses : ∀ log item, act log item = none → expected item ∨ entry item ∈ log)
    (new : ∀ item ∈ items, entry item ∉ log)
    (distinct : items.Pairwise fun earlier later => entry earlier ≠ entry later)
    (failed : (takeInOrder act log items).failed = some item)
    : expected item := by
  induction items generalizing log with
  | nil => cases failed
  | cons first rest ih =>
      obtain ⟨first_distinct, rest_distinct⟩ := List.pairwise_cons.mp distinct
      cases taken : act log first with
      | none =>
          rw [takeInOrder_cons_of_none taken] at failed
          obtain rfl := Option.some.inj failed
          exact (refuses log first taken).resolve_right (new first List.mem_cons_self)
      | some next =>
          rw [takeInOrder_cons_of_some taken] at failed
          refine ih (fun later member => ?_) rest_distinct failed
          rw [logs log first next taken, List.mem_append, List.mem_singleton, not_or]
          exact ⟨new later (List.mem_cons_of_mem first member),
            fun same => first_distinct later member same.symm⟩

end Log

/-- A relation holds along a list when each item has it to all items behind it. -/
theorem pairwise_of_split {related : ι → ι → Prop} {items : List ι}
    (behind : ∀ {front item back}, items = front ++ item :: back →
      ∀ later ∈ back, related item later)
    : items.Pairwise related := by
  induction items with
  | nil => exact .nil
  | cons item rest ih =>
      refine .cons (@behind [] item rest rfl) (ih fun {front first back} split => ?_)
      exact @behind (item :: front) first back (congrArg (item :: ·) split)

/-- In increasing order, what stands before an item is what is below it. -/
theorem mem_front_iff {α : Type*} [Preorder α] {front back : List α} {stop : α}
    (increasing : (front ++ stop :: back).Pairwise (· < ·)) (value : α)
    : value ∈ front ↔ value ∈ front ++ stop :: back ∧ value < stop := by
  obtain ⟨_, behind, before⟩ := List.pairwise_append.mp increasing
  constructor
  · exact fun member =>
      ⟨List.mem_append_left _ member, before value member stop List.mem_cons_self⟩
  · rintro ⟨member, below⟩
    rcases List.mem_append.mp member with early | late
    · exact early
    · rcases List.mem_cons.mp late with same | later
      · exact absurd same (ne_of_lt below)
      · exact absurd ((List.pairwise_cons.mp behind).1 value later) (lt_asymm below)

end WebIndexer.Library
