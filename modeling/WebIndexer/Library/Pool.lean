import Mathlib.Data.List.Forall2
import Mathlib.Data.List.Perm.Basic

/-! Pools of pending tasks, from which a scheduler may pick any one next.
The order of a pool carries no meaning, so facts about a pick are stated up to permutation.
-/

namespace WebIndexer.Library

variable {α : Type*}

/-- Take out the task at an index, together with the tasks that remain. -/
def pick : List α → Nat → Option (α × List α)
  | [], _ => none
  | task :: rest, 0 => some (task, rest)
  | task :: rest, index + 1 =>
      (pick rest index).map fun picked => (picked.1, task :: picked.2)

/-- A pool is the picked task and the others, up to order, by induction on the pool. -/
theorem pick_perm {pool rest : List α} {index : Nat} {task : α}
    (picked : pick pool index = some (task, rest))
    : pool.Perm (task :: rest) := by
  induction pool generalizing index rest with
  | nil => cases picked
  | cons head tail ih =>
      cases index with
      | zero =>
          obtain ⟨rfl, rfl⟩ := Prod.mk.inj (Option.some.inj picked)
          exact .refl _
      | succ index =>
          obtain ⟨⟨found, others⟩, inner, same⟩ := Option.map_eq_some_iff.mp picked
          obtain ⟨rfl, rfl⟩ := Prod.mk.inj same
          exact ((ih inner).cons head).trans (.swap ..)

/-- The picked task was in the pool. -/
theorem pick_mem {pool rest : List α} {index : Nat} {task : α}
    (picked : pick pool index = some (task, rest))
    : task ∈ pool :=
  (pick_perm picked).mem_iff.mpr List.mem_cons_self

/-- The tasks that remain were in the pool. -/
theorem mem_of_mem_rest {pool rest : List α} {index : Nat} {task other : α}
    (picked : pick pool index = some (task, rest)) (member : other ∈ rest)
    : other ∈ pool :=
  (pick_perm picked).mem_iff.mpr (List.mem_cons_of_mem _ member)

/-- Counting over a pool counts the picked task and the others. -/
theorem countP_of_pick {pool rest : List α} {index : Nat} {task : α} (p : α → Bool)
    (picked : pick pool index = some (task, rest))
    : pool.countP p = rest.countP p + if p task then 1 else 0 := by
  rw [(pick_perm picked).countP_eq, List.countP_cons]

/-- A pool has one task more than what is left of it after a pick. -/
theorem length_of_pick {pool rest : List α} {index : Nat} {task : α}
    (picked : pick pool index = some (task, rest))
    : pool.length = rest.length + 1 := by
  simpa using (pick_perm picked).length_eq

/-- An index picks a task exactly when it is below the length of the pool, by induction on the
pool.
-/
theorem pick_eq_none_iff {pool : List α} {index : Nat}
    : pick pool index = none ↔ pool.length ≤ index := by
  induction pool generalizing index with
  | nil => simp [pick]
  | cons head tail ih =>
      cases index with
      | zero => simp [pick]
      | succ index => simp [pick, ih]

/-- Every task of a pool can be picked, by induction on the pool. -/
theorem exists_pick {pool : List α} {task : α} (member : task ∈ pool)
    : ∃ index rest, pick pool index = some (task, rest) := by
  induction member with
  | head rest => exact ⟨0, rest, rfl⟩
  | tail head _ ih =>
      obtain ⟨index, rest, picked⟩ := ih
      exact ⟨index + 1, head :: rest, by simp [pick, picked]⟩

/-- A pick from a pool whose tasks are marked is one from the marks too, by induction on the pool.
-/
theorem forall₂_pick {β : Type*} {holds : α → β → Prop} {pool rest : List α} {marks : List β}
    {index : Nat} {task : α} (marked : List.Forall₂ holds pool marks)
    (picked : pick pool index = some (task, rest))
    : ∃ mark others,
        pick marks index = some (mark, others)
        ∧ holds task mark
        ∧ List.Forall₂ holds rest others := by
  induction marked generalizing index rest with
  | nil => cases picked
  | @cons head mark tail marks held marked ih =>
      cases index with
      | zero =>
          obtain ⟨rfl, rfl⟩ := Prod.mk.inj (Option.some.inj picked)
          exact ⟨mark, marks, rfl, held, marked⟩
      | succ index =>
          obtain ⟨⟨found, others⟩, inner, same⟩ := Option.map_eq_some_iff.mp picked
          obtain ⟨rfl, rfl⟩ := Prod.mk.inj same
          obtain ⟨own, left, picked, holds, marked⟩ := ih inner
          exact ⟨own, mark :: left, by simp [pick, picked], holds, .cons held marked⟩

section Holding

variable {β : Type*} {f : α → Option β}

/-- What a task holds comes before what the others hold. -/
theorem filterMap_cons_toList (task : α) (rest : List α)
    : (task :: rest).filterMap f = (f task).toList ++ rest.filterMap f := by
  cases held : f task <;> simp [held]

/-- A task that is replaced by one that holds the same leaves what all hold, up to order. -/
theorem filterMap_perm_of_replace {pool after rest : List α} {old new : α}
    (before : pool.Perm (old :: rest)) (replaced : after = new :: rest) (kept : f new = f old)
    : (after.filterMap f).Perm (pool.filterMap f) := by
  have same : (new :: rest).filterMap f = (old :: rest).filterMap f := by
    rw [filterMap_cons_toList, filterMap_cons_toList, kept]
  rw [replaced, same]
  exact (before.filterMap f).symm

end Holding

end WebIndexer.Library
