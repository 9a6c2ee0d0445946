import Mathlib.Data.List.Dedup
import Mathlib.Data.List.Perm.Subperm

/-! Sets that remember the order of insertion, as the script runtime's `Set` does, and can
forget their oldest members.
-/

namespace WebIndexer.Library

/-- Distinct items, oldest first. -/
structure InsertionSet (α : Type*) where
  items : List α
  nodup : items.Nodup

namespace InsertionSet

variable {α : Type*}

/-- The set with no members. -/
def empty : InsertionSet α := ⟨[], List.nodup_nil⟩

instance : Membership α (InsertionSet α) := ⟨fun set item => item ∈ set.items⟩

/-- The number of members. -/
def size (set : InsertionSet α) : Nat := set.items.length

/-- Forget the given number of members, oldest first. -/
def dropOldest (set : InsertionSet α) (count : Nat) : InsertionSet α where
  items := set.items.drop count
  nodup := set.nodup.sublist (List.drop_sublist ..)

theorem mem_def {set : InsertionSet α} {item : α} : item ∈ set ↔ item ∈ set.items :=
  Iff.rfl

@[simp] theorem not_mem_empty (item : α) : item ∉ (empty : InsertionSet α) :=
  List.not_mem_nil

/-- Forgetting members adds none. -/
theorem mem_of_mem_dropOldest {set : InsertionSet α} {count : Nat} {item : α}
    (member : item ∈ set.dropOldest count)
    : item ∈ set :=
  List.mem_of_mem_drop member

@[simp] theorem size_dropOldest (set : InsertionSet α) (count : Nat)
    : (set.dropOldest count).size = set.size - count :=
  List.length_drop

section Decidable

variable [DecidableEq α]

instance (item : α) (set : InsertionSet α) : Decidable (item ∈ set) :=
  inferInstanceAs (Decidable (item ∈ set.items))

/-- Add an item at the end, unless it is a member already. -/
def add (set : InsertionSet α) (item : α) : InsertionSet α :=
  if absent : item ∉ set.items then
    ⟨set.items ++ [item],
      set.nodup.append (List.nodup_singleton item) (by simpa using absent)⟩
  else
    set

/-- The members after an insertion are the old ones and the new item. -/
@[simp] theorem mem_add {set : InsertionSet α} {item other : α}
    : other ∈ set.add item ↔ other = item ∨ other ∈ set := by
  unfold add
  split
  · simp [mem_def, or_comm]
  · rename_i present
    have present : item ∈ set := not_not.mp present
    constructor
    · exact .inr
    · rintro (rfl | member)
      · exact present
      · exact member

/-- A new item goes to the end. -/
theorem items_add_of_not_mem {set : InsertionSet α} {item : α} (absent : item ∉ set)
    : (set.add item).items = set.items ++ [item] := by
  rw [add, dif_pos (show item ∉ set.items from absent)]

/-- A new item makes the set larger by one. -/
theorem size_add_of_not_mem {set : InsertionSet α} {item : α} (absent : item ∉ set)
    : (set.add item).size = set.size + 1 := by
  rw [size, items_add_of_not_mem absent, List.length_append, List.length_singleton, size]

/-- A new item survives if no more are forgotten than were there before. -/
theorem mem_dropOldest_add {set : InsertionSet α} {item : α} {count : Nat}
    (absent : item ∉ set) (few : count ≤ set.size)
    : item ∈ (set.add item).dropOldest count := by
  change item ∈ (set.add item).items.drop count
  rw [items_add_of_not_mem absent, List.drop_append_of_le_length few]
  exact List.mem_append_right _ (List.mem_singleton_self item)

/-- A set that gains the members of a list grows by those that are new to it. -/
theorem size_of_gained {set larger : InsertionSet α} {items : List α}
    (members : ∀ item, item ∈ larger ↔ item ∈ set ∨ item ∈ items)
    : larger.size = set.size + (items.filter fun item => item ∉ set).dedup.length := by
  let fresh := (items.filter fun item => item ∉ set).dedup
  have member_fresh (item : α) : item ∈ fresh ↔ item ∈ items ∧ item ∉ set := by
    simp [fresh, List.mem_dedup, List.mem_filter]
  have nodup : (set.items ++ fresh).Nodup :=
    set.nodup.append (List.nodup_dedup _) fun item old new => ((member_fresh item).mp new).2 old
  have same : larger.items.Perm (set.items ++ fresh) := by
    refine (List.perm_ext_iff_of_nodup larger.nodup nodup).mpr fun item => ?_
    rw [← mem_def, members, List.mem_append, member_fresh, mem_def]
    by_cases old : item ∈ set.items <;> simp [old]
  rw [size, same.length_eq, List.length_append, size]

/-- A set is no larger than the number of items that its members are among. -/
theorem size_le_dedup {set : InsertionSet α} {items : List α}
    (within : ∀ item ∈ set, item ∈ items)
    : set.size ≤ items.dedup.length :=
  (set.nodup.subperm fun item member => List.mem_dedup.mpr (within item member)).length_le

end Decidable

end InsertionSet

end WebIndexer.Library
