import Mathlib.Data.List.Dedup
import Mathlib.Data.List.Sort

/-! Queries that order, partition and group the rows of a table. Among rows that an `ORDER BY` does
not tell apart, a database is free to choose.
-/

namespace WebIndexer.Library

/-- The order in which a database happens to come upon rows: each of them once. -/
structure Shuffle (α : Type*) where
  run (rows : List α) : List α
  perm (rows : List α) : (run rows).Perm rows

/-- The order of the table itself. -/
def Shuffle.tableOrder {α : Type*} : Shuffle α := ⟨id, fun _ => .refl _⟩

variable {α γ : Type*}

-----------------------------------------------------------------------------------------
-- ORDER BY
-----------------------------------------------------------------------------------------

/-- `ORDER BY key DESC`. -/
def orderByDesc (key : α → Nat) (shuffle : Shuffle α) (rows : List α) : List α :=
  (shuffle.run rows).insertionSort fun left right => key right ≤ key left

theorem perm_orderByDesc (key : α → Nat) (shuffle : Shuffle α) (rows : List α)
    : (orderByDesc key shuffle rows).Perm rows :=
  (List.perm_insertionSort ..).trans (shuffle.perm rows)

@[simp] theorem mem_orderByDesc {key : α → Nat} {shuffle : Shuffle α} {rows : List α} {row : α}
    : row ∈ orderByDesc key shuffle rows ↔ row ∈ rows :=
  (perm_orderByDesc key shuffle rows).mem_iff

@[simp] theorem orderByDesc_eq_nil {key : α → Nat} {shuffle : Shuffle α} {rows : List α}
    : orderByDesc key shuffle rows = [] ↔ rows = [] := by
  have perm := perm_orderByDesc key shuffle rows
  constructor
  · intro none_ordered
    exact List.nil_perm.mp (none_ordered ▸ perm)
  · intro none_there
    exact List.perm_nil.mp (none_there ▸ perm)

/-- Each row's key is at least those of the rows after it. -/
theorem pairwise_orderByDesc (key : α → Nat) (shuffle : Shuffle α) (rows : List α)
    : (orderByDesc key shuffle rows).Pairwise fun left right => key right ≤ key left := by
  have total : Std.Total fun left right : α => key right ≤ key left :=
    ⟨fun left right => Nat.le_total (key right) (key left)⟩
  have chained : IsTrans α fun left right => key right ≤ key left :=
    ⟨fun _ _ _ first second => Nat.le_trans second first⟩
  exact List.pairwise_insertionSort _ _

-----------------------------------------------------------------------------------------
-- PARTITION BY
-----------------------------------------------------------------------------------------

section

variable [DecidableEq γ]

/-- The rows that come first in their partitions, which `ROW_NUMBER()` numbers one. -/
def firstOfEach (group : α → γ) : List α → List α
  | [] => []
  | row :: rest => row :: (firstOfEach group rest).filter fun other => group other ≠ group row

variable {group : α → γ} {rows : List α} {row : α}

/-- Rows are left out, and none added; induction on the rows. -/
theorem firstOfEach_sublist (group : α → γ) (rows : List α)
    : (firstOfEach group rows).Sublist rows := by
  induction rows with
  | nil => exact .slnil
  | cons row rest ih => exact (List.filter_sublist.trans ih).cons_cons row

@[simp] theorem firstOfEach_eq_nil : firstOfEach group rows = [] ↔ rows = [] := by
  cases rows <;> simp [firstOfEach]

/-- Each partition gives one row, by induction on the rows: what the first row leaves out are the
rows of its partition.
-/
theorem nodup_map_firstOfEach (group : α → γ) (rows : List α)
    : ((firstOfEach group rows).map group).Nodup := by
  induction rows with
  | nil => exact List.nodup_nil
  | cons row rest ih =>
      rw [firstOfEach, List.map_cons, List.nodup_cons]
      constructor
      · intro again
        obtain ⟨other, kept, same⟩ := List.mem_map.mp again
        have differs := (List.mem_filter.mp kept).2
        exact of_decide_eq_true differs same
      · exact ih.sublist (List.filter_sublist.map group)

/-- In descending order the first row of a partition has its greatest key, by induction on the
rows.
-/
theorem le_of_mem_firstOfEach {key : α → Nat}
    (sorted : rows.Pairwise fun left right => key right ≤ key left)
    (first : row ∈ firstOfEach group rows) {other : α} (member : other ∈ rows)
    (same : group other = group row)
    : key other ≤ key row := by
  induction rows with
  | nil => exact absurd member List.not_mem_nil
  | cons head rest ih =>
      obtain ⟨below, sorted⟩ := List.pairwise_cons.mp sorted
      rcases List.mem_cons.mp first with here | later
      · subst here
        rcases List.mem_cons.mp member with here | later
        · exact Nat.le_of_eq (congrArg key here)
        · exact below other later
      · obtain ⟨first, differs⟩ := List.mem_filter.mp later
        rcases List.mem_cons.mp member with here | member
        · subst here
          exact absurd same.symm (of_decide_eq_true differs)
        · exact ih sorted first member

/-- `ROW_NUMBER() OVER (PARTITION BY group ORDER BY key DESC) = 1`. -/
def topOfEach (group : α → γ) (key : α → Nat) (shuffle : Shuffle α) (rows : List α) : List α :=
  firstOfEach group (orderByDesc key shuffle rows)

variable {key : α → Nat} {shuffle : Shuffle α}

theorem mem_of_mem_topOfEach (top : row ∈ topOfEach group key shuffle rows) : row ∈ rows :=
  mem_orderByDesc.mp ((firstOfEach_sublist ..).subset top)

@[simp] theorem topOfEach_eq_nil : topOfEach group key shuffle rows = [] ↔ rows = [] := by
  rw [topOfEach, firstOfEach_eq_nil, orderByDesc_eq_nil]

theorem le_of_mem_topOfEach (top : row ∈ topOfEach group key shuffle rows) {other : α}
    (member : other ∈ rows) (same : group other = group row)
    : key other ≤ key row :=
  le_of_mem_firstOfEach (pairwise_orderByDesc ..) top (mem_orderByDesc.mpr member) same

end

-----------------------------------------------------------------------------------------
-- GROUP BY
-----------------------------------------------------------------------------------------

section

variable [DecidableEq γ]

/-- `SELECT group, COUNT(*) GROUP BY group`. -/
def countGroups (groups : List γ) : List (γ × Nat) :=
  groups.dedup.map fun group => (group, groups.count group)

theorem mem_of_mem_countGroups {groups : List γ} {counted : γ × Nat}
    (member : counted ∈ countGroups groups)
    : counted.1 ∈ groups := by
  obtain ⟨group, present, rfl⟩ := List.mem_map.mp member
  exact List.mem_dedup.mp present

end

end WebIndexer.Library
