import Mathlib.Data.Fintype.Basic
import Mathlib.Logic.Function.Basic

/-! Transactions whose statements each touch one row of a store, at the isolation level that reads
what is committed. A transaction keeps its writes to itself until it commits, and a row that it has
written is locked for the others until then.
-/

namespace WebIndexer.Library

variable {κ ν γ : Type*} [DecidableEq κ]

/-- The rows of a store, by their keys. -/
abbrev Rows (κ ν : Type*) := κ → Option ν

/-- The writes of a transaction that has not committed: the rows that it has put or deleted. -/
abbrev Pending (κ ν : Type*) := κ → Option (Option ν)

/-- A statement about one row: an insertion that updates the row which is there, one that does
nothing then, or a deletion.
-/
inductive RowStatement (κ ν : Type*) where
  | upsert (key : κ) (value : ν)
  | insert (key : κ) (value : ν)
  | delete (key : κ)

/-- The rows as a transaction sees them. -/
def overlay (rows : Rows κ ν) (pending : Pending κ ν) : Rows κ ν :=
  fun key => (pending key).getD (rows key)

namespace RowStatement

/-- The key of the row. -/
def key : RowStatement κ ν → κ
  | .upsert key _ | .insert key _ | .delete key => key

/-- What the statement does to rows that no one else writes. -/
def apply (rows : Rows κ ν) : RowStatement κ ν → Rows κ ν
  | .upsert key value => Function.update rows key (some value)
  | .insert key value =>
      if (rows key).isSome then rows else Function.update rows key (some value)
  | .delete key => Function.update rows key none

/-- What it writes in a transaction. -/
def write (rows : Rows κ ν) (pending : Pending κ ν) : RowStatement κ ν → Pending κ ν
  | .upsert key value => Function.update pending key (some (some value))
  | .insert key value =>
      if (overlay rows pending key).isSome then
        pending
      else
        Function.update pending key (some (some value))
  | .delete key =>
      if (overlay rows pending key).isSome then
        Function.update pending key (some none)
      else
        pending

/-- It waits for another transaction that has written its row. A deletion does not see a row that
another has only inserted.
-/
def conflicts (rows : Rows κ ν) : RowStatement κ ν → Bool
  | .delete key => (rows key).isSome
  | .upsert .. | .insert .. => true

end RowStatement

/-- What a transaction puts shows in the rows that it sees. -/
theorem overlay_update (rows : Rows κ ν) (pending : Pending κ ν) (key : κ) (value : Option ν)
    : overlay rows (Function.update pending key (some value))
      = Function.update (overlay rows pending) key value := by
  funext other
  by_cases same : other = key
  · subst same
    simp [overlay]
  · simp [overlay, same]

/-- A statement does to the rows that a transaction sees what it does to rows. -/
theorem overlay_write (rows : Rows κ ν) (pending : Pending κ ν) (statement : RowStatement κ ν)
    : overlay rows (statement.write rows pending) = statement.apply (overlay rows pending) := by
  cases statement with
  | upsert key value => exact overlay_update rows pending key (some value)
  | insert key value =>
      simp only [RowStatement.write, RowStatement.apply]
      split
      · rfl
      · exact overlay_update rows pending key (some value)
  | delete key =>
      simp only [RowStatement.write, RowStatement.apply]
      split
      · exact overlay_update rows pending key none
      · rename_i absent
        have gone : overlay rows pending key = none := Option.not_isSome_iff_eq_none.mp absent
        exact (gone ▸ Function.update_eq_self key (overlay rows pending)).symm

omit [DecidableEq κ] in
/-- A transaction sees the rows that it has not deleted. -/
theorem overlay_stays {rows : Rows κ ν} {pending : Pending κ ν} {key : κ}
    (undeleted : pending key ≠ some none) (present : (rows key).isSome)
    : (overlay rows pending key).isSome := by
  unfold overlay
  cases own : pending key with
  | none => exact present
  | some value =>
      cases value with
      | none => exact absurd own undeleted
      | some value => rfl

omit [DecidableEq κ] in
/-- What a transaction sees when the rows change, but not this one. -/
theorem overlay_mono {rows later : Rows κ ν} {pending : Pending κ ν} {key : κ}
    (stays : (rows key).isSome → (later key).isSome) (present : (overlay rows pending key).isSome)
    : (overlay later pending key).isSome := by
  unfold overlay at present ⊢
  cases own : pending key with
  | none =>
      rw [own] at present
      exact stays present
  | some value =>
      rw [own] at present
      exact present

/-- A row that is written after an update is its own, or was written before. -/
theorem written_of_update {pending : Pending κ ν} {key other : κ} {value : Option (Option ν)}
    (written : (Function.update pending other value key).isSome)
    : key = other ∨ (pending key).isSome := by
  by_cases same : key = other
  · exact .inl same
  · rw [Function.update_of_ne same] at written
    exact .inr written

/-- A row that a statement writes was written before, or is its own. -/
theorem write_cases {rows : Rows κ ν} {pending : Pending κ ν} {statement : RowStatement κ ν}
    {key : κ} (written : (statement.write rows pending key).isSome)
    : (pending key).isSome ∨ key = statement.key ∧ statement.conflicts rows = true := by
  cases statement with
  | upsert other value =>
      exact (written_of_update written).symm.imp_right fun same => ⟨same, rfl⟩
  | insert other value =>
      simp only [RowStatement.write] at written
      split at written
      · exact .inl written
      · exact (written_of_update written).symm.imp_right fun same => ⟨same, rfl⟩
  | delete other =>
      simp only [RowStatement.write] at written
      split at written
      · rename_i present
        rcases written_of_update written with rfl | before
        · -- the row is one that the transaction has put, or one that is committed
          cases own : pending key with
          | some value => exact .inl rfl
          | none =>
              refine .inr ⟨rfl, ?_⟩
              change (rows key).isSome = true
              simpa [overlay, own] using present
        · exact .inl before
      · exact .inl written

/-- A row that a transaction has deleted after a statement was deleted before, or by it. -/
theorem deleted_cases {rows : Rows κ ν} {pending : Pending κ ν} {statement : RowStatement κ ν}
    {key : κ} (deleted : statement.write rows pending key = some none)
    : pending key = some none ∨ statement = .delete key := by
  cases statement with
  | upsert other value =>
      by_cases same : key = other
      · subst same
        rw [RowStatement.write, Function.update_self] at deleted
        cases deleted
      · exact .inl ((Function.update_of_ne same _ _).symm.trans deleted)
  | insert other value =>
      simp only [RowStatement.write] at deleted
      split at deleted
      · exact .inl deleted
      · by_cases same : key = other
        · subst same
          rw [Function.update_self] at deleted
          cases deleted
        · exact .inl ((Function.update_of_ne same _ _).symm.trans deleted)
  | delete other =>
      by_cases same : key = other
      · exact .inr (congrArg _ same.symm)
      · simp only [RowStatement.write] at deleted
        split at deleted
        · exact .inl ((Function.update_of_ne same _ _).symm.trans deleted)
        · exact .inl deleted

-----------------------------------------------------------------------------------------
-- Sessions
-----------------------------------------------------------------------------------------

/-- The session of a client: outside a transaction, inside one with its writes, inside one that has
failed, or lost with its connection.
-/
inductive Session (κ ν : Type*) where
  | outside
  | inside (pending : Pending κ ν)
  | failed
  | lost

/-- The session has written a row, and holds its lock. -/
def Session.locks : Session κ ν → κ → Bool
  | .inside pending, key => (pending key).isSome
  | _, _ => false

/-- The statement of a client has to wait for another. -/
def Waits (rows : Rows κ ν) (sessions : γ → Session κ ν) (client : γ)
    (statement : RowStatement κ ν)
    : Prop :=
  statement.conflicts rows = true
  ∧ ∃ other, other ≠ client ∧ (sessions other).locks statement.key = true

instance [Fintype γ] [DecidableEq γ] (rows : Rows κ ν) (sessions : γ → Session κ ν) (client : γ)
    (statement : RowStatement κ ν)
    : Decidable (Waits rows sessions client statement) :=
  inferInstanceAs (Decidable (_ ∧ _))

/-- No two clients hold the lock of a row. -/
def Exclusive (sessions : γ → Session κ ν) : Prop :=
  ∀ first second key,
    (sessions first).locks key = true → (sessions second).locks key = true → first = second

namespace Exclusive

variable [DecidableEq γ] {sessions : γ → Session κ ν} {client : γ} {rows : Rows κ ν}
  {pending : Pending κ ν} {statement : RowStatement κ ν}

omit [DecidableEq κ] in
/-- Locks stay exclusive when a client comes to hold those that only it can hold. -/
theorem update {session : Session κ ν} (exclusive : Exclusive sessions)
    (own : ∀ key, session.locks key = true → ∀ other, other ≠ client →
      (sessions other).locks key = false)
    : Exclusive (Function.update sessions client session) := by
  intro first second key left right
  by_cases mine : first = client
  · subst mine
    by_contra differs
    rw [Function.update_self] at left
    rw [Function.update_of_ne (Ne.symm differs)] at right
    exact Bool.noConfusion ((own key left second (Ne.symm differs)).symm.trans right)
  · rw [Function.update_of_ne mine] at left
    by_cases yours : second = client
    · subst yours
      rw [Function.update_self] at right
      exact Bool.noConfusion ((own key right first mine).symm.trans left)
    · rw [Function.update_of_ne yours] at right
      exact exclusive first second key left right

omit [DecidableEq κ] in
/-- A client that holds no new lock leaves the others exclusive. -/
theorem fewer {session : Session κ ν} (exclusive : Exclusive sessions)
    (held : ∀ key, session.locks key = true → (sessions client).locks key = true)
    : Exclusive (Function.update sessions client session) :=
  exclusive.update fun key lock other differs => Bool.eq_false_iff.mpr fun taken =>
    differs (exclusive other client key taken (held key lock))

/-- A statement that need not wait takes a lock that no one else holds. -/
theorem write (exclusive : Exclusive sessions) (within : sessions client = .inside pending)
    (goes : ¬ Waits rows sessions client statement)
    : Exclusive (Function.update sessions client (.inside (statement.write rows pending))) := by
  refine exclusive.update fun key held other differs => ?_
  rcases write_cases held with before | ⟨rfl, conflicts⟩
  · refine Bool.eq_false_iff.mpr fun taken => differs ?_
    have mine : (sessions client).locks key = true := within ▸ before
    exact exclusive other client key taken mine
  · exact Bool.eq_false_iff.mpr fun taken => goes ⟨conflicts, other, differs, taken⟩

end Exclusive

end WebIndexer.Library
