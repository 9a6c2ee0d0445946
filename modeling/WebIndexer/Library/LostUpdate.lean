import Mathlib.Data.List.Perm.Basic

/-! A counter that is raised by reading it and writing back one more, by any number of writers.
An update is lost when a writer writes while another has read and not written yet.
-/

namespace WebIndexer.Library

/-- A counter that started at `base` and was written `written` times. The writers `pending`
have read it and not written yet, each with the value that it read. No value is too large, a
value that is not too small was read since the last write, and an update was lost exactly when
the value, or one that is to be written, is too small.
-/
structure Account (base value written : Nat) (pending : List Nat) (overlapped : Bool)
    : Prop where
  value_le : value ≤ base + written
  pending_le : ∀ read ∈ pending, read ≤ base + written
  current : base + written ∈ pending → value = base + written
  exact : overlapped = false → value = base + written ∧ ∀ read ∈ pending, read = base + written
  behind : overlapped = true → value < base + written ∨ ∃ read ∈ pending, read < base + written

namespace Account

variable {base value written : Nat} {pending : List Nat} {overlapped : Bool}

/-- A counter that nobody has read. -/
theorem start (base : Nat) : Account base base 0 [] false where
  value_le := Nat.le_refl _
  pending_le := by simp
  current := by simp
  exact := by simp
  behind := by simp

/-- The order of the writers carries no meaning. -/
theorem perm {others : List Nat} (account : Account base value written pending overlapped)
    (same : pending.Perm others)
    : Account base value written others overlapped where
  value_le := account.value_le
  pending_le read member := account.pending_le read (same.mem_iff.mpr member)
  current member := account.current (same.mem_iff.mpr member)
  exact clear := by
    obtain ⟨value_eq, reads⟩ := account.exact clear
    exact ⟨value_eq, fun read member => reads read (same.mem_iff.mpr member)⟩
  behind lost := by
    rcases account.behind lost with below | ⟨read, member, below⟩
    · exact .inl below
    · exact .inr ⟨read, same.mem_iff.mp member, below⟩

/-- A writer reads the counter. -/
theorem read (account : Account base value written pending overlapped)
    : Account base value written (value :: pending) overlapped where
  value_le := account.value_le
  pending_le := by
    intro read member
    rcases List.mem_cons.mp member with rfl | old
    · exact account.value_le
    · exact account.pending_le read old
  current := by
    intro member
    rcases List.mem_cons.mp member with same | old
    · exact same.symm
    · exact account.current old
  exact := by
    intro clear
    obtain ⟨value_eq, reads⟩ := account.exact clear
    refine ⟨value_eq, fun read member => ?_⟩
    rcases List.mem_cons.mp member with rfl | old
    · exact value_eq
    · exact reads read old
  behind := by
    intro lost
    rcases account.behind lost with below | ⟨read, member, below⟩
    · exact .inl below
    · exact .inr ⟨read, List.mem_cons_of_mem _ member, below⟩

/-- A writer writes one more than it has read. -/
theorem write {read : Nat}
    (account : Account base value written (read :: pending) overlapped)
    : Account base (read + 1) (written + 1) pending (overlapped || !pending.isEmpty) where
  value_le := by
    have bound := account.pending_le read List.mem_cons_self
    omega
  pending_le := by
    intro other member
    have bound := account.pending_le other (List.mem_cons_of_mem _ member)
    omega
  current := by
    intro member
    have bound := account.pending_le _ (List.mem_cons_of_mem _ member)
    omega
  exact := by
    intro clear
    obtain ⟨before, alone⟩ := Bool.or_eq_false_iff.mp clear
    obtain rfl : pending = [] := by simpa using alone
    obtain ⟨_, reads⟩ := account.exact before
    have read_eq := reads read List.mem_cons_self
    exact ⟨by omega, by simp⟩
  behind := by
    intro lost
    cases pending with
    | cons other rest =>
        have bound := account.pending_le other (by simp)
        exact .inr ⟨other, List.mem_cons_self, by omega⟩
    | nil =>
        have lost : overlapped = true := by simpa using lost
        have bound := account.pending_le read List.mem_cons_self
        left
        rcases account.behind lost with below | ⟨other, member, below⟩
        · -- the value is too small, so one that is not was read before
          have stale : read ≠ base + written := by
            intro same
            have value_eq := account.current (same ▸ List.mem_cons_self)
            omega
          omega
        · obtain rfl := List.mem_singleton.mp member
          omega

/-- When all writers have written, the counter has all updates exactly when none was lost. -/
theorem settled (account : Account base value written [] overlapped)
    : value = base + written ↔ overlapped = false := by
  refine ⟨fun whole => ?_, fun clear => (account.exact clear).1⟩
  cases lost : overlapped with
  | false => rfl
  | true =>
      rcases account.behind lost with below | ⟨_, member, _⟩
      · omega
      · cases member

end Account

end WebIndexer.Library
