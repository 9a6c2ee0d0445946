import Mathlib.Data.List.Basic

/-! Sliding windows of time. A log of all calls, admitted or not, admits a call that has few
others before it in the window that it ends. Times are listed newest first.
-/

namespace WebIndexer.Library

/-- The number of calls within a window that ends now. -/
def recent (width now : Nat) (times : List Nat) : Nat :=
  times.countP fun time => now < time + width

/-- The times of the calls that have fewer than the limit of others before them. -/
def admitted (width limit : Nat) : List Nat → List Nat
  | [] => []
  | now :: past =>
      if recent width now past < limit then
        now :: admitted width limit past
      else
        admitted width limit past

/-- Only calls are admitted. -/
theorem admitted_sublist (width limit : Nat) (times : List Nat)
    : (admitted width limit times).Sublist times := by
  induction times with
  | nil => exact List.Sublist.refl _
  | cons now past ih =>
      unfold admitted
      split
      · exact ih.cons_cons now
      · exact ih.cons now

/-- Every window admits at most the limit: the calls of the window were all counted when its
last one was admitted. By induction over the calls.
-/
theorem countP_admitted_le {width limit : Nat} {times : List Nat}
    (sorted : times.Pairwise fun later earlier => earlier ≤ later) (last : Nat)
    : (admitted width limit times).countP (fun time => time ≤ last ∧ last < time + width)
      ≤ limit := by
  induction times with
  | nil => exact Nat.zero_le _
  | cons now past ih =>
      obtain ⟨_, sorted⟩ := List.pairwise_cons.mp sorted
      unfold admitted
      split
      · rename_i below
        by_cases inside : now ≤ last ∧ last < now + width
        · have counted
              : (admitted width limit past).countP
                  (fun time => time ≤ last ∧ last < time + width)
                ≤ recent width now past := by
            calc (admitted width limit past).countP
                  (fun time => time ≤ last ∧ last < time + width)
              _ ≤ past.countP (fun time => time ≤ last ∧ last < time + width) :=
                (admitted_sublist width limit past).countP_le
              _ ≤ past.countP (fun time => now < time + width) := by
                apply List.countP_mono_left
                intro time _ within
                have within := of_decide_eq_true within
                simp only [decide_eq_true_eq]
                omega
          rw [List.countP_cons_of_pos (by simpa using inside)]
          omega
        · rw [List.countP_cons_of_neg (by simpa using inside)]
          exact ih sorted
      · exact ih sorted

end WebIndexer.Library
