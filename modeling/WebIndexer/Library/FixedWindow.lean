import Mathlib.Data.List.Basic

/-! Counters over fixed windows of time. A window is opened by the first call after the last
one has run out, so that windows start at the times of calls, and not on a grid. A counter
that admits a limited number of calls in each window admits at most twice as many in any
interval as long as a window, since no such interval meets three of them.
-/

namespace WebIndexer.Library

/-- A call that was admitted, with the start of the window that it was counted in. -/
structure Admission where
  time : Nat
  start : Nat

/-- A window, by its start, and the number of calls that it has seen. -/
structure Window where
  start : Nat
  count : Nat
  deriving DecidableEq, Repr

namespace Window

/-- The window that a call falls into: a new one, unless the last is still open. -/
def current (width now : Nat) : Option Window → Window
  | none => ⟨now, 0⟩
  | some window => if width < now - window.start then ⟨now, 0⟩ else window

/-- One more call has been seen. -/
def hit (window : Window) : Window := { window with count := window.count + 1 }

end Window

-----------------------------------------------------------------------------------------
-- The bound
-----------------------------------------------------------------------------------------

/-- Admissions lie in their windows, windows do not overlap, and none admits more than the
limit.
-/
structure Anchored (width limit : Nat) (admissions : List Admission) : Prop where
  inside
    : ∀ admission ∈ admissions,
        admission.start ≤ admission.time ∧ admission.time ≤ admission.start + width
  apart
    : ∀ admission ∈ admissions, ∀ other ∈ admissions,
        admission.start = other.start
        ∨ admission.start + width < other.start
        ∨ other.start + width < admission.start
  limited : ∀ start, admissions.countP (fun admission => admission.start = start) ≤ limit

/-- What is covered by two tests is counted by them, by induction over the list. -/
theorem countP_le_add_countP {α : Type*} {items : List α} {test first second : α → Bool}
    (covered : ∀ item ∈ items, test item = true → first item = true ∨ second item = true)
    : items.countP test ≤ items.countP first + items.countP second := by
  induction items with
  | nil => simp
  | cons item rest ih =>
      have others := ih fun other member => covered other (List.mem_cons_of_mem _ member)
      have head := covered item List.mem_cons_self
      simp only [List.countP_cons]
      cases tested : test item with
      | false =>
          simp only [Bool.false_eq_true, if_false]
          omega
      | true =>
          rcases head tested with one | one <;> simp only [one, if_true] <;> omega

/-- An interval as long as a window meets at most two windows, so that it has at most twice
the limit of admissions.
-/
theorem Anchored.countP_le {width limit : Nat} {admissions : List Admission}
    (anchored : Anchored width limit admissions) (low : Nat)
    : admissions.countP (fun admission =>
          low ≤ admission.time ∧ admission.time ≤ low + width)
      ≤ 2 * limit := by
  by_cases some_inside
      : ∃ first ∈ admissions, low ≤ first.time ∧ first.time ≤ low + width
  · obtain ⟨first, firstMember, firstInside⟩ := some_inside
    by_cases other_window
        : ∃ second ∈ admissions,
            (low ≤ second.time ∧ second.time ≤ low + width) ∧ second.start ≠ first.start
    · obtain ⟨second, secondMember, secondInside, differs⟩ := other_window
      -- of three windows, the last would start after the interval has ended
      have covered
          : ∀ admission ∈ admissions,
              decide (low ≤ admission.time ∧ admission.time ≤ low + width) = true →
              decide (admission.start = first.start) = true
              ∨ decide (admission.start = second.start) = true := by
        intro admission member inside
        have inside := of_decide_eq_true inside
        have one := anchored.inside first firstMember
        have two := anchored.inside second secondMember
        have three := anchored.inside admission member
        have oneTwo := anchored.apart first firstMember second secondMember
        have oneThree := anchored.apart first firstMember admission member
        have twoThree := anchored.apart second secondMember admission member
        simp only [decide_eq_true_eq]
        omega
      have bound := countP_le_add_countP covered
      have ofFirst := anchored.limited first.start
      have ofSecond := anchored.limited second.start
      omega
    · have same
          : ∀ admission ∈ admissions,
              decide (low ≤ admission.time ∧ admission.time ≤ low + width) = true →
              decide (admission.start = first.start) = true := by
        intro admission member inside
        by_contra differs
        exact other_window
          ⟨admission, member, of_decide_eq_true inside, of_decide_eq_false (by simpa using differs)⟩
      have bound := List.countP_mono_left same
      have ofFirst := anchored.limited first.start
      omega
  · have none
        : admissions.countP (fun admission =>
            low ≤ admission.time ∧ admission.time ≤ low + width)
          = 0 := by
      rw [List.countP_eq_zero]
      intro admission member inside
      exact some_inside ⟨admission, member, of_decide_eq_true inside⟩
    omega

-----------------------------------------------------------------------------------------
-- The counter
-----------------------------------------------------------------------------------------

/-- The counter has seen the admissions of its window, and the windows before it are over.
Without a window nothing has been admitted.
-/
structure Counted (width limit now : Nat) (window : Option Window)
    (admissions : List Admission)
    : Prop where
  anchored : Anchored width limit admissions
  opened : ∀ last ∈ window, last.start ≤ now
  latest
    : ∀ last ∈ window, ∀ admission ∈ admissions,
        admission.start = last.start ∨ admission.start + width < last.start
  counted
    : ∀ last ∈ window,
        admissions.countP (fun admission => admission.start = last.start) ≤ last.count
  fresh : window = none → admissions = []

namespace Counted

variable {width limit now later : Nat} {window : Option Window} {last : Window}
  {admissions : List Admission}

/-- At first there is no window. -/
theorem start (width limit now : Nat) : Counted width limit now none [] where
  anchored := ⟨nofun, nofun, fun _ => Nat.zero_le _⟩
  opened := nofun
  latest := nofun
  counted := nofun
  fresh _ := rfl

/-- Time passes without a call. -/
theorem mono (counted : Counted width limit now window admissions) (passed : now ≤ later)
    : Counted width limit later window admissions where
  anchored := counted.anchored
  opened last same := Nat.le_trans (counted.opened last same) passed
  latest := counted.latest
  counted := counted.counted
  fresh := counted.fresh

/-- A window that opens after the others are over has seen nothing. -/
theorem reopen (anchored : Anchored width limit admissions)
    (ended : ∀ admission ∈ admissions, admission.start + width < now)
    : Counted width limit now (some ⟨now, 0⟩) admissions where
  anchored := anchored
  opened := by
    rintro _ ⟨⟩
    exact Nat.le_refl now
  latest := by
    rintro _ ⟨⟩ admission member
    exact .inr (ended admission member)
  counted := by
    rintro _ ⟨⟩
    rw [Nat.le_zero, List.countP_eq_zero]
    intro admission member same
    have before := ended admission member
    have same : admission.start = now := of_decide_eq_true same
    omega
  fresh := nofun

/-- Opening the window that a later call falls into keeps the count. -/
theorem current (counted : Counted width limit now window admissions) (passed : now ≤ later)
    : Counted width limit later (some (Window.current width later window)) admissions := by
  cases window with
  | none =>
      have nothing := counted.fresh rfl
      subst nothing
      exact reopen counted.anchored nofun
  | some last =>
      have opened := counted.opened last rfl
      by_cases gone : width < later - last.start
      · simp only [Window.current, gone, if_true]
        apply reopen counted.anchored
        intro admission member
        have before := counted.latest last rfl admission member
        omega
      · simp only [Window.current, gone, if_false]
        refine ⟨counted.anchored, ?_, counted.latest, counted.counted, nofun⟩
        rintro _ ⟨⟩
        exact Nat.le_trans opened passed

/-- The window that a call falls into is open. -/
theorem current_open (width now : Nat) (window : Option Window)
    : now ≤ (Window.current width now window).start + width := by
  cases window with
  | none => exact Nat.le_add_right ..
  | some last =>
      by_cases gone : width < now - last.start
      · simp only [Window.current, gone, if_true]
        omega
      · simp only [Window.current, gone, if_false]
        omega

/-- A call that is rejected is counted, too. -/
theorem reject (counted : Counted width limit now (some last) admissions)
    : Counted width limit now (some last.hit) admissions where
  anchored := counted.anchored
  opened := by
    rintro _ ⟨⟩
    exact counted.opened last rfl
  latest := by
    rintro _ ⟨⟩
    exact counted.latest last rfl
  counted := by
    rintro _ ⟨⟩
    exact Nat.le_succ_of_le (counted.counted last rfl)
  fresh := nofun

/-- A call below the limit of an open window is admitted and counted. -/
theorem admission (counted : Counted width limit now (some last) admissions)
    (unended : now ≤ last.start + width) (below : last.count < limit)
    : Counted width limit now (some last.hit) (⟨now, last.start⟩ :: admissions) where
  anchored := by
    refine ⟨?_, ?_, ?_⟩
    · intro admission member
      rcases List.mem_cons.mp member with rfl | old
      · exact ⟨counted.opened last rfl, unended⟩
      · exact counted.anchored.inside admission old
    · intro admission member other otherMember
      rcases List.mem_cons.mp member with rfl | old <;>
        rcases List.mem_cons.mp otherMember with rfl | otherOld
      · exact .inl rfl
      · have before := counted.latest last rfl other otherOld
        simp only
        omega
      · have before := counted.latest last rfl admission old
        simp only
        omega
      · exact counted.anchored.apart admission old other otherOld
    · intro start
      have limited := counted.anchored.limited start
      rw [List.countP_cons]
      by_cases same : last.start = start
      · have seen := counted.counted last rfl
        rw [same] at seen
        simp only [same, decide_true, if_true]
        omega
      · simpa [same] using limited
  opened := by
    rintro _ ⟨⟩
    exact counted.opened last rfl
  latest := by
    rintro _ ⟨⟩ admission member
    rcases List.mem_cons.mp member with rfl | old
    · exact .inl rfl
    · exact counted.latest last rfl admission old
  counted := by
    rintro _ ⟨⟩
    rw [List.countP_cons_of_pos (by simp [Window.hit])]
    apply Nat.succ_le_succ
    exact counted.counted last rfl
  fresh := nofun

end Counted

end WebIndexer.Library
