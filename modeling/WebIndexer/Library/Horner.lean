import Mathlib.Algebra.BigOperators.Fin
import Mathlib.Tactic.Ring

/-! Horner's rule: a fold that multiplies by a base and adds the next digit sums up the digits with
the powers of the base that their places have.
-/

namespace WebIndexer.Library

variable {R : Type*} [CommSemiring R]

/-- The value of digits, the most significant one first. -/
def placeValue (base : R) (digits : List R) : R :=
  ∑ i : Fin digits.length, digits[i] * base ^ (digits.length - 1 - i)

theorem placeValue_nil (base : R) : placeValue base [] = 0 := rfl

/-- The first digit has the highest power. -/
theorem placeValue_cons (base digit : R) (digits : List R)
    : placeValue base (digit :: digits)
      = digit * base ^ digits.length + placeValue base digits := by
  have places (i : Fin digits.length)
      : digits.length + 1 - 1 - (i.succ : Nat) = digits.length - 1 - i := by
    rw [Fin.val_succ]
    omega
  refine (Fin.sum_univ_succ (fun i : Fin (digits.length + 1) =>
    (digit :: digits)[i] * base ^ (digits.length + 1 - 1 - i))).trans ?_
  congr 1
  exact Finset.sum_congr rfl fun i _ => congrArg (digits[i] * base ^ ·) (places i)

/-- A fold from some start adds the digits to the start, which it shifts by their number; induction
on the digits.
-/
theorem foldl_horner (base start : R) (digits : List R)
    : digits.foldl (fun value digit => value * base + digit) start
      = start * base ^ digits.length + placeValue base digits := by
  induction digits generalizing start with
  | nil => rw [List.foldl_nil, List.length_nil, pow_zero, mul_one, placeValue_nil, add_zero]
  | cons digit digits ih =>
      rw [List.foldl_cons, ih, placeValue_cons, List.length_cons]
      ring

end WebIndexer.Library
