import Mathlib.Algebra.Order.Floor.Ring
import Mathlib.Data.Int.Log
import Mathlib.Data.Rat.Floor
import Mathlib.Tactic.Linarith
import Mathlib.Tactic.GCongr
import Mathlib.Tactic.Positivity
import Mathlib.Tactic.Ring

/-! Floating-point numbers of a given precision, as the numbers that a rounding to nearest, with
ties to even, returns. Exponents are not bounded.
-/

namespace WebIndexer.Library

/-- Different fractions are apart by at least a fraction of the product of their denominators. -/
theorem fraction_gap {α : Type*} [Field α] [LinearOrder α] [IsStrictOrderedRing α]
    {a b c d : ℤ} (b_positive : 0 < b) (d_positive : 0 < d)
    (less : a * d < c * b)
    : (a / b : α) + 1 / (b * d) ≤ c / d := by
  have b_positive' : (0 : α) < b := by exact_mod_cast b_positive
  have d_positive' : (0 : α) < d := by exact_mod_cast d_positive
  have step : (a * d + 1 : α) ≤ c * b := by exact_mod_cast less
  calc (a / b : α) + 1 / (b * d)
      = (a * d + 1) / (b * d) := by
          rw [add_div, mul_div_mul_right _ _ d_positive'.ne']
    _ ≤ c * b / (b * d) := by gcongr
    _ = c / d := by
          rw [mul_comm (c : α), mul_div_mul_left _ _ b_positive'.ne']

variable {α : Type*} [Field α] [LinearOrder α] [FloorRing α]

/-- The nearest integer, and of two the even one. -/
def roundEven (x : α) : ℤ :=
  if 2 * Int.fract x < 1 then
    ⌊x⌋
  else if 1 < 2 * Int.fract x then
    ⌊x⌋ + 1
  else
    ⌊x⌋ + ⌊x⌋ % 2

/-- The value of the last place of a number. -/
def lastPlace (bits : ℕ) (x : α) : α := 2 ^ (Int.log 2 |x| + 1 - bits)

/-- The nearest number with the given number of significant bits. -/
def roundTo (bits : ℕ) (x : α) : α := roundEven (x / lastPlace bits x) * lastPlace bits x

variable [IsStrictOrderedRing α]

/-- The nearest integer is at most a half away. -/
theorem abs_roundEven_sub_le (x : α) : |(roundEven x : α) - x| ≤ 1 / 2 := by
  have parts := Int.floor_add_fract x
  have low := Int.fract_nonneg x
  unfold roundEven
  split
  · rw [abs_le]
    constructor <;> linarith
  · split
    · have high := Int.fract_lt_one x
      rw [Int.cast_add, Int.cast_one, abs_le]
      constructor <;> linarith
    · -- both neighbours are a half away
      rcases Int.emod_two_eq_zero_or_one ⌊x⌋ with even | odd
      · rw [even, add_zero, abs_le]
        constructor <;> linarith
      · rw [odd, Int.cast_add, Int.cast_one, abs_le]
        constructor <;> linarith

@[simp] theorem roundTo_zero (bits : ℕ) : roundTo bits (0 : α) = 0 := by
  simp [roundTo, roundEven]

theorem lastPlace_pos (bits : ℕ) (x : α) : 0 < lastPlace bits x :=
  zpow_pos two_pos _

/-- The last place is worth at most the number, by the number of bits. -/
theorem lastPlace_le {bits : ℕ} {x : α} (nonzero : x ≠ 0)
    : lastPlace bits x ≤ 2 * (|x| / 2 ^ bits) := by
  have scale : lastPlace bits x = 2 * (2 ^ Int.log 2 |x| / 2 ^ bits) := by
    rw [lastPlace, zpow_sub₀ two_ne_zero, zpow_add₀ two_ne_zero, zpow_one, zpow_natCast]
    ring
  have head : (2 : α) ^ Int.log 2 |x| ≤ |x| := by
    exact_mod_cast Int.zpow_log_le_self Nat.one_lt_two (abs_pos.mpr nonzero)
  rw [scale]
  gcongr

/-- A rounded number is off by at most its size, by the number of bits. -/
theorem abs_roundTo_sub_le (bits : ℕ) (x : α) : |roundTo bits x - x| ≤ |x| / 2 ^ bits := by
  by_cases nonzero : x = 0
  · simp [nonzero]
  · have positive := lastPlace_pos bits x
    have nearest := abs_roundEven_sub_le (x / lastPlace bits x)
    have scaled : roundTo bits x - x
        = (roundEven (x / lastPlace bits x) - x / lastPlace bits x) * lastPlace bits x := by
      rw [sub_mul, div_mul_cancel₀ _ positive.ne', roundTo]
    rw [scaled, abs_mul, abs_of_pos positive]
    calc |(roundEven (x / lastPlace bits x) : α) - x / lastPlace bits x| * lastPlace bits x
        ≤ 1 / 2 * lastPlace bits x := by gcongr
      _ ≤ 1 / 2 * (2 * (|x| / 2 ^ bits)) := by
          have bound := @lastPlace_le α _ _ _ _ bits x nonzero
          gcongr
      _ = |x| / 2 ^ bits := by ring

/-- An integer that is less than a half away is the nearest one. -/
theorem roundEven_of_near {x : α} {n : ℤ} (near : |x - n| < 1 / 2) : roundEven x = n := by
  obtain ⟨low, high⟩ := abs_lt.mp near
  rcases le_total (n : α) x with above | below
  · have floor : ⌊x⌋ = n := Int.floor_eq_iff.mpr ⟨above, by linarith⟩
    have part : 2 * Int.fract x < 1 := by
      rw [Int.fract, floor]
      linarith
    rw [roundEven, if_pos part, floor]
  · by_cases same : x = n
    · have part : 2 * Int.fract x < 1 := by
        rw [same, Int.fract_intCast, mul_zero]
        exact one_pos
      rw [roundEven, if_pos part, same, Int.floor_intCast]
    · have strict : x < n := lt_of_le_of_ne below same
      have floor : ⌊x⌋ = n - 1 := by
        rw [Int.floor_eq_iff, Int.cast_sub, Int.cast_one]
        constructor <;> linarith
      have part : 1 < 2 * Int.fract x := by
        rw [Int.fract, floor, Int.cast_sub, Int.cast_one]
        linarith
      rw [roundEven, if_neg part.not_gt, if_pos part, floor, sub_add_cancel]

/-- A number has the given number of bits, up to the last place. -/
theorem abs_lt_lastPlace (bits : ℕ) (x : α) : |x| < lastPlace bits x * 2 ^ bits := by
  have head : |x| < (2 : α) ^ (Int.log 2 |x| + 1) := by
    exact_mod_cast Int.lt_zpow_succ_log_self Nat.one_lt_two |x|
  rw [lastPlace, zpow_sub₀ two_ne_zero, zpow_natCast,
    div_mul_cancel₀ _ (pow_ne_zero bits two_ne_zero)]
  exact head

/-- An integer within the bits is returned for what is less than half of the last place away. -/
theorem roundTo_of_near {bits : ℕ} {x : α} {n : ℤ} (small : |x| < 2 ^ bits) (nonzero : x ≠ 0)
    (near : 2 * |x - n| < lastPlace bits x)
    : roundTo bits x = n := by
  have size : Int.log 2 |x| < bits := by
    refine (Int.lt_zpow_iff_log_lt Nat.one_lt_two (abs_pos.mpr nonzero)).mp ?_
    exact_mod_cast small
  -- the last place is a fraction, so that the integer is a multiple of it
  obtain ⟨places, exponent⟩ := Int.eq_ofNat_of_zero_le (sub_nonneg.mpr (Int.add_one_le_of_lt size))
  have place : lastPlace bits x = (2 ^ places : α)⁻¹ := by
    rw [lastPlace, ← neg_sub, exponent, zpow_neg, zpow_natCast]
  have positive : (0 : α) < 2 ^ places := pow_pos two_pos places
  have scaled : roundEven (x / lastPlace bits x) = n * 2 ^ places := by
    refine roundEven_of_near ?_
    have factor : x / lastPlace bits x - ((n * 2 ^ places : ℤ) : α) = (x - n) * 2 ^ places := by
      rw [place, div_inv_eq_mul]
      push_cast
      ring
    rw [factor, abs_mul, abs_of_pos positive]
    have bound := mul_lt_mul_of_pos_right near positive
    rw [place, inv_mul_cancel₀ positive.ne'] at bound
    linarith
  rw [roundTo, scaled, place]
  push_cast
  rw [mul_assoc, mul_inv_cancel₀ positive.ne', mul_one]

/-- Integers within the bits are not rounded. -/
theorem roundTo_intCast {bits : ℕ} {n : ℤ} (small : |n| < 2 ^ bits)
    : roundTo bits (n : α) = n := by
  by_cases zero : n = 0
  · rw [zero, Int.cast_zero, roundTo_zero]
  · refine roundTo_of_near ?_ (Int.cast_ne_zero.mpr zero) ?_
    · exact_mod_cast small
    · rw [sub_self, abs_zero, mul_zero]
      exact lastPlace_pos bits _

/-- A number up to a bound is not rounded far above it. -/
theorem roundTo_le {bits : ℕ} {x bound : α} (below : x ≤ bound) (positive : 0 ≤ bound)
    : roundTo bits x ≤ bound * (1 + 1 / 2 ^ bits) := by
  have near := (abs_le.mp (abs_roundTo_sub_le bits x)).2
  have place : (0 : α) < 2 ^ bits := pow_pos two_pos bits
  rcases le_total 0 x with nonneg | nonpos
  · rw [abs_of_nonneg nonneg] at near
    calc roundTo bits x
        ≤ x * (1 + 1 / 2 ^ bits) := by rw [mul_add, mul_one, mul_one_div]; linarith
      _ ≤ bound * (1 + 1 / 2 ^ bits) := by gcongr
  · rw [abs_of_nonpos nonpos] at near
    have shrinks : -x / 2 ^ bits ≤ -x :=
      div_le_self (neg_nonneg.mpr nonpos) (one_le_pow₀ one_le_two)
    have grows : 0 ≤ bound * (1 + 1 / 2 ^ bits) := by positivity
    linarith

/-- A number from a bound on is not rounded far below it. -/
theorem le_roundTo {bits : ℕ} {x bound : α} (above : bound ≤ x) (positive : 0 ≤ bound)
    : bound * (1 - 1 / 2 ^ bits) ≤ roundTo bits x := by
  have near := (abs_le.mp (abs_roundTo_sub_le bits x)).1
  have small : (0 : α) ≤ 1 - 1 / 2 ^ bits :=
    sub_nonneg.mpr (div_le_self zero_le_one (one_le_pow₀ one_le_two))
  rw [abs_of_nonneg (positive.trans above)] at near
  calc bound * (1 - 1 / 2 ^ bits)
      ≤ x * (1 - 1 / 2 ^ bits) := by gcongr
    _ ≤ roundTo bits x := by rw [mul_sub, mul_one, mul_one_div]; linarith

/-- The value of the last place of a positive number, by its leading bit. -/
theorem lastPlace_eq {bits : ℕ} {x : α} {e : ℤ} (low : 2 ^ e ≤ x) (high : x < 2 ^ (e + 1))
    : lastPlace bits x = 2 ^ (e + 1 - bits) := by
  have positive : 0 < x := (zpow_pos two_pos e).trans_le low
  have upper : Int.log 2 x < e + 1 :=
    (Int.lt_zpow_iff_log_lt Nat.one_lt_two positive).mp (by exact_mod_cast high)
  have lower : e ≤ Int.log 2 x :=
    (Int.zpow_le_iff_le_log Nat.one_lt_two positive).mp (by exact_mod_cast low)
  rw [lastPlace, abs_of_pos positive, le_antisymm (Int.lt_add_one_iff.mp upper) lower]

/-- The nearest double of a number in their range. -/
def double (x : ℚ) : ℚ := roundTo 53 x

end WebIndexer.Library
