import Mathlib.Data.List.DropRight
import WebIndexer.Library.Exposition
import WebIndexer.Library.Rounding
import WebIndexer.Runtime.Number

/-! The decimal texts of non-negative numbers of the script runtime. -/

namespace WebIndexer.Runtime

open WebIndexer.Library

/-- The number of decimal digits. -/
def width (value : Nat) : Nat := (Nat.toDigits 10 value).length

/-- The multiple of a power of ten that is closest to a double, if it reads back as the double; else
the one on the other side, if that does. Of two equally close ones, the even multiple is taken.
-/
def readsBack (value unit : Nat) : Option Nat :=
  let low := value / unit * unit
  let high := low + unit
  let closer := value - low < high - value
    || (value - low = high - value && value / unit % 2 = 0)
  let candidates := if closer then [low, high] else [high, low]
  candidates.find? fun candidate => double candidate = value

/-- The decimal with the fewest digits, not counting zeros at its end, that reads back as a double.
-/
def shortest (value : Nat) : Nat :=
  ((List.range (width value)).findSome? fun digits =>
    readsBack value (10 ^ (width value - (digits + 1)))).getD value

/-- A decimal with an exponent. -/
def exponentText (value : Nat) : List Char :=
  match (Nat.toDigits 10 value).rdropWhile (· = '0') with
  | [] => ['0']
  | [digit] => digit :: 'e' :: '+' :: (width value - 1).repr.toList
  | digit :: digits => digit :: '.' :: digits ++ 'e' :: '+' :: (width value - 1).repr.toList

/-- `String(value)`, of a double that is an integer. -/
def numberText (value : Nat) : List Char :=
  if shortest value < 10 ^ 21 then
    (shortest value).repr.toList
  else
    exponentText (shortest value)

/-- `String(value)`, of an integer with a sign. -/
def signedText (value : Int) : List Char :=
  if value < 0 then '-' :: numberText value.natAbs else numberText value.natAbs

/-- `value.toFixed(places)`: of two equally close decimals the larger one is taken. -/
def toFixed (places : Nat) (value : ℚ) : List Char :=
  if 10 ^ 21 ≤ value then
    numberText ⌊value⌋₊
  else
    let digits := (⌊value * 10 ^ places + 1 / 2⌋₊.repr.toList).leftpad (places + 1) '0'
    match places with
    | 0 => digits
    | _ + 1 => digits.take (digits.length - places) ++ '.' :: digits.drop (digits.length - places)

/-- `x / y`, of finite doubles but that a `y` that has left their range is `Infinity`. -/
def quotient (x y : ℚ) : ℚ := if y < 2 ^ 1024 then double (x / y) else 0

-----------------------------------------------------------------------------------------
-- Texts of numbers
-----------------------------------------------------------------------------------------

/-- A decimal string has digits, one at least. -/
theorem isDigits_repr (value : Nat) : IsDigits value.repr.toList := by
  refine ⟨?_, fun _ => isDigit_of_mem_repr⟩
  rw [Nat.toList_repr]
  exact Nat.toDigits_ne_nil

/-- Digits alone are a number, with or without a sign. -/
theorem isNumber_of_isDigits {sign text : List Char} (signed : IsSign sign) (digits : IsDigits text)
    : IsNumber (sign ++ text) := by
  have number := @IsNumber.decimal sign text [] [] signed digits (.inl rfl) (.inl rfl)
  rw [List.append_nil, List.append_nil] at number
  exact number

/-- A digit with a power of ten is a number, whether or not it has a fraction. -/
theorem isNumber_of_power {sign fraction : List Char} {digit : Char} (signed : IsSign sign)
    (sound : digit.isDigit = true)
    (point : fraction = [] ∨ ∃ places, IsDigits places ∧ fraction = '.' :: places) (power : Nat)
    : IsNumber (sign ++ (digit :: fraction ++ 'e' :: '+' :: power.repr.toList)) := by
  have whole : IsDigits [digit] :=
    ⟨List.cons_ne_nil _ _, fun _ member => List.mem_singleton.mp member ▸ sound⟩
  have number := IsNumber.decimal signed whole point
    (.inr ⟨['+'], power.repr.toList, by simp [IsSign], isDigits_repr power, rfl⟩)
  rw [List.append_assoc, List.append_assoc, List.singleton_append] at number
  exact number

theorem isNumber_exponentText {sign : List Char} (signed : IsSign sign) (value : Nat)
    : IsNumber (sign ++ exponentText value) := by
  have sound : ∀ char ∈ (Nat.toDigits 10 value).rdropWhile (· = '0'), char.isDigit = true := by
    intro char member
    have among := (List.rdropWhile_prefix _ _).subset member
    exact Nat.isDigit_of_mem_toDigits (by decide) (by decide) among
  unfold exponentText
  split
  · exact isNumber_of_isDigits signed ⟨List.cons_ne_nil _ _, by simp⟩
  · rename_i digit digits
    rw [digits] at sound
    exact isNumber_of_power signed (sound digit List.mem_cons_self) (.inl rfl) _
  · rename_i digit places some_place digits
    rw [digits] at sound
    refine isNumber_of_power signed (sound digit List.mem_cons_self)
      (.inr ⟨places, ⟨?_, ?_⟩, rfl⟩) _
    · rintro rfl
      exact some_place rfl
    · exact fun char member => sound char (List.mem_cons_of_mem _ member)

/-- Integers are printed as numbers. -/
theorem isNumber_numberText {sign : List Char} (signed : IsSign sign) (value : Nat)
    : IsNumber (sign ++ numberText value) := by
  unfold numberText
  split
  · exact isNumber_of_isDigits signed (isDigits_repr _)
  · exact isNumber_exponentText signed _

theorem isNumber_signedText (value : Int) : IsNumber (signedText value) := by
  unfold signedText
  split
  · exact isNumber_numberText (by simp [IsSign] : IsSign ['-']) _
  · exact isNumber_numberText (List.mem_cons_self : IsSign []) _

/-- Fixed-point decimals are numbers: there is a digit before the point, and one behind it. -/
theorem isNumber_toFixed (places : Nat) (value : ℚ) : IsNumber (toFixed places value) := by
  unfold toFixed
  split
  · exact isNumber_numberText (List.mem_cons_self : IsSign []) _
  · generalize decimal : (⌊value * 10 ^ places + 1 / 2⌋₊.repr.toList).leftpad (places + 1) '0'
      = digits
    have sound : ∀ char ∈ digits, char.isDigit = true := by
      rw [← decimal]
      intro char member
      rw [List.leftpad, List.mem_append] at member
      rcases member with zero | digit
      · rw [(List.mem_replicate.mp zero).2]
        rfl
      · exact isDigit_of_mem_repr digit
    have long : places + 1 ≤ digits.length := by
      rw [← decimal, List.length_leftpad]
      exact Nat.le_max_left _ _
    cases places with
    | zero =>
        exact isNumber_of_isDigits (List.mem_cons_self : IsSign [])
          ⟨List.ne_nil_of_length_pos long, sound⟩
    | succ places =>
        have whole : IsDigits (digits.take (digits.length - (places + 1))) := by
          refine ⟨List.ne_nil_of_length_pos ?_, fun char member =>
            sound char (List.mem_of_mem_take member)⟩
          rw [List.length_take]
          omega
        have fraction : IsDigits (digits.drop (digits.length - (places + 1))) := by
          refine ⟨List.ne_nil_of_length_pos ?_, fun char member =>
            sound char (List.mem_of_mem_drop member)⟩
          rw [List.length_drop]
          omega
        have number := IsNumber.decimal (List.mem_cons_self : IsSign []) whole
          (.inr ⟨_, fraction, rfl⟩) (.inl rfl)
        rw [List.append_nil, List.nil_append] at number
        exact number

end WebIndexer.Runtime
