import Mathlib.Data.List.TakeWhile

/-! Numbers that a database driver returns, some as numbers and some as decimal strings, and
what the script runtime does with them.
-/

namespace WebIndexer.Runtime

/-- A value of a column: a number, or a string. -/
inductive Cell where
  | number (value : Nat)
  | string (text : String)
  deriving DecidableEq, Repr

/-- `parseInt` of a text that starts with no white space, sign or hexadecimal head: the number
that its leading digits write, or nothing, which stands for `NaN`.
-/
def parseInt (text : String) : Option Nat :=
  match text.toList.takeWhile Char.isDigit with
  | [] => none
  | digit :: digits => some (Nat.ofDigitChars 10 (digit :: digits) 0)

namespace Cell

/-- `String(cell)`. -/
def text : Cell → String
  | number value => toString value
  | string text => text

/-- `cell || 0`. -/
def orZero : Cell → Cell
  | number value => number value
  | string text => if text = "" then number 0 else string text

/-- `cell + 1`, which appends a digit to a string. -/
def plusOne : Cell → Cell
  | number value => number (value + 1)
  | string text => string (text ++ "1")

/-- `parseInt(cell) || 0`. -/
def parse (cell : Cell) : Cell := number ((parseInt cell.text).getD 0)

/-- The number that a cell stands for. -/
def value : Cell → Option Nat
  | number value => some value
  | string text => parseInt text

end Cell

/-- A text of digits is read whole. -/
theorem parseInt_of_digits {text : String} (some_digit : text.toList ≠ [])
    (digits : ∀ char ∈ text.toList, char.isDigit = true)
    : parseInt text = some (Nat.ofDigitChars 10 text.toList 0) := by
  unfold parseInt
  rw [List.takeWhile_eq_self_iff.mpr digits]
  cases chars : text.toList with
  | nil => exact absurd chars some_digit
  | cons digit rest => rfl

/-- A decimal string has digits only. -/
theorem isDigit_of_mem_repr {number : Nat} {char : Char} (member : char ∈ number.repr.toList)
    : char.isDigit = true := by
  rw [Nat.toList_repr] at member
  exact Nat.isDigit_of_mem_toDigits (by decide) (by decide) member

/-- A decimal string stands for its number. -/
@[simp] theorem parseInt_repr (number : Nat) : parseInt number.repr = some number := by
  have some_digit : number.repr.toList ≠ [] := by
    rw [Nat.toList_repr]
    exact Nat.toDigits_ne_nil
  rw [parseInt_of_digits some_digit fun _ => isDigit_of_mem_repr, Nat.toList_repr,
    Nat.ofDigitChars_ten_toDigits]

/-- Different numbers are written differently. -/
theorem repr_injective : Function.Injective Nat.repr := by
  intro first second same
  have numbers := congrArg parseInt same
  rw [parseInt_repr, parseInt_repr] at numbers
  exact Option.some.inj numbers

/-- A one appended to a decimal string stands for ten times the number, plus one. -/
@[simp] theorem parseInt_repr_append_one (number : Nat)
    : parseInt (number.repr ++ "1") = some (number * 10 + 1) := by
  have chars : (number.repr ++ "1").toList = number.repr.toList ++ ['1'] :=
    String.toList_append
  have digits : ∀ char ∈ (number.repr ++ "1").toList, char.isDigit = true := by
    rw [chars]
    intro char member
    rcases List.mem_append.mp member with old | new
    · exact isDigit_of_mem_repr old
    · obtain rfl := List.mem_singleton.mp new
      decide
  rw [parseInt_of_digits (by simp) digits, chars, Nat.ofDigitChars_append, Nat.toList_repr,
    Nat.ofDigitChars_ten_toDigits]
  simp [Nat.ofDigitChars_cons, Nat.mul_comm]

end WebIndexer.Runtime
