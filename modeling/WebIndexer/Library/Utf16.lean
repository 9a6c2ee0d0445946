import Mathlib.Data.List.Basic
import Mathlib.Tactic.Common

/-! UTF-16: a text is a list of code units, in which a high and a low surrogate that follow each
other are one character. A surrogate without its partner is no character, but may occur in a text
all the same.
-/

namespace WebIndexer.Library

/-- The first unit of a pair. -/
def isHigh (unit : UInt16) : Bool := 0xD800 ≤ unit.toNat && unit.toNat < 0xDC00

/-- The second unit of a pair. -/
def isLow (unit : UInt16) : Bool := 0xDC00 ≤ unit.toNat && unit.toNat < 0xE000

/-- What stands at a place of a text: a character, or a surrogate without its partner. -/
inductive CodePoint where
  | char (value : Char)
  | lone (unit : UInt16)
  deriving DecidableEq, Repr

/-- The units of a character. -/
def charUnits (value : Char) : List UInt16 :=
  if value.toNat < 0x10000 then
    [UInt16.ofNat value.toNat]
  else
    [UInt16.ofNat (0xD800 + (value.toNat - 0x10000) / 0x400),
      UInt16.ofNat (0xDC00 + (value.toNat - 0x10000) % 0x400)]

/-- The units of a text of characters. -/
def textUnits (text : List Char) : List UInt16 := text.flatMap charUnits

namespace CodePoint

/-- The units of a code point. -/
def units : CodePoint → List UInt16
  | .char value => charUnits value
  | .lone unit => [unit]

/-- The code point of a unit that is not part of a pair. -/
def single (unit : UInt16) : CodePoint :=
  if isHigh unit || isLow unit then .lone unit else .char (Char.ofNat unit.toNat)

/-- The character of a pair. -/
def pair (high low : UInt16) : Char :=
  Char.ofNat (0x10000 + (high.toNat - 0xD800) * 0x400 + (low.toNat - 0xDC00))

/-- The code points of a text. -/
def decode : List UInt16 → List CodePoint
  | [] => []
  | [unit] => [single unit]
  | unit :: next :: rest =>
      if isHigh unit && isLow next then
        .char (pair unit next) :: decode rest
      else
        single unit :: decode (next :: rest)

/-- A number is that of a character, unless it is a surrogate or too large. -/
theorem toNat_ofNat {value : Nat} (valid : value.isValidChar)
    : (Char.ofNat value).toNat = value := by
  rw [Char.ofNat, dif_pos valid]
  rfl

/-- A unit that is not part of a pair is read back. -/
theorem units_single (unit : UInt16) : (single unit).units = [unit] := by
  unfold single
  split
  · rfl
  · rename_i plain
    have small := unit.toNat_lt
    have valid : unit.toNat.isValidChar := by
      simp only [isHigh, isLow, Bool.or_eq_true, Bool.and_eq_true, decide_eq_true_eq] at plain
      simp only [Nat.isValidChar]
      omega
    rw [units, charUnits, toNat_ofNat valid, if_pos (by omega), UInt16.ofNat_toNat]

/-- A pair is read back. -/
theorem charUnits_pair {high low : UInt16} (first : isHigh high = true) (second : isLow low = true)
    : charUnits (pair high low) = [high, low] := by
  simp only [isHigh, isLow, Bool.and_eq_true, decide_eq_true_eq] at first second
  have valid
      : (0x10000 + (high.toNat - 0xD800) * 0x400 + (low.toNat - 0xDC00)).isValidChar := by
    simp only [Nat.isValidChar]
    omega
  have upper : 0xD800
      + (0x10000 + (high.toNat - 0xD800) * 0x400 + (low.toNat - 0xDC00) - 0x10000) / 0x400
      = high.toNat := by
    omega
  have lower : 0xDC00
      + (0x10000 + (high.toNat - 0xD800) * 0x400 + (low.toNat - 0xDC00) - 0x10000) % 0x400
      = low.toNat := by
    omega
  rw [charUnits, pair, toNat_ofNat valid, if_neg (by omega), upper, lower, UInt16.ofNat_toNat,
    UInt16.ofNat_toNat]

/-- Reading a text loses nothing, by induction over its code points. -/
theorem flatMap_units_decode (text : List UInt16) : (decode text).flatMap units = text := by
  fun_induction decode text with
  | case1 => rfl
  | case2 unit => simp [units_single]
  | case3 unit next rest both ih =>
      obtain ⟨first, second⟩ := Bool.and_eq_true_iff.mp both
      rw [List.flatMap_cons, ih, units, charUnits_pair first second]
      rfl
  | case4 unit next rest other ih =>
      rw [List.flatMap_cons, ih, units_single]
      rfl

/-- No character is a surrogate. -/
theorem not_surrogate (value : Char) : value.toNat < 0xD800 ∨ 0xE000 ≤ value.toNat := by
  rcases value.valid with below | ⟨above, _⟩
  · exact .inl below
  · exact .inr (Nat.succ_le_of_lt above)

/-- A unit that is not the first one of a pair stands for itself. -/
theorem decode_cons {unit : UInt16} (other : isHigh unit = false) (rest : List UInt16)
    : decode (unit :: rest) = single unit :: decode rest := by
  cases rest with
  | nil => rfl
  | cons next rest => simp [decode, other]

/-- The first character of a text is read first. -/
theorem decode_charUnits (value : Char) (rest : List UInt16)
    : decode (charUnits value ++ rest) = .char value :: decode rest := by
  have valid := not_surrogate value
  by_cases small : value.toNat < 0x10000
  · have same : (UInt16.ofNat value.toNat).toNat = value.toNat := by
      simp [Nat.mod_eq_of_lt small]
    have high : isHigh (UInt16.ofNat value.toNat) = false := by
      simp only [isHigh, same, Bool.and_eq_false_iff, decide_eq_false_iff_not]
      omega
    have low : isLow (UInt16.ofNat value.toNat) = false := by
      simp only [isLow, same, Bool.and_eq_false_iff, decide_eq_false_iff_not]
      omega
    rw [charUnits, if_pos small, List.singleton_append, decode_cons high, single, high, low, same,
      Char.ofNat_toNat]
    rfl
  · have bound : value.toNat < 0x110000 := by
      rcases value.valid with below | ⟨_, above⟩
      · exact Nat.lt_trans below (by decide)
      · exact above
    have first : (UInt16.ofNat (0xD800 + (value.toNat - 0x10000) / 0x400)).toNat
        = 0xD800 + (value.toNat - 0x10000) / 0x400 := by
      simp only [UInt16.toNat_ofNat']
      omega
    have second : (UInt16.ofNat (0xDC00 + (value.toNat - 0x10000) % 0x400)).toNat
        = 0xDC00 + (value.toNat - 0x10000) % 0x400 := by
      simp only [UInt16.toNat_ofNat']
      omega
    have both : (isHigh (UInt16.ofNat (0xD800 + (value.toNat - 0x10000) / 0x400))
        && isLow (UInt16.ofNat (0xDC00 + (value.toNat - 0x10000) % 0x400))) = true := by
      simp only [isHigh, isLow, first, second, Bool.and_eq_true, decide_eq_true_eq]
      omega
    have whole : 0x10000 + (0xD800 + (value.toNat - 0x10000) / 0x400 - 0xD800) * 0x400
        + (0xDC00 + (value.toNat - 0x10000) % 0x400 - 0xDC00) = value.toNat := by
      omega
    rw [charUnits, if_neg small]
    change decode (_ :: _ :: rest) = _
    rw [decode, if_pos both, pair, first, second, whole, Char.ofNat_toNat]

/-- A text of characters is read as these characters, by induction over them. -/
theorem decode_textUnits (text : List Char) : decode (textUnits text) = text.map .char := by
  induction text with
  | nil => rfl
  | cons value rest ih =>
      rw [textUnits, List.flatMap_cons, decode_charUnits, List.map_cons]
      exact congrArg _ ih

/-- The character of a code point; a surrogate without its partner is replaced. -/
def toChar : CodePoint → Char
  | .char value => value
  | .lone _ => Char.ofNat 0xFFFD

end CodePoint

/-- The characters of a text. -/
def unitsText (units : List UInt16) : List Char := (CodePoint.decode units).map CodePoint.toChar

/-- A text of characters is read back. -/
@[simp] theorem unitsText_textUnits (text : List Char) : unitsText (textUnits text) = text := by
  rw [unitsText, CodePoint.decode_textUnits, List.map_map]
  exact List.map_id text

/-- The code units of a string. -/
def stringUnits (text : String) : List UInt16 := textUnits text.toList

/-- The string of some code units. A surrogate without its partner is replaced, as it is where a
string is encoded.
-/
def unitsString (units : List UInt16) : String := String.ofList (unitsText units)

/-- A string is read back. -/
@[simp] theorem unitsString_stringUnits (text : String)
    : unitsString (stringUnits text) = text := by
  rw [unitsString, stringUnits, unitsText_textUnits, String.ofList_toList]

end WebIndexer.Library
