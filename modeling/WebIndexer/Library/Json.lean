import Mathlib.Algebra.Field.Rat
import Mathlib.Data.List.TakeWhile
import WebIndexer.Library.Utf16

/-! JSON: the texts that are written for values, and what is read from a text. Texts inside of
values are lists of UTF-16 code units, which may have surrogates without a partner; the text that
is written has characters only. Numbers are written as integers, and read as decimals.
-/

namespace WebIndexer.Library

/-- A value, with numbers of any kind. -/
inductive Json (ν : Type) where
  | null
  | bool (value : Bool)
  | number (value : ν)
  | text (units : List UInt16)
  | array (items : List (Json ν))
  | object (fields : List (List UInt16 × Json ν))

namespace Json

-----------------------------------------------------------------------------------------
-- Texts
-----------------------------------------------------------------------------------------

/-- A hexadecimal digit. -/
def hexDigit (value : Nat) : Char := Nat.digitChar (value % 16)

/-- What a hexadecimal digit stands for. -/
def hexValue (char : Char) : Option Nat :=
  if char.isDigit then
    some (char.toNat - '0'.toNat)
  else if 'a' ≤ char ∧ char ≤ 'f' then
    some (char.toNat - 'a'.toNat + 10)
  else if 'A' ≤ char ∧ char ≤ 'F' then
    some (char.toNat - 'A'.toNat + 10)
  else
    none

/-- An escape by the number of a unit. -/
def escapeUnit (unit : Nat) : List Char :=
  ['\\', 'u', hexDigit (unit / 4096), hexDigit (unit / 256), hexDigit (unit / 16), hexDigit unit]

/-- The unit of an escape by its number. -/
def readUnit (a b c d : Char) : Option UInt16 := do
  let first ← hexValue a
  let second ← hexValue b
  let third ← hexValue c
  let fourth ← hexValue d
  some (UInt16.ofNat (first * 4096 + second * 256 + third * 16 + fourth))

/-- The characters that are written with a letter after a backslash, and the letters. -/
def shortEscapes : List (Char × Char) :=
  [('\x08', 'b'), ('\t', 't'), ('\n', 'n'), ('\x0c', 'f'), ('\r', 'r'), ('"', '"'),
    ('\\', '\\')]

/-- The letter that a character is written with, if it has one. -/
def shortEscape (char : Char) : Option Char := shortEscapes.lookup char

/-- The character that a letter after a backslash stands for. The slash may be escaped, too. -/
def readShort (letter : Char) : Option Char :=
  (('/', '/') :: shortEscapes.map Prod.swap).lookup letter

/-- How a code point is written: control characters, the quotation mark and the backslash are
escaped, and so are surrogates without their partner.
-/
def quotePoint : CodePoint → List Char
  | .lone unit => escapeUnit unit.toNat
  | .char value =>
      match shortEscape value with
      | some letter => ['\\', letter]
      | none => if value.toNat < 0x20 then escapeUnit value.toNat else [value]

/-- How a text is written. -/
def quote (units : List UInt16) : List Char :=
  '"' :: (CodePoint.decode units).flatMap quotePoint ++ ['"']

/-- Put units before those that are read next. -/
def prepend (units : List UInt16) (read : Option (List UInt16 × List Char))
    : Option (List UInt16 × List Char) :=
  read.map fun found => (units ++ found.1, found.2)

/-- Read a text up to its closing quotation mark. -/
def readText : List Char → Option (List UInt16 × List Char)
  | [] => none
  | '"' :: rest => some ([], rest)
  | '\\' :: 'u' :: a :: b :: c :: d :: rest =>
      (readUnit a b c d).bind fun unit => prepend [unit] (readText rest)
  | '\\' :: letter :: rest =>
      (readShort letter).bind fun char => prepend (charUnits char) (readText rest)
  | char :: rest =>
      if char.toNat < 0x20 ∨ char = '\\' then
        none
      else
        prepend (charUnits char) (readText rest)

/-- A hexadecimal digit is read back. -/
theorem hexValue_hexDigit (value : Nat) : hexValue (hexDigit value) = some (value % 16) := by
  have all : ∀ digit < 16, hexValue (Nat.digitChar digit) = some digit := by decide
  exact all _ (Nat.mod_lt _ (by decide))

/-- An escape by its number is read back. -/
theorem readText_escapeUnit {unit : Nat} (small : unit < 0x10000) (rest : List Char)
    : readText (escapeUnit unit ++ rest) = prepend [UInt16.ofNat unit] (readText rest) := by
  have whole : unit / 4096 % 16 * 4096 + unit / 256 % 16 * 256 + unit / 16 % 16 * 16 + unit % 16
      = unit := by
    omega
  simp only [escapeUnit, List.cons_append, List.nil_append, readText, readUnit, hexValue_hexDigit,
    Option.bind_eq_bind, Option.bind_some, whole]

/-- The letters of the short escapes are read back, and none is that of an escape by number. -/
theorem readShort_of_shortEscape {char letter : Char} (short : shortEscape char = some letter)
    : readShort letter = some char ∧ letter ≠ 'u' := by
  have all : ∀ entry ∈ shortEscapes, readShort entry.2 = some entry.1 ∧ entry.2 ≠ 'u' := by
    decide
  obtain ⟨before, rest, same, _⟩ := List.lookup_eq_some_iff.mp short
  refine all (char, letter) ?_
  rw [same]
  exact List.mem_append_right _ List.mem_cons_self

/-- The quotation mark and the backslash have short escapes. -/
theorem ne_of_shortEscape_eq_none {char : Char} (plain : shortEscape char = none)
    : char ≠ '"' ∧ char ≠ '\\' := by
  constructor <;> rintro rfl <;> revert plain <;> decide

/-- A short escape is read as its character. -/
theorem readText_short {letter char : Char} (short : readShort letter = some char)
    (other : letter ≠ 'u') (rest : List Char)
    : readText ('\\' :: letter :: rest) = prepend (charUnits char) (readText rest) := by
  rw [readText]
  · rw [short, Option.bind_some]
  · rintro a b c d more rfl
    exact absurd rfl other

/-- A character that is not escaped is read as it stands. -/
theorem readText_plain {char : Char} (printable : ¬ char.toNat < 0x20) (mark : char ≠ '"')
    (backslash : char ≠ '\\') (rest : List Char)
    : readText (char :: rest) = prepend (charUnits char) (readText rest) := by
  rw [readText]
  · rw [if_neg (not_or.mpr ⟨printable, backslash⟩)]
  · exact mark
  · rintro a b c d more rfl
    exact absurd rfl backslash
  · rintro letter more rfl
    exact absurd rfl backslash

/-- A code point is read back. -/
theorem readText_quotePoint (point : CodePoint) (rest : List Char)
    : readText (quotePoint point ++ rest) = prepend point.units (readText rest) := by
  cases point with
  | lone unit =>
      rw [quotePoint, readText_escapeUnit unit.toNat_lt, UInt16.ofNat_toNat]
      rfl
  | char value =>
      simp only [quotePoint, CodePoint.units]
      split
      · rename_i letter short
        obtain ⟨back, other⟩ := readShort_of_shortEscape short
        exact readText_short back other rest
      · rename_i plain
        obtain ⟨mark, backslash⟩ := ne_of_shortEscape_eq_none plain
        split
        · rename_i control
          have small : value.toNat < 0x10000 := by omega
          rw [readText_escapeUnit small, charUnits, if_pos small]
        · rename_i printable
          exact readText_plain printable mark backslash rest

/-- Code points are read back, by induction over them. -/
theorem readText_points (points : List CodePoint) (rest : List Char)
    : readText (points.flatMap quotePoint ++ '"' :: rest)
      = some (points.flatMap CodePoint.units, rest) := by
  induction points with
  | nil => rfl
  | cons point points ih =>
      rw [List.flatMap_cons, List.append_assoc, readText_quotePoint, ih]
      rfl

/-- A text is read back. -/
theorem readText_quote (units : List UInt16) (rest : List Char)
    : readText ((CodePoint.decode units).flatMap quotePoint ++ '"' :: rest)
      = some (units, rest) := by
  rw [readText_points, CodePoint.flatMap_units_decode]

-----------------------------------------------------------------------------------------
-- Numbers
-----------------------------------------------------------------------------------------

/-- A decimal numeral: its sign, the digits before and after the point, and its exponent. -/
structure Numeral where
  negative : Bool
  whole : List Char
  places : List Char
  exponent : Int

/-- The number that a numeral stands for. -/
def Numeral.value (numeral : Numeral) : ℚ :=
  let digits : ℚ := Nat.ofDigitChars 10 (numeral.whole ++ numeral.places) 0
  let size := digits * (10 : ℚ) ^ (numeral.exponent - numeral.places.length)
  if numeral.negative then -size else size

/-- The digits at the start of a text, and what follows them. -/
def takeDigits (source : List Char) : List Char × List Char :=
  (source.takeWhile Char.isDigit, source.dropWhile Char.isDigit)

/-- Digits before the point: a zero stands alone. -/
def readWhole : List Char → Option (List Char × List Char)
  | [] => none
  | '0' :: rest => some (['0'], rest)
  | char :: rest => if char.isDigit then some (takeDigits (char :: rest)) else none

/-- Digits after a point, if there is one. -/
def readPlaces : List Char → Option (List Char × List Char)
  | '.' :: rest =>
      let found := takeDigits rest
      if found.1 = [] then none else some found
  | source => some ([], source)

/-- The digits of an exponent. -/
def readPower (negative : Bool) (source : List Char) : Option (Int × List Char) :=
  let found := takeDigits source
  if found.1 = [] then
    none
  else
    let size : Int := Nat.ofDigitChars 10 found.1 0
    some (if negative then -size else size, found.2)

/-- What follows the letter of an exponent. -/
def readSigned : List Char → Option (Int × List Char)
  | '+' :: rest => readPower false rest
  | '-' :: rest => readPower true rest
  | source => readPower false source

/-- An exponent, if there is one. -/
def readExponent : List Char → Option (Int × List Char)
  | 'e' :: rest | 'E' :: rest => readSigned rest
  | source => some (0, source)

/-- A numeral without its sign. -/
def readUnsigned (negative : Bool) (source : List Char) : Option (Numeral × List Char) :=
  (readWhole source).bind fun (whole, source) =>
    (readPlaces source).bind fun (places, source) =>
      (readExponent source).map fun (exponent, source) =>
        (⟨negative, whole, places, exponent⟩, source)

/-- A numeral. -/
def readNumeral : List Char → Option (Numeral × List Char)
  | '-' :: rest => readUnsigned true rest
  | source => readUnsigned false source

/-- How an integer is written. -/
def printInt (value : Int) : List Char :=
  if value < 0 then '-' :: value.natAbs.repr.toList else value.natAbs.repr.toList

/-- What may follow a value: nothing, or a comma or a closing bracket. -/
def Follows (rest : List Char) : Prop :=
  ∀ char ∈ rest.head?, char ∈ [',', ']', '}']

/-- The digits of an integer. -/
def naturalDigits (value : Nat) : List Char := Nat.toDigits 10 value

/-- Digits are digits. -/
theorem isDigit_of_mem_naturalDigits {value : Nat} {char : Char}
    (member : char ∈ naturalDigits value)
    : char.isDigit = true :=
  Nat.isDigit_of_mem_toDigits (by decide) (by decide) member

/-- No digits but those of zero begin with a zero, by induction on the tenth. -/
theorem naturalDigits_cases (value : Nat)
    : naturalDigits value = ['0']
      ∨ ∃ char rest, naturalDigits value = char :: rest ∧ char ≠ '0' ∧ char.isDigit = true := by
  induction value using Nat.strong_induction_on with
  | _ value ih =>
      unfold naturalDigits at ih ⊢
      rw [Nat.toDigits_eq_if (by decide)]
      split
      · rename_i small
        have all : ∀ digit < 10, Nat.digitChar digit = '0'
            ∨ Nat.digitChar digit ≠ '0' ∧ (Nat.digitChar digit).isDigit = true := by
          decide
        rcases all value small with zero | ⟨other, digit⟩
        · exact .inl (by rw [zero])
        · exact .inr ⟨_, [], rfl, other, digit⟩
      · rename_i large
        have positive : value / 10 ≠ 0 := by omega
        rcases ih (value / 10) (by omega) with zero | ⟨char, rest, same, other, digit⟩
        · -- a tenth that is written as zero is zero
          have read := @Nat.ofDigitChars_ten_toDigits (value / 10)
          rw [zero] at read
          exact absurd read.symm positive
        · exact .inr ⟨char, rest ++ [Nat.digitChar (value % 10)], by rw [same]; rfl, other, digit⟩

/-- What follows a value is not a digit, and begins neither a fraction nor an exponent. -/
theorem Follows.cases {rest : List Char} (follows : Follows rest)
    : rest = [] ∨ ∃ char more, rest = char :: more ∧ char ∈ [',', ']', '}'] := by
  cases rest with
  | nil => exact .inl rfl
  | cons char more => exact .inr ⟨char, more, rfl, follows char rfl⟩

/-- The digits of an integer are taken whole. -/
theorem takeDigits_naturalDigits (value : Nat) {rest : List Char} (follows : Follows rest)
    : takeDigits (naturalDigits value ++ rest) = (naturalDigits value, rest) := by
  have digits : ∀ char ∈ naturalDigits value, char.isDigit = true :=
    fun _ => isDigit_of_mem_naturalDigits
  have stops : rest.takeWhile Char.isDigit = [] ∧ rest.dropWhile Char.isDigit = rest := by
    rcases follows.cases with rfl | ⟨char, more, rfl, member⟩
    · exact ⟨rfl, rfl⟩
    · have other : char.isDigit = false := by
        simp only [List.mem_cons, List.not_mem_nil, or_false] at member
        rcases member with rfl | rfl | rfl <;> rfl
      simp [other]
  rw [takeDigits, List.takeWhile_append_of_pos digits, List.dropWhile_append_of_pos digits,
    stops.1, stops.2, List.append_nil]

/-- The digits of an integer are read before the point. -/
theorem readWhole_naturalDigits (value : Nat) {rest : List Char} (follows : Follows rest)
    : readWhole (naturalDigits value ++ rest) = some (naturalDigits value, rest) := by
  have taken := takeDigits_naturalDigits value follows
  rcases naturalDigits_cases value with zero | ⟨char, more, same, other, digit⟩
  · rw [zero]
    rfl
  · rw [same, List.cons_append] at taken ⊢
    rw [readWhole]
    · rw [if_pos digit, taken]
    · exact other

/-- No fraction and no exponent follow a value. -/
theorem readPlaces_of_follows {rest : List Char} (follows : Follows rest)
    : readPlaces rest = some ([], rest) ∧ readExponent rest = some (0, rest) := by
  rcases follows.cases with rfl | ⟨char, more, rfl, member⟩
  · exact ⟨rfl, rfl⟩
  · simp only [List.mem_cons, List.not_mem_nil, or_false] at member
    rcases member with rfl | rfl | rfl <;> exact ⟨rfl, rfl⟩

/-- An integer is read back. -/
theorem readNumeral_printInt (value : Int) {rest : List Char} (follows : Follows rest)
    : readNumeral (printInt value ++ rest)
      = some (⟨value < 0, naturalDigits value.natAbs, [], 0⟩, rest) := by
  obtain ⟨places, exponent⟩ := readPlaces_of_follows follows
  have unsigned (negative : Bool)
      : readUnsigned negative (naturalDigits value.natAbs ++ rest)
        = some (⟨negative, naturalDigits value.natAbs, [], 0⟩, rest) := by
    rw [readUnsigned, readWhole_naturalDigits _ follows]
    simp [places, exponent]
  unfold printInt
  rw [Nat.toList_repr]
  split
  · rename_i negative
    rw [List.cons_append, readNumeral, ← naturalDigits, unsigned, decide_eq_true negative]
  · rename_i positive
    rw [← naturalDigits, readNumeral]
    · rw [unsigned, decide_eq_false positive]
    · intro more same
      rcases naturalDigits_cases value.natAbs with zero | ⟨char, tail, begins, _, digit⟩
      · rw [zero] at same
        cases same
      · rw [begins] at same
        obtain rfl := (List.cons.inj same).1
        cases digit

/-- It stands for the integer. -/
theorem value_printed (value : Int)
    : (Numeral.value ⟨value < 0, naturalDigits value.natAbs, [], 0⟩) = value := by
  simp only [Numeral.value, naturalDigits, List.append_nil, Nat.ofDigitChars_ten_toDigits,
    List.length_nil, Nat.cast_zero, Int.sub_zero, zpow_zero, mul_one]
  by_cases negative : value < 0
  · have size : (value.natAbs : ℤ) = -value := by omega
    rw [if_pos (decide_eq_true negative), ← Int.cast_natCast, size]
    simp
  · have size : (value.natAbs : ℤ) = value := by omega
    rw [if_neg (by simpa using negative), ← Int.cast_natCast, size]

-----------------------------------------------------------------------------------------
-- Values
-----------------------------------------------------------------------------------------

mutual

/-- How a value is written. -/
def stringify : Json ℤ → List Char
  | .null => ['n', 'u', 'l', 'l']
  | .bool true => ['t', 'r', 'u', 'e']
  | .bool false => ['f', 'a', 'l', 's', 'e']
  | .number value => printInt value
  | .text units => quote units
  | .array [] => ['[', ']']
  | .array (item :: items) => '[' :: stringify item ++ stringifyItems items
  | .object [] => ['\x7b', '\x7d']
  | .object ((name, value) :: fields) =>
      '\x7b' :: quote name ++ ':' :: stringify value ++ stringifyFields fields

/-- How the other items of an array are written. -/
def stringifyItems : List (Json ℤ) → List Char
  | [] => [']']
  | item :: items => ',' :: stringify item ++ stringifyItems items

/-- How the other fields of an object are written. -/
def stringifyFields : List (List UInt16 × Json ℤ) → List Char
  | [] => ['\x7d']
  | (name, value) :: fields =>
      ',' :: quote name ++ ':' :: stringify value ++ stringifyFields fields

end

mutual

/-- The value that is read back. -/
def widen : Json ℤ → Json ℚ
  | .null => .null
  | .bool value => .bool value
  | .number value => .number value
  | .text units => .text units
  | .array items => .array (widenItems items)
  | .object fields => .object (widenFields fields)

/-- The items that are read back. -/
def widenItems : List (Json ℤ) → List (Json ℚ)
  | [] => []
  | item :: items => widen item :: widenItems items

/-- The fields that are read back. -/
def widenFields : List (List UInt16 × Json ℤ) → List (List UInt16 × Json ℚ)
  | [] => []
  | (name, value) :: fields => (name, widen value) :: widenFields fields

end

/-- White space between tokens. -/
def isBlank (char : Char) : Bool := char ∈ [' ', '\t', '\n', '\r']

/-- A token, after white space. -/
def skip (source : List Char) : List Char := source.dropWhile isBlank

/-- The rest of a literal name, and what follows it. -/
def readName (name source : List Char) : Option (List Char) :=
  if name.isPrefixOf source then some (source.drop name.length) else none

/-- Put an item before those that are read next. -/
def attach {α : Type} (first : α) (read : Option (List α × List Char))
    : Option (List α × List Char) :=
  read.map fun found => (first :: found.1, found.2)

mutual

/-- Read a value, with the number of calls that it may take at most. -/
def readValue : Nat → List Char → Option (Json ℚ × List Char)
  | 0, _ => none
  | fuel + 1, source =>
      match skip source with
      | [] => none
      | char :: rest =>
          if char = '"' then
            (readText rest).map fun found => (.text found.1, found.2)
          else if char = '[' then
            if (skip rest).head? = some ']' then
              some (.array [], (skip rest).tail)
            else
              (readItems fuel rest).map fun found => (.array found.1, found.2)
          else if char = '\x7b' then
            if (skip rest).head? = some '\x7d' then
              some (.object [], (skip rest).tail)
            else
              (readFields fuel rest).map fun found => (.object found.1, found.2)
          else if char = 'n' then
            (readName ['u', 'l', 'l'] rest).map fun rest => (.null, rest)
          else if char = 't' then
            (readName ['r', 'u', 'e'] rest).map fun rest => (.bool true, rest)
          else if char = 'f' then
            (readName ['a', 'l', 's', 'e'] rest).map fun rest => (.bool false, rest)
          else
            (readNumeral (char :: rest)).map fun found => (.number found.1.value, found.2)

/-- Read items up to the closing bracket. -/
def readItems : Nat → List Char → Option (List (Json ℚ) × List Char)
  | 0, _ => none
  | fuel + 1, source =>
      (readValue fuel source).bind fun (first, rest) =>
        match skip rest with
        | ',' :: rest => attach first (readItems fuel rest)
        | ']' :: rest => some ([first], rest)
        | _ => none

/-- Read fields up to the closing brace. -/
def readFields : Nat → List Char → Option (List (List UInt16 × Json ℚ) × List Char)
  | 0, _ => none
  | fuel + 1, source =>
      match skip source with
      | '"' :: rest =>
          (readText rest).bind fun (name, rest) =>
            match skip rest with
            | ':' :: rest =>
                (readValue fuel rest).bind fun (value, rest) =>
                  match skip rest with
                  | ',' :: rest => attach (name, value) (readFields fuel rest)
                  | '\x7d' :: rest => some ([(name, value)], rest)
                  | _ => none
            | _ => none
      | _ => none

end

/-- Read a whole text, or nothing when it is malformed. No value takes more calls than it has
characters.
-/
def parse (source : List Char) : Option (Json ℚ) :=
  (readValue (source.length + 1) source).bind fun (value, rest) =>
    if skip rest = [] then some value else none

/-- A token that does not begin with white space is not skipped. -/
theorem skip_cons {char : Char} (solid : isBlank char = false) (rest : List Char)
    : skip (char :: rest) = char :: rest :=
  List.dropWhile_cons_of_neg (by simp [solid])

/-- An integer is written with a sign or a digit first. -/
theorem printInt_cases (value : Int)
    : ∃ char rest, printInt value = char :: rest ∧ (char = '-' ∨ char.isDigit = true) := by
  unfold printInt
  split
  · exact ⟨_, _, rfl, .inl rfl⟩
  · rw [Nat.toList_repr]
    rcases naturalDigits_cases value.natAbs with zero | ⟨char, rest, same, _, digit⟩
    · exact ⟨'0', [], zero, .inr rfl⟩
    · exact ⟨char, rest, same, .inr digit⟩

/-- The characters that other tokens begin with. -/
def openers : List Char :=
  [' ', '\t', '\n', '\r', '"', '[', '\x7b', 'n', 't', 'f', ']', '\x7d']

/-- None of them is a sign or a digit. -/
theorem not_opener {char : Char} (kind : char = '-' ∨ char.isDigit = true) : char ∉ openers := by
  have none : (openers.all fun opener => opener != '-' && !opener.isDigit) = true := by decide
  intro member
  have other := List.all_eq_true.mp none char member
  rcases kind with rfl | digit
  · cases other
  · rw [digit, Bool.not_true, Bool.and_false] at other
    cases other

/-- A value is written with at least one character, which is not white space and closes no
bracket.
-/
theorem stringify_cases (value : Json ℤ)
    : ∃ char rest,
        stringify value = char :: rest ∧ isBlank char = false ∧ char ≠ ']' ∧ char ≠ '\x7d' := by
  cases value with
  | null => exact ⟨_, _, rfl, by decide, by decide, by decide⟩
  | bool value => cases value <;> exact ⟨_, _, rfl, by decide, by decide, by decide⟩
  | number value =>
      obtain ⟨char, rest, same, kind⟩ := printInt_cases value
      have other := not_opener kind
      simp only [openers, List.mem_cons, List.not_mem_nil, or_false, not_or] at other
      refine ⟨char, rest, same, ?_, by tauto, by tauto⟩
      simp only [isBlank, List.mem_cons, List.not_mem_nil, or_false, decide_eq_false_iff_not]
      tauto
  | text units => exact ⟨_, _, rfl, by decide, by decide, by decide⟩
  | array items => cases items <;> exact ⟨_, _, rfl, by decide, by decide, by decide⟩
  | object fields =>
      cases fields with
      | nil => exact ⟨_, _, rfl, by decide, by decide, by decide⟩
      | cons field fields => exact ⟨_, _, rfl, by decide, by decide, by decide⟩

/-- A number is read back as a value. -/
theorem readValue_number (fuel : Nat) (value : Int) {rest : List Char} (follows : Follows rest)
    : readValue (fuel + 1) (printInt value ++ rest) = some (.number value, rest) := by
  have read := readNumeral_printInt value follows
  obtain ⟨char, more, same, kind⟩ := printInt_cases value
  have other := not_opener kind
  simp only [openers, List.mem_cons, List.not_mem_nil, or_false, not_or] at other
  obtain ⟨b0, b1, b2, b3, mark, bracket, brace, n, t, f, _, _⟩ := other
  have solid : isBlank char = false := by simp [isBlank, *]
  rw [same, List.cons_append] at read ⊢
  rw [readValue, skip_cons solid]
  simp only [mark, bracket, brace, n, t, f, if_false, read, Option.map_some, value_printed]

/-- A text is read back as a value. -/
theorem readValue_text (fuel : Nat) (units : List UInt16) (rest : List Char)
    : readValue (fuel + 1) (quote units ++ rest) = some (.text units, rest) := by
  have whole : quote units ++ rest
      = '"' :: ((CodePoint.decode units).flatMap quotePoint ++ '"' :: rest) := by
    simp [quote]
  rw [whole, readValue, skip_cons (by decide)]
  simp only [if_true, readText_quote, Option.map_some]

/-- A written value does not begin with a closing bracket. -/
theorem head_skip_stringify (value : Json ℤ) (rest : List Char)
    : (skip (stringify value ++ rest)).head? ≠ some ']' := by
  obtain ⟨char, more, same, solid, bracket, _⟩ := stringify_cases value
  rw [same, List.cons_append, skip_cons solid, List.head?_cons]
  exact fun closes => bracket (Option.some.inj closes)

/-- A written name does not begin with a closing brace. -/
theorem head_skip_quote (units : List UInt16) (rest : List Char)
    : (skip (quote units ++ rest)).head? ≠ some '\x7d' := by
  rw [quote, List.cons_append, List.cons_append, skip_cons (by decide), List.head?_cons]
  decide

/-- An array that is not closed at once has items. -/
theorem readValue_array (fuel : Nat) {source : List Char}
    (more : (skip source).head? ≠ some ']')
    : readValue (fuel + 1) ('[' :: source)
      = (readItems fuel source).map fun found => (.array found.1, found.2) := by
  rw [readValue, skip_cons (by decide)]
  simp [more]

/-- An object that is not closed at once has fields. -/
theorem readValue_object (fuel : Nat) {source : List Char}
    (more : (skip source).head? ≠ some '\x7d')
    : readValue (fuel + 1) ('\x7b' :: source)
      = (readFields fuel source).map fun found => (.object found.1, found.2) := by
  rw [readValue, skip_cons (by decide)]
  simp [more]

/-- What ends an array follows its last item, and what ends an object its last field. -/
theorem follows_stringifyItems (items : List (Json ℤ)) (rest : List Char)
    : Follows (stringifyItems items ++ rest) := by
  intro char member
  cases items <;> obtain rfl := Option.mem_some_iff.mp member <;> decide

theorem follows_stringifyFields (fields : List (List UInt16 × Json ℤ)) (rest : List Char)
    : Follows (stringifyFields fields ++ rest) := by
  intro char member
  cases fields <;> obtain rfl := Option.mem_some_iff.mp member <;> decide

/-- A field is read as its name and its value, and goes on with what follows. -/
theorem readFields_cons (fuel : Nat) (name : List UInt16) (source : List Char)
    : readFields (fuel + 1) (quote name ++ ':' :: source)
      = (readValue fuel source).bind fun (value, rest) =>
          match skip rest with
          | ',' :: rest => attach (name, value) (readFields fuel rest)
          | '\x7d' :: rest => some ([(name, value)], rest)
          | _ => none := by
  have whole : quote name ++ ':' :: source
      = '"' :: ((CodePoint.decode name).flatMap quotePoint ++ '"' :: ':' :: source) := by
    simp [quote]
  rw [whole, readFields, skip_cons (by decide)]
  simp only [readText_quote, Option.bind_some, skip_cons (by decide : isBlank ':' = false)]

mutual

/-- A value is read back, whatever follows it: by induction over values, where each call that
reads an item, a field or a value is one for a character at least.
-/
theorem readValue_stringify
    : ∀ (value : Json ℤ) (fuel : Nat) (rest : List Char),
        (stringify value).length ≤ fuel → Follows rest →
        readValue fuel (stringify value ++ rest) = some (widen value, rest)
  | value, 0, rest, enough, follows => by
      obtain ⟨char, more, same, _⟩ := stringify_cases value
      rw [same, List.length_cons] at enough
      omega
  | .null, fuel + 1, rest, _, _ => rfl
  | .bool true, fuel + 1, rest, _, _ => rfl
  | .bool false, fuel + 1, rest, _, _ => rfl
  | .number value, fuel + 1, rest, _, follows => readValue_number fuel value follows
  | .text units, fuel + 1, rest, _, _ => readValue_text fuel units rest
  | .array [], fuel + 1, rest, _, _ => rfl
  | .array (item :: items), fuel + 1, rest, enough, _ => by
      have fits : (stringify item ++ stringifyItems items).length ≤ fuel := by
        simp only [stringify, List.cons_append, List.length_cons] at enough
        omega
      have read := readItems_stringify items item fuel rest fits
      have source : stringify (.array (item :: items)) ++ rest
          = '[' :: (stringify item ++ (stringifyItems items ++ rest)) := by
        simp [stringify]
      rw [source, readValue_array fuel (head_skip_stringify item _), ← List.append_assoc, read]
      rfl
  | .object [], fuel + 1, rest, _, _ => rfl
  | .object ((name, value) :: fields), fuel + 1, rest, enough, _ => by
      have fits
          : (quote name ++ ':' :: stringify value ++ stringifyFields fields).length ≤ fuel := by
        simp only [stringify, List.cons_append, List.length_cons] at enough
        omega
      have read := readFields_stringify fields name value fuel rest fits
      have source : stringify (.object ((name, value) :: fields)) ++ rest
          = '\x7b' :: (quote name ++ ':' :: stringify value ++ stringifyFields fields ++ rest) := by
        simp [stringify]
      have more : (skip (quote name ++ ':' :: stringify value ++ stringifyFields fields
          ++ rest)).head? ≠ some '\x7d' := by
        rw [List.append_assoc, List.append_assoc]
        exact head_skip_quote name _
      rw [source, readValue_object fuel more, read]
      rfl

/-- Items are read back up to the closing bracket. -/
theorem readItems_stringify
    : ∀ (items : List (Json ℤ)) (item : Json ℤ) (fuel : Nat) (rest : List Char),
        (stringify item ++ stringifyItems items).length ≤ fuel →
        readItems fuel (stringify item ++ stringifyItems items ++ rest)
          = some (widen item :: widenItems items, rest)
  | items, item, 0, rest, enough => by
      obtain ⟨char, more, same, _⟩ := stringify_cases item
      rw [same, List.cons_append, List.length_cons] at enough
      omega
  | [], item, fuel + 1, rest, enough => by
      have fits : (stringify item).length ≤ fuel := by
        simp only [stringifyItems, List.length_append, List.length_singleton] at enough
        omega
      have first := readValue_stringify item fuel (']' :: rest) fits
        (follows_stringifyItems [] rest)
      have source
          : stringify item ++ stringifyItems [] ++ rest = stringify item ++ ']' :: rest := by
        simp [stringifyItems]
      rw [source, readItems, first]
      simp [skip_cons (by decide : isBlank ']' = false), widenItems]
  | next :: items, item, fuel + 1, rest, enough => by
      have length : (stringify item).length + ((stringify next ++ stringifyItems items).length + 1)
          ≤ fuel + 1 := by
        simp only [stringifyItems, List.length_append, List.length_cons] at enough ⊢
        omega
      have first := readValue_stringify item fuel
        (stringifyItems (next :: items) ++ rest) (by omega)
        (follows_stringifyItems (next :: items) rest)
      have others := readItems_stringify items next fuel rest (by omega)
      have source : stringifyItems (next :: items) ++ rest
          = ',' :: (stringify next ++ stringifyItems items ++ rest) := by
        simp [stringifyItems]
      rw [List.append_assoc, readItems, first, source]
      simp only [Option.bind_some, skip_cons (by decide : isBlank ',' = false), others]
      simp [attach, widenItems]

/-- Fields are read back up to the closing brace. -/
theorem readFields_stringify
    : ∀ (fields : List (List UInt16 × Json ℤ)) (name : List UInt16) (value : Json ℤ) (fuel : Nat)
        (rest : List Char),
        (quote name ++ ':' :: stringify value ++ stringifyFields fields).length ≤ fuel →
        readFields fuel (quote name ++ ':' :: stringify value ++ stringifyFields fields ++ rest)
          = some ((name, widen value) :: widenFields fields, rest)
  | fields, name, value, 0, rest, enough => by
      simp [quote] at enough
  | [], name, value, fuel + 1, rest, enough => by
      have fits : (stringify value).length ≤ fuel := by
        simp only [List.length_append, List.length_cons] at enough
        omega
      have first := readValue_stringify value fuel ('\x7d' :: rest) fits
        (follows_stringifyFields [] rest)
      have source : quote name ++ ':' :: stringify value ++ stringifyFields [] ++ rest
          = quote name ++ ':' :: (stringify value ++ '\x7d' :: rest) := by
        simp [stringifyFields]
      rw [source, readFields_cons, first]
      simp [skip_cons (by decide : isBlank '\x7d' = false), widenFields]
  | (other, next) :: fields, name, value, fuel + 1, rest, enough => by
      have length : (stringify value).length
          + ((quote other ++ ':' :: stringify next ++ stringifyFields fields).length + 1)
          ≤ fuel + 1 := by
        simp only [stringifyFields, List.length_append, List.length_cons] at enough ⊢
        omega
      have first := readValue_stringify value fuel
        (stringifyFields ((other, next) :: fields) ++ rest) (by omega)
        (follows_stringifyFields ((other, next) :: fields) rest)
      have others := readFields_stringify fields other next fuel rest (by omega)
      have source : stringifyFields ((other, next) :: fields) ++ rest
          = ',' :: (quote other ++ ':' :: stringify next ++ stringifyFields fields ++ rest) := by
        simp [stringifyFields]
      have whole : quote name ++ ':' :: stringify value
            ++ stringifyFields ((other, next) :: fields) ++ rest
          = quote name ++ ':' :: (stringify value
            ++ (stringifyFields ((other, next) :: fields) ++ rest)) := by
        simp
      rw [whole, readFields_cons, first, source]
      simp only [Option.bind_some, skip_cons (by decide : isBlank ',' = false), others]
      simp [attach, widenFields]

end

/-- What is written is read back. -/
theorem parse_stringify (value : Json ℤ) : parse (stringify value) = some (widen value) := by
  have nothing : Follows [] := by
    intro char member
    cases member
  have read := readValue_stringify value ((stringify value).length + 1) [] (Nat.le_succ _) nothing
  rw [List.append_nil] at read
  rw [parse, read]
  rfl

end Json

end WebIndexer.Library
