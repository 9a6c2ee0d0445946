import Mathlib.Data.List.Infix

/-! The string functions of the script runtime that the program relies on. -/

namespace WebIndexer.Runtime

/-- `text.startsWith(head)`. -/
def startsWith (text head : String) : Bool :=
  head.toList.isPrefixOf text.toList

/-- `text.endsWith(tail)`. -/
def endsWith (text tail : String) : Bool :=
  tail.toList.isSuffixOf text.toList

/-- `text.includes(part)`. -/
def includes (text part : String) : Bool :=
  decide (part.toList <:+: text.toList)

/-- The characters that `trim` and `\s` treat as white space. -/
def isSpace (char : Char) : Bool :=
  char.toNat ∈ [0x9, 0xA, 0xB, 0xC, 0xD, 0x20, 0xA0, 0x1680, 0x2028, 0x2029, 0x202F, 0x205F,
    0x3000, 0xFEFF]
  || (0x2000 ≤ char.toNat && char.toNat ≤ 0x200A)

/-- `text.trim()`, on characters. -/
def trim (text : List Char) : List Char :=
  ((text.dropWhile isSpace).reverse.dropWhile isSpace).reverse

/-- `text.split(separator)`, on characters. -/
def splitOn (separator : Char) : List Char → List (List Char)
  | [] => [[]]
  | head :: rest =>
      if head = separator then
        [] :: splitOn separator rest
      else
        match splitOn separator rest with
        | [] => [[head]]
        | first :: others => (head :: first) :: others

/-- What follows the given lower-case head, if the text starts with it up to letter case. -/
def afterHead? : List Char → List Char → Option (List Char)
  | [], text => some text
  | _ :: _, [] => none
  | expected :: head, char :: rest =>
      if char.toLower = expected then afterHead? head rest else none

/-- Replace the first occurrence of `pattern` in a character list. -/
def replaceFirstIn (pattern replacement : List Char) : List Char → List Char
  | [] => if pattern = [] then replacement else []
  | head :: rest =>
      if pattern.isPrefixOf (head :: rest) then
        replacement ++ (head :: rest).drop pattern.length
      else
        head :: replaceFirstIn pattern replacement rest

/-- `text.replace(pattern, replacement)` with a string pattern: only the first occurrence is
replaced, wherever it stands.
-/
def replaceFirst (text pattern replacement : String) : String :=
  String.ofList (replaceFirstIn pattern.toList replacement.toList text.toList)

/-- The UTF-16 code units of a character. -/
def charCodes (char : Char) : List Nat :=
  if char.toNat < 0x10000 then
    [char.toNat]
  else
    [0xD800 + (char.toNat - 0x10000) / 0x400, 0xDC00 + (char.toNat - 0x10000) % 0x400]

/-- The UTF-16 code units of a string, which `charCodeAt` reads and `length` counts. -/
def codeUnits (text : String) : List Nat :=
  text.toList.flatMap charCodes

/-- The code units that `trim` and `\s` treat as white space. -/
def isSpaceUnit (unit : Nat) : Bool :=
  unit ∈ [0x9, 0xA, 0xB, 0xC, 0xD, 0x20, 0xA0, 0x1680, 0x2028, 0x2029, 0x202F, 0x205F, 0x3000,
    0xFEFF]
  || (0x2000 ≤ unit && unit ≤ 0x200A)

end WebIndexer.Runtime
