import WebIndexer.Library.Words
import WebIndexer.Runtime.Text

/-! The text of a search: `sanitizeInput` of `src/security.ts`, the words that `/api/search` makes
of it, and the full-text query of its SQLite branch, against the grammar of FTS5. Texts are lists
of UTF-16 code units, since cutting one at 500 units may part a character.
-/

namespace WebIndexer.Server

open WebIndexer.Library
open WebIndexer.Runtime

/-- A query parameter as Express parses it: missing, given once, repeated, or with keys. -/
inductive QueryValue where
  | absent
  | text (units : List Nat)
  | array (items : List QueryValue)
  | object (fields : List (String × QueryValue))

/-- `text.trim()`, on code units. -/
def trimUnits (text : List Nat) : List Nat := trimmed isSpaceUnit text

/-- The characters that `sanitizeInput` deletes, one regular expression after the other. -/
def deletions : List String := ["<>", "'\"", "()", "\x7b\x7d", "[]", "\\", ";|&$`"]

/-- `text.replace(/[…]/g, "")` for the characters of a string. -/
def delete (text : List Nat) (characters : String) : List Nat :=
  text.filter fun unit => unit ∉ codeUnits characters

/-- `sanitizeInput`. -/
def sanitizeInput : QueryValue → List Nat
  | .text input => (trimUnits (deletions.foldl delete input)).take 500
  | .absent | .array _ | .object _ => []

/-- The characters that `/api/search` replaces by a space. -/
def replacements : String := "'\"()\x7b\x7d^~\\+-"

/-- Replace a code unit of `replacements` by a space. -/
def replaceUnit (unit : Nat) : Nat := if unit ∈ codeUnits replacements then 0x20 else unit

/-- `clean.split(/\s+/).filter(w => w.length > 0)` for the `clean` of a query. -/
def searchWords (q : List Nat) : List (List Nat) :=
  wordsOf isSpaceUnit (trimUnits (q.map replaceUnit))

/-- `tsQuery`, of the PostgreSQL branch. -/
def tsQuery (q : List Nat) : List Nat := [0x20].intercalate (searchWords q)

/-- `ftsQuery`, of the SQLite branch: each word with an asterisk. -/
def ftsQuery (q : List Nat) : List Nat :=
  [0x20].intercalate ((searchWords q).map fun word => word ++ codeUnits "*")

-----------------------------------------------------------------------------------------
-- The grammar of FTS5
-----------------------------------------------------------------------------------------

/-- White space between the terms of a query. -/
def isFtsSpace (unit : Nat) : Bool := unit ∈ [0x20, 0x9, 0xA, 0xD]

/-- The characters of a bareword: ASCII letters and digits, the underscore, and whatever is not
ASCII.
-/
def isBareword (unit : Nat) : Bool :=
  (0x30 ≤ unit && unit ≤ 0x39) || (0x41 ≤ unit && unit ≤ 0x5A) || (0x61 ≤ unit && unit ≤ 0x7A)
  || unit = 0x5F || 0x80 ≤ unit

/-- The operators, which are no barewords. -/
def ftsOperators : List (List Nat) := [codeUnits "AND", codeUnits "OR", codeUnits "NOT"]

/-- The word of a term, which an asterisk may follow. -/
def termWord (term : List Nat) : List Nat :=
  if term.getLast? = some 0x2A then term.dropLast else term

/-- A bareword, optionally followed by an asterisk. -/
def isTerm (term : List Nat) : Bool :=
  !(termWord term).isEmpty && (termWord term).all isBareword && termWord term ∉ ftsOperators

/-- The grammar takes a query of one or more terms. -/
def ftsAccepts (query : List Nat) : Bool :=
  !(wordsOf isFtsSpace query).isEmpty && (wordsOf isFtsSpace query).all isTerm

-----------------------------------------------------------------------------------------
-- The words of a text
-----------------------------------------------------------------------------------------

/-- `raw`, what the search takes of the text of a parameter. -/
def rawText (text : List Nat) : List Nat := (trimUnits text).take 500

/-- The search text `q` of a parameter. -/
def searchText (text : List Nat) : List Nat := sanitizeInput (.text (rawText text))

/-- A character that `sanitizeInput` deletes. -/
def isDeleted (unit : Nat) : Bool := deletions.any fun characters => unit ∈ codeUnits characters

/-- What the deletions leave of the text of a parameter. -/
def keptText (text : List Nat) : List Nat := (rawText text).filter fun unit => !isDeleted unit

/-- A character that parts two words of a search. -/
def isSeparator (unit : Nat) : Bool := isSpaceUnit unit || unit ∈ codeUnits replacements

/-- Every character of the text is one that the search deletes or parts words at, or one of a
bareword, and no word that the deletions leave is an operator.
-/
structure Searchable (text : List Nat) : Prop where
  plain : ∀ unit ∈ rawText text,
    isDeleted unit = true ∨ isSeparator unit = true ∨ isBareword unit = true
  noOperator : ∀ operator ∈ ftsOperators,
    ¬StandsIn isSeparator operator (keptText text)

/-- The deletions are one deletion, by induction on their list. -/
theorem foldl_delete (groups : List String) (text : List Nat)
    : groups.foldl delete text
      = text.filter fun unit => !groups.any fun characters => unit ∈ codeUnits characters := by
  induction groups generalizing text with
  | nil => simp
  | cons characters groups ih =>
      rw [List.foldl_cons, ih, delete, List.filter_filter]
      congr 1
      funext unit
      simp [Bool.and_comm]

/-- Sanitising a text deletes, and trims the rest; nothing is left to cut. -/
theorem searchText_eq (text : List Nat) : searchText text = trimUnits (keptText text) := by
  change (trimUnits (deletions.foldl delete (rawText text))).take 500 = _
  rw [foldl_delete]
  apply List.take_of_length_le
  calc (trimUnits (keptText text)).length
      ≤ (keptText text).length := length_trimmed_le _ _
    _ ≤ (rawText text).length := List.length_filter_le _ _
    _ ≤ 500 := List.length_take_le _ _

/-- The words of a search are those of the text that the deletions leave. -/
theorem searchWords_searchText (text : List Nat)
    : searchWords (searchText text) = wordsOf isSeparator (keptText text) := by
  have kept : ∀ unit, isSeparator unit = false → replaceUnit unit = unit := by
    intro unit apart
    simp only [isSeparator, Bool.or_eq_false_iff, decide_eq_false_iff_not] at apart
    rw [replaceUnit, if_neg apart.2]
  have moved : ∀ unit, isSeparator unit = isSpaceUnit (replaceUnit unit) := by
    intro unit
    unfold isSeparator replaceUnit
    by_cases replaced : unit ∈ codeUnits replacements
    · simp [replaced, show isSpaceUnit 0x20 = true by decide]
    · simp [replaced]
  have blanks : ∀ unit, isSpaceUnit unit = true → isSeparator unit = true := by
    intro unit space
    rw [isSeparator, space, Bool.true_or]
  rw [searchWords, trimUnits, wordsOf_trimmed fun _ space => space, wordsOf_map kept moved,
    searchText_eq, trimUnits, wordsOf_trimmed blanks]

/-- The white space of FTS5 is white space. -/
theorem isSpaceUnit_of_isFtsSpace {unit : Nat} (space : isFtsSpace unit = true)
    : isSpaceUnit unit = true := by
  simp only [isFtsSpace, decide_eq_true_eq, List.mem_cons, List.not_mem_nil, or_false] at space
  obtain rfl | rfl | rfl | rfl := space <;> decide

/-- The terms of a full-text query are its words with their asterisks. -/
theorem wordsOf_ftsQuery (q : List Nat)
    : wordsOf isFtsSpace (ftsQuery q) = (searchWords q).map fun word => word ++ codeUnits "*" := by
  refine wordsOf_intercalate (by decide) ?_
  intro term member
  obtain ⟨word, inside, rfl⟩ := List.mem_map.mp member
  obtain ⟨-, free⟩ := proper_of_mem_wordsOf inside
  refine ⟨by simp [show codeUnits "*" = [0x2A] by decide], ?_⟩
  intro unit part
  obtain old | star := List.mem_append.mp part
  · have apart := free unit old
    cases space : isFtsSpace unit with
    | false => rfl
    | true => rw [isSpaceUnit_of_isFtsSpace space] at apart; cases apart
  · rw [show codeUnits "*" = [0x2A] by decide, List.mem_singleton] at star
    rw [star]
    decide

/-- A word with an asterisk is a term when it is a bareword. -/
theorem isTerm_star {word : List Nat} (some_unit : word ≠ [])
    : isTerm (word ++ codeUnits "*") = true
      ↔ (∀ unit ∈ word, isBareword unit = true) ∧ word ∉ ftsOperators := by
  have stripped : termWord (word ++ codeUnits "*") = word := by
    rw [show codeUnits "*" = [0x2A] by decide, termWord, List.getLast?_concat, if_pos rfl,
      List.dropLast_concat]
  rw [isTerm, stripped]
  simp [some_unit]

/-- A query is accepted when each of its words is a bareword and no operator. -/
theorem ftsAccepts_ftsQuery {q : List Nat} (some_word : searchWords q ≠ [])
    : ftsAccepts (ftsQuery q) = true
      ↔ ∀ word ∈ searchWords q,
        (∀ unit ∈ word, isBareword unit = true) ∧ word ∉ ftsOperators := by
  have present : (searchWords q).isEmpty = false := by simpa using some_word
  rw [ftsAccepts, wordsOf_ftsQuery]
  simp only [List.isEmpty_map, present, Bool.not_false, Bool.true_and, List.all_map,
    List.all_eq_true, Function.comp_apply]
  exact forall₂_congr fun word member => isTerm_star (proper_of_mem_wordsOf member).1

/-- The words of a text consist of barewords' characters exactly when the text has no others but
those that are deleted or part words.
-/
theorem barewords_iff (text : List Nat)
    : (∀ word ∈ wordsOf isSeparator (keptText text), ∀ unit ∈ word, isBareword unit = true)
      ↔ ∀ unit ∈ rawText text,
        isDeleted unit = true ∨ isSeparator unit = true ∨ isBareword unit = true := by
  constructor
  · intro barewords unit member
    cases deleted : isDeleted unit with
    | true => exact .inl rfl
    | false =>
        cases separated : isSeparator unit with
        | true => exact .inr (.inl rfl)
        | false =>
            have kept : unit ∈ keptText text :=
              List.mem_filter.mpr ⟨member, by rw [deleted]; rfl⟩
            obtain ⟨word, inside, part⟩ := exists_wordsOf_iff.mpr ⟨kept, separated⟩
            exact .inr (.inr (barewords word inside unit part))
  · intro plain word member unit part
    obtain ⟨left, apart⟩ := exists_wordsOf_iff.mp ⟨word, member, part⟩
    obtain ⟨typed, kept⟩ := List.mem_filter.mp left
    obtain deleted | separated | bare := plain unit typed
    · rw [deleted] at kept
      cases kept
    · rw [separated] at apart
      cases apart
    · exact bare

/-- No word of a text is an operator exactly when none stands between separators. -/
theorem noOperator_iff (text : List Nat)
    : (∀ word ∈ wordsOf isSeparator text, word ∉ ftsOperators)
      ↔ ∀ operator ∈ ftsOperators, ¬StandsIn isSeparator operator text := by
  have proper : ∀ operator ∈ ftsOperators,
      operator ≠ [] ∧ ∀ unit ∈ operator, isSeparator unit = false := by
    decide
  constructor
  · intro none_ operator listed stands
    obtain ⟨some_unit, free⟩ := proper operator listed
    exact none_ operator ((mem_wordsOf_iff free some_unit).mpr stands) listed
  · intro none_ word member listed
    obtain ⟨some_unit, free⟩ := proper word listed
    exact none_ word listed ((mem_wordsOf_iff free some_unit).mp member)

/-- The full-text query of a text with some words is accepted exactly when the text is made of
barewords and of characters that the search removes, and no word is an operator.
-/
theorem ftsAccepts_iff (text : List Nat) (some_word : searchWords (searchText text) ≠ [])
    : ftsAccepts (ftsQuery (searchText text)) = true ↔ Searchable text := by
  rw [ftsAccepts_ftsQuery some_word, searchWords_searchText]
  constructor
  · intro accepted
    have plain := (barewords_iff text).mp fun word member => (accepted word member).1
    have noOperator := (noOperator_iff (keptText text)).mp fun word member =>
      (accepted word member).2
    exact ⟨plain, noOperator⟩
  · rintro ⟨plain, noOperator⟩ word member
    have barewords := (barewords_iff text).mpr plain word member
    have unlisted := (noOperator_iff (keptText text)).mpr noOperator word member
    exact ⟨barewords, unlisted⟩

theorem ftsAccepts_iff_of_words : Searchable (codeUnits " web crawler's + index_2 ") :=
  (ftsAccepts_iff (codeUnits " web crawler's + index_2 ") (by decide)).mp (by decide)

/-- A search for a domain name is a syntax error. -/
theorem ftsAccepts_fails_for_domain
    : ¬∀ text, searchWords (searchText text) ≠ []
        → ftsAccepts (ftsQuery (searchText text)) = true := by
  intro accepted
  exact absurd (accepted (codeUnits "example.com") (by decide)) (by decide)

end WebIndexer.Server
