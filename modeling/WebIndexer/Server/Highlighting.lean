import WebIndexer.Library.Trimming
import WebIndexer.Server.QueryText

/-! `hl` of the search page in `src/html.ts`, on code units: its loop looks for a word in a copy of
the text that it took before it put in the first tag, and ends as soon as that copy has no more of
the word from some place on.
-/

namespace WebIndexer.Server

open WebIndexer.Library
open WebIndexer.Runtime

/-- Letter case, of which the runtime has a table: lower case keeps texts from being empty, and
white space at their ends, and texts of one lower case are alike up to letter case.
-/
structure LetterCase where
  toLowerCase : List Nat → List Nat
  alike : List Nat → List Nat → Prop
  alike_of_eq : ∀ {text other}, toLowerCase text = toLowerCase other → alike text other
  toLowerCase_eq_nil : ∀ {text}, toLowerCase text = [] ↔ text = []
  first_space : ∀ text, (toLowerCase text).head?.any isSpaceUnit = text.head?.any isSpaceUnit
  last_space : ∀ text, (toLowerCase text).getLast?.any isSpaceUnit = text.getLast?.any isSpaceUnit

/-- Lower case leaves something of a text that is not empty. -/
theorem LetterCase.toLowerCase_ne_nil (case : LetterCase) {text : List Nat}
    (some_unit : text ≠ [])
    : case.toLowerCase text ≠ [] :=
  fun empty => some_unit (case.toLowerCase_eq_nil.mp empty)

-----------------------------------------------------------------------------------------
-- The words of a search
-----------------------------------------------------------------------------------------

/-- Where the search page takes a query from. -/
inductive SearchInput where
  | typed (value : List Nat)
  | parameter (q : List Nat)

/-- The query that the page searches for: what is typed is trimmed, the parameter is not. -/
def SearchInput.query : SearchInput → Option (List Nat)
  | .typed value => if trimUnits value = [] then none else some (trimUnits value)
  | .parameter q => if q = [] then none else some q

/-- `text.split(/\s+/)`. White space at an end parts the empty text from the rest. -/
def splitSpaces : List Nat → List (List Nat)
  | [] => [[]]
  | unit :: rest =>
      if isSpaceUnit unit then
        if rest.head?.any isSpaceUnit then splitSpaces rest else [] :: splitSpaces rest
      else
        match splitSpaces rest with
        | [] => [[unit]]
        | first :: others => (unit :: first) :: others

/-- `words` of `doSearch`. -/
def queryWords (case : LetterCase) (q : List Nat) : List (List Nat) :=
  splitSpaces (case.toLowerCase q)

-----------------------------------------------------------------------------------------
-- The loop
-----------------------------------------------------------------------------------------

/-- The serialisation of a code unit of a text node. -/
def escUnit (unit : Nat) : List Nat :=
  if unit = 0x26 then
    codeUnits "&amp;"
  else if unit = 0xA0 then
    codeUnits "&nbsp;"
  else if unit = 0x3C then
    codeUnits "&lt;"
  else if unit = 0x3E then
    codeUnits "&gt;"
  else
    [unit]

/-- `esc`, on code units. -/
def escUnits (text : List Nat) : List Nat := text.flatMap escUnit

/-- `tag`. -/
def openTag : List Nat := codeUnits "<em>"

/-- `end`. -/
def closeTag : List Nat := codeUnits "</em>"

/-- `text.indexOf(part, start)`, which finds the empty text at the start, or at the end. -/
def indexOf (text part : List Nat) (start : Nat) : Option Nat :=
  (List.range' (min start text.length) (text.length + 1 - min start text.length)).find? fun i =>
    part.isPrefixOf (text.drop i)

/-- Put tags around a piece of the text: `substring` takes what there is of it. -/
def mark (s : List Nat) (i length : Nat) : List Nat :=
  s.take i ++ openTag ++ (s.drop i).take length ++ closeTag ++ s.drop (i + length)

/-- Where the loop looks next. -/
def nextIndex (ls lw : List Nat) (length i : Nat) : Option Nat :=
  indexOf ls lw (i + openTag.length + length + closeTag.length)

/-- The loop of `hl` for one word, from an index on, with a bound on its turns. -/
def markLoop (ls lw : List Nat) (length : Nat) : Nat → List Nat → Option Nat → Option (List Nat)
  | _, s, none => some s
  | 0, _, some _ => none
  | fuel + 1, s, some i => markLoop ls lw length fuel (mark s i length) (nextIndex ls lw length i)

/-- What `hl` does for one word. -/
def markWord (case : LetterCase) (fuel : Nat) (s w : List Nat) : Option (List Nat) :=
  markLoop (case.toLowerCase s) (case.toLowerCase w) w.length fuel s
    (indexOf (case.toLowerCase s) (case.toLowerCase w) 0)

/-- `hl`. -/
def hl (case : LetterCase) (fuel : Nat) (text : List Nat) (words : List (List Nat))
    : Option (List Nat) :=
  if text = [] then some [] else words.foldlM (markWord case fuel) (escUnits text)

/-- Highlighting returns a text after finitely many turns of its loops. -/
def Terminates (case : LetterCase) (text : List Nat) (words : List (List Nat)) : Prop :=
  ∃ fuel result, hl case fuel text words = some result

-----------------------------------------------------------------------------------------
-- Indexes
-----------------------------------------------------------------------------------------

/-- The empty text is found wherever it is looked for. -/
theorem indexOf_nil (text : List Nat) (start : Nat)
    : indexOf text [] start = some (min start text.length) := by
  have some_place : text.length + 1 - min start text.length
      = (text.length - min start text.length) + 1 := by
    have := Nat.min_le_right start text.length
    omega
  rw [indexOf, some_place, List.range'_succ, List.find?_cons_of_pos (by rfl)]

/-- A text that is not empty is found from the start on, before the end. -/
theorem indexOf_bounds {text part : List Nat} {start i : Nat} (some_unit : part ≠ [])
    (found : indexOf text part start = some i)
    : start ≤ i ∧ i < text.length := by
  have place := List.mem_of_find?_eq_some found
  have matched := List.find?_some found
  rw [List.mem_range'_1] at place
  have inside : i < text.length := by
    by_contra outside
    rw [List.drop_eq_nil_of_le (Nat.not_lt.mp outside)] at matched
    cases part with
    | nil => exact some_unit rfl
    | cons unit rest => cases matched
  omega

/-- The indexes that the loop takes, with the same bound. -/
def indexes (ls lw : List Nat) (length : Nat) : Nat → Option Nat → Option (List Nat)
  | _, none => some []
  | 0, some _ => none
  | fuel + 1, some i => (indexes ls lw length fuel (nextIndex ls lw length i)).map (i :: ·)

section Loop

variable {ls lw : List Nat} {length : Nat}

/-- The loop marks the text at its indexes, one after the other. -/
theorem markLoop_eq (fuel : Nat) (s : List Nat) (place : Option Nat)
    : markLoop ls lw length fuel s place
      = (indexes ls lw length fuel place).map fun places =>
          places.foldl (fun s i => mark s i length) s := by
  induction fuel generalizing s place with
  | zero => cases place <;> rfl
  | succ fuel ih =>
      cases place with
      | none => rfl
      | some i =>
          rw [markLoop, indexes, ih, Option.map_map]
          rfl

/-- More turns than enough change nothing. -/
theorem indexes_mono {fuel more : Nat} {place : Option Nat} {places : List Nat}
    (enough : indexes ls lw length fuel place = some places) (bound : fuel ≤ more)
    : indexes ls lw length more place = some places := by
  induction fuel generalizing more place places with
  | zero =>
      cases place with
      | none => cases more <;> exact enough
      | some i => cases enough
  | succ fuel ih =>
      cases more with
      | zero => cases bound
      | succ more =>
          cases place with
          | none => exact enough
          | some i =>
              obtain ⟨rest, taken, rfl⟩ := Option.map_eq_some_iff.mp enough
              rw [indexes, ih taken (Nat.le_of_succ_le_succ bound)]
              rfl

/-- Each turn looks further on, so that no more turns are taken than the copy has units. -/
theorem indexes_of_some_unit (some_unit : lw ≠ []) {fuel : Nat} {place : Option Nat}
    (bounds : ∀ i ∈ place, i < ls.length ∧ ls.length ≤ fuel + i)
    : ∃ places, indexes ls lw length fuel place = some places := by
  induction fuel generalizing place with
  | zero =>
      cases place with
      | none => exact ⟨[], rfl⟩
      | some i =>
          have inside := bounds i rfl
          omega
  | succ fuel ih =>
      cases place with
      | none => exact ⟨[], rfl⟩
      | some i =>
          have inside := bounds i rfl
          have further : ∀ next ∈ nextIndex ls lw length i,
              next < ls.length ∧ ls.length ≤ fuel + next := by
            intro next found
            have later := indexOf_bounds some_unit found
            have ahead : 1 ≤ openTag.length := by decide
            omega
          obtain ⟨places, taken⟩ := ih further
          exact ⟨i :: places, by rw [indexes, taken]; rfl⟩

/-- The loop for the empty word has no end. -/
theorem indexes_nil (fuel : Nat) (i : Nat) : indexes ls [] length fuel (some i) = none := by
  induction fuel generalizing i with
  | zero => rfl
  | succ fuel ih => rw [indexes, nextIndex, indexOf_nil, ih, Option.map_none]

end Loop

-----------------------------------------------------------------------------------------
-- Words
-----------------------------------------------------------------------------------------

/-- The indexes that are marked for a word that is not empty. -/
def wordIndexes (case : LetterCase) (s w : List Nat) : List Nat :=
  (indexes (case.toLowerCase s) (case.toLowerCase w) w.length (case.toLowerCase s).length
    (indexOf (case.toLowerCase s) (case.toLowerCase w) 0)).getD []

/-- A text with a word marked. -/
def marked (case : LetterCase) (s w : List Nat) : List Nat :=
  (wordIndexes case s w).foldl (fun s i => mark s i w.length) s

section Word

variable {case : LetterCase} {w : List Nat}

/-- The bound of `wordIndexes` is enough for a word that is not empty. -/
theorem indexes_eq (some_unit : w ≠ []) (s : List Nat)
    : indexes (case.toLowerCase s) (case.toLowerCase w) w.length (case.toLowerCase s).length
        (indexOf (case.toLowerCase s) (case.toLowerCase w) 0)
      = some (wordIndexes case s w) := by
  have lower_unit := case.toLowerCase_ne_nil some_unit
  obtain ⟨places, taken⟩ := @indexes_of_some_unit (case.toLowerCase s) (case.toLowerCase w)
    w.length lower_unit (case.toLowerCase s).length
    (indexOf (case.toLowerCase s) (case.toLowerCase w) 0) (fun i found =>
      ⟨(indexOf_bounds lower_unit found).2, Nat.le_add_right _ _⟩)
  rw [wordIndexes, taken]
  rfl

/-- With turns enough for the copy of the text, the loop marks a word that is not empty. -/
theorem markWord_eq (some_unit : w ≠ []) (s : List Nat) {fuel : Nat}
    (enough : (case.toLowerCase s).length ≤ fuel)
    : markWord case fuel s w = some (marked case s w) := by
  rw [markWord, markLoop_eq, indexes_mono (indexes_eq some_unit s) enough, marked]
  rfl

/-- Whatever the bound on its turns, the loop marks the word if it returns. -/
theorem eq_marked_of_markWord (some_unit : w ≠ []) {s result : List Nat} {fuel : Nat}
    (returned : markWord case fuel s w = some result)
    : result = marked case s w := by
  rw [markWord, markLoop_eq, Option.map_eq_some_iff] at returned
  obtain ⟨places, taken, rfl⟩ := returned
  have more := Nat.le_max_left fuel (case.toLowerCase s).length
  have enough := Nat.le_max_right fuel (case.toLowerCase s).length
  have same := (indexes_mono taken more).symm.trans (indexes_mono (indexes_eq some_unit s) enough)
  rw [marked, Option.some.inj same]

/-- The loop for the empty word never ends. -/
theorem markWord_nil (fuel : Nat) (s : List Nat) : markWord case fuel s [] = none := by
  rw [markWord, case.toLowerCase_eq_nil.mpr rfl, indexOf_nil, markLoop_eq, indexes_nil]
  rfl

/-- With turns enough, all words are marked that are not empty. -/
theorem foldlM_markWord {words : List (List Nat)} (some_units : ∀ w ∈ words, w ≠ [])
    (s : List Nat)
    : ∃ enough, ∀ fuel, enough ≤ fuel →
        words.foldlM (markWord case fuel) s = some (words.foldl (marked case) s) := by
  induction words generalizing s with
  | nil => exact ⟨0, fun _ _ => rfl⟩
  | cons w words ih =>
      obtain ⟨some_unit, some_units⟩ := List.forall_mem_cons.mp some_units
      obtain ⟨enough, later⟩ := ih some_units (marked case s w)
      refine ⟨max (case.toLowerCase s).length enough, fun fuel bound => ?_⟩
      rw [List.foldlM_cons, markWord_eq some_unit s (Nat.max_le.mp bound).1, List.foldl_cons]
      exact later fuel (Nat.max_le.mp bound).2

/-- The empty word keeps its loop, whatever words come before. -/
theorem foldlM_markWord_of_nil {words : List (List Nat)} (empty : [] ∈ words) (fuel : Nat)
    (s : List Nat)
    : words.foldlM (markWord case fuel) s = none := by
  induction words generalizing s with
  | nil => cases empty
  | cons w words ih =>
      rw [List.foldlM_cons]
      rcases List.mem_cons.mp empty with rfl | later
      · rw [markWord_nil]
        rfl
      · cases markWord case fuel s w with
        | none => rfl
        | some next => exact ih later next

/-- Highlighting ends unless there is a text to look for the empty word in. -/
theorem terminates_words_iff (text : List Nat) (words : List (List Nat))
    : Terminates case text words ↔ text = [] ∨ [] ∉ words := by
  by_cases no_text : text = []
  · exact iff_of_true ⟨0, [], if_pos no_text⟩ (.inl no_text)
  · constructor
    · rintro ⟨fuel, result, returned⟩
      right
      intro empty
      rw [hl, if_neg no_text, foldlM_markWord_of_nil empty] at returned
      cases returned
    · intro ends
      have no_empty := ends.resolve_left no_text
      obtain ⟨enough, returned⟩ := @foldlM_markWord case words
        (fun w member empty => no_empty (empty ▸ member)) (escUnits text)
      exact ⟨enough, _, by rw [hl, if_neg no_text, returned enough (Nat.le_refl _)]⟩

end Word

/-- Of the words of a text the first one is empty when the text is empty or starts with white space,
and a later one is when it ends with white space; induction on the text.
-/
theorem splitSpaces_cases (text : List Nat)
    : ∃ first others,
        splitSpaces text = first :: others
        ∧ (first = [] ↔ text.head?.all isSpaceUnit = true)
        ∧ ([] ∈ others ↔ text.getLast?.any isSpaceUnit = true) := by
  induction text with
  | nil => exact ⟨[], [], rfl, by simp, by simp⟩
  | cons unit rest ih =>
      obtain ⟨first, others, words, first_empty, other_empty⟩ := ih
      have last : rest ≠ [] → (unit :: rest).getLast? = rest.getLast? := by
        intro some_rest
        rw [List.getLast?_cons_of_ne_nil some_rest]
      rw [splitSpaces]
      cases space : isSpaceUnit unit with
      | true =>
          rw [if_pos rfl]
          split
          · -- the white space goes on
            rename_i more
            have some_rest : rest ≠ [] := by
              rintro rfl
              cases more
            refine ⟨first, others, words, ?_, ?_⟩
            · rw [first_empty]
              cases rest with
              | nil => exact absurd rfl some_rest
              | cons next rest =>
                  simp only [List.head?_cons, Option.any_some, Option.all_some] at more ⊢
                  rw [more, space]
            · rw [other_empty, last some_rest]
          · rename_i ends
            refine ⟨[], splitSpaces rest, rfl, by simp [space], ?_⟩
            rw [words, List.mem_cons, other_empty, eq_comm, first_empty]
            cases rest with
            | nil => simp [space]
            | cons next rest =>
                simp only [List.head?_cons, Option.any_some, Bool.not_eq_true] at ends
                rw [last (List.cons_ne_nil _ _)]
                simp [ends]
      | false =>
          rw [if_neg Bool.false_ne_true, words]
          refine ⟨unit :: first, others, rfl, by simp [space], ?_⟩
          cases rest with
          | nil => simp [other_empty, space]
          | cons next rest => rw [other_empty, last (List.cons_ne_nil _ _)]

/-- A text has an empty word when white space stands at an end of it, or nothing else does. -/
theorem nil_not_mem_splitSpaces_iff {text : List Nat} (some_unit : text ≠ [])
    : [] ∉ splitSpaces text
      ↔ text.head?.any isSpaceUnit = false ∧ text.getLast?.any isSpaceUnit = false := by
  obtain ⟨first, others, words, first_empty, other_empty⟩ := splitSpaces_cases text
  rw [words, List.mem_cons, not_or, eq_comm, first_empty, other_empty, Bool.not_eq_true,
    Bool.not_eq_true]
  cases text with
  | nil => exact absurd rfl some_unit
  | cons unit rest => simp

/-- The words of a query are not empty if and only if it is trimmed. -/
theorem nil_not_mem_queryWords_iff (case : LetterCase) {q : List Nat} (some_unit : q ≠ [])
    : [] ∉ queryWords case q ↔ IsTrimmed isSpaceUnit q := by
  have lower_unit := case.toLowerCase_ne_nil some_unit
  rw [queryWords, nil_not_mem_splitSpaces_iff lower_unit, case.first_space, case.last_space]
  constructor
  · rintro ⟨first, last⟩
    exact ⟨fun unit head => by simpa [Option.mem_def.mp head] using first,
      fun unit ending => by simpa [Option.mem_def.mp ending] using last⟩
  · intro ends
    constructor
    · cases head : q.head? with
      | none => rfl
      | some unit => exact ends.first unit head
    · cases ending : q.getLast? with
      | none => rfl
      | some unit => exact ends.last unit ending

/-- The page searches for no empty query. -/
theorem some_unit_of_query {input : SearchInput} {query : List Nat}
    (searched : query ∈ input.query)
    : query ≠ [] := by
  cases input with
  | typed value =>
      rw [SearchInput.query, Option.mem_def] at searched
      split at searched
      · cases searched
      · rename_i some_unit
        exact Option.some.inj searched ▸ some_unit
  | parameter q =>
      rw [SearchInput.query, Option.mem_def] at searched
      split at searched
      · cases searched
      · rename_i some_unit
        exact Option.some.inj searched ▸ some_unit

/-- Highlighting the words of a query ends unless white space stands at an end of it. -/
theorem terminates_query_iff (case : LetterCase) (text : List Nat) {query : List Nat}
    (some_unit : query ≠ [])
    : Terminates case text (queryWords case query)
      ↔ text = [] ∨ IsTrimmed isSpaceUnit query := by
  rw [terminates_words_iff, nil_not_mem_queryWords_iff case some_unit]

/-- What is typed is trimmed, and so can be highlighted. -/
theorem terminates_typed (case : LetterCase) (text value : List Nat)
    : ∀ query ∈ (SearchInput.typed value).query,
        Terminates case text (queryWords case query) := by
  intro query searched
  have some_unit := some_unit_of_query searched
  rw [terminates_query_iff case text some_unit]
  right
  rw [SearchInput.query, Option.mem_def] at searched
  split at searched
  · cases searched
  · rw [← Option.some.inj searched]
    exact isTrimmed_trimmed isSpaceUnit value

/-- Highlighting ends for every page text and query if and only if there is nothing to highlight, or
the query that is searched for has no white space at its ends.
-/
theorem search_terminates_iff (case : LetterCase) (text : List Nat) (input : SearchInput)
    : (∀ query ∈ input.query, Terminates case text (queryWords case query))
      ↔ text = [] ∨ ∀ query ∈ input.query, IsTrimmed isSpaceUnit query := by
  rw [← forall_or_left]
  refine forall_congr' fun query => ?_
  rw [← forall_or_left]
  exact forall_congr' fun searched =>
    terminates_query_iff case text (some_unit_of_query searched)

/-- Lower case of ASCII letters. -/
def asciiLower (unit : Nat) : Nat := if 0x41 ≤ unit ∧ unit ≤ 0x5A then unit + 0x20 else unit

/-- Lower case makes no white space, and leaves none. -/
theorem isSpaceUnit_asciiLower (unit : Nat)
    : isSpaceUnit (asciiLower unit) = isSpaceUnit unit := by
  unfold asciiLower
  split
  · rename_i letter
    have letters : ∀ letter ∈ List.range' 0x41 26,
        isSpaceUnit (letter + 0x20) = isSpaceUnit letter := by
      decide
    exact letters unit (List.mem_range'_1.mpr ⟨letter.1, Nat.lt_succ_of_le letter.2⟩)
  · rfl

/-- Lower case of texts that are in ASCII. -/
def asciiCase : LetterCase where
  toLowerCase := List.map asciiLower
  alike text other := text.map asciiLower = other.map asciiLower
  alike_of_eq := id
  toLowerCase_eq_nil := List.map_eq_nil_iff
  first_space text := by
    rw [List.head?_map, Option.any_map]
    exact congrArg (text.head?.any ·) (funext isSpaceUnit_asciiLower)
  last_space text := by
    rw [List.getLast?_map, Option.any_map]
    exact congrArg (text.getLast?.any ·) (funext isSpaceUnit_asciiLower)

/-- A space in front of a query hangs the page. -/
theorem not_search_terminates
    : ¬ ∀ case text input,
        ∀ query ∈ SearchInput.query input, Terminates case text (queryWords case query) := by
  intro claim
  have ends := claim asciiCase (codeUnits "text") (.parameter (codeUnits " a")) (codeUnits " a") rfl
  rw [terminates_words_iff] at ends
  revert ends
  decide +kernel

end WebIndexer.Server
