import Mathlib.Data.List.Infix
import Mathlib.Data.List.TakeWhile

/-! The words of a text: its maximal runs of items that are not separators. Splitting at
separators one at a time gives more empty pieces than splitting at runs of them does; without the
empty pieces the two agree.
-/

namespace WebIndexer.Library

variable {α : Type*} {separates blank : α → Bool} {text word rest front back : List α}
  {separator : α}

/-- The words of a text, in order. -/
def wordsOf (separates : α → Bool) (text : List α) : List (List α) :=
  (text.splitOnP separates).filter fun word => !word.isEmpty

/-- A text without its blank ends. -/
def trimmed (blank : α → Bool) (text : List α) : List α :=
  ((text.dropWhile blank).reverse.dropWhile blank).reverse

/-- A word stands somewhere in a text with a separator or an end of the text on either side. -/
def StandsIn (separates : α → Bool) (word text : List α) : Prop :=
  ∃ front back, text = front ++ word ++ back
    ∧ (∀ last ∈ front.getLast?, separates last = true)
    ∧ ∀ first ∈ back.head?, separates first = true

@[simp] theorem wordsOf_nil : wordsOf separates ([] : List α) = [] := rfl

/-- A separator parts the words before it from those after it. -/
theorem wordsOf_append_cons (separated : separates separator = true)
    : wordsOf separates (text ++ separator :: rest)
      = wordsOf separates text ++ wordsOf separates rest := by
  unfold wordsOf
  rw [List.splitOnP_append_cons text rest separated, List.filter_append]

/-- A leading separator is no part of a word. -/
theorem wordsOf_cons (separated : separates separator = true)
    : wordsOf separates (separator :: rest) = wordsOf separates rest := by
  rw [← List.nil_append (separator :: rest), wordsOf_append_cons separated, wordsOf_nil,
    List.nil_append]

/-- A text without separators is its only word. -/
theorem wordsOf_word (free : ∀ item ∈ word, separates item = false) (some_item : word ≠ [])
    : wordsOf separates word = [word] := by
  unfold wordsOf
  rw [List.splitOnP_eq_singleton free]
  simp [some_item]

/-- A text has no separators, or a first one, by induction on the text. -/
theorem separated_or_free (separates : α → Bool) (text : List α)
    : (∀ item ∈ text, separates item = false)
      ∨ ∃ word separator rest, text = word ++ separator :: rest
        ∧ (∀ item ∈ word, separates item = false) ∧ separates separator = true := by
  induction text with
  | nil => exact .inl (by simp)
  | cons item text ih =>
      cases separated : separates item with
      | true => exact .inr ⟨[], item, text, rfl, by simp, separated⟩
      | false =>
          obtain free | ⟨word, separator, rest, rfl, free, last⟩ := ih
          · exact .inl (by simpa [separated] using free)
          · exact .inr ⟨item :: word, separator, rest, rfl, by simpa [separated] using free, last⟩

/-- What holds of texts without separators, and of a word before a separator and a text that it
holds of, holds of every text.
-/
theorem separated_induction (separates : α → Bool) {motive : List α → Prop}
    (single : ∀ word, (∀ item ∈ word, separates item = false) → motive word)
    (more : ∀ word separator rest, (∀ item ∈ word, separates item = false)
      → separates separator = true → motive rest → motive (word ++ separator :: rest))
    (text : List α)
    : motive text := by
  induction length : text.length using Nat.strong_induction_on generalizing text with
  | _ _ ih =>
      obtain free | ⟨word, separator, rest, rfl, free, separated⟩ :=
        separated_or_free separates text
      · exact single text free
      · refine more word separator rest free separated (ih rest.length ?_ rest rfl)
        rw [← length, List.length_append, List.length_cons]
        omega

/-- The words of a text without separators are the text, if it is not empty. -/
theorem mem_wordsOf_free (free : ∀ item ∈ text, separates item = false)
    : word ∈ wordsOf separates text ↔ word = text ∧ text ≠ [] := by
  cases text with
  | nil => simp
  | cons item text =>
      rw [wordsOf_word free (by simp)]
      simp

/-- The items of the words are those of the text that are not separators, by induction on the text:
an item that is no separator goes to the head of the first piece.
-/
theorem flatten_wordsOf (separates : α → Bool) (text : List α)
    : (wordsOf separates text).flatten = text.filter fun item => !separates item := by
  rw [wordsOf, List.flatten_filter_not_isEmpty]
  induction text with
  | nil => rfl
  | cons item text ih =>
      rw [List.splitOnP_cons_eq_if_modifyHead, List.filter_cons]
      cases separated : separates item with
      | true => simpa using ih
      | false =>
          obtain ⟨first, others, pieces⟩ :=
            List.exists_cons_of_ne_nil (List.splitOnP_ne_nil separates text)
          rw [pieces] at ih ⊢
          simpa using ih

/-- An item is in a word exactly when it is in the text and no separator. -/
theorem exists_wordsOf_iff {item : α}
    : (∃ word ∈ wordsOf separates text, item ∈ word)
      ↔ item ∈ text ∧ separates item = false := by
  rw [← List.mem_flatten, flatten_wordsOf, List.mem_filter, Bool.not_eq_true']

/-- Words are not empty, and hold no separators. -/
theorem proper_of_mem_wordsOf (member : word ∈ wordsOf separates text)
    : word ≠ [] ∧ ∀ item ∈ word, separates item = false := by
  constructor
  · have kept := (List.mem_filter.mp member).2
    simpa using kept
  · intro item inside
    exact (exists_wordsOf_iff.mp ⟨word, member, inside⟩).2

/-- The words of a text are what stands in it between separators. -/
theorem mem_wordsOf_iff (free : ∀ item ∈ word, separates item = false) (some_item : word ≠ [])
    : word ∈ wordsOf separates text ↔ StandsIn separates word text := by
  constructor
  · intro member
    induction text using separated_induction separates with
    | single text single =>
        obtain ⟨rfl, -⟩ := (mem_wordsOf_free single).mp member
        exact ⟨[], [], by simp, by simp, by simp⟩
    | more first separator rest first_free separated ih =>
        rw [wordsOf_append_cons separated, List.mem_append] at member
        obtain head | tail := member
        · obtain ⟨rfl, -⟩ := (mem_wordsOf_free first_free).mp head
          exact ⟨[], separator :: rest, by simp, by simp, by simpa using separated⟩
        · obtain ⟨front, back, rfl, before, after⟩ := ih tail
          refine ⟨first ++ separator :: front, back, by simp, ?_, after⟩
          intro last ends
          rw [List.getLast?_append, List.getLast?_cons] at ends
          cases front_last : front.getLast? with
          | none => simp_all
          | some inner => exact before last (by simp_all)
  · rintro ⟨front, back, rfl, before, after⟩
    have here : word ∈ wordsOf separates (word ++ back) := by
      cases back with
      | nil => simp [wordsOf_word free some_item]
      | cons first back =>
          rw [wordsOf_append_cons (after first (by simp)), wordsOf_word free some_item]
          simp
    obtain rfl | ⟨front, last, rfl⟩ := front.eq_nil_or_concat
    · simpa using here
    · have separated := before last (by simp)
      rw [List.concat_eq_append, List.append_assoc, List.append_assoc, List.singleton_append,
        wordsOf_append_cons separated]
      exact List.mem_append_right _ here

/-- Leading separators are no part of the words. -/
theorem wordsOf_append_left (separators : ∀ item ∈ front, separates item = true)
    : wordsOf separates (front ++ text) = wordsOf separates text := by
  induction front with
  | nil => rfl
  | cons item front ih =>
      obtain ⟨separated, others⟩ := List.forall_mem_cons.mp separators
      rw [List.cons_append, wordsOf_cons separated, ih others]

/-- Trailing separators are no part of the words. -/
theorem wordsOf_append_right (separators : ∀ item ∈ back, separates item = true)
    : wordsOf separates (text ++ back) = wordsOf separates text := by
  cases back with
  | nil => rw [List.append_nil]
  | cons item back =>
      obtain ⟨separated, others⟩ := List.forall_mem_cons.mp separators
      rw [wordsOf_append_cons separated, ← List.append_nil back, wordsOf_append_left others,
        wordsOf_nil, List.append_nil]

/-- A text is its trimmed form between blanks. -/
theorem trimmed_spec (blank : α → Bool) (text : List α)
    : ∃ front back, text = front ++ trimmed blank text ++ back
      ∧ (∀ item ∈ front, blank item = true) ∧ ∀ item ∈ back, blank item = true := by
  refine ⟨text.takeWhile blank, ((text.dropWhile blank).reverse.takeWhile blank).reverse,
    ?_, ?_, ?_⟩
  · rw [trimmed, List.append_assoc, ← List.reverse_append, List.takeWhile_append_dropWhile,
      List.reverse_reverse, List.takeWhile_append_dropWhile]
  · exact fun item member => List.mem_takeWhile_imp member
  · exact fun item member => List.mem_takeWhile_imp (List.mem_reverse.mp member)

/-- Trimming keeps the words, if blanks are separators. -/
theorem wordsOf_trimmed (separators : ∀ item, blank item = true → separates item = true)
    (text : List α)
    : wordsOf separates (trimmed blank text) = wordsOf separates text := by
  obtain ⟨front, back, parts, front_blank, back_blank⟩ := trimmed_spec blank text
  conv_rhs => rw [parts]
  rw [wordsOf_append_right fun item member => separators item (back_blank item member),
    wordsOf_append_left fun item member => separators item (front_blank item member)]

/-- Trimming makes no text longer. -/
theorem length_trimmed_le (blank : α → Bool) (text : List α)
    : (trimmed blank text).length ≤ text.length := by
  obtain ⟨front, back, parts, -, -⟩ := trimmed_spec blank text
  have lengths := congrArg List.length parts
  rw [List.length_append, List.length_append] at lengths
  omega

/-- Replacing separators by separators keeps the words. -/
theorem wordsOf_map {replace : α → α} {replaced : α → Bool}
    (kept : ∀ item, replaced item = false → replace item = item)
    (moved : ∀ item, replaced item = separates (replace item)) (text : List α)
    : wordsOf separates (text.map replace) = wordsOf replaced text := by
  have same {word : List α} (free : ∀ item ∈ word, replaced item = false)
      : word.map replace = word :=
    (List.map_congr_left fun item member => kept item (free item member)).trans (List.map_id _)
  have single {word : List α} (free : ∀ item ∈ word, replaced item = false)
      : wordsOf separates word = wordsOf replaced word := by
    have free' : ∀ item ∈ word, separates item = false := by
      intro item member
      rw [← kept item (free item member), ← moved]
      exact free item member
    cases word with
    | nil => rfl
    | cons item word => rw [wordsOf_word free' (by simp), wordsOf_word free (by simp)]
  induction text using separated_induction replaced with
  | single word free => rw [same free, single free]
  | more word separator rest free separated ih =>
      rw [List.map_append, List.map_cons, same free,
        wordsOf_append_cons (by rw [← moved]; exact separated), wordsOf_append_cons separated, ih,
        single free]

/-- Words that are joined with a separator are the words of the joined text. -/
theorem wordsOf_intercalate (separated : separates separator = true) {words : List (List α)}
    (proper : ∀ word ∈ words, word ≠ [] ∧ ∀ item ∈ word, separates item = false)
    : wordsOf separates ([separator].intercalate words) = words := by
  induction words with
  | nil => rfl
  | cons word words ih =>
      obtain ⟨⟨some_item, free⟩, others⟩ := List.forall_mem_cons.mp proper
      cases words with
      | nil => simpa [List.intercalate] using wordsOf_word free some_item
      | cons next words =>
          have joined : [separator].intercalate (word :: next :: words)
              = word ++ separator :: [separator].intercalate (next :: words) := by
            simp [List.intercalate]
          rw [joined, wordsOf_append_cons separated, ih others, wordsOf_word free some_item,
            List.singleton_append]

end WebIndexer.Library
