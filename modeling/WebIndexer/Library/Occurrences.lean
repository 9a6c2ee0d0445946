import Mathlib.Data.List.Infix

/-! The first occurrence of a pattern in a text, and the tails of a text that follow a separator.
A tail of a text with something cut out of it is a tail of what comes after the cut, or reaches
over the cut. Two words that stand in one text stand apart, unless they overlap.
-/

namespace WebIndexer.Library

variable {α : Type*} {pattern front back text tail word : List α} {item separator : α}

/-- `pattern` stands in a text after `front` and before `back`, and nowhere earlier. -/
inductive FirstAt (pattern : List α) : List α → List α → List α → Prop
  | here {back : List α} : FirstAt pattern [] back (pattern ++ back)
  | later {item : α} {front back text : List α} (absent : ¬pattern <+: item :: text)
      (rest : FirstAt pattern front back text)
      : FirstAt pattern (item :: front) back (item :: text)

/-- The parts of a text at the first occurrence, by induction on what is before it. -/
theorem FirstAt.parts (first : FirstAt pattern front back text)
    : text = front ++ (pattern ++ back) := by
  induction first with
  | here => rfl
  | later _ _ ih => rw [ih, List.cons_append]

/-- A pattern that occurs has a first occurrence, by induction on the text. -/
theorem exists_firstAt (occurs : pattern <:+: text)
    : ∃ front back, FirstAt pattern front back text := by
  induction text with
  | nil =>
      obtain rfl := List.infix_nil.mp occurs
      exact ⟨[], [], .here⟩
  | cons item text ih =>
      by_cases starts : pattern <+: item :: text
      · obtain ⟨back, parts⟩ := starts
        rw [← parts]
        exact ⟨[], back, .here⟩
      · obtain ⟨front, back, first⟩ := ih ((List.infix_cons_iff.mp occurs).resolve_left starts)
        exact ⟨item :: front, back, .later starts first⟩

/-- There is one first occurrence, by induction on it. -/
theorem FirstAt.unique {front' back' : List α} (first : FirstAt pattern front back text)
    (other : FirstAt pattern front' back' text)
    : front = front' ∧ back = back' := by
  induction first generalizing front' with
  | @here back =>
      generalize whole : pattern ++ back = text at other
      cases other with
      | here => exact ⟨rfl, List.append_cancel_left whole⟩
      | later absent _ => exact absurd ⟨back, whole⟩ absent
  | @later item front back text absent rest ih =>
      generalize whole : item :: text = again at other
      cases other with
      | here => exact absurd ⟨back', whole.symm⟩ absent
      | later _ rest' =>
          obtain ⟨rfl, rfl⟩ := List.cons.inj whole
          obtain ⟨rfl, rfl⟩ := ih rest'
          exact ⟨rfl, rfl⟩

/-- What has a first occurrence occurs. -/
theorem FirstAt.occurs (first : FirstAt pattern front back text) : pattern <:+: text :=
  ⟨front, back, by rw [first.parts, List.append_assoc]⟩

/-- A tail of a text: all of it, or what follows a separator in it. -/
def IsTail (separator : α) (tail text : List α) : Prop :=
  tail = text ∨ separator :: tail <:+ text

theorem IsTail.refl (separator : α) (text : List α) : IsTail separator text text := .inl rfl

/-- A suffix of two texts together is one of the second, or reaches into the first. -/
theorem suffix_append_iff
    : word <:+ front ++ back
      ↔ word <:+ back ∨ ∃ part, part ≠ [] ∧ part <:+ front ∧ word = part ++ back := by
  constructor
  · rintro ⟨before, parts⟩
    obtain ⟨part, rfl, rfl⟩ | ⟨part, rfl, rfl⟩ := List.append_eq_append_iff.mp parts
    · by_cases whole : part = []
      · subst whole
        exact .inl (by simp)
      · exact .inr ⟨part, whole, List.suffix_append _ _, rfl⟩
    · exact .inl (List.suffix_append _ _)
  · rintro (inside | ⟨part, -, ⟨before, rfl⟩, rfl⟩)
    · exact List.suffix_append_of_suffix inside
    · exact ⟨before, by rw [List.append_assoc]⟩

/-- A tail of two texts together follows a separator in the second, or is the second as far as it
begins a tail, or reaches into the first.
-/
theorem isTail_append_iff
    : IsTail separator tail (front ++ back)
      ↔ separator :: tail <:+ back
        ∨ tail = back ∧ (front = [] ∨ [separator] <:+ front)
        ∨ ∃ part, part ≠ [] ∧ IsTail separator part front ∧ tail = part ++ back := by
  unfold IsTail
  rw [suffix_append_iff]
  constructor
  · rintro (rfl | inside | ⟨part, some_item, ends, shape⟩)
    · by_cases empty : front = []
      · subst empty
        exact .inr (.inl ⟨rfl, .inl rfl⟩)
      · exact .inr (.inr ⟨front, empty, .inl rfl, rfl⟩)
    · exact .inl inside
    · cases part with
      | nil => exact absurd rfl some_item
      | cons item part =>
          obtain ⟨rfl, rfl⟩ := List.cons.inj shape
          by_cases empty : part = []
          · subst empty
            exact .inr (.inl ⟨rfl, .inr ends⟩)
          · exact .inr (.inr ⟨part, empty, .inr ends, rfl⟩)
  · rintro (inside | ⟨rfl, rfl | ends⟩ | ⟨part, some_item, rfl | ends, rfl⟩)
    · exact .inr (.inl inside)
    · exact .inl rfl
    · exact .inr (.inr ⟨[separator], by simp, ends, rfl⟩)
    · exact .inl rfl
    · exact .inr (.inr ⟨separator :: part, by simp, ends, rfl⟩)

/-- After a word that ends with a separator, the tails that do not hold the word are the rest of
the text and its own tails.
-/
theorem isTail_append_word_iff (free : separator ∉ word)
    (clear : ¬word ++ [separator] <:+: tail)
    : IsTail separator tail (front ++ (word ++ [separator] ++ back))
      ↔ separator :: tail <:+ back ∨ tail = back := by
  have holds {part : List α} : tail ≠ part ++ (word ++ [separator] ++ back) := by
    rintro rfl
    exact clear ⟨part, back, by simp⟩
  have inner : separator :: tail <:+ word ++ [separator] ++ back
      ↔ separator :: tail <:+ back ∨ tail = back := by
    rw [suffix_append_iff]
    refine or_congr_right ⟨?_, ?_⟩
    · rintro ⟨part, some_item, ends, shape⟩
      cases part with
      | nil => exact absurd rfl some_item
      | cons item part =>
          obtain ⟨rfl, rfl⟩ := List.cons.inj shape
          obtain none | ⟨before, shape, ends⟩ := List.suffix_concat_iff.mp ends
          · cases none
          · cases before with
            | nil =>
                obtain rfl := (List.cons.inj shape).2
                exact rfl
            | cons first before =>
                obtain ⟨rfl, -⟩ := List.cons.inj shape
                exact absurd (ends.mem List.mem_cons_self) free
    · rintro rfl
      exact ⟨[separator], by simp, by simp, rfl⟩
  rw [isTail_append_iff, inner]
  constructor
  · rintro (inside | ⟨same, -⟩ | ⟨part, -, -, same⟩)
    · exact inside
    · exact absurd same (@holds [])
    · exact absurd same holds
  · exact .inl

-----------------------------------------------------------------------------------------
-- Overlaps
-----------------------------------------------------------------------------------------

/-- Two words are the same as far as both go. -/
def Agree (word other : List α) : Prop := word <+: other ∨ other <+: word

/-- Two words can share a part of a text that both stand in: one begins within the other, and agrees
with what is left of it.
-/
def Overlaps (word other : List α) : Prop :=
  (∃ n < other.length, Agree word (other.drop n)) ∨ ∃ n < word.length, Agree other (word.drop n)

instance [DecidableEq α] (word other : List α) : Decidable (Agree word other) :=
  inferInstanceAs (Decidable (_ ∨ _))

instance [DecidableEq α] (word other : List α) : Decidable (Overlaps word other) :=
  inferInstanceAs (Decidable ((∃ n < other.length, Agree word (other.drop n)) ∨ _))

/-- Words that a text goes on with agree. -/
theorem agree_of_append {word other rest back : List α} (same : word ++ rest = other ++ back)
    : Agree word other :=
  List.prefix_or_prefix_of_prefix (List.prefix_append word rest)
    (same ▸ List.prefix_append other back)

/-- Of two beginnings of a text the longer one goes on with what stands behind the shorter one. -/
theorem exists_middle {first rest : List α} (same : front ++ back = first ++ rest)
    (shorter : front.length ≤ first.length)
    : ∃ middle, first = front ++ middle ∧ back = middle ++ rest := by
  rcases List.append_eq_append_iff.mp same with ⟨middle, parts, later⟩ | ⟨middle, rfl, later⟩
  · exact ⟨middle, parts, later⟩
  · rw [List.length_append] at shorter
    obtain rfl := List.eq_nil_of_length_eq_zero (show middle.length = 0 by omega)
    exact ⟨[], by rw [List.append_nil, List.append_nil], later.symm⟩

/-- Of two words that stand in a text one ends before the other begins, unless they overlap. -/
theorem apart_or_overlaps {first other rest : List α}
    (same : front ++ (word ++ back) = first ++ (other ++ rest))
    : front.length + word.length ≤ first.length
      ∨ first.length + other.length ≤ front.length
      ∨ Overlaps word other := by
  rcases List.append_eq_append_iff.mp same with ⟨middle, rfl, later⟩ | ⟨middle, rfl, later⟩
  · -- the other word does not begin before the first one
    by_cases inside : middle.length < word.length
    · have part : word.drop middle.length ++ back = other ++ rest := by
        have dropped := congrArg (List.drop middle.length) later
        rwa [List.drop_append_of_le_length (Nat.le_of_lt inside), List.drop_left] at dropped
      exact .inr (.inr (.inr ⟨middle.length, inside, agree_of_append part.symm⟩))
    · left
      rw [List.length_append]
      omega
  · by_cases inside : middle.length < other.length
    · have part : other.drop middle.length ++ rest = word ++ back := by
        have dropped := congrArg (List.drop middle.length) later
        rwa [List.drop_append_of_le_length (Nat.le_of_lt inside), List.drop_left] at dropped
      exact .inr (.inr (.inl ⟨middle.length, inside, agree_of_append part.symm⟩))
    · right
      left
      rw [List.length_append]
      omega

end WebIndexer.Library
