import WebIndexer.Library.Trimming

/-! A text whose runs of blanks become single ones. Trimmed, it is the words of the text with one
blank between any two.
-/

namespace WebIndexer.Library

variable {α : Type*} {blank : α → Bool} {space : α}

/-- Each run of blanks becomes one `space`; `inRun` tells that the last item was a blank. -/
def collapsed (blank : α → Bool) (space : α) (inRun : Bool) : List α → List α
  | [] => []
  | item :: text =>
      if blank item then
        if inRun then collapsed blank space true text else space :: collapsed blank space true text
      else
        item :: collapsed blank space false text

/-- What comes before a word matters to the first blank only. -/
theorem collapsed_word {word : List α} (free : ∀ item ∈ word, blank item = false)
    (some_item : word ≠ []) (inRun : Bool) (rest : List α)
    : collapsed blank space inRun (word ++ rest) = word ++ collapsed blank space false rest := by
  induction word generalizing inRun with
  | nil => exact absurd rfl some_item
  | cons item word ih =>
      obtain ⟨sound, others⟩ := List.forall_mem_cons.mp free
      rw [List.cons_append, collapsed, if_neg (by simp [sound]), List.cons_append]
      cases word with
      | nil => rfl
      | cons next word => rw [ih others (List.cons_ne_nil _ _)]

/-- Words are put one after the other with a blank in between. -/
theorem intercalate_cons (space : α) (word : List α) {words : List (List α)}
    (more : words ≠ [])
    : [space].intercalate (word :: words) = word ++ space :: [space].intercalate words := by
  obtain ⟨next, others, rfl⟩ := List.exists_cons_of_ne_nil more
  simp [List.intercalate]

/-- Behind a blank, the words with single blanks are left, and a blank where the text ends with one,
by induction on the words.
-/
theorem collapsed_behind (text : List α)
    : ∃ back, collapsed blank space true text
        = [space].intercalate (wordsOf blank text) ++ back
      ∧ (∀ item ∈ back, item = space) ∧ (wordsOf blank text = [] → back = []) := by
  induction text using separated_induction blank with
  | single word free =>
      by_cases empty : word = []
      · subst empty
        exact ⟨[], rfl, by simp, fun _ => rfl⟩
      · refine ⟨[], ?_, by simp, fun _ => rfl⟩
        have whole := @collapsed_word α blank space word free empty true []
        rw [List.append_nil] at whole
        rw [whole, wordsOf_word free empty]
        simp [collapsed, List.intercalate]
  | more word separator rest free separated ih =>
      obtain ⟨back, same, spaces, none⟩ := ih
      rw [wordsOf_append_cons separated]
      by_cases empty : word = []
      · subst empty
        refine ⟨back, ?_, spaces, none⟩
        rw [List.nil_append, collapsed, if_pos separated, if_pos rfl]
        exact same
      · rw [collapsed_word free empty, collapsed, if_pos separated, if_neg Bool.false_ne_true, same,
          wordsOf_word free empty, List.singleton_append]
        by_cases last : wordsOf blank rest = []
        · refine ⟨[space], ?_, by simp, by simp⟩
          rw [last, none last]
          simp [List.intercalate]
        · refine ⟨back, ?_, spaces, by simp⟩
          rw [intercalate_cons space word last, List.append_assoc, List.cons_append]

/-- Words with single blanks between them neither begin nor end with a blank, by induction on the
words.
-/
theorem isTrimmed_intercalate {words : List (List α)}
    (proper : ∀ word ∈ words, word ≠ [] ∧ ∀ item ∈ word, blank item = false)
    : IsTrimmed blank ([space].intercalate words) := by
  induction words with
  | nil => exact ⟨by simp [List.intercalate], by simp [List.intercalate]⟩
  | cons word words ih =>
      obtain ⟨⟨some_item, free⟩, others⟩ := List.forall_mem_cons.mp proper
      obtain ⟨head, tail, rfl⟩ := List.exists_cons_of_ne_nil some_item
      by_cases single : words = []
      · subst single
        have alone : [space].intercalate [head :: tail] = head :: tail := by
          simp [List.intercalate]
        rw [alone]
        exact ⟨fun item first => free item (List.mem_of_mem_head? first),
          fun item last => free item (List.mem_of_mem_getLast? last)⟩
      · rw [intercalate_cons space _ single]
        constructor
        · intro item first
          exact free item (by simp_all)
        · intro item last
          obtain ⟨next, words, rfl⟩ := List.exists_cons_of_ne_nil single
          have some_last : [space].intercalate (next :: words) ≠ [] := by
            obtain ⟨next_some, _⟩ := others next List.mem_cons_self
            obtain ⟨first, more, rfl⟩ := List.exists_cons_of_ne_nil next_some
            cases words with
            | nil => simp [List.intercalate]
            | cons => simp [List.intercalate]
          rw [List.getLast?_append, List.getLast?_cons,
            List.getLast?_eq_some_getLast some_last] at last
          refine (ih others).last item ?_
          rw [List.getLast?_eq_some_getLast some_last]
          simpa using last

/-- Blanks around a text are trimmed away, and nothing else is. -/
theorem trimmed_between {front text back : List α} (ends : IsTrimmed blank text)
    (front_blank : ∀ item ∈ front, blank item = true)
    (back_blank : ∀ item ∈ back, blank item = true)
    : trimmed blank (front ++ (text ++ back)) = text := by
  have start : (front ++ (text ++ back)).dropWhile blank = (text ++ back).dropWhile blank :=
    List.dropWhile_append_of_pos front_blank
  have finish : trimmed blank (text ++ back) = trimmed blank text := by
    rw [← trimmed_rdropWhile blank (text ++ back), ← trimmed_rdropWhile blank text]
    congr 1
    rw [List.rdropWhile, List.reverse_append, List.dropWhile_append_of_pos]
    · rfl
    · exact fun item member => back_blank item (List.mem_reverse.mp member)
  rw [trimmed, start]
  exact finish.trans ends.trimmed_eq

/-- Collapsed and trimmed, a text is its words with a single blank between any two. -/
theorem trimmed_collapsed (is_blank : blank space = true) (text : List α)
    : trimmed blank (collapsed blank space false text)
      = [space].intercalate (wordsOf blank text) := by
  obtain ⟨back, same, spaces, _⟩ := @collapsed_behind α blank space text
  have ends := @isTrimmed_intercalate α blank space _ fun _ => @proper_of_mem_wordsOf α blank text _
  have back_blank : ∀ item ∈ back, blank item = true := by
    intro item member
    rw [spaces item member]
    exact is_blank
  cases text with
  | nil => rfl
  | cons item text =>
      cases sound : blank item with
      | true =>
          have behind : collapsed blank space false (item :: text)
              = [space] ++ collapsed blank space true (item :: text) := by
            simp [collapsed, sound]
          rw [behind, same]
          exact trimmed_between ends (by simpa using is_blank) back_blank
      | false =>
          have behind : collapsed blank space false (item :: text)
              = [] ++ collapsed blank space true (item :: text) := by
            simp [collapsed, sound]
          rw [behind, same]
          exact trimmed_between ends (by simp) back_blank

end WebIndexer.Library
