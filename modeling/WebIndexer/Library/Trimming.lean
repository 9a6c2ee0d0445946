import WebIndexer.Library.Words
import Mathlib.Data.List.DropRight

/-! Trimming read from the front: what cutting blanks off the end of a text does to its first item,
and how trimming goes with cutting the text off at a mark.
-/

namespace WebIndexer.Library

variable {α : Type*} {blank keeps : α → Bool} {text : List α} {item : α}

/-- Cutting blanks off the end keeps an item that is none, or that such an item follows. -/
theorem rdropWhile_cons (blank : α → Bool) (item : α) (text : List α)
    : (item :: text).rdropWhile blank
      = if text.rdropWhile blank = [] ∧ blank item = true then []
        else item :: text.rdropWhile blank := by
  induction text using List.reverseRecOn with
  | nil => simp [List.rdropWhile_singleton]
  | append_singleton text last ih =>
      rw [← List.cons_append, List.rdropWhile_concat, List.rdropWhile_concat]
      cases blank last with
      | true => simpa using ih
      | false => simp

/-- An item that is no blank stays the first one. -/
theorem rdropWhile_cons_of_not (sound : blank item = false)
    : (item :: text).rdropWhile blank = item :: text.rdropWhile blank := by
  simp [rdropWhile_cons, sound]

/-- An item is left at its place when the blanks at the end are cut off exactly when it or a later
one is no blank, by induction on the text.
-/
theorem getElem?_rdropWhile_iff {count : Nat}
    : (text.rdropWhile blank)[count]? = some item
      ↔ text[count]? = some item ∧ ∃ later ∈ text.drop count, blank later = false := by
  induction text generalizing count with
  | nil => simp
  | cons head text ih =>
      rw [rdropWhile_cons]
      split
      · rename_i gone
        obtain ⟨tail_gone, head_blank⟩ := gone
        have blanks := List.rdropWhile_eq_nil_iff.mp tail_gone
        refine iff_of_false (by simp) ?_
        rintro ⟨-, later, member, sound⟩
        rcases List.mem_cons.mp (List.mem_of_mem_drop member) with rfl | member
        · exact Bool.noConfusion (sound.symm.trans head_blank)
        · exact Bool.noConfusion (sound.symm.trans (blanks later member))
      · rename_i stays
        cases count with
        | zero =>
            have sound : ∃ later ∈ head :: text, blank later = false := by
              by_contra none
              push Not at none
              have blanks : ∀ later ∈ head :: text, blank later = true := by simpa using none
              refine stays ⟨List.rdropWhile_eq_nil_iff.mpr fun later member => ?_, ?_⟩
              · exact blanks later (List.mem_cons_of_mem _ member)
              · exact blanks head List.mem_cons_self
            exact (and_iff_left sound).symm
        | succ count => simpa using ih

/-- A text that is trimmed at the end is trimmed as before, by induction on the text. -/
theorem trimmed_rdropWhile (blank : α → Bool) (text : List α)
    : trimmed blank (text.rdropWhile blank) = trimmed blank text := by
  unfold trimmed
  change ((text.rdropWhile blank).dropWhile blank).rdropWhile blank
    = (text.dropWhile blank).rdropWhile blank
  induction text with
  | nil => simp
  | cons item text ih =>
      cases sound : blank item with
      | true =>
          rw [List.dropWhile_cons_of_pos sound, ← ih, rdropWhile_cons]
          by_cases empty : text.rdropWhile blank = []
          · simp [empty, sound]
          · simp [empty, sound]
      | false =>
          rw [rdropWhile_cons_of_not sound, List.dropWhile_cons_of_neg (by simp [sound]),
            List.dropWhile_cons_of_neg (by simp [sound]), rdropWhile_cons_of_not sound,
            rdropWhile_cons_of_not sound, List.rdropWhile_idempotent]

/-- Blanks before a mark are dropped before or after the text is cut off there, by induction on the
text.
-/
theorem dropWhile_takeWhile (blanks_kept : ∀ item, blank item = true → keeps item = true)
    (text : List α)
    : (text.takeWhile keeps).dropWhile blank = (text.dropWhile blank).takeWhile keeps := by
  induction text with
  | nil => rfl
  | cons item text ih =>
      cases sound : blank item with
      | true =>
          rw [List.takeWhile_cons_of_pos (blanks_kept item sound),
            List.dropWhile_cons_of_pos sound, List.dropWhile_cons_of_pos sound, ih]
      | false =>
          rw [List.dropWhile_cons_of_neg (by simp [sound])]
          cases kept : keeps item with
          | true => simp [kept, sound]
          | false => simp [kept]

/-- An item that is no blank is not trimmed away. -/
theorem mem_trimmed (sound : blank item = false) (member : item ∈ text)
    : item ∈ trimmed blank text := by
  obtain ⟨front, back, parts, front_blank, back_blank⟩ := trimmed_spec blank text
  rw [parts, List.mem_append, List.mem_append] at member
  obtain (first | inside) | last := member
  · exact absurd (front_blank item first) (by simp [sound])
  · exact inside
  · exact absurd (back_blank item last) (by simp [sound])

/-- What is trimmed comes from the text. -/
theorem mem_of_mem_trimmed (member : item ∈ trimmed blank text) : item ∈ text := by
  obtain ⟨front, back, parts, -, -⟩ := trimmed_spec blank text
  rw [parts]
  exact List.mem_append_left _ (List.mem_append_right _ member)

/-- The first item that is no blank is found after the end is trimmed, by induction on the text. -/
theorem head?_dropWhile_rdropWhile (blank : α → Bool) (text : List α)
    : ((text.rdropWhile blank).dropWhile blank).head? = (text.dropWhile blank).head? := by
  induction text with
  | nil => simp
  | cons item text ih =>
      cases sound : blank item with
      | true =>
          rw [List.dropWhile_cons_of_pos sound, ← ih, rdropWhile_cons]
          by_cases empty : text.rdropWhile blank = []
          · simp [empty, sound]
          · simp [empty, sound]
      | false => simp [rdropWhile_cons_of_not sound, sound]

-----------------------------------------------------------------------------------------
-- Trimmed texts
-----------------------------------------------------------------------------------------

/-- A text has no blank at its ends. -/
structure IsTrimmed (blank : α → Bool) (text : List α) : Prop where
  first : ∀ item ∈ text.head?, blank item = false
  last : ∀ item ∈ text.getLast?, blank item = false

/-- Trimming a trimmed text does nothing. -/
theorem IsTrimmed.trimmed_eq (ends : IsTrimmed blank text) : trimmed blank text = text := by
  have front : text.dropWhile blank = text := by
    cases text with
    | nil => rfl
    | cons item rest =>
        have sound := ends.first item rfl
        exact List.dropWhile_cons_of_neg (by simp [sound])
  have back : text.rdropWhile blank = text := by
    rw [List.rdropWhile_eq_self_iff]
    intro some_item
    have sound := ends.last _ (List.getLast?_eq_some_getLast some_item)
    simp [sound]
  unfold trimmed
  change (text.dropWhile blank).rdropWhile blank = text
  rw [front, back]

/-- What trimming leaves is trimmed. -/
theorem isTrimmed_trimmed (blank : α → Bool) (text : List α)
    : IsTrimmed blank (trimmed blank text) := by
  unfold trimmed
  change IsTrimmed blank ((text.dropWhile blank).rdropWhile blank)
  have front : ∀ item ∈ (text.dropWhile blank).head?, blank item = false := by
    intro item first
    have fails := List.head?_dropWhile_not blank text
    rw [Option.mem_def.mp first] at fails
    simpa using fails
  constructor
  · intro item first
    obtain ⟨back, parts⟩ := List.rdropWhile_prefix blank (text.dropWhile blank)
    refine front item ?_
    rw [← parts, List.head?_append, Option.mem_def.mp first]
    rfl
  · intro item last
    have some_item : (text.dropWhile blank).rdropWhile blank ≠ [] := by
      rintro empty
      rw [empty] at last
      cases last
    have fails := List.rdropWhile_last_not blank (text.dropWhile blank) some_item
    rw [List.getLast?_eq_some_getLast some_item] at last
    rw [← Option.some.inj last]
    simpa using fails

/-- A trimmed text that is cut off stays trimmed unless a blank is the last item that is kept. -/
theorem IsTrimmed.take_succ_iff (ends : IsTrimmed blank text) (count : Nat)
    : IsTrimmed blank (text.take (count + 1)) ↔ ∀ item ∈ text[count]?, blank item = false := by
  have last : (text.take (count + 1)).getLast? = text[count]?.or text.getLast? := by
    rw [List.getLast?_take, if_neg (Nat.succ_ne_zero count), Nat.add_sub_cancel]
  constructor
  · intro cut item kept
    refine cut.last item ?_
    rw [last, Option.mem_def.mp kept]
    rfl
  · intro sound
    constructor
    · intro item first
      rw [List.head?_take, if_neg (Nat.succ_ne_zero count)] at first
      exact ends.first item first
    · intro item ending
      rw [last] at ending
      cases kept : text[count]? with
      | some other =>
          rw [kept] at ending
          rw [← Option.some.inj ending]
          exact sound other kept
      | none =>
          rw [kept] at ending
          exact ends.last item ending

end WebIndexer.Library
