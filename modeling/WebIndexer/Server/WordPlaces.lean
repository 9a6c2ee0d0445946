import WebIndexer.Library.MarkPlaces
import WebIndexer.Library.Occurrences
import WebIndexer.Server.HighlightedText

/-! Texts and words for which `hl` of `src/html.ts` does what it is for, by where the words stand in
the escaped text: the loop for a word finds whole characters first, and no more of the word so far
behind them that it looks there; and no word is found in the tags around those before it.
-/

namespace WebIndexer.Server

open WebIndexer.Library
open WebIndexer.Runtime

-----------------------------------------------------------------------------------------
-- The condition
-----------------------------------------------------------------------------------------

/-- Where a word stands in the escaped text, up to letter case. -/
def places (case : LetterCase) (text w : List Nat) : List Nat :=
  (List.range (case.toLowerCase (escUnits text)).length).filter fun i =>
    (case.toLowerCase w).isPrefixOf ((case.toLowerCase (escUnits text)).drop i)

/-- Where the escaped characters of a text begin and end. -/
def borders (text : List Nat) : List Nat :=
  (List.range (text.length + 1)).map fun n => (escUnits (text.take n)).length

/-- A piece of the escaped text is made of whole characters. -/
def IsWhole (text : List Nat) (i length : Nat) : Prop :=
  i ∈ borders text ∧ i + length ∈ borders text

/-- A tag around one of some words would part a piece of the escaped text. -/
def Parted (case : LetterCase) (text : List Nat) (earlier : List (List Nat)) (i length : Nat)
    : Prop :=
  ∃ u ∈ earlier, ∃ p ∈ places case text u,
    (i < p ∧ p < i + length) ∨ (i < p + u.length ∧ p + u.length < i + length)

/-- The most units that the tags around some words, one of each, put between two places. -/
def tagsBetween (case : LetterCase) (text : List Nat) (earlier : List (List Nat)) (i j : Nat)
    : Nat :=
  openTag.length * earlier.countP (fun u =>
      (places case text u).any fun p => decide (i < p ∧ p ≤ j))
    + closeTag.length * earlier.countP fun u =>
      (places case text u).any fun p => decide (i < p + u.length ∧ p + u.length ≤ j)

/-- A word can be marked after others. It overlaps no tag, if there is one. Where it does not stand
on whole characters, it stands on some before, which no tag parts. It stands at no two places so
far apart, with the tags between them, that the loop, which goes on behind the first one and a
pair of tags, would come to the second.
-/
structure Findable (case : LetterCase) (text : List Nat) (earlier : List (List Nat))
    (w : List Nat)
    : Prop where
  tagless
    : (∃ u ∈ earlier, places case text u ≠ []) →
        ∀ tag ∈ [openTag, closeTag], ¬Overlaps (case.toLowerCase w) (case.toLowerCase tag)
  whole
    : ∀ j ∈ places case text w,
        IsWhole text j w.length
        ∨ ∃ i ∈ places case text w,
            i < j ∧ IsWhole text i w.length ∧ ¬Parted case text earlier i w.length
  near
    : ∀ i ∈ places case text w, ∀ j ∈ places case text w, i < j →
        j + tagsBetween case text earlier i j
          < i + w.length + (openTag.length + closeTag.length)

/-- Each word can be marked after those before it. -/
def EachFindable (case : LetterCase) (text : List Nat)
    : List (List Nat) → List (List Nat) → Prop
  | _, [] => True
  | earlier, w :: later =>
      Findable case text earlier w ∧ EachFindable case text (earlier ++ [w]) later

/-- The code units of a text, of its tags and of words. -/
def alphabet (text : List Nat) (words : List (List Nat)) : List Nat :=
  escUnits text ++ openTag ++ closeTag ++ words.flatten

/-- Lower case goes unit by unit, for texts of some units. -/
def LowersUnits (case : LetterCase) (units : List Nat) (lower : Nat → Nat) : Prop :=
  ∀ text, text ⊆ units → case.toLowerCase text = text.map lower

/-- Words can be highlighted in a text: letter case goes unit by unit, and each word can be marked
after those before it.
-/
structure Highlightable (case : LetterCase) (text : List Nat) (words : List (List Nat))
    : Prop where
  lowers : ∃ lower, LowersUnits case (alphabet text words) lower
  findable : EachFindable case text [] words

instance (text : List Nat) (i length : Nat) : Decidable (IsWhole text i length) :=
  inferInstanceAs (Decidable (_ ∧ _))

instance (case : LetterCase) (text : List Nat) (earlier : List (List Nat)) (i length : Nat)
    : Decidable (Parted case text earlier i length) :=
  inferInstanceAs (Decidable (∃ u ∈ earlier, ∃ p ∈ places case text u, _ ∨ _))

instance (case : LetterCase) (text : List Nat) (earlier : List (List Nat)) (w : List Nat)
    : Decidable (Findable case text earlier w) :=
  decidable_of_iff
    (((∃ u ∈ earlier, places case text u ≠ []) →
        ∀ tag ∈ [openTag, closeTag], ¬Overlaps (case.toLowerCase w) (case.toLowerCase tag))
      ∧ (∀ j ∈ places case text w,
          IsWhole text j w.length
          ∨ ∃ i ∈ places case text w,
              i < j ∧ IsWhole text i w.length ∧ ¬Parted case text earlier i w.length)
      ∧ ∀ i ∈ places case text w, ∀ j ∈ places case text w, i < j →
          j + tagsBetween case text earlier i j
            < i + w.length + (openTag.length + closeTag.length))
    ⟨fun both => ⟨both.1, both.2.1, both.2.2⟩, fun all => ⟨all.tagless, all.whole, all.near⟩⟩

instance decidableEachFindable (case : LetterCase) (text : List Nat)
    : (earlier words : List (List Nat)) → Decidable (EachFindable case text earlier words)
  | _, [] => .isTrue trivial
  | earlier, w :: later =>
      let _ := decidableEachFindable case text (earlier ++ [w]) later
      inferInstanceAs (Decidable (Findable case text earlier w ∧ _))

-----------------------------------------------------------------------------------------
-- Sizes
-----------------------------------------------------------------------------------------

/-- How many units a character of the escaped text has. -/
def escSize (unit : Nat) : Nat := (escUnit unit).length

theorem escSize_pos (unit : Nat) : 0 < escSize unit := by
  have parts := readToken_tokenUnits (.item unit) []
  refine List.length_pos_of_ne_nil fun empty => ?_
  rw [tokenUnits, empty] at parts
  cases parts

theorem escUnits_append (first second : List Nat)
    : escUnits (first ++ second) = escUnits first ++ escUnits second :=
  List.flatMap_append

/-- The items of a text take as many units as their escaped text has. -/
theorem extent_escSize (tokens : List (Token Nat))
    : extent escSize tokens = (escUnits (itemsOf tokens)).length := by
  induction tokens with
  | nil => rfl
  | cons token rest ih =>
      cases token with
      | opening | closing => exact ih
      | item unit =>
          rw [extent, ih]
          exact List.length_append.symm

theorem extent_items (units : List Nat)
    : extent escSize (units.map Token.item) = (escUnits units).length := by
  rw [extent_escSize, itemsOf_items]

/-- The tags make a text longer. -/
theorem length_render (tokens : List (Token Nat))
    : (render tokens).length
      = extent escSize tokens + openTag.length * tokens.countP Token.isOpening
        + closeTag.length * tokens.countP Token.isClosing := by
  induction tokens with
  | nil => rfl
  | cons token rest ih =>
      have units : (render (token :: rest)).length
          = (tokenUnits token).length + (render rest).length :=
        List.length_append
      rw [units, ih, extent_cons escSize token, List.countP_cons, List.countP_cons]
      cases token with
      | item unit =>
          have size : extent escSize [Token.item unit] = (tokenUnits (.item unit)).length := rfl
          simp only [size, Token.isOpening, Token.isClosing, Bool.false_eq_true, if_false,
            Nat.add_zero]
          omega
      | opening =>
          have size : extent escSize [(Token.opening : Token Nat)] = 0 := rfl
          simp only [size, Token.isOpening, Token.isClosing, Bool.false_eq_true, if_false, if_true,
            tokenUnits, Nat.mul_add, Nat.mul_one, Nat.mul_zero]
          omega
      | closing =>
          have size : extent escSize [(Token.closing : Token Nat)] = 0 := rfl
          simp only [size, Token.isOpening, Token.isClosing, Bool.false_eq_true, if_false, if_true,
            tokenUnits, Nat.mul_add, Nat.mul_one, Nat.mul_zero]
          omega

/-- A markup has the units of the escaped text and of the tags. -/
theorem render_subset (tokens : List (Token Nat))
    : render tokens ⊆ escUnits (itemsOf tokens) ++ openTag ++ closeTag := by
  intro unit member
  obtain ⟨token, among, inside⟩ := List.mem_flatMap.mp member
  cases token with
  | opening => exact List.mem_append_left _ (List.mem_append_right _ inside)
  | closing => exact List.mem_append_right _ inside
  | item value =>
      obtain ⟨front, back, rfl⟩ := List.append_of_mem among
      have kept : value ∈ itemsOf (front ++ .item value :: back) := by
        rw [itemsOf_append]
        exact List.mem_append_right _ List.mem_cons_self
      exact List.mem_append_left _ (List.mem_append_left _
        (List.mem_flatMap.mpr ⟨value, kept, inside⟩))

/-- Where a place of the escaped text is in the text with tags. -/
def indexIn (tokens : List (Token Nat)) (p : Nat) : Nat :=
  p + openTag.length * (spots escSize Token.isOpening 0 tokens).countP (· ≤ p)
    + closeTag.length * (spots escSize Token.isClosing 0 tokens).countP (· ≤ p)

/-- A place within a run of characters. -/
theorem indexIn_run {front back : List (Token Nat)} {units : List Nat} {n : Nat}
    (inside : n < (escUnits units).length)
    : indexIn (front ++ units.map .item ++ back) (extent escSize front + n)
      = (render front).length + n := by
  rw [← extent_items] at inside
  have late := Nat.add_lt_add_left inside (extent escSize front)
  rw [indexIn, countP_spots_le (fun _ => rfl) (Nat.le_add_right _ _) late,
    countP_spots_le (fun _ => rfl) (Nat.le_add_right _ _) late, length_render]
  omega

/-- The numbers up to a bound are those up to a smaller one, and those between. -/
theorem countP_le_add (spots : List Nat) {i j : Nat} (later : i ≤ j)
    : spots.countP (· ≤ j)
      = spots.countP (· ≤ i) + spots.countP (fun spot => decide (i < spot ∧ spot ≤ j)) := by
  induction spots with
  | nil => rfl
  | cons spot spots ih =>
      simp only [List.countP_cons, ih, decide_eq_true_eq]
      split <;> split <;> split <;> omega

/-- What comes later in the escaped text does so in the text with tags. -/
theorem indexIn_strictMono (tokens : List (Token Nat)) {i j : Nat} (later : i < j)
    : indexIn tokens i < indexIn tokens j := by
  have bounds := Nat.le_of_lt later
  rw [indexIn, indexIn, countP_le_add _ bounds, countP_le_add (spots _ Token.isClosing 0 _) bounds,
    Nat.mul_add, Nat.mul_add]
  omega

-----------------------------------------------------------------------------------------
-- Where a word is found
-----------------------------------------------------------------------------------------

/-- A part of a text that overlaps no tag in it lies within a run of characters, by induction on the
text behind a run.
-/
theorem run_of_part {lower : Nat → Nat} {part before after run : List Nat}
    {tokens : List (Token Nat)}
    (apart : ∀ token ∈ tokens, token.isMark → ¬Overlaps part ((tokenUnits token).map lower))
    (same : (escUnits run ++ render tokens).map lower = before ++ (part ++ after))
    : ∃ front units back first last,
        run.map .item ++ tokens = front ++ units.map .item ++ back
        ∧ before = (render front).map lower ++ first
        ∧ (escUnits units).map lower = first ++ (part ++ last) := by
  induction tokens generalizing run before with
  | nil =>
      refine ⟨[], run, [], before, after, ?_, rfl, ?_⟩
      · rw [List.nil_append]
      · rw [← same, show render [] = [] from rfl, List.append_nil]
  | cons token tokens ih =>
      obtain ⟨token_apart, tokens_apart⟩ := List.forall_mem_cons.mp apart
      have whole : (escUnits run).map lower
          ++ ((tokenUnits token).map lower ++ (render tokens).map lower)
          = before ++ (part ++ after) := by
        rw [← same, ← List.map_append, ← List.map_append]
        rfl
      by_cases tag : token.isMark
      · rcases apart_or_overlaps whole.symm with inside | behind | overlapping
        · -- the part ends before the tag
          rw [← List.append_assoc before] at whole
          obtain ⟨last, parts, -⟩ := exists_middle whole.symm (by rwa [List.length_append])
          refine ⟨[], run, token :: tokens, before, last, rfl, rfl, ?_⟩
          rw [parts, List.append_assoc]
        · -- it begins behind the tag
          rw [← List.append_assoc] at whole
          obtain ⟨middle, rfl, rest⟩ := exists_middle whole (by rwa [List.length_append])
          obtain ⟨front, units, back, first, last, parts, rfl, piece⟩ :=
            @ih middle [] tokens_apart rest
          rw [List.map_nil, List.nil_append] at parts
          refine ⟨run.map .item ++ token :: front, units, back, first, last, ?_, ?_, piece⟩
          · rw [parts]
            simp only [List.append_assoc, List.cons_append]
          · rw [render_append, render_items, List.map_append, ← List.append_assoc]
            congr 1
            rw [List.append_assoc, ← List.map_append]
            rfl
        · exact absurd overlapping (token_apart tag)
      · cases token with
        | opening | closing => exact absurd rfl tag
        | item unit =>
            have moved : (escUnits (run ++ [unit]) ++ render tokens).map lower
                = before ++ (part ++ after) := by
              rw [← same, escUnits_append, List.append_assoc]
              exact congrArg (fun units => (escUnits run ++ units).map lower)
                (congrArg (· ++ render tokens) (List.append_nil _))
            obtain ⟨front, units, back, first, last, parts, rest⟩ := ih tokens_apart moved
            refine ⟨front, units, back, first, last, ?_, rest⟩
            rw [← parts, List.map_append, List.append_assoc]
            rfl

/-- A word that is not empty stands where the text goes on with it. -/
theorem mem_places_iff {case : LetterCase} {text w : List Nat} {i : Nat} (some_unit : w ≠ [])
    : i ∈ places case text w
      ↔ ∃ before after, before.length = i
          ∧ case.toLowerCase (escUnits text) = before ++ (case.toLowerCase w ++ after) := by
  have lower_unit := case.toLowerCase_ne_nil some_unit
  rw [places, List.mem_filter, List.mem_range, List.isPrefixOf_iff_prefix]
  constructor
  · rintro ⟨inside, after, behind⟩
    refine ⟨(case.toLowerCase (escUnits text)).take i, after, ?_, ?_⟩
    · rw [List.length_take, Nat.min_eq_left (Nat.le_of_lt inside)]
    · rw [behind, List.take_append_drop]
  · rintro ⟨before, after, rfl, parts⟩
    rw [parts, List.drop_left]
    refine ⟨?_, List.prefix_append _ _⟩
    have some_length := List.length_pos_of_ne_nil lower_unit
    rw [List.length_append, List.length_append]
    omega

/-- A text is found no later than where it stands. -/
theorem indexOf_earliest {ls lw : List Nat} {i : Nat} (found : indexOf ls lw 0 = some i)
    {before after : List Nat} (parts : ls = before ++ (lw ++ after))
    : i ≤ before.length := by
  rw [indexOf, List.find?_range'_eq_some, List.mem_range'_1] at found
  obtain ⟨-, bounds, earliest⟩ := found
  by_contra earlier
  have absent := earliest before.length (by omega) (Nat.lt_of_not_le earlier)
  rw [parts, List.drop_left, List.isPrefixOf_iff_prefix.mpr (List.prefix_append _ _)] at absent
  cases absent

/-- A text that is not empty is found from an index on where it stands. -/
theorem indexOf_some {ls lw : List Nat} {start i : Nat} (some_unit : lw ≠ [])
    (found : indexOf ls lw start = some i)
    : start ≤ i ∧ ∃ before after, before.length = i ∧ ls = before ++ (lw ++ after) := by
  have bounds := indexOf_bounds some_unit found
  have here := List.find?_some found
  obtain ⟨after, behind⟩ := List.isPrefixOf_iff_prefix.mp here
  refine ⟨bounds.1, ls.take i, after, ?_, ?_⟩
  · rw [List.length_take]
    omega
  · rw [behind, List.take_append_drop]

-----------------------------------------------------------------------------------------
-- Marks
-----------------------------------------------------------------------------------------

/-- A text with tags around words of a list, which are some of the earlier words: one pair for each
of them, at a place where it stands in the escaped text.
-/
structure Tagged (case : LetterCase) (words : List (List Nat)) (text : List Nat)
    (earlier : List (List Nat)) (tokens : List (Token Nat))
    : Prop where
  marked : Marked (IsWord case words) tokens text
  marks
    : ∃ marks : List (List Nat × Nat),
        (marks.map Prod.fst).Sublist earlier
        ∧ (∀ mark ∈ marks, mark.2 ∈ places case text mark.1)
        ∧ (spots escSize Token.isOpening 0 tokens).Perm (marks.map Prod.snd)
        ∧ (spots escSize Token.isClosing 0 tokens).Perm
            (marks.map fun mark => mark.2 + mark.1.length)

section Tags

variable {case : LetterCase} {words earlier : List (List Nat)} {text w : List Nat}
  {tokens : List (Token Nat)} {i j : Nat}

/-- The escaped text has no tags. -/
theorem tagged_escaped (case : LetterCase) (words : List (List Nat)) (text : List Nat)
    : Tagged case words text [] (text.map .item) := by
  refine ⟨marked_items _ text, [], List.nil_sublist [], by simp, ?_, ?_⟩
  · rw [spots_items fun _ => rfl]
    exact List.Perm.refl []
  · rw [spots_items fun _ => rfl]
    exact List.Perm.refl []

theorem Tagged.mono (tagged : Tagged case words text earlier tokens) (w : List Nat)
    : Tagged case words text (earlier ++ [w]) tokens := by
  obtain ⟨marks, among, rest⟩ := tagged.marks
  exact ⟨tagged.marked, marks, among.trans (List.sublist_append_left _ _), rest⟩

theorem Tagged.text_eq (tagged : Tagged case words text earlier tokens) : itemsOf tokens = text :=
  tagged.marked.itemsOf_eq

/-- A tag stands where an earlier word begins or ends. -/
theorem Tagged.spot_cases (tagged : Tagged case words text earlier tokens) {spot : Nat}
    (member : spot ∈ spots escSize Token.isMark 0 tokens)
    : ∃ u ∈ earlier, ∃ p ∈ places case text u, spot = p ∨ spot = p + u.length := by
  obtain ⟨marks, among, placed, opening, closing⟩ := tagged.marks
  rcases mem_spots_isMark member with opens | closes
  · obtain ⟨mark, chosen, rfl⟩ := List.mem_map.mp (opening.mem_iff.mp opens)
    exact ⟨mark.1, among.subset (List.mem_map_of_mem chosen), mark.2, placed mark chosen, .inl rfl⟩
  · obtain ⟨mark, chosen, rfl⟩ := List.mem_map.mp (closing.mem_iff.mp closes)
    exact ⟨mark.1, among.subset (List.mem_map_of_mem chosen), mark.2, placed mark chosen, .inr rfl⟩

/-- Marks of a kind are no more than the words that can have one. -/
theorem countP_marks_le {marks : List (List Nat × Nat)} {met : List Nat × Nat → Bool}
    {near : List Nat → Bool} (among : (marks.map Prod.fst).Sublist earlier)
    (implies : ∀ mark ∈ marks, met mark → near mark.1)
    : marks.countP met ≤ earlier.countP near := by
  calc marks.countP met
      ≤ marks.countP (near ∘ Prod.fst) := List.countP_mono_left implies
    _ = (marks.map Prod.fst).countP near := List.countP_map.symm
    _ ≤ earlier.countP near := among.countP_le

/-- Tags move a place by no more than those between it and an earlier one. -/
theorem Tagged.indexIn_le (tagged : Tagged case words text earlier tokens) (later : i ≤ j)
    : indexIn tokens j + i ≤ indexIn tokens i + j + tagsBetween case text earlier i j := by
  obtain ⟨marks, among, placed, opening, closing⟩ := tagged.marks
  have opens : (spots escSize Token.isOpening 0 tokens).countP
        (fun spot => decide (i < spot ∧ spot ≤ j))
      ≤ earlier.countP fun u => (places case text u).any fun p => decide (i < p ∧ p ≤ j) := by
    rw [opening.countP_eq, List.countP_map]
    exact countP_marks_le among fun mark chosen between =>
      List.any_eq_true.mpr ⟨mark.2, placed mark chosen, between⟩
  have closes : (spots escSize Token.isClosing 0 tokens).countP
        (fun spot => decide (i < spot ∧ spot ≤ j))
      ≤ earlier.countP fun u => (places case text u).any fun p =>
          decide (i < p + u.length ∧ p + u.length ≤ j) := by
    rw [closing.countP_eq, List.countP_map]
    exact countP_marks_le among fun mark chosen between =>
      List.any_eq_true.mpr ⟨mark.2, placed mark chosen, between⟩
  have opening_units := Nat.mul_le_mul_left openTag.length opens
  have closing_units := Nat.mul_le_mul_left closeTag.length closes
  unfold indexIn tagsBetween
  rw [countP_le_add _ later, countP_le_add (spots escSize Token.isClosing 0 tokens) later,
    Nat.mul_add, Nat.mul_add]
  omega

/-- A piece of whole characters that no tag parts stands in the text with tags. -/
theorem exists_units (same : itemsOf tokens = text) {length : Nat} (some_length : 0 < length)
    (whole : IsWhole text i length)
    (free : ∀ spot ∈ spots escSize Token.isMark 0 tokens, spot ≤ i ∨ i + length ≤ spot)
    : ∃ front units back,
        tokens = front ++ units.map .item ++ back
        ∧ extent escSize front = i ∧ (escUnits units).length = length := by
  obtain ⟨begins, ends⟩ := whole
  obtain ⟨n, -, here⟩ := List.mem_map.mp begins
  obtain ⟨m, -, there⟩ := List.mem_map.mp ends
  have order : n ≤ m := by
    by_contra less
    have shorter : (escUnits (text.take m)).length ≤ (escUnits (text.take n)).length := by
      rw [← List.take_append_drop m (text.take n), List.take_take,
        Nat.min_eq_left (Nat.le_of_lt (Nat.lt_of_not_le less)), escUnits_append, List.length_append]
      exact Nat.le_add_right _ _
    omega
  have size : (escUnits ((text.take m).drop n)).length = length := by
    have parts := congrArg (fun units => (escUnits units).length)
      (List.take_append_drop n (text.take m))
    simp only [List.take_take, Nat.min_eq_left order, escUnits_append, List.length_append] at parts
    omega
  have some_unit : (text.take m).drop n ≠ [] := by
    intro empty
    rw [empty] at size
    exact absurd size (Nat.ne_of_lt some_length)
  have parts : itemsOf tokens = text.take n ++ (text.take m).drop n ++ text.drop m := by
    have first : text.take n = (text.take m).take n := by
      rw [List.take_take, Nat.min_eq_left order]
    rw [same, first, List.take_append_drop, List.take_append_drop]
  have clear : ∀ spot ∈ spots escSize Token.isMark 0 tokens,
      spot ≤ 0 + extent escSize ((text.take n).map Token.item)
      ∨ 0 + extent escSize ((text.take n).map Token.item)
          + extent escSize (((text.take m).drop n).map Token.item) ≤ spot := by
    rw [extent_items, extent_items, Nat.zero_add, here, size]
    exact free
  obtain ⟨front, back, split, items⟩ := exists_together escSize_pos some_unit parts clear
  exact ⟨front, (text.take m).drop n, back, split, by rw [extent_escSize, items, here], size⟩

end Tags

-----------------------------------------------------------------------------------------
-- One word
-----------------------------------------------------------------------------------------

section Word

variable {case : LetterCase} {words earlier : List (List Nat)} {text w : List Nat}
  {tokens : List (Token Nat)} {lower : Nat → Nat} {i : Nat}

/-- Lower case of a text with tags goes unit by unit. -/
theorem lower_render (lowers : LowersUnits case (alphabet text words) lower)
    (tagged : Tagged case words text earlier tokens)
    : case.toLowerCase (render tokens) = (render tokens).map lower := by
  refine lowers _ fun unit member => ?_
  have inside := render_subset tokens member
  rw [tagged.text_eq] at inside
  exact List.mem_append_left _ inside

theorem lower_escaped (lowers : LowersUnits case (alphabet text words) lower)
    : case.toLowerCase (escUnits text) = (escUnits text).map lower := by
  refine lowers _ fun unit member => ?_
  exact List.mem_append_left _ (List.mem_append_left _ (List.mem_append_left _ member))

theorem lower_word (lowers : LowersUnits case (alphabet text words) lower) (among : w ∈ words)
    : case.toLowerCase w = w.map lower :=
  lowers _ fun _ member => List.mem_append_right _ (List.mem_flatten_of_mem among member)

theorem lower_tag (lowers : LowersUnits case (alphabet text words) lower) {tag : List Nat}
    (is_tag : tag ∈ [openTag, closeTag])
    : case.toLowerCase tag = tag.map lower := by
  refine lowers _ fun unit member => List.mem_append_left _ ?_
  rcases List.mem_pair.mp is_tag with rfl | rfl
  · exact List.mem_append_left _ (List.mem_append_right _ member)
  · exact List.mem_append_right _ member

/-- A word that is findable overlaps none of the tags that are there. -/
theorem Findable.apart (findable : Findable case text earlier w)
    (lowers : LowersUnits case (alphabet text words) lower)
    (tagged : Tagged case words text earlier tokens)
    : ∀ token ∈ tokens, token.isMark →
        ¬Overlaps (case.toLowerCase w) ((tokenUnits token).map lower) := by
  intro token among is_mark
  have some_spot : spots escSize Token.isMark 0 tokens ≠ [] := by
    intro none
    have count := length_spots escSize Token.isMark 0 tokens
    rw [none, eq_comm] at count
    exact List.countP_eq_zero.mp count token among is_mark
  obtain ⟨spot, rest, spots_eq⟩ := List.exists_cons_of_ne_nil some_spot
  obtain ⟨u, chosen, p, placed, -⟩ := tagged.spot_cases (spots_eq ▸ List.mem_cons_self)
  have tags := findable.tagless ⟨u, chosen, List.ne_nil_of_mem placed⟩
  cases token with
  | item => cases is_mark
  | opening =>
      have first : openTag ∈ [openTag, closeTag] := List.mem_cons_self
      rw [tokenUnits, ← lower_tag lowers first]
      exact tags openTag first
  | closing =>
      have second : closeTag ∈ [openTag, closeTag] := List.mem_cons_of_mem _ List.mem_cons_self
      rw [tokenUnits, ← lower_tag lowers second]
      exact tags closeTag second

/-- A word that is found in the text with tags stands in the escaped text, and no tag parts it. -/
theorem place_of_index (lowers : LowersUnits case (alphabet text words) lower)
    (tagged : Tagged case words text earlier tokens) (some_unit : w ≠ []) (among : w ∈ words)
    (findable : Findable case text earlier w) {before after : List Nat}
    (found : case.toLowerCase (render tokens) = before ++ (case.toLowerCase w ++ after))
    : ∃ p ∈ places case text w,
        before.length = indexIn tokens p
        ∧ ∀ spot ∈ spots escSize Token.isMark 0 tokens, spot ≤ p ∨ p + w.length ≤ spot := by
  have apart := findable.apart lowers tagged
  rw [lower_render lowers tagged] at found
  obtain ⟨front, units, back, first, last, split, rfl, piece⟩ :=
    @run_of_part lower _ before after [] tokens apart found
  rw [List.map_nil, List.nil_append] at split
  have length : (escUnits units).length = first.length + (w.length + last.length) := by
    rw [← List.length_map, piece, List.length_append, List.length_append, lower_word lowers among,
      List.length_map]
  have some_length := List.length_pos_of_ne_nil some_unit
  refine ⟨extent escSize front + first.length, ?_, ?_, ?_⟩
  · refine (mem_places_iff some_unit).mpr
      ⟨(escUnits (itemsOf front)).map lower ++ first,
        last ++ (escUnits (itemsOf back)).map lower, ?_, ?_⟩
    · rw [List.length_append, List.length_map, extent_escSize]
    · rw [lower_escaped lowers, ← tagged.text_eq, split, itemsOf_append, itemsOf_append,
        itemsOf_items, escUnits_append, escUnits_append, List.map_append, List.map_append, piece]
      simp only [List.append_assoc]
  · rw [split, indexIn_run (by omega), List.length_append, List.length_map]
  · intro spot member
    rw [split] at member
    have outside := spot_outside member
    rw [extent_items] at outside
    omega

/-- A word stands in the text with tags where it does in the escaped text, if no tag parts it. -/
theorem index_of_place (lowers : LowersUnits case (alphabet text words) lower)
    (tagged : Tagged case words text earlier tokens) (some_unit : w ≠ []) (among : w ∈ words)
    (placed : i ∈ places case text w) (whole : IsWhole text i w.length)
    (free : ∀ spot ∈ spots escSize Token.isMark 0 tokens, spot ≤ i ∨ i + w.length ≤ spot)
    : ∃ front units back,
        tokens = front ++ units.map .item ++ back ∧ extent escSize front = i
        ∧ (escUnits units).length = w.length ∧ (render front).length = indexIn tokens i
        ∧ case.toLowerCase (escUnits units) = (escUnits units).map lower
        ∧ (escUnits units).map lower = case.toLowerCase w := by
  obtain ⟨front, units, back, split, here, size⟩ :=
    exists_units tagged.text_eq (List.length_pos_of_ne_nil some_unit) whole free
  have some_length : 0 < (escUnits units).length := size ▸ List.length_pos_of_ne_nil some_unit
  have index : indexIn tokens i = (render front).length := by
    rw [split, ← here]
    exact indexIn_run some_length
  have escaped : escUnits text
      = escUnits (itemsOf front) ++ (escUnits units ++ escUnits (itemsOf back)) := by
    rw [← tagged.text_eq, split, itemsOf_append, itemsOf_append, itemsOf_items, escUnits_append,
      escUnits_append, List.append_assoc]
  have inside : escUnits units ⊆ alphabet text words := by
    intro unit member
    refine List.mem_append_left _ (List.mem_append_left _ (List.mem_append_left _ ?_))
    rw [escaped]
    exact List.mem_append_right _ (List.mem_append_left _ member)
  refine ⟨front, units, back, split, here, size, index.symm, lowers _ inside, ?_⟩
  obtain ⟨before, after, length, parts⟩ := (mem_places_iff some_unit).mp placed
  rw [lower_escaped lowers, escaped, List.map_append, List.map_append] at parts
  have fronts : ((escUnits (itemsOf front)).map lower).length = before.length := by
    rw [List.length_map, ← extent_escSize, here, length]
  have behind := (List.append_inj parts fronts).2
  have pieces : ((escUnits units).map lower).length = (case.toLowerCase w).length := by
    rw [List.length_map, size, lower_word lowers among, List.length_map]
  exact (List.append_inj behind pieces).1

/-- The index that a word is found at is that of whole characters. -/
theorem found_whole (lowers : LowersUnits case (alphabet text words) lower)
    (tagged : Tagged case words text earlier tokens) (some_unit : w ≠ []) (among : w ∈ words)
    (findable : Findable case text earlier w)
    (found : indexOf (case.toLowerCase (render tokens)) (case.toLowerCase w) 0 = some i)
    : ∃ p ∈ places case text w,
        i = indexIn tokens p ∧ IsWhole text p w.length
        ∧ ∀ spot ∈ spots escSize Token.isMark 0 tokens, spot ≤ p ∨ p + w.length ≤ spot := by
  obtain ⟨-, before, after, rfl, parts⟩ := indexOf_some (case.toLowerCase_ne_nil some_unit) found
  obtain ⟨p, placed, index, free⟩ := place_of_index lowers tagged some_unit among findable parts
  refine ⟨p, placed, index, ?_, free⟩
  rcases findable.whole p placed with whole | ⟨q, placed_before, less, whole, unparted⟩
  · exact whole
  · -- the piece before it would have been found first
    have clear : ∀ spot ∈ spots escSize Token.isMark 0 tokens,
        spot ≤ q ∨ q + w.length ≤ spot := by
      intro spot member
      by_contra parts
      obtain ⟨u, chosen, place, standing, same⟩ := tagged.spot_cases member
      exact unparted ⟨u, chosen, place, standing, by omega⟩
    obtain ⟨front, units, back, split, -, -, length, -, same⟩ :=
      index_of_place lowers tagged some_unit among placed_before whole clear
    have stands : case.toLowerCase (render tokens)
        = (render front).map lower ++ (case.toLowerCase w ++ (render back).map lower) := by
      rw [lower_render lowers tagged, split, render_append, render_append, render_items,
        List.map_append, List.map_append, same, List.append_assoc]
    have bound := indexOf_earliest found stands
    rw [List.length_map, length, index] at bound
    exact absurd (indexIn_strictMono tokens less) (Nat.not_lt.mpr bound)

/-- The loop for a word comes to no second index. -/
theorem no_second (lowers : LowersUnits case (alphabet text words) lower)
    (tagged : Tagged case words text earlier tokens) (some_unit : w ≠ []) (among : w ∈ words)
    (findable : Findable case text earlier w) (placed : i ∈ places case text w)
    : nextIndex (case.toLowerCase (render tokens)) (case.toLowerCase w) w.length
        (indexIn tokens i)
      = none := by
  have lower_unit := case.toLowerCase_ne_nil some_unit
  cases found : nextIndex (case.toLowerCase (render tokens)) (case.toLowerCase w) w.length
    (indexIn tokens i) with
  | none => rfl
  | some index =>
      obtain ⟨further, before, after, rfl, parts⟩ := indexOf_some lower_unit found
      obtain ⟨j, placed_there, index, -⟩ :=
        place_of_index lowers tagged some_unit among findable parts
      rw [index] at further
      have later : i < j := by
        by_contra order
        rcases Nat.lt_or_eq_of_le (Nat.not_lt.mp order) with less | rfl
        · have smaller := indexIn_strictMono tokens less
          omega
        · have tag : 0 < openTag.length := by decide
          omega
      have near := findable.near i placed j placed_there later
      have moved := tagged.indexIn_le (Nat.le_of_lt later)
      omega

/-- The loop marks a word at one index, or at none. -/
theorem wordIndexes_of_found (some_unit : w ≠ []) {s : List Nat}
    (found : indexOf (case.toLowerCase s) (case.toLowerCase w) 0 = some i)
    (last : nextIndex (case.toLowerCase s) (case.toLowerCase w) w.length i = none)
    : wordIndexes case s w = [i] := by
  have lower_unit := case.toLowerCase_ne_nil some_unit
  have inside := (indexOf_bounds lower_unit found).2
  obtain ⟨fuel, units⟩ := Nat.exists_eq_add_one_of_ne_zero (Nat.ne_of_gt (Nat.zero_lt_of_lt inside))
  rw [wordIndexes, found, units, indexes, last]
  cases fuel <;> rfl

/-- A pair of tags around characters that have no tag. -/
theorem mark_render {front back : List (Token Nat)} {units : List Nat}
    : mark (render (front ++ units.map .item ++ back)) (render front).length
        (escUnits units).length
      = render (front ++ .opening :: (units.map .item ++ .closing :: back)) := by
  have parts : render (front ++ units.map .item ++ back)
      = render front ++ (escUnits units ++ render back) := by
    rw [render_append, render_append, render_items, List.append_assoc]
  refine mark_eq_render ?_ ?_ ?_
  · rw [parts, List.take_left]
  · rw [parts, List.drop_left, List.take_left]
  · rw [parts, ← List.drop_drop, List.drop_left, List.drop_left]

/-- Marking a word that can be marked puts in one pair of tags at most, around a word. -/
theorem Tagged.marked_word (lowers : LowersUnits case (alphabet text words) lower)
    (tagged : Tagged case words text earlier tokens) (some_unit : w ≠ []) (among : w ∈ words)
    (findable : Findable case text earlier w)
    : ∃ next, Server.marked case (render tokens) w = render next
        ∧ Tagged case words text (earlier ++ [w]) next := by
  cases found : indexOf (case.toLowerCase (render tokens)) (case.toLowerCase w) 0 with
  | none =>
      refine ⟨tokens, ?_, tagged.mono w⟩
      rw [Server.marked, wordIndexes, found]
      cases (case.toLowerCase (render tokens)).length <;> rfl
  | some index =>
      obtain ⟨p, placed, rfl, whole, free⟩ :=
        found_whole lowers tagged some_unit among findable found
      obtain ⟨front, units, back, split, here, size, length, lowered, same⟩ :=
        index_of_place lowers tagged some_unit among placed whole free
      have last := no_second lowers tagged some_unit among findable placed
      refine ⟨front ++ .opening :: (units.map .item ++ .closing :: back), ?_, ?_, ?_⟩
      · rw [Server.marked, wordIndexes_of_found some_unit found last, List.foldl_cons,
          List.foldl_nil, ← length, ← size, split, mark_render]
      · have is_word : IsWord case words units :=
          ⟨w, among, case.alike_of_eq (lowered.trans same)⟩
        exact tagged.marked.insert is_word split
      · obtain ⟨marks, chosen, standing, opening, closing⟩ := tagged.marks
        refine ⟨marks ++ [(w, p)], ?_, ?_, ?_, ?_⟩
        · rw [List.map_append]
          exact chosen.append (List.Sublist.refl [w])
        · rintro mark member
          rcases List.mem_append.mp member with before | last
          · exact standing mark before
          · rw [List.mem_singleton.mp last]
            exact placed
        · rw [List.map_append]
          refine (spots_opening_insert escSize front back units).trans ?_
          rw [← split, here]
          exact (opening.cons p).trans (List.perm_append_singleton p _).symm
        · rw [List.map_append]
          refine (spots_closing_insert escSize front back units).trans ?_
          rw [← split, here, extent_items, size]
          exact (closing.cons _).trans (List.perm_append_singleton _ _).symm

end Word

/-- Marking words that can be marked, one after the other, puts in pairs of tags around words. -/
theorem Tagged.marked_words {case : LetterCase} {words later earlier : List (List Nat)}
    {text : List Nat} {tokens : List (Token Nat)} {lower : Nat → Nat}
    (lowers : LowersUnits case (alphabet text words) lower)
    (tagged : Tagged case words text earlier tokens) (some_units : ∀ w ∈ later, w ≠ [])
    (among : later ⊆ words) (findable : EachFindable case text earlier later)
    : ∃ result, later.foldl (Server.marked case) (render tokens) = render result
        ∧ Marked (IsWord case words) result text := by
  induction later generalizing earlier tokens with
  | nil => exact ⟨tokens, rfl, tagged.marked⟩
  | cons w later ih =>
      obtain ⟨some_unit, some_units⟩ := List.forall_mem_cons.mp some_units
      obtain ⟨first, others⟩ := List.cons_subset.mp among
      obtain ⟨next, marks, tagged_next⟩ := tagged.marked_word lowers some_unit first findable.1
      rw [List.foldl_cons, marks]
      exact ih tagged_next some_units others findable.2

end WebIndexer.Server
