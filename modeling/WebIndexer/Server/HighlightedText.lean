import WebIndexer.Library.Along
import WebIndexer.Library.Markup
import WebIndexer.Server.Highlighting

/-! What `hl` of `src/html.ts` does to a text. It takes the indexes of a word from a copy without
the tags that it puts in, so that each tag moves the pieces that it marks from then on, and it looks
for later words in the tags and entities of the text as well.
-/

namespace WebIndexer.Server

open WebIndexer.Library
open WebIndexer.Runtime

/-- The markup of a piece of a text. -/
def tokenUnits : Token Nat → List Nat
  | .item unit => escUnit unit
  | .opening => openTag
  | .closing => closeTag

/-- The markup of a text with tags. -/
def render (tokens : List (Token Nat)) : List Nat := tokens.flatMap tokenUnits

/-- Some characters are one of the words, up to letter case. -/
def IsWord (case : LetterCase) (words : List (List Nat)) (units : List Nat) : Prop :=
  ∃ w ∈ words, case.alike (escUnits units) w

/-- A markup is that of a text, with tags that are paired and enclose words. -/
def IsMarkup (case : LetterCase) (words : List (List Nat)) (text markup : List Nat) : Prop :=
  ∃ tokens, Marked (IsWord case words) tokens text ∧ markup = render tokens

/-- A word that a list of words may have. -/
abbrev Word := { w : List Nat // w ≠ [] }

/-- Highlighting ends, and puts tags into the escaped text and nothing else: paired ones, around
whole characters that are one of the words.
-/
structure Preserves (case : LetterCase) (text : List Nat) (words : List Word) : Prop where
  terminates : Terminates case text (words.map Subtype.val)
  markup : ∀ fuel result, hl case fuel text (words.map Subtype.val) = some result →
    IsMarkup case (words.map Subtype.val) text result

-----------------------------------------------------------------------------------------
-- Conditions on a piece to mark
-----------------------------------------------------------------------------------------

/-- The piece of the text that is marked next has whole characters and no tag, and is a word. -/
def Fits (case : LetterCase) (words : List (List Nat)) (s : List Nat) (i length : Nat) : Prop :=
  ∃ front units back,
    s.take i = render front ∧ (s.drop i).take length = escUnits units
    ∧ s.drop (i + length) = render back ∧ IsWord case words units

/-- The piece of the text that is marked next contains no tag. -/
def Spanless (s : List Nat) (i length : Nat) : Prop :=
  ¬ openTag <:+: (s.drop i).take length ∧ ¬ closeTag <:+: (s.drop i).take length

/-- Every piece that `hl` marks meets a condition on it and on the text as it is by then. -/
def EachPiece (case : LetterCase) (met : List Nat → Nat → Nat → Prop) (text : List Nat)
    (words : List (List Nat))
    : Prop :=
  Along (marked case)
    (fun s w =>
      Along (fun s i => mark s i w.length) (fun s i => met s i w.length) s (wordIndexes case s w))
    (escUnits text) words

-----------------------------------------------------------------------------------------
-- Reading markup
-----------------------------------------------------------------------------------------

theorem openTag_eq : openTag = [0x3C, 0x65, 0x6D, 0x3E] := by decide +kernel

theorem closeTag_eq : closeTag = [0x3C, 0x2F, 0x65, 0x6D, 0x3E] := by decide +kernel

/-- The first piece of a markup, and the rest. -/
def readToken : List Nat → Option (Token Nat × List Nat)
  | 0x3C :: 0x65 :: 0x6D :: 0x3E :: rest => some (.opening, rest)
  | 0x3C :: 0x2F :: 0x65 :: 0x6D :: 0x3E :: rest => some (.closing, rest)
  | 0x26 :: 0x61 :: 0x6D :: 0x70 :: 0x3B :: rest => some (.item 0x26, rest)
  | 0x26 :: 0x6E :: 0x62 :: 0x73 :: 0x70 :: 0x3B :: rest => some (.item 0xA0, rest)
  | 0x26 :: 0x6C :: 0x74 :: 0x3B :: rest => some (.item 0x3C, rest)
  | 0x26 :: 0x67 :: 0x74 :: 0x3B :: rest => some (.item 0x3E, rest)
  | unit :: rest => some (.item unit, rest)
  | [] => none

theorem readToken_of_plain {unit : Nat} (no_tag : unit ≠ 0x3C) (no_entity : unit ≠ 0x26)
    (rest : List Nat)
    : readToken (unit :: rest) = some (.item unit, rest) := by
  unfold readToken
  split
  · rename_i same
    exact absurd (List.cons.inj same).1 no_tag
  · rename_i same
    exact absurd (List.cons.inj same).1 no_tag
  · rename_i same
    exact absurd (List.cons.inj same).1 no_entity
  · rename_i same
    exact absurd (List.cons.inj same).1 no_entity
  · rename_i same
    exact absurd (List.cons.inj same).1 no_entity
  · rename_i same
    exact absurd (List.cons.inj same).1 no_entity
  · rename_i same
    obtain ⟨rfl, rfl⟩ := List.cons.inj same
    rfl
  · rename_i same
    cases same

/-- The entities that a text is escaped with. -/
theorem escUnit_special
    : escUnit 0x26 = [0x26, 0x61, 0x6D, 0x70, 0x3B]
      ∧ escUnit 0xA0 = [0x26, 0x6E, 0x62, 0x73, 0x70, 0x3B]
      ∧ escUnit 0x3C = [0x26, 0x6C, 0x74, 0x3B]
      ∧ escUnit 0x3E = [0x26, 0x67, 0x74, 0x3B] := by
  decide +kernel

/-- Any other unit stands for itself. -/
theorem escUnit_cases (unit : Nat)
    : unit ∈ [0x26, 0xA0, 0x3C, 0x3E]
      ∨ unit ∉ [0x26, 0xA0, 0x3C, 0x3E] ∧ escUnit unit = [unit] := by
  by_cases special : unit ∈ [0x26, 0xA0, 0x3C, 0x3E]
  · exact .inl special
  · refine .inr ⟨special, ?_⟩
    simp only [List.mem_cons, List.not_mem_nil, or_false, not_or] at special
    obtain ⟨amp, nbsp, lt, gt⟩ := special
    rw [escUnit, if_neg amp, if_neg nbsp, if_neg lt, if_neg gt]

/-- The markup of a piece is read back. -/
theorem readToken_tokenUnits (token : Token Nat) (rest : List Nat)
    : readToken (tokenUnits token ++ rest) = some (token, rest) := by
  obtain ⟨amp, nbsp, lt, gt⟩ := escUnit_special
  cases token with
  | opening => rw [tokenUnits, openTag_eq]; rfl
  | closing => rw [tokenUnits, closeTag_eq]; rfl
  | item unit =>
      rw [tokenUnits]
      rcases escUnit_cases unit with special | ⟨plain, same⟩
      · simp only [List.mem_cons, List.not_mem_nil, or_false] at special
        rcases special with rfl | rfl | rfl | rfl
        · rw [amp]; rfl
        · rw [nbsp]; rfl
        · rw [lt]; rfl
        · rw [gt]; rfl
      · simp only [List.mem_cons, List.not_mem_nil, or_false, not_or] at plain
        rw [same]
        exact readToken_of_plain plain.2.2.1 plain.1 rest

/-- Different pieces have different markup. -/
theorem render_injective : Function.Injective render := by
  intro tokens others same
  induction tokens generalizing others with
  | nil =>
      cases others with
      | nil => rfl
      | cons other others =>
          have read := readToken_tokenUnits other (render others)
          change readToken (render (other :: others)) = _ at read
          rw [← same] at read
          cases read
  | cons token tokens ih =>
      have read := readToken_tokenUnits token (render tokens)
      change readToken (render (token :: tokens)) = _ at read
      cases others with
      | nil =>
          rw [same] at read
          cases read
      | cons other others =>
          have read_other := readToken_tokenUnits other (render others)
          change readToken (render (other :: others)) = _ at read_other
          rw [same, read_other] at read
          obtain ⟨rfl, rest⟩ := Prod.mk.inj (Option.some.inj read)
          rw [ih rest.symm]

theorem render_append (tokens others : List (Token Nat))
    : render (tokens ++ others) = render tokens ++ render others :=
  List.flatMap_append

/-- The markup of items is the escaped text. -/
theorem render_items (units : List Nat) : render (units.map .item) = escUnits units :=
  List.flatMap_map ..

/-- The sign that starts a tag is in no escaped character. -/
theorem lt_not_mem_escUnit (unit : Nat) : 0x3C ∉ escUnit unit := by
  obtain ⟨amp, nbsp, lt, gt⟩ := escUnit_special
  rcases escUnit_cases unit with special | ⟨plain, same⟩
  · simp only [List.mem_cons, List.not_mem_nil, or_false] at special
    rcases special with rfl | rfl | rfl | rfl
    · rw [amp]; decide
    · rw [nbsp]; decide
    · rw [lt]; decide
    · rw [gt]; decide
  · simp only [List.mem_cons, List.not_mem_nil, or_false, not_or] at plain
    rw [same, List.mem_singleton, eq_comm]
    exact plain.2.2.1

theorem lt_not_mem_escUnits (units : List Nat) : 0x3C ∉ escUnits units := by
  intro member
  obtain ⟨unit, _, among⟩ := List.mem_flatMap.mp member
  exact lt_not_mem_escUnit unit among

/-- The sign stands behind a piece that has none. -/
theorem lt_behind {piece rest before after : List Nat} (free : 0x3C ∉ piece)
    (same : piece ++ rest = before ++ 0x3C :: after)
    : ∃ middle, before = piece ++ middle ∧ rest = middle ++ 0x3C :: after := by
  rcases List.append_eq_append_iff.mp same with ⟨middle, front, back⟩ | ⟨middle, front, back⟩
  · exact ⟨middle, front, back⟩
  · cases middle with
    | nil =>
        rw [List.append_nil] at front
        exact ⟨[], front ▸ (List.append_nil _).symm, back.symm⟩
    | cons unit middle =>
        obtain ⟨rfl, -⟩ := List.cons.inj back
        rw [front] at free
        exact absurd (List.mem_append_right before List.mem_cons_self) free

/-- A tag has the sign at its start only. -/
theorem tokenUnits_tag {tag : Token Nat} (is_tag : tag ∈ [Token.opening, .closing])
    : ∃ tail, tokenUnits tag = 0x3C :: tail ∧ 0x3C ∉ tail := by
  rcases List.mem_pair.mp is_tag with rfl | rfl
  · exact ⟨_, openTag_eq, by decide⟩
  · exact ⟨_, closeTag_eq, by decide⟩

/-- An escaped text contains no tag. -/
theorem tag_not_infix {tag : Token Nat} (is_tag : tag ∈ [Token.opening, .closing])
    (units : List Nat)
    : ¬ tokenUnits tag <:+: escUnits units := by
  obtain ⟨tail, parts, _⟩ := tokenUnits_tag is_tag
  intro contained
  rw [parts] at contained
  exact lt_not_mem_escUnits units (contained.subset List.mem_cons_self)

/-- Where a markup has the sign that starts a tag, a tag starts; induction on the pieces. -/
theorem tag_of_lt {tokens : List (Token Nat)} {before after : List Nat}
    (same : render tokens = before ++ 0x3C :: after)
    : ∃ front tag back,
        tokens = front ++ tag :: back ∧ before = render front
        ∧ tag ∈ [Token.opening, .closing] ∧ 0x3C :: after = tokenUnits tag ++ render back := by
  induction tokens generalizing before with
  | nil => exact absurd same (by simp [render])
  | cons token tokens ih =>
      change tokenUnits token ++ render tokens = before ++ 0x3C :: after at same
      have later {middle : List Nat} (parts : before = tokenUnits token ++ middle)
          (rest : render tokens = middle ++ 0x3C :: after)
          : ∃ front tag back,
              token :: tokens = front ++ tag :: back ∧ before = render front
              ∧ tag ∈ [Token.opening, .closing]
              ∧ 0x3C :: after = tokenUnits tag ++ render back := by
        obtain ⟨front, tag, back, rfl, rfl, is_tag, markup⟩ := ih rest
        exact ⟨token :: front, tag, back, rfl, parts, is_tag, markup⟩
      by_cases is_tag : token ∈ [Token.opening, .closing]
      · obtain ⟨tail, units, free⟩ := tokenUnits_tag is_tag
        cases before with
        | nil => exact ⟨[], token, tokens, rfl, rfl, is_tag, same.symm⟩
        | cons unit before =>
            rw [units] at same
            obtain ⟨rfl, tails⟩ := List.cons.inj same
            obtain ⟨middle, rfl, rest⟩ := lt_behind free tails
            exact later (by rw [units]; rfl) rest
      · cases token with
        | item unit =>
            obtain ⟨middle, parts, rest⟩ := lt_behind (lt_not_mem_escUnit unit) same
            exact later parts rest
        | opening => exact absurd List.mem_cons_self is_tag
        | closing => exact absurd (List.mem_cons_of_mem _ List.mem_cons_self) is_tag

/-- A markup without tags is that of items. -/
theorem items_of_spanless {tokens : List (Token Nat)} (no_opening : ¬ openTag <:+: render tokens)
    (no_closing : ¬ closeTag <:+: render tokens)
    : ∃ units : List Nat, tokens = units.map .item := by
  induction tokens with
  | nil => exact ⟨[], rfl⟩
  | cons token tokens ih =>
      have part : render tokens <:+: render (token :: tokens) :=
        (List.suffix_append _ _).isInfix
      obtain ⟨units, rfl⟩ := ih (fun infix_ => no_opening (infix_.trans part))
        (fun infix_ => no_closing (infix_.trans part))
      cases token with
      | item unit => exact ⟨unit :: units, rfl⟩
      | opening => exact absurd (List.prefix_append _ _).isInfix no_opening
      | closing => exact absurd (List.prefix_append _ _).isInfix no_closing

-----------------------------------------------------------------------------------------
-- One piece
-----------------------------------------------------------------------------------------

section Piece

variable {case : LetterCase} {words : List (List Nat)} {text s : List Nat} {i length : Nat}

/-- A text is what stands before a piece, the piece, and what stands behind it. -/
theorem pieces (s : List Nat) (i length : Nat)
    : s.take i ++ (s.drop i).take length ++ s.drop (i + length) = s := by
  rw [List.append_assoc, ← List.drop_drop, List.take_append_drop, List.take_append_drop]

/-- Marking characters that have no tag puts in a pair of tags. -/
theorem mark_eq_render {front back : List (Token Nat)} {units : List Nat}
    (before : s.take i = render front) (piece : (s.drop i).take length = escUnits units)
    (behind : s.drop (i + length) = render back)
    : mark s i length = render (front ++ .opening :: (units.map .item ++ .closing :: back)) := by
  have inner : render (.opening :: (units.map .item ++ .closing :: back))
      = openTag ++ (render (units.map .item ++ .closing :: back)) :=
    rfl
  have rest : render (.closing :: back) = closeTag ++ render back := rfl
  rw [Server.mark, before, piece, behind, render_append, inner, render_append, rest, render_items]
  simp only [List.append_assoc]

/-- Marking a piece that fits keeps a markup of the text one. -/
theorem IsMarkup.mark (is_markup : IsMarkup case words text s) (fits : Fits case words s i length)
    : IsMarkup case words text (mark s i length) ∧ Spanless s i length := by
  obtain ⟨tokens, marked, rfl⟩ := is_markup
  obtain ⟨front, units, back, before, piece, behind, is_word⟩ := fits
  have split : tokens = front ++ units.map .item ++ back := by
    apply render_injective
    rw [render_append, render_append, render_items, ← before, ← piece, ← behind, pieces]
  refine ⟨⟨_, marked.insert is_word split, mark_eq_render before piece behind⟩, ?_, ?_⟩
  · rw [piece]
    exact tag_not_infix List.mem_cons_self units
  · rw [piece]
    exact tag_not_infix (List.mem_cons_of_mem _ List.mem_cons_self) units

/-- A piece without a tag, whose marking gives a markup of the text, fits, and the text was one. -/
theorem IsMarkup.of_mark (is_markup : IsMarkup case words text (Server.mark s i length))
    (spanless : Spanless s i length)
    : IsMarkup case words text s ∧ Fits case words s i length := by
  obtain ⟨tokens, marked, same⟩ := is_markup
  -- the first tag that was put in
  have first : render tokens
      = s.take i ++ 0x3C :: ([0x65, 0x6D, 0x3E] ++ (s.drop i).take length ++ closeTag
        ++ s.drop (i + length)) := by
    rw [← same, Server.mark, openTag_eq]
    simp only [List.append_assoc, List.cons_append]
  obtain ⟨front, tag, rest, rfl, before, is_tag, markup⟩ := tag_of_lt first
  have opens : tag = .opening := by
    rcases List.mem_pair.mp is_tag with rfl | rfl
    · rfl
    · rw [tokenUnits, closeTag_eq] at markup
      cases (List.cons.inj (List.cons.inj markup).2).1
  subst opens
  simp only [tokenUnits, openTag_eq, List.cons_append, List.nil_append, List.append_assoc,
    List.cons.injEq, true_and] at markup
  -- the second one
  have second : render rest
      = (s.drop i).take length ++ 0x3C :: ([0x2F, 0x65, 0x6D, 0x3E] ++ s.drop (i + length)) := by
    rw [← markup, closeTag_eq]
    rfl
  obtain ⟨middle, tag, back, rfl, piece, is_tag, markup⟩ := tag_of_lt second
  have closes : tag = .closing := by
    rcases List.mem_pair.mp is_tag with rfl | rfl
    · rw [tokenUnits, openTag_eq] at markup
      cases (List.cons.inj (List.cons.inj markup).2).1
    · rfl
  subst closes
  simp only [tokenUnits, closeTag_eq, List.cons_append, List.nil_append, List.cons.injEq,
    true_and] at markup
  have behind : s.drop (i + length) = render back := markup
  obtain ⟨units, rfl⟩ := items_of_spanless (piece ▸ spanless.1) (piece ▸ spanless.2)
  rw [render_items] at piece
  obtain ⟨is_word, removed⟩ := marked.remove rfl
  refine ⟨⟨_, removed, ?_⟩, front, units, back, before, piece, behind, is_word⟩
  rw [render_append, render_append, render_items, ← before, ← piece, ← behind, pieces]

/-- A piece fits into a markup of the text if and only if marking it gives one, unless there is a
tag in the piece.
-/
theorem isMarkup_mark_iff
    : IsMarkup case words text s ∧ Fits case words s i length
      ↔ IsMarkup case words text (Server.mark s i length) ∧ Spanless s i length :=
  ⟨fun both => both.1.mark both.2, fun both => both.1.of_mark both.2⟩

end Piece

-----------------------------------------------------------------------------------------
-- All pieces
-----------------------------------------------------------------------------------------

/-- Marking a word keeps a markup of the text one exactly when each of its pieces fits, where none
has a tag in it.
-/
theorem isMarkup_marked_iff (case : LetterCase) (words : List (List Nat)) (text s w : List Nat)
    : IsMarkup case words text s
        ∧ Along (fun s i => mark s i w.length) (fun s i => Fits case words s i w.length) s
          (wordIndexes case s w)
      ↔ IsMarkup case words text (marked case s w)
        ∧ Along (fun s i => mark s i w.length) (fun s i => Spanless s i w.length) s
          (wordIndexes case s w) :=
  Along.iff_of_step (fun _ _ => isMarkup_mark_iff) s (wordIndexes case s w)

/-- So does marking words, one after the other. -/
theorem isMarkup_foldl_iff (case : LetterCase) (text : List Nat) (words : List (List Nat))
    : EachPiece case (Fits case words) text words
      ↔ IsMarkup case words text (words.foldl (marked case) (escUnits text))
        ∧ EachPiece case Spanless text words := by
  have start : IsMarkup case words text (escUnits text) :=
    ⟨text.map .item, marked_items _ text, (render_items text).symm⟩
  have run := Along.iff_of_step (isMarkup_marked_iff case words text) (escUnits text) words
  exact (and_iff_right start).symm.trans run

section Words

variable {case : LetterCase} {text : List Nat} {words : List (List Nat)}

/-- Without a text there is nothing to mark. -/
theorem marked_nil {w : List Nat} (some_unit : w ≠ []) : marked case [] w = [] := by
  have lower_unit := case.toLowerCase_ne_nil some_unit
  have lower_text : case.toLowerCase [] = [] := case.toLowerCase_eq_nil.mpr rfl
  have nowhere : indexOf [] (case.toLowerCase w) 0 = none := by
    cases found : indexOf [] (case.toLowerCase w) 0 with
    | none => rfl
    | some i => exact absurd (indexOf_bounds lower_unit found).2 (Nat.not_lt_zero i)
  rw [marked, wordIndexes, lower_text, nowhere]
  rfl

theorem foldl_marked_nil (some_units : ∀ w ∈ words, w ≠ [])
    : words.foldl (marked case) [] = [] := by
  induction words with
  | nil => rfl
  | cons w words ih =>
      obtain ⟨some_unit, some_units⟩ := List.forall_mem_cons.mp some_units
      rw [List.foldl_cons, marked_nil some_unit, ih some_units]

/-- Whatever the bound on their turns, the loops mark the words if they return. -/
theorem eq_foldl_of_foldlM (some_units : ∀ w ∈ words, w ≠ []) {fuel : Nat} {s result : List Nat}
    (returned : words.foldlM (markWord case fuel) s = some result)
    : result = words.foldl (marked case) s := by
  induction words generalizing s with
  | nil => exact (Option.some.inj returned).symm
  | cons w words ih =>
      obtain ⟨some_unit, some_units⟩ := List.forall_mem_cons.mp some_units
      rw [List.foldlM_cons] at returned
      obtain ⟨next, first, rest⟩ := Option.bind_eq_some_iff.mp returned
      rw [List.foldl_cons, ← eq_marked_of_markWord some_unit first]
      exact ih some_units rest

/-- What highlighting returns, whatever bound there is on its turns. -/
theorem eq_foldl_of_hl (some_units : ∀ w ∈ words, w ≠ []) {fuel : Nat} {result : List Nat}
    (returned : hl case fuel text words = some result)
    : result = words.foldl (marked case) (escUnits text) := by
  unfold hl at returned
  split at returned
  · rename_i no_text
    rw [no_text]
    exact (Option.some.inj returned).symm.trans (foldl_marked_nil some_units).symm
  · exact eq_foldl_of_foldlM some_units returned

end Words

/-- A list of words has words that are not empty. -/
theorem some_units_of_words (words : List Word) : ∀ w ∈ words.map Subtype.val, w ≠ [] :=
  List.forall_mem_map.mpr fun w _ => w.2

/-- Highlighting keeps a text when its loops make a markup of it. -/
theorem preserves_iff (case : LetterCase) (text : List Nat) (words : List Word)
    : Preserves case text words
      ↔ IsMarkup case (words.map Subtype.val) text
          ((words.map Subtype.val).foldl (marked case) (escUnits text)) := by
  have some_units := some_units_of_words words
  have ends : Terminates case text (words.map Subtype.val) :=
    (terminates_words_iff text _).mpr (.inr fun empty => some_units [] empty rfl)
  constructor
  · intro preserves
    obtain ⟨fuel, result, returned⟩ := ends
    rw [← eq_foldl_of_hl some_units returned]
    exact preserves.markup fuel result returned
  · intro is_markup
    refine ⟨ends, fun fuel result returned => ?_⟩
    rw [eq_foldl_of_hl some_units returned]
    exact is_markup

/-- Every piece that highlighting marks is, in the text as it is by then, made of whole characters
outside of tags, and one of the words up to letter case, if and only if highlighting puts nothing
but paired tags around occurrences of the words into the escaped text, and no piece has a tag in it.
-/
theorem eachPiece_fits_iff (case : LetterCase) (text : List Nat) (words : List Word)
    : EachPiece case (Fits case (words.map Subtype.val)) text (words.map Subtype.val)
      ↔ Preserves case text words
        ∧ EachPiece case Spanless text (words.map Subtype.val) := by
  rw [preserves_iff]
  exact isMarkup_foldl_iff case text (words.map Subtype.val)

end WebIndexer.Server
