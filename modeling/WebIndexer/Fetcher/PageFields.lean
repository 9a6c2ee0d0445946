import WebIndexer.Fetcher.Links
import WebIndexer.Library.Blanks
import WebIndexer.Library.Patterns
import WebIndexer.Library.Utf16
import WebIndexer.Types

/-! What `parsePage` in `src/fetcher.ts` takes out of a page with regular expressions. The page is a
list of code units, as it is for the script; all expressions ignore the case of letters.
-/

namespace WebIndexer.Fetcher

open WebIndexer.Library
open WebIndexer.Runtime

-----------------------------------------------------------------------------------------
-- The classes of the expressions
-----------------------------------------------------------------------------------------

/-- The code unit of a character that is one. -/
def unitOf (char : Char) : UInt16 := UInt16.ofNat char.toNat

/-- A unit with which the flag `i` compares. No other unit is folded to an ASCII letter. -/
def foldCase (unit : UInt16) : UInt16 :=
  if unitOf 'A' ≤ unit ∧ unit ≤ unitOf 'Z' then unit + 0x20 else unit

/-- A unit matches a character of an expression. -/
def isLetter (letter unit : UInt16) : Bool := foldCase unit == foldCase letter

/-- The white space of `\s`. -/
def isBlank (unit : UInt16) : Bool := isSpaceUnit unit.toNat

/-- One of the quotes of `["']`. -/
def isQuoteMark (unit : UInt16) : Bool := unit == unitOf '"' || unit == unitOf '\''

/-- The characters of an expression, one after the other. -/
def literal (text : String) : List (Piece UInt16) :=
  (stringUnits text).map fun unit => one (isLetter unit)

/-- `[^…]*` for one character. -/
def without (char : Char) (captured : Bool) : Piece UInt16 :=
  ⟨fun unit => unit != unitOf char, 0, none, captured⟩

/-- `["']` -/
def quote : Piece UInt16 := one isQuoteMark

/-- `([^"']*)` -/
def quoted : Piece UInt16 := ⟨fun unit => !isQuoteMark unit, 0, none, true⟩

/-- `\s+` -/
def blanks : Piece UInt16 := ⟨isBlank, 1, none, false⟩

/-- `([a-z]{2,3})` -/
def twoOrThreeLetters : Piece UInt16 :=
  ⟨fun unit => unitOf 'a' ≤ foldCase unit && foldCase unit ≤ unitOf 'z', 2, some 3, true⟩

/-- `<meta\s+[^>]*` -/
def metaTag : List (Piece UInt16) := literal "<meta" ++ [blanks, without '>' false]

/-- An attribute with a given value in quotes. -/
def valued (name value : String) : List (Piece UInt16) :=
  literal name ++ literal "=" ++ [quote] ++ literal value ++ [quote]

/-- `content=["']([^"']*)["']` -/
def content : List (Piece UInt16) := literal "content=" ++ [quote, quoted, quote]

-----------------------------------------------------------------------------------------
-- The expressions
-----------------------------------------------------------------------------------------

/-- `/<title[^>]*>([^<]*)<\/title>/i` -/
def titlePattern : List (Piece UInt16) :=
  literal "<title"
    ++ ([without '>' false] ++ (literal ">" ++ ([without '<' true] ++ literal "</title>")))

/-- `/<meta\s+[^>]*name=["']description["'][^>]*content=["']([^"']*)["']/i` -/
def descriptionPattern : List (Piece UInt16) :=
  metaTag ++ valued "name" "description" ++ [without '>' false] ++ content

/-- `/<meta\s+[^>]*content=["']([^"']*)["'][^>]*name=["']description["']/i` -/
def descriptionBehindPattern : List (Piece UInt16) :=
  metaTag ++ content ++ [without '>' false] ++ valued "name" "description"

/-- `/<meta\s+[^>]*property=["']og:title["'][^>]*content=["']([^"']*)["']/i` -/
def ogTitlePattern : List (Piece UInt16) :=
  metaTag ++ valued "property" "og:title" ++ [without '>' false] ++ content

/-- `/<meta\s+[^>]*property=["']og:description["'][^>]*content=["']([^"']*)["']/i` -/
def ogDescriptionPattern : List (Piece UInt16) :=
  metaTag ++ valued "property" "og:description" ++ [without '>' false] ++ content

/-- `/<html[^>]*\slang=["']([a-z]{2,3})["']/i` -/
def langPattern : List (Piece UInt16) :=
  literal "<html" ++ [without '>' false, one isBlank] ++ literal "lang="
    ++ [quote, twoOrThreeLetters, quote]

-----------------------------------------------------------------------------------------
-- The fields
-----------------------------------------------------------------------------------------

/-- The first capture of `html.match(pattern)`, if it matches. -/
def captureOf (pattern : List (Piece UInt16)) (html : List UInt16) : Option (List UInt16) :=
  (Pattern.search pattern html).bind fun found => (Pattern.captures pattern found.2).head?

/-- `text.replace(/\s+/g, " ").trim()` -/
def tidy (text : List UInt16) : List UInt16 :=
  trimmed isBlank (collapsed isBlank (unitOf ' ') false text)

/-- The `title` of `parsePage`. -/
def pageTitle (html : List UInt16) : List UInt16 :=
  ((captureOf titlePattern html).map tidy).getD []

/-- The `metaDescription` of `parsePage`. -/
def metaDescription (html : List UInt16) : List UInt16 :=
  (((captureOf descriptionPattern html).orElse fun _ =>
    captureOf descriptionBehindPattern html).map (·.take 1000)).getD []

/-- The `ogTitle` of `parsePage`. -/
def ogTitle (html : List UInt16) : List UInt16 := (captureOf ogTitlePattern html).getD []

/-- The `ogDescription` of `parsePage`. -/
def ogDescription (html : List UInt16) : List UInt16 :=
  ((captureOf ogDescriptionPattern html).map (·.take 1000)).getD []

/-- The `lang` of `parsePage`. -/
def pageLang (html : List UInt16) : List UInt16 := (captureOf langPattern html).getD []

/-- `parsePage(html, url)` -/
def parsePage (api : UrlApi) (html url : String) : ParsedPage where
  title := unitsString (pageTitle (stringUnits html))
  metaDescription := unitsString (metaDescription (stringUnits html))
  ogTitle := unitsString (ogTitle (stringUnits html))
  ogDescription := unitsString (ogDescription (stringUnits html))
  lang := unitsString (pageLang (stringUnits html))
  links := pageLinks api html url
  contentLength := (stringUnits html).length

-----------------------------------------------------------------------------------------
-- What the expressions match
-----------------------------------------------------------------------------------------

variable {html text part element : List UInt16} {pattern : List (Piece UInt16)}
  {parts : List (List UInt16)}

/-- A part of the page spells a text, up to the case of letters. -/
def Spells (text : String) (part : List UInt16) : Prop :=
  List.Forall₂ (fun letter unit => isLetter letter unit = true) (stringUnits text) part

/-- The characters of an expression match what spells them. -/
theorem fits_literal {text : String}
    : Pattern.Fits (literal text) parts ↔ ∃ part, parts = part.map ([·]) ∧ Spells text part := by
  unfold Pattern.Fits literal Spells
  generalize stringUnits text = letters
  constructor
  · intro fits
    induction letters generalizing parts with
    | nil =>
        cases fits
        exact ⟨[], rfl, .nil⟩
    | cons letter letters ih =>
        cases fits with
        | cons takes fits =>
            obtain ⟨unit, rfl, same⟩ := takes_one.mp takes
            obtain ⟨part, rfl, spells⟩ := ih fits
            exact ⟨unit :: part, rfl, .cons same spells⟩
  · rintro ⟨part, rfl, spells⟩
    induction spells with
    | nil => exact .nil
    | cons same _ ih => exact .cons (takes_one.mpr ⟨_, rfl, same⟩) ih

/-- No character of an expression is captured. -/
theorem captures_literal (text : String) (parts : List (List UInt16))
    : Pattern.captures (literal text) parts = [] := by
  have none : ((literal text).zip parts).filter (fun pair => pair.1.captured) = [] := by
    rw [List.filter_eq_nil_iff]
    rintro ⟨piece, part⟩ member captured
    obtain ⟨unit, _, rfl⟩ := List.mem_map.mp (List.of_mem_zip member).1
    cases captured
  rw [Pattern.captures, none, List.map_nil]

/-- What spells a character that is no letter is that character. -/
theorem spells_mark {text : String} {mark : UInt16} (single : stringUnits text = [mark])
    (plain : ∀ unit, isLetter mark unit = true → unit = mark)
    : Spells text part ↔ part = [mark] ∧ isLetter mark mark = true := by
  rw [Spells, single]
  constructor
  · intro spells
    cases spells with
    | cons same rest =>
        cases rest
        obtain rfl := plain _ same
        exact ⟨rfl, same⟩
  · rintro ⟨rfl, same⟩
    exact .cons same .nil

/-- The capture of an expression is a part of the page that a captured piece takes. -/
theorem takes_of_captureOf (found : captureOf pattern html = some part)
    : part <:+: html ∧ ∃ piece ∈ pattern, piece.captured = true ∧ piece.Takes part := by
  obtain ⟨⟨front, parts⟩, searched, head⟩ := Option.bind_eq_some_iff.mp found
  obtain ⟨fits, ⟨rest, rfl⟩, _⟩ := Pattern.search_eq_some searched
  obtain ⟨piece, member, captured, takes, inside⟩ :=
    Pattern.takes_of_mem_captures fits (List.mem_of_mem_head? head)
  refine ⟨?_, piece, member, captured, takes⟩
  exact (List.infix_of_mem_flatten inside).trans ⟨front, rest, List.append_assoc ..⟩

/-- A captured piece of an expression is no character of it. -/
theorem filter_captured_literal (text : String)
    : (literal text).filter Piece.captured = [] := by
  rw [List.filter_eq_nil_iff]
  intro piece member captured
  obtain ⟨unit, _, rfl⟩ := List.mem_map.mp member
  cases captured

/-- An expression that captures once captures what this piece takes. -/
theorem takes_of_captureOf_single {piece : Piece UInt16}
    (single : pattern.filter Piece.captured = [piece]) (found : captureOf pattern html = some part)
    : part <:+: html ∧ piece.Takes part := by
  obtain ⟨inside, other, member, captured, takes⟩ := takes_of_captureOf found
  have kept : other ∈ pattern.filter Piece.captured := List.mem_filter.mpr ⟨member, captured⟩
  rw [single, List.mem_singleton] at kept
  rw [kept] at takes
  exact ⟨inside, takes⟩

-----------------------------------------------------------------------------------------
-- The fields are quoted from the page
-----------------------------------------------------------------------------------------

/-- A text of the page between two quotes. -/
def Quoted (html part : List UInt16) : Prop :=
  part <:+: html ∧ ∀ unit ∈ part, isQuoteMark unit = false

/-- The empty text is quoted. -/
theorem quoted_nil (html : List UInt16) : Quoted html [] :=
  ⟨List.nil_infix, by simp⟩

/-- The head of a quoted text is quoted. -/
theorem Quoted.take (whole : Quoted html part) (count : Nat) : Quoted html (part.take count) :=
  ⟨(List.take_prefix _ _).isInfix.trans whole.1,
    fun unit member => whole.2 unit (List.mem_of_mem_take member)⟩

/-- The expressions for a `content` capture a quoted text. -/
theorem quoted_of_captureOf (single : pattern.filter Piece.captured = [quoted])
    (found : captureOf pattern html = some part)
    : Quoted html part := by
  obtain ⟨inside, takes⟩ := takes_of_captureOf_single single found
  exact ⟨inside, fun unit member => (Bool.not_eq_true' _).mp (takes.1 unit member)⟩

/-- What `parsePage` says of a page: each field is quoted from it, and has the form that its
expression asks for.
-/
structure FieldsQuoted (html : List UInt16) : Prop where
  title : ∃ text, text <:+: html ∧ unitOf '<' ∉ text
    ∧ pageTitle html = [unitOf ' '].intercalate (wordsOf isBlank text)
  metaDescription : Quoted html (metaDescription html) ∧ (metaDescription html).length ≤ 1000
  ogTitle : Quoted html (ogTitle html)
  ogDescription : Quoted html (ogDescription html) ∧ (ogDescription html).length ≤ 1000
  lang : pageLang html = []
    ∨ pageLang html <:+: html ∧ ((pageLang html).length = 2 ∨ (pageLang html).length = 3)
      ∧ ∀ unit ∈ pageLang html, unitOf 'a' ≤ foldCase unit ∧ foldCase unit ≤ unitOf 'z'

/-- A tidied text is its words with a space between any two. -/
theorem tidy_eq (text : List UInt16)
    : tidy text = [unitOf ' '].intercalate (wordsOf isBlank text) :=
  trimmed_collapsed (by decide) text

theorem captured_titlePattern : titlePattern.filter Piece.captured = [without '<' true] := by
  simp [titlePattern, filter_captured_literal, without]

/-- The title is the words of a text of the page before a tag. -/
theorem pageTitle_quoted (html : List UInt16)
    : ∃ text, text <:+: html ∧ unitOf '<' ∉ text
      ∧ pageTitle html = [unitOf ' '].intercalate (wordsOf isBlank text) := by
  cases found : captureOf titlePattern html with
  | none => exact ⟨[], List.nil_infix, by simp, by simp [pageTitle, found, List.intercalate]⟩
  | some text =>
      obtain ⟨inside, takes⟩ := takes_of_captureOf_single captured_titlePattern found
      refine ⟨text, inside, ?_, by simp [pageTitle, found, tidy_eq]⟩
      intro member
      simpa [without] using takes.1 _ member

/-- A description is quoted and cut. -/
theorem quoted_cut {captured : Option (List UInt16)}
    (each : ∀ part ∈ captured, Quoted html part)
    : Quoted html ((captured.map (·.take 1000)).getD [])
      ∧ ((captured.map (·.take 1000)).getD []).length ≤ 1000 := by
  cases captured with
  | none => exact ⟨quoted_nil html, Nat.zero_le _⟩
  | some part => exact ⟨(each part rfl).take 1000, List.length_take_le 1000 part⟩

/-- The language is two or three letters, or missing. -/
theorem pageLang_quoted (html : List UInt16)
    : pageLang html = []
      ∨ pageLang html <:+: html ∧ ((pageLang html).length = 2 ∨ (pageLang html).length = 3)
        ∧ ∀ unit ∈ pageLang html, unitOf 'a' ≤ foldCase unit ∧ foldCase unit ≤ unitOf 'z' := by
  have single : langPattern.filter Piece.captured = [twoOrThreeLetters] := by
    simp [langPattern, filter_captured_literal, without, quote, one, twoOrThreeLetters]
  cases found : captureOf langPattern html with
  | none => exact .inl (by simp [pageLang, found])
  | some part =>
      have same : pageLang html = part := by simp [pageLang, found]
      obtain ⟨inside, letters, least, most⟩ := takes_of_captureOf_single single found
      rw [same]
      refine .inr ⟨inside, ?_, ?_⟩
      · have two : 2 ≤ part.length := least
        have three : part.length ≤ 3 := most 3 rfl
        omega
      · intro unit member
        simpa [twoOrThreeLetters] using letters unit member

/-- Each field that `parsePage` returns is quoted from the page in its form. -/
theorem parsePage_quoted (html : List UInt16) : FieldsQuoted html where
  title := pageTitle_quoted html
  metaDescription := by
    refine quoted_cut ?_
    intro part found
    rw [Option.orElse_eq_or, Option.mem_def, Option.or_eq_some_iff] at found
    rcases found with first | ⟨_, second⟩
    · refine quoted_of_captureOf ?_ first
      simp [descriptionPattern, metaTag, valued, content, filter_captured_literal, without, quote,
        one, blanks, quoted]
    · refine quoted_of_captureOf ?_ second
      simp [descriptionBehindPattern, metaTag, valued, content, filter_captured_literal, without,
        quote, one, blanks, quoted]
  ogTitle := by
    unfold ogTitle
    cases found : captureOf ogTitlePattern html with
    | none => exact quoted_nil html
    | some part =>
        refine quoted_of_captureOf ?_ found
        simp [ogTitlePattern, metaTag, valued, content, filter_captured_literal, without, quote,
          one, blanks, quoted]
  ogDescription := by
    refine quoted_cut ?_
    intro part found
    refine quoted_of_captureOf ?_ found
    simp [ogDescriptionPattern, metaTag, valued, content, filter_captured_literal, without, quote,
      one, blanks, quoted]
  lang := pageLang_quoted html

-----------------------------------------------------------------------------------------
-- The title is that of the first title element
-----------------------------------------------------------------------------------------

/-- A title element with its text. -/
def IsTitleElement (element text : List UInt16) : Prop :=
  ∃ opening attributes closing,
    element = opening ++ (attributes ++ unitOf '>' :: (text ++ closing))
      ∧ Spells "<title" opening ∧ unitOf '>' ∉ attributes
      ∧ unitOf '<' ∉ text ∧ Spells "</title>" closing

/-- What spells a bracket is that bracket. -/
theorem isLetter_bracket {unit : UInt16}
    : (isLetter (unitOf '>') unit = true ↔ unit = unitOf '>')
      ∧ (isLetter (unitOf '<') unit = true ↔ unit = unitOf '<') := by
  have fold : foldCase unit = unit ∨ unitOf 'a' ≤ foldCase unit := by
    unfold foldCase
    split
    · right
      rename_i letter
      simp only [UInt16.le_iff_toNat_le, UInt16.toNat_add] at *
      have low : (unitOf 'A').toNat = 65 := by decide
      have high : (unitOf 'Z').toNat = 90 := by decide
      have first : (unitOf 'a').toNat = 97 := by decide
      have shift : (0x20 : UInt16).toNat = 32 := rfl
      omega
    · exact .inl rfl
  have gt : foldCase (unitOf '>') = unitOf '>' := by decide
  have lt : foldCase (unitOf '<') = unitOf '<' := by decide
  have above : ¬ unitOf 'a' ≤ unitOf '>' ∧ ¬ unitOf 'a' ≤ unitOf '<' := by decide
  rw [isLetter, isLetter, gt, lt, beq_iff_eq, beq_iff_eq]
  rcases fold with same | letter
  · rw [same]
    exact ⟨Iff.rfl, Iff.rfl⟩
  · constructor
    · constructor
      · intro same
        exact absurd (same ▸ letter) above.1
      · rintro rfl
        exact gt
    · constructor
      · intro same
        exact absurd (same ▸ letter) above.2
      · rintro rfl
        exact lt

/-- `>` spells itself. -/
theorem spells_gt : Spells ">" part ↔ part = [unitOf '>'] := by
  have plain : ∀ unit, isLetter (unitOf '>') unit = true → unit = unitOf '>' :=
    fun unit => isLetter_bracket.1.mp
  rw [spells_mark (by decide +kernel) plain]
  exact ⟨And.left, fun same => ⟨same, by decide⟩⟩

/-- A class without one character takes the texts without it. -/
theorem takes_without {char : Char} {captured : Bool}
    : (without char captured).Takes part ↔ unitOf char ∉ part := by
  constructor
  · intro takes member
    simpa [without] using takes.1 _ member
  · intro absent
    refine ⟨?_, Nat.zero_le _, by simp [without]⟩
    intro unit member
    have other : unit ≠ unitOf char := fun same => absent (same ▸ member)
    simpa [without] using other

/-- What the expression for the title matches is a title element, and it captures the text. -/
theorem isTitleElement_of_fits (fits : Pattern.Fits titlePattern parts)
    : ∃ text, Pattern.captures titlePattern parts = [text]
      ∧ IsTitleElement parts.flatten text := by
  obtain ⟨_, parts, rfl, fits_opening, fits⟩ := Pattern.fits_append.mp fits
  obtain ⟨_, parts, rfl, fits_attributes, fits⟩ := Pattern.fits_append.mp fits
  obtain ⟨_, parts, rfl, fits_gt, fits⟩ := Pattern.fits_append.mp fits
  obtain ⟨_, _, rfl, fits_text, fits_closing⟩ := Pattern.fits_append.mp fits
  rw [titlePattern, Pattern.captures_append fits_opening, captures_literal,
    Pattern.captures_append fits_attributes, Pattern.captures_append fits_gt, captures_literal,
    Pattern.captures_append fits_text, captures_literal]
  obtain ⟨opening, rfl, spells_opening⟩ := fits_literal.mp fits_opening
  obtain ⟨attributes, rfl, takes_attributes⟩ := Pattern.fits_singleton.mp fits_attributes
  obtain ⟨gt, rfl, spells⟩ := fits_literal.mp fits_gt
  obtain ⟨text, rfl, takes_text⟩ := Pattern.fits_singleton.mp fits_text
  obtain ⟨closing, rfl, spells_closing⟩ := fits_literal.mp fits_closing
  obtain rfl := spells_gt.mp spells
  refine ⟨text, by simp [Pattern.captures_singleton, without], opening, attributes, closing, ?_,
    spells_opening, takes_without.mp takes_attributes, takes_without.mp takes_text, spells_closing⟩
  simp [← List.flatMap_def]

/-- The expression for the title matches every title element. -/
theorem fits_of_isTitleElement (is_title : IsTitleElement element text)
    : ∃ parts, Pattern.Fits titlePattern parts ∧ parts.flatten = element := by
  obtain ⟨opening, attributes, closing, rfl, spells_opening, no_gt, no_lt, spells_closing⟩ :=
    is_title
  have fits_text : Pattern.Fits [without '<' true] [text] := .cons (takes_without.mpr no_lt) .nil
  have fits_tail := Pattern.fits_append.mpr
    ⟨_, _, rfl, fits_text, fits_literal.mpr ⟨closing, rfl, spells_closing⟩⟩
  have fits_gt := Pattern.fits_append.mpr
    ⟨_, _, rfl, fits_literal.mpr ⟨[unitOf '>'], rfl, spells_gt.mpr rfl⟩, fits_tail⟩
  have fits_attributes : Pattern.Fits [without '>' false] [attributes] :=
    .cons (takes_without.mpr no_gt) .nil
  have fits_rest := Pattern.fits_append.mpr ⟨_, _, rfl, fits_attributes, fits_gt⟩
  have fits_opening := fits_literal.mpr ⟨opening, rfl, spells_opening⟩
  refine ⟨_, Pattern.fits_append.mpr ⟨_, _, rfl, fits_opening, fits_rest⟩, ?_⟩
  simp [← List.flatMap_def]

/-- What stands before an item is determined by where the item first occurs. -/
theorem append_cons_inj {mark : UInt16} {front front' back back' : List UInt16}
    (absent : mark ∉ front) (absent' : mark ∉ front')
    (same : front ++ mark :: back = front' ++ mark :: back')
    : front = front' ∧ back = back' := by
  have cut {front back : List UInt16} (absent : mark ∉ front)
      : (front ++ mark :: back).takeWhile (· != mark) = front := by
    have passes : ∀ unit ∈ front, (unit != mark) = true := by
      intro unit member
      exact bne_iff_ne.mpr fun is_mark => absent (is_mark ▸ member)
    rw [List.takeWhile_append_of_pos passes, List.takeWhile_cons_of_neg (by simp),
      List.append_nil]
  have fronts : front = front' := by
    rw [← cut absent, same, cut absent']
  subst fronts
  exact ⟨rfl, (List.cons.inj (List.append_cancel_left same)).2⟩

/-- A closing tag begins with `<`. -/
theorem closing_cases (spells : Spells "</title>" part) : ∃ rest, part = unitOf '<' :: rest := by
  have opens : ∃ rest, stringUnits "</title>" = unitOf '<' :: rest := 
    ⟨(stringUnits "</title>").tail, by decide +kernel⟩
  obtain ⟨letters, same⟩ := opens
  rw [Spells, same] at spells
  cases spells with
  | cons first rest =>
      obtain rfl := isLetter_bracket.2.mp first
      exact ⟨_, rfl⟩

/-- Two title elements at one place of the page have the same text. -/
theorem IsTitleElement.text_unique {element' text' after after' : List UInt16}
    (here : IsTitleElement element text) (there : IsTitleElement element' text')
    (same : element ++ after = element' ++ after')
    : text = text' := by
  obtain ⟨opening, attributes, closing, rfl, opens, no_gt, no_lt, closes⟩ := here
  obtain ⟨opening', attributes', closing', rfl, opens', no_gt', no_lt', closes'⟩ := there
  obtain ⟨closing, rfl⟩ := closing_cases closes
  obtain ⟨closing', rfl⟩ := closing_cases closes'
  have lengths : opening.length = opening'.length :=
    (List.Forall₂.length_eq opens).symm.trans (List.Forall₂.length_eq opens')
  simp only [List.append_assoc, List.cons_append] at same
  obtain ⟨_, inner⟩ := List.append_inj same lengths
  obtain ⟨_, texts⟩ := append_cons_inj no_gt no_gt' inner
  exact (append_cons_inj no_lt no_lt' texts).1

/-- A title element stands in the page behind `before`. -/
def TitleBehind (html before text : List UInt16) : Prop :=
  ∃ element after, html = before ++ (element ++ after) ∧ IsTitleElement element text

/-- The title is that of the first title element of the page, its words with single spaces between
them. A page without title elements has no title.
-/
theorem pageTitle_first (html : List UInt16)
    : (∀ before text, TitleBehind html before text →
        (∀ other text', TitleBehind html other text' → before.length ≤ other.length) →
          pageTitle html = [unitOf ' '].intercalate (wordsOf isBlank text))
      ∧ ((∀ before text, ¬ TitleBehind html before text) → pageTitle html = []) := by
  cases searched : Pattern.search titlePattern html with
  | none =>
      have nothing : pageTitle html = [] := by simp [pageTitle, captureOf, searched]
      refine ⟨?_, fun _ => nothing⟩
      rintro before text ⟨element, after, split, is_title⟩ _
      obtain ⟨parts, fits, rfl⟩ := fits_of_isTitleElement is_title
      exact absurd split (Pattern.not_fits_of_search searched fits before after)
  | some found =>
      obtain ⟨front, parts⟩ := found
      obtain ⟨fits, ⟨rest, split⟩, earliest⟩ := Pattern.search_eq_some searched
      obtain ⟨text, captured, is_title⟩ := isTitleElement_of_fits fits
      have titled : pageTitle html = [unitOf ' '].intercalate (wordsOf isBlank text) := by
        simp [pageTitle, captureOf, searched, captured, tidy_eq]
      refine ⟨?_, fun none => absurd ⟨_, rest, split, is_title⟩ (none front text)⟩
      rintro before text' ⟨element, after, split', is_title'⟩ first
      have not_later := first front text ⟨_, rest, split, is_title⟩
      have not_earlier : front.length ≤ before.length := by
        obtain ⟨parts', fits', rfl⟩ := fits_of_isTitleElement is_title'
        exact earliest before parts' after fits' split'
      have together := split.symm.trans split'
      obtain ⟨_, tails⟩ := List.append_inj together (Nat.le_antisymm not_earlier not_later)
      rw [titled, is_title.text_unique is_title' tails]

example : pageTitle (stringUnits "<Title x>a \n b</title>") = stringUnits "a b" := by
  decide +kernel

end WebIndexer.Fetcher
