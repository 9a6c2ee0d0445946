import Mathlib.Data.List.Basic
import Mathlib.Data.List.Flatten
import Mathlib.Data.List.Nodup

/-! The text format that a metrics scraper reads: lines that declare metrics, and lines that sample
them.
-/

namespace WebIndexer.Library

-----------------------------------------------------------------------------------------
-- Numbers and names
-----------------------------------------------------------------------------------------

/-- One digit or more. -/
def IsDigits (text : List Char) : Prop := text ≠ [] ∧ ∀ char ∈ text, char.isDigit = true

/-- A sign, or none. -/
def IsSign (text : List Char) : Prop := text ∈ [[], ['-'], ['+']]

/-- A number: decimal digits with or without a fraction and an exponent, an infinity, or no number.
-/
inductive IsNumber : List Char → Prop
  | decimal {sign whole fraction exponent : List Char} (signed : IsSign sign)
    (digits : IsDigits whole)
    (point : fraction = [] ∨ ∃ places, IsDigits places ∧ fraction = '.' :: places)
    (power
      : exponent = []
        ∨ ∃ power_sign places,
            IsSign power_sign ∧ IsDigits places ∧ exponent = 'e' :: (power_sign ++ places))
    : IsNumber (sign ++ whole ++ fraction ++ exponent)
  | infinity {sign : List Char} (signed : IsSign sign)
    : IsNumber (sign ++ ['I', 'n', 'f', 'i', 'n', 'i', 't', 'y'])
  | notANumber : IsNumber ['N', 'a', 'N']

/-- A character that a name may start with. -/
def isNameHead (char : Char) : Bool := char.isAlpha || char = '_' || char = ':'

/-- A character that a name may contain. -/
def isNameChar (char : Char) : Bool := isNameHead char || char.isDigit

/-- A name of the form `[a-zA-Z_:][a-zA-Z0-9_:]*`. -/
def isName : List Char → Bool
  | [] => false
  | head :: rest => isNameHead head && rest.all isNameChar

theorem IsDigits.not_mem {text : List Char} {char : Char} (digits : IsDigits text)
    (other : char.isDigit = false)
    : char ∉ text := by
  intro member
  rw [digits.2 char member] at other
  cases other

/-- A number has no character but those of digits, signs, a point, an exponent and its words. -/
theorem IsNumber.not_mem {text : List Char} {char : Char} (number : IsNumber text)
    (other : char.isDigit = false)
    (no_mark : char ∉ ['-', '+', '.', 'e', 'I', 'n', 'f', 'i', 't', 'y', 'N', 'a'])
    : char ∉ text := by
  have no_sign {sign : List Char} (signed : IsSign sign) : char ∉ sign := by
    intro member
    rcases List.mem_cons.mp signed with rfl | signed
    · cases member
    · rcases List.mem_pair.mp signed with rfl | rfl <;> simp_all
  cases number with
  | decimal signed digits point power =>
      simp only [List.mem_append, not_or]
      refine ⟨⟨⟨no_sign signed, digits.not_mem other⟩, ?_⟩, ?_⟩
      · rcases point with rfl | ⟨places, more, rfl⟩
        · exact List.not_mem_nil
        · rw [List.mem_cons, not_or]
          exact ⟨by simp_all, more.not_mem other⟩
      · rcases power with rfl | ⟨power_sign, places, power_signed, more, rfl⟩
        · exact List.not_mem_nil
        · rw [List.mem_cons, List.mem_append, not_or, not_or]
          exact ⟨by simp_all, no_sign power_signed, more.not_mem other⟩
  | infinity signed =>
      rw [List.mem_append, not_or]
      exact ⟨no_sign signed, by simp_all⟩
  | notANumber => simp_all

/-- The characters of a name. -/
theorem isNameChar_of_mem {name : List Char} {char : Char} (named : isName name = true)
    (member : char ∈ name)
    : isNameChar char = true := by
  cases name with
  | nil => cases member
  | cons head rest =>
      rw [isName, Bool.and_eq_true, List.all_eq_true] at named
      rcases List.mem_cons.mp member with rfl | later
      · rw [isNameChar, named.1, Bool.true_or]
      · exact named.2 char later

/-- A part of a name behind its head decides for the whole. -/
theorem isName_append_iff {front middle back : List Char} (front_named : isName front = true)
    (back_chars : back.all isNameChar = true)
    : isName (front ++ middle ++ back) = true ↔ ∀ char ∈ middle, isNameChar char = true := by
  cases front with
  | nil => cases front_named
  | cons head rest =>
      rw [isName, Bool.and_eq_true] at front_named
      rw [List.cons_append, List.cons_append, isName, front_named.1, Bool.true_and, List.all_append,
        List.all_append, front_named.2, back_chars, Bool.true_and, Bool.and_true, List.all_eq_true]

-----------------------------------------------------------------------------------------
-- Lines
-----------------------------------------------------------------------------------------

/-- A line that starts with `#` is a comment, an empty line is skipped, any other is a sample. -/
def isSample : List Char → Bool
  | [] => false
  | head :: _ => head != '#'

/-- What a line starts with that declares a metric by the given keyword. -/
def declaration (keyword name : List Char) : List Char := '#' :: ' ' :: keyword ++ ' ' :: name

/-- A line that declares a metric, behind whose name comes more. -/
def declares (keyword name line : List Char) : Bool :=
  (declaration keyword name ++ [' ']).isPrefixOf line

/-- The keywords of declarations. -/
def keywords : List (List Char) := [['H', 'E', 'L', 'P'], ['T', 'Y', 'P', 'E']]

/-- Each sample has a name and a number, and each keyword declares its name just once, before it. -/
structure WellFormed (text : List (List Char)) : Prop where
  samples : ∀ line ∈ text, isSample line = true →
    ∃ name value, isName name = true ∧ IsNumber value ∧ line = name ++ ' ' :: value
  declared : ∀ {front name value back},
    text = front ++ (name ++ ' ' :: value) :: back → isName name = true →
      ∀ keyword ∈ keywords,
        text.countP (declares keyword name) = 1 ∧ front.countP (declares keyword name) = 1

/-- A metric, with all texts that its lines are made of. -/
structure Metric where
  name : List Char
  help : List Char
  kind : List Char
  value : List Char

namespace Metric

/-- The three lines of a metric. -/
def lines (metric : Metric) : List (List Char) := [
  declaration ['H', 'E', 'L', 'P'] metric.name ++ ' ' :: metric.help,
  declaration ['T', 'Y', 'P', 'E'] metric.name ++ ' ' :: metric.kind,
  metric.name ++ ' ' :: metric.value
]

end Metric

/-- Lines that print metrics in order, with empty lines between them. -/
inductive Prints : List Metric → List (List Char) → Prop
  | nil : Prints [] []
  | skip {metrics : List Metric} {text : List (List Char)} (rest : Prints metrics text)
    : Prints metrics ([] :: text)
  | print (metric : Metric) {metrics : List Metric} {text : List (List Char)}
    (rest : Prints metrics text)
    : Prints (metric :: metrics) (metric.lines ++ text)

theorem Prints.append {metrics others : List Metric} {text rest : List (List Char)}
    (first : Prints metrics text) (second : Prints others rest)
    : Prints (metrics ++ others) (text ++ rest) := by
  induction first with
  | nil => exact second
  | skip _ ih => exact .skip ih
  | print metric _ ih => exact .print metric ih

-----------------------------------------------------------------------------------------
-- Reading lines back
-----------------------------------------------------------------------------------------

/-- A name ends at the first space. -/
theorem append_space_inj {name other value rest : List Char} (free : ' ' ∉ name)
    (other_free : ' ' ∉ other) (same : name ++ ' ' :: value = other ++ ' ' :: rest)
    : name = other ∧ value = rest := by
  induction name generalizing other with
  | nil =>
      cases other with
      | nil => exact ⟨rfl, (List.cons.inj same).2⟩
      | cons head tail => exact absurd ((List.cons.inj same).1 ▸ List.mem_cons_self) other_free
  | cons head tail ih =>
      cases other with
      | nil => exact absurd ((List.cons.inj same).1 ▸ List.mem_cons_self) free
      | cons head' tail' =>
          obtain ⟨rfl, tails⟩ := List.cons.inj same
          obtain ⟨rfl, rests⟩ := ih (fun member => free (List.mem_cons_of_mem _ member))
            (fun member => other_free (List.mem_cons_of_mem _ member)) tails
          exact ⟨rfl, rests⟩

/-- A name has no space. -/
theorem space_not_mem {name : List Char} (named : isName name = true) : ' ' ∉ name := by
  intro member
  have char := isNameChar_of_mem named member
  revert char
  decide

/-- A line that starts with a name is a sample. -/
theorem isSample_of_isName {name rest : List Char} (named : isName name = true)
    : isSample (name ++ rest) = true := by
  cases name with
  | nil => cases named
  | cons head tail =>
      have char := isNameChar_of_mem named List.mem_cons_self
      rw [List.cons_append, isSample, bne_iff_ne]
      rintro rfl
      revert char
      decide

/-- A sample declares nothing. -/
theorem declares_of_isSample {keyword name line : List Char} (sample : isSample line = true)
    : declares keyword name line = false := by
  cases line with
  | nil => cases sample
  | cons head rest =>
      rw [isSample, bne_iff_ne] at sample
      rw [declares, declaration, List.cons_append, List.cons_append, List.isPrefixOf,
        beq_false_of_ne sample.symm, Bool.false_and]

/-- A line declares by its own keyword, and its own name. -/
theorem declares_iff {keyword keyword' name name' rest : List Char}
    (known : keyword ∈ keywords) (known' : keyword' ∈ keywords) (free : ' ' ∉ name)
    (free' : ' ' ∉ name')
    : declares keyword name (declaration keyword' name' ++ ' ' :: rest) = true
      ↔ keyword = keyword' ∧ name = name' := by
  have no_space : ∀ word ∈ keywords, ' ' ∉ word := by decide
  rw [declares, List.isPrefixOf_iff_prefix]
  constructor
  · rintro ⟨back, same⟩
    simp only [declaration, List.cons_append, List.append_assoc, List.cons.injEq, true_and] at same
    obtain ⟨rfl, names⟩ := append_space_inj (no_space keyword known) (no_space keyword' known') same
    exact ⟨rfl, (append_space_inj free free' names).1⟩
  · rintro ⟨rfl, rfl⟩
    exact ⟨rest, List.append_assoc _ [' '] rest⟩

/-- Of the lines of a metric, each keyword declares its name once. -/
theorem countP_declares_lines {keyword name : List Char} {metric : Metric}
    (known : keyword ∈ keywords) (free : ' ' ∉ name) (named : isName metric.name = true)
    : metric.lines.countP (declares keyword name) = if metric.name = name then 1 else 0 := by
  have sample := @declares_of_isSample keyword name _
    (@isSample_of_isName metric.name (' ' :: metric.value) named)
  have own (keyword' rest : List Char) (known' : keyword' ∈ keywords)
      : declares keyword name (declaration keyword' metric.name ++ ' ' :: rest)
        = decide (keyword = keyword' ∧ metric.name = name) := by
    rw [Bool.eq_iff_iff, decide_eq_true_eq, declares_iff known known' free (space_not_mem named)]
    exact and_congr_right fun _ => eq_comm
  rw [Metric.lines, List.countP_cons, List.countP_cons, List.countP_cons, List.countP_nil, sample,
    own _ _ (by decide), own _ _ (by decide)]
  rcases List.mem_pair.mp known with rfl | rfl <;> by_cases same : metric.name = name <;>
    simp [same]

/-- In printed metrics, each keyword declares a name as often as a metric has it. -/
theorem countP_declares {keyword name : List Char} {metrics : List Metric}
    {text : List (List Char)} (prints : Prints metrics text) (known : keyword ∈ keywords)
    (free : ' ' ∉ name) (named : ∀ metric ∈ metrics, isName metric.name = true)
    : text.countP (declares keyword name) = (metrics.map Metric.name).count name := by
  induction prints with
  | nil => rfl
  | skip _ ih =>
      rw [List.countP_cons_of_neg (by rw [declares, declaration]; exact Bool.false_ne_true),
        ih named]
  | print metric _ ih =>
      obtain ⟨metric_named, named⟩ := List.forall_mem_cons.mp named
      rw [List.countP_append, countP_declares_lines known free metric_named, ih named,
        List.map_cons, List.count_cons, Nat.add_comm]
      simp only [beq_iff_eq]

/-- A line of a printed metric that is a sample is the last one. -/
theorem sample_of_mem_lines {line : List Char} {metric : Metric} (member : line ∈ metric.lines)
    (sample : isSample line = true)
    : line = metric.name ++ ' ' :: metric.value := by
  rcases List.mem_cons.mp member with rfl | later
  · cases sample
  · rcases List.mem_pair.mp later with rfl | last
    · cases sample
    · exact last

/-- Samples of printed metrics are those of the metrics. -/
theorem exists_of_isSample {line : List Char} {metrics : List Metric} {text : List (List Char)}
    (prints : Prints metrics text) (member : line ∈ text) (sample : isSample line = true)
    : ∃ metric ∈ metrics, line = metric.name ++ ' ' :: metric.value := by
  induction prints with
  | nil => cases member
  | skip _ ih =>
      rcases List.mem_cons.mp member with rfl | later
      · cases sample
      · exact ih later
  | print metric _ ih =>
      rcases List.mem_append.mp member with own | later
      · exact ⟨metric, List.mem_cons_self, sample_of_mem_lines own sample⟩
      · obtain ⟨other, among, same⟩ := ih later
        exact ⟨other, List.mem_cons_of_mem metric among, same⟩

/-- The sample of each printed metric is among the lines. -/
theorem sample_mem_of_prints {metrics : List Metric} {text : List (List Char)} {metric : Metric}
    (prints : Prints metrics text) (member : metric ∈ metrics)
    : metric.name ++ ' ' :: metric.value ∈ text := by
  induction prints with
  | nil => cases member
  | skip _ ih => exact List.mem_cons_of_mem _ (ih member)
  | print other _ ih =>
      rcases List.mem_cons.mp member with rfl | later
      · exact List.mem_append_left _ (by simp [Metric.lines])
      · exact List.mem_append_right _ (ih later)

/-- The sample of a metric is the last one of its lines. -/
theorem sample_of_split {line : List Char} {metric : Metric} {front rest : List (List Char)}
    (split : metric.lines = front ++ line :: rest) (sample : isSample line = true)
    : line = metric.name ++ ' ' :: metric.value ∧ rest = [] := by
  match front with
  | [] =>
      obtain ⟨rfl, -⟩ := List.cons.inj split
      cases sample
  | [_] =>
      obtain ⟨-, tails⟩ := List.cons.inj split
      obtain ⟨rfl, -⟩ := List.cons.inj tails
      cases sample
  | [_, _] =>
      obtain ⟨-, tails⟩ := List.cons.inj split
      obtain ⟨-, tails⟩ := List.cons.inj tails
      obtain ⟨rfl, rfl⟩ := List.cons.inj tails
      exact ⟨rfl, rfl⟩
  | _ :: _ :: _ :: front =>
      obtain ⟨-, tails⟩ := List.cons.inj split
      obtain ⟨-, tails⟩ := List.cons.inj tails
      obtain ⟨-, tails⟩ := List.cons.inj tails
      cases front <;> cases tails

/-- In front of the sample of a metric, each keyword declares its name, if no metric has it twice;
induction on the printed metrics.
-/
theorem countP_declares_front {keyword name value : List Char} {metrics : List Metric}
    {text front back : List (List Char)} (prints : Prints metrics text)
    (known : keyword ∈ keywords) (named : ∀ metric ∈ metrics, isName metric.name = true)
    (distinct : (metrics.map Metric.name).Nodup) (name_named : isName name = true)
    (split : text = front ++ (name ++ ' ' :: value) :: back)
    : name ∈ metrics.map Metric.name ∧ front.countP (declares keyword name) = 1 := by
  have sample : isSample (name ++ ' ' :: value) = true := isSample_of_isName name_named
  induction prints generalizing front with
  | nil => exact absurd (split ▸ List.mem_append_right front List.mem_cons_self) List.not_mem_nil
  | @skip metrics text _ ih =>
      cases front with
      | nil =>
          rw [← (List.cons.inj split).1] at sample
          cases sample
      | cons line front =>
          obtain ⟨rfl, tails⟩ := List.cons.inj split
          rw [List.countP_cons_of_neg (by rw [declares, declaration]; exact Bool.false_ne_true)]
          exact ih named distinct tails
  | @print metric metrics text _ ih =>
      obtain ⟨metric_named, named⟩ := List.forall_mem_cons.mp named
      obtain ⟨metric_new, distinct⟩ := List.nodup_cons.mp distinct
      have lines_count := @countP_declares_lines keyword name metric known
        (space_not_mem name_named) metric_named
      rcases List.append_eq_append_iff.mp split with ⟨later, rfl, tails⟩ | ⟨rest, lines, tails⟩
      · obtain ⟨among, count⟩ := ih named distinct tails
        have other : metric.name ≠ name := fun same => metric_new (same ▸ among)
        rw [List.countP_append, lines_count, if_neg other, count]
        exact ⟨List.mem_cons_of_mem _ among, rfl⟩
      · cases rest with
        | nil => cases (@ih [] named distinct tails.symm).2
        | cons first rest =>
            obtain ⟨rfl, -⟩ := List.cons.inj tails
            obtain ⟨same, rfl⟩ := sample_of_split lines sample
            obtain ⟨rfl, -⟩ := append_space_inj (space_not_mem name_named)
              (space_not_mem metric_named) same
            rw [lines, if_pos rfl, List.countP_append, List.countP_singleton,
              declares_of_isSample sample, if_neg Bool.false_ne_true] at lines_count
            exact ⟨List.mem_cons_self, lines_count⟩

/-- Printed metrics are well formed if and only if their names are names, and differ. -/
theorem wellFormed_iff_of_prints {metrics : List Metric} {text : List (List Char)}
    (prints : Prints metrics text) (numbers : ∀ metric ∈ metrics, IsNumber metric.value)
    (samples : ∀ metric ∈ metrics, isSample (metric.name ++ ' ' :: metric.value) = true)
    : WellFormed text
      ↔ (∀ metric ∈ metrics, isName metric.name = true) ∧ (metrics.map Metric.name).Nodup := by
  constructor
  · intro formed
    have named : ∀ metric ∈ metrics, isName metric.name = true := by
      intro metric member
      obtain ⟨name, value, name_named, number, same⟩ :=
        formed.samples _ (sample_mem_of_prints prints member) (samples metric member)
      by_cases spaced : ' ' ∈ metric.name
      · -- the number would contain the second space
        obtain ⟨front, rest, parts, free⟩ := List.eq_append_cons_of_mem spaced
        rw [parts, List.append_assoc, List.cons_append] at same
        obtain ⟨rfl, rfl⟩ := append_space_inj free (space_not_mem name_named) same
        have space := number.not_mem (by decide : Char.isDigit ' ' = false) (by decide)
        exact absurd (List.mem_append_right rest List.mem_cons_self) space
      · rw [(append_space_inj spaced (space_not_mem name_named) same).1]
        exact name_named
    refine ⟨named, List.nodup_iff_count_le_one.mpr fun name => ?_⟩
    by_cases member : name ∈ metrics.map Metric.name
    · obtain ⟨metric, among, rfl⟩ := List.mem_map.mp member
      obtain ⟨front, back, split⟩ := List.append_of_mem (sample_mem_of_prints prints among)
      have once := (formed.declared split (named metric among) _ List.mem_cons_self).1
      rw [countP_declares prints List.mem_cons_self (space_not_mem (named metric among)) named]
        at once
      exact Nat.le_of_eq once
    · rw [List.count_eq_zero_of_not_mem member]
      exact Nat.zero_le 1
  · rintro ⟨named, distinct⟩
    constructor
    · intro line member sample
      obtain ⟨metric, among, rfl⟩ := exists_of_isSample prints member sample
      exact ⟨metric.name, metric.value, named metric among, numbers metric among, rfl⟩
    · intro front name value back split name_named keyword known
      obtain ⟨among, before⟩ :=
        countP_declares_front prints known named distinct name_named split
      rw [countP_declares prints known (space_not_mem name_named) named]
      exact ⟨List.count_eq_one_of_mem distinct among, before⟩

/-- A sample whose text is declared both before and behind it is not well formed. -/
theorem not_wellFormed_of_twice {line : List Char} {text : List (List Char)}
    (sample : isSample line = true)
    (twice
      : [declaration ['H', 'E', 'L', 'P'] line, line,
          declaration ['H', 'E', 'L', 'P'] line].Sublist text)
    : ¬ WellFormed text := by
  intro formed
  have member : line ∈ text := twice.subset (by simp)
  obtain ⟨name, value, named, _, rfl⟩ := formed.samples line member sample
  obtain ⟨front, back, split⟩ := List.append_of_mem member
  have once := (formed.declared split named _ List.mem_cons_self).1
  have own : declares ['H', 'E', 'L', 'P'] name
      (declaration ['H', 'E', 'L', 'P'] (name ++ ' ' :: value)) = true := by
    have line_eq : declaration ['H', 'E', 'L', 'P'] (name ++ ' ' :: value)
        = declaration ['H', 'E', 'L', 'P'] name ++ ' ' :: value := by
      simp [declaration]
    rw [line_eq]
    exact (declares_iff List.mem_cons_self List.mem_cons_self (space_not_mem named)
      (space_not_mem named)).mpr ⟨rfl, rfl⟩
  have more := @List.Sublist.countP_le _ (declares ['H', 'E', 'L', 'P'] name) _ _ twice
  have not_sample : ¬ declares ['H', 'E', 'L', 'P'] name (name ++ ' ' :: value) = true := by
    rw [declares_of_isSample sample]
    exact Bool.false_ne_true
  rw [once, List.countP_cons_of_pos own, List.countP_cons_of_neg not_sample,
    List.countP_cons_of_pos own] at more
  omega

-----------------------------------------------------------------------------------------
-- Line ends
-----------------------------------------------------------------------------------------

/-- Lines that are joined are split again, each at the line ends that it contains. -/
theorem splitOn_intercalate_eq {lines : List (List Char)} (some_line : lines ≠ [])
    : (['\n'].intercalate lines).splitOn '\n' = lines.flatMap (List.splitOn '\n') := by
  induction lines with
  | nil => exact absurd rfl some_line
  | cons first rest ih =>
      cases rest with
      | nil => rw [List.intercalate_singleton, List.flatMap_singleton]
      | cons second rest =>
          rw [List.intercalate_cons_of_ne_nil (List.cons_ne_nil _ _), List.append_assoc,
            List.singleton_append, List.splitOn_append_cons_self, ih (List.cons_ne_nil _ _),
            ← List.flatMap_cons]

/-- Lines of printed metrics have no line ends when their texts have none. -/
theorem newline_not_mem_of_prints {metrics : List Metric} {text : List (List Char)}
    (prints : Prints metrics text)
    (free
      : ∀ metric ∈ metrics,
          '\n' ∉ metric.name ∧ '\n' ∉ metric.help ∧ '\n' ∉ metric.kind ∧ '\n' ∉ metric.value)
    : ∀ line ∈ text, '\n' ∉ line := by
  induction prints with
  | nil => exact fun _ member => nomatch member
  | skip _ ih => exact List.forall_mem_cons.mpr ⟨List.not_mem_nil, ih free⟩
  | print metric _ ih =>
      obtain ⟨⟨name, help, kind, value⟩, rest⟩ := List.forall_mem_cons.mp free
      refine List.forall_mem_append.mpr ⟨?_, ih rest⟩
      simp [Metric.lines, declaration, name, help, kind, value]

/-- Lines without line ends are the lines that are read. -/
theorem flatMap_splitOn_eq {text : List (List Char)} (free : ∀ line ∈ text, '\n' ∉ line)
    : text.flatMap (List.splitOn '\n') = text := by
  induction text with
  | nil => rfl
  | cons line rest ih =>
      obtain ⟨line_free, free⟩ := List.forall_mem_cons.mp free
      rw [List.flatMap_cons, ih free, List.splitOn_eq_singleton line_free, List.singleton_append]

/-- What stands in front of a line end is a line. -/
theorem singleton_sublist_splitOn {front rest line : List Char} (free : '\n' ∉ front)
    (same : line = front ++ '\n' :: rest)
    : [front].Sublist (line.splitOn '\n') := by
  rw [same, List.splitOn_append_cons_self_of_not_mem free]
  exact List.singleton_sublist.mpr List.mem_cons_self

/-- Two metrics whose names agree up to a line end make one line that is declared twice. -/
theorem not_wellFormed_of_newline {first second : Metric} {front rest others : List Char}
    {text : List (List Char)} (free : '\n' ∉ front) (name : first.name = front ++ '\n' :: rest)
    (other_name : second.name = front ++ '\n' :: others) (sample : isSample front = true)
    (among : ([first, second].flatMap Metric.lines).Sublist text)
    : ¬ WellFormed (text.flatMap (List.splitOn '\n')) := by
  have declared_free : '\n' ∉ declaration ['H', 'E', 'L', 'P'] front := by
    simp [declaration, free]
  refine not_wellFormed_of_twice sample ?_
  refine List.Sublist.trans ?_ (among.flatMap (List.splitOn '\n'))
  have three : [
        declaration ['H', 'E', 'L', 'P'] first.name ++ ' ' :: first.help,
        first.name ++ ' ' :: first.value,
        declaration ['H', 'E', 'L', 'P'] second.name ++ ' ' :: second.help
      ].Sublist ([first, second].flatMap Metric.lines) :=
    .cons_cons _ (.cons _ (.cons_cons _ (.cons_cons _ (List.nil_sublist _))))
  refine List.Sublist.trans ?_ (three.flatMap (List.splitOn '\n'))
  have help : declaration ['H', 'E', 'L', 'P'] first.name ++ ' ' :: first.help
      = declaration ['H', 'E', 'L', 'P'] front ++ '\n' :: (rest ++ ' ' :: first.help) := by
    simp [declaration, name]
  have value : first.name ++ ' ' :: first.value
      = front ++ '\n' :: (rest ++ ' ' :: first.value) := by
    simp [name]
  have other_help : declaration ['H', 'E', 'L', 'P'] second.name ++ ' ' :: second.help
      = declaration ['H', 'E', 'L', 'P'] front ++ '\n' :: (others ++ ' ' :: second.help) := by
    simp [declaration, other_name]
  exact (singleton_sublist_splitOn declared_free help).append
    ((singleton_sublist_splitOn free value).append
      ((singleton_sublist_splitOn declared_free other_help).append (List.nil_sublist _)))

end WebIndexer.Library
