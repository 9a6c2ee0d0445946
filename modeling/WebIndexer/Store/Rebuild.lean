import WebIndexer.Library.Rounding
import WebIndexer.Store.SearchIndex
import Mathlib.Tactic.NormNum

/-! `rebuildFtsIfNeeded` of `src/queue.ts`. The rebuild empties the search index and fills it
again outside a transaction, and swallows the error of a statement that fails.
-/

namespace WebIndexer.Store

open WebIndexer.Config
open WebIndexer.Library

namespace Tables

/-- `DELETE FROM nodes_fts`. -/
def clearFts (tables : Tables) : Tables := { tables with nodesFts := [] }

/-- The statement `rebuildFts`: `INSERT INTO nodes_fts` of the rows of `nodes`. -/
def rebuildFts (tables : Tables) : Tables := {
  tables with
  nodesFts := tables.nodesFts ++ tables.nodes.entries.map fun entry => indexRow entry.1 entry.2
}

/-- What the statements of a rebuild do, in their order; the last one, `ftsCount`, only reads. -/
def rebuildStatements : List (Tables → Tables) := [clearFts, rebuildFts, id]

/-- Statements outside a transaction, of which one may fail: those before it stay done. -/
def attempt (statements : List (Tables → Tables)) (failing : Option Nat) (tables : Tables)
    : Tables :=
  (statements.take (failing.getD statements.length)).foldl (fun tables run => run tables) tables

/-- `ftsCount < existing * 0.8`. The product is taken exactly; up to a quadrillion rows the double
of it decides alike, by `needsRebuild_doubles_iff`.
-/
def needsRebuild (existing ftsCount : Nat) : Bool := ftsCount * 5 < existing * 4

/-- `rebuildFtsIfNeeded`, with the number of the statement that fails, if one does. -/
def rebuildFtsIfNeeded (backend : Backend) (existing ftsCount : Nat) (failing : Option Nat)
    (tables : Tables)
    : Tables :=
  match backend with
  | .pg => tables
  | .sqlite =>
      if needsRebuild existing ftsCount then
        attempt rebuildStatements failing tables
      else
        tables

/-- The search index is as it was, or has one row for each row of `nodes`. -/
def Unharmed (before after : Tables) : Prop :=
  after.nodesFts = before.nodesFts ∨ after.Mirrors

/-- The rows of `nodes` go missing in the index: a rebuild has emptied it, and then fails. -/
def LosesIndex (existing ftsCount : Nat) (failing : Option Nat) (tables : Tables) : Prop :=
  needsRebuild existing ftsCount = true
  ∧ failing = some 1
  ∧ tables.nodesFts ≠ []
  ∧ tables.nodes.entries ≠ []

variable {tables : Tables}

/-- An index that has been emptied and filled again mirrors the pages. -/
theorem mirrors_rebuild : tables.clearFts.rebuildFts.Mirrors := .refl _

/-- An index without rows mirrors no pages only. -/
theorem mirrors_clearFts_iff : tables.clearFts.Mirrors ↔ tables.nodes.entries = [] := by
  rw [Mirrors]
  change [].Perm (tables.nodes.entries.map _) ↔ _
  rw [List.nil_perm, List.map_eq_nil_iff]

/-- What a rebuild leaves, by the statement that fails. -/
theorem attempt_cases (failing : Option Nat) (tables : Tables)
    : (failing = some 0 ∧ attempt rebuildStatements failing tables = tables)
      ∨ (failing = some 1 ∧ attempt rebuildStatements failing tables = tables.clearFts)
      ∨ (failing ≠ some 1
        ∧ attempt rebuildStatements failing tables = tables.clearFts.rebuildFts) := by
  match failing with
  | none => exact .inr (.inr ⟨by simp, rfl⟩)
  | some 0 => exact .inl ⟨rfl, rfl⟩
  | some 1 => exact .inr (.inl ⟨rfl, rfl⟩)
  | some 2 => exact .inr (.inr ⟨by simp, rfl⟩)
  | some (later + 3) => exact .inr (.inr ⟨by simp, by simp [attempt, rebuildStatements]⟩)

/-- Whatever the tables hold and whichever statement fails, a call on SQLite does no harm to the
index unless it starts a rebuild of an index that has rows, for pages that there are, and fails
between emptying the index and filling it.
-/
theorem rebuild_unharmed_iff (existing ftsCount : Nat) (failing : Option Nat) (tables : Tables)
    : Unharmed tables (tables.rebuildFtsIfNeeded .sqlite existing ftsCount failing)
      ↔ ¬ LosesIndex existing ftsCount failing tables := by
  unfold rebuildFtsIfNeeded LosesIndex
  cases needed : needsRebuild existing ftsCount with
  | false => simp [Unharmed]
  | true =>
      simp only [if_true, true_and]
      rcases attempt_cases failing tables with
        ⟨first, same⟩ | ⟨second, same⟩ | ⟨other, same⟩
      · rw [same, first]
        exact iff_of_true (.inl rfl) (by simp)
      · rw [same, second]
        have emptied : tables.clearFts.nodesFts = [] := rfl
        rw [Unharmed, mirrors_clearFts_iff, emptied, eq_comm]
        tauto
      · rw [same]
        exact iff_of_true (.inr mirrors_rebuild) fun lost => other lost.1

-----------------------------------------------------------------------------------------
-- Doubles
-----------------------------------------------------------------------------------------

/-- The double that `0.8` writes. -/
theorem double_four_fifths : double (4 / 5) = 7205759403792794 / 2 ^ 53 := by
  have place : lastPlace 53 (4 / 5 : ℚ) = 1 / 2 ^ 53 := by
    rw [@lastPlace_eq ℚ _ _ _ _ 53 (4 / 5) (-1) (by norm_num) (by norm_num)]
    norm_num
  rw [double, roundTo, place]
  norm_num [roundEven]

/-- Four fifths of a multiple of five, give or take the error of the factor, are rounded to the
integer.
-/
theorem double_mul_four_fifths {existing ftsCount : Nat} (same : ftsCount * 5 = existing * 4)
    (small : existing ≤ 2 ^ 50)
    : double (existing * (7205759403792794 / 2 ^ 53)) = ftsCount := by
  have multiple : (existing : ℚ) = ftsCount * (5 / 4) := by
    have scaled : (ftsCount * 5 : ℚ) = existing * 4 := by exact_mod_cast same
    linarith
  have product : (existing * (7205759403792794 / 2 ^ 53) : ℚ)
      = ftsCount * (1 + 1 / 2 ^ 54) := by
    rw [multiple]
    ring
  rw [double, product]
  rcases Nat.eq_zero_or_pos ftsCount with none_there | some_there
  · simp [none_there]
  · have count : (0 : ℚ) < ftsCount := Nat.cast_pos.mpr some_there
    have bits := abs_lt_lastPlace 53 (ftsCount * (1 + 1 / 2 ^ 54) : ℚ)
    have few : (ftsCount : ℚ) ≤ 2 ^ 50 := by
      exact_mod_cast (by omega : ftsCount ≤ 2 ^ 50)
    rw [abs_of_pos (by positivity)] at bits
    refine @roundTo_of_near ℚ _ _ _ _ 53 _ ftsCount ?_ (by positivity) ?_
    · rw [abs_of_pos (by positivity)]
      linarith
    · have off : (ftsCount * (1 + 1 / 2 ^ 54) - (ftsCount : ℤ) : ℚ) = ftsCount / 2 ^ 54 := by
        push_cast
        ring
      rw [off, abs_of_pos (by positivity)]
      norm_num at bits ⊢
      linarith

/-- Doubles come to the same test: next to a multiple of four fifths, the product is rounded to
it.
-/
theorem needsRebuild_doubles_iff {existing : Nat} (small : existing ≤ 2 ^ 50) (ftsCount : Nat)
    : (ftsCount : ℚ) < double (existing * double (4 / 5))
      ↔ needsRebuild existing ftsCount = true := by
  have small' : (existing : ℚ) ≤ 2 ^ 50 := by exact_mod_cast small
  have some_rows : (0 : ℚ) ≤ existing := Nat.cast_nonneg existing
  rw [double_four_fifths, needsRebuild, decide_eq_true_iff]
  rcases lt_trichotomy (ftsCount * 5) (existing * 4) with fewer | same | more
  · have step : (ftsCount * 5 + 1 : ℚ) ≤ existing * 4 := by exact_mod_cast fewer
    have product := @le_roundTo ℚ _ _ _ _ 53 (existing * (7205759403792794 / 2 ^ 53))
      (existing * (4 / 5)) (mul_le_mul_of_nonneg_left (by norm_num) some_rows) (by positivity)
    refine iff_of_true ?_ fewer
    unfold double
    norm_num at product step ⊢
    linarith
  · rw [double_mul_four_fifths same small]
    exact iff_of_false (lt_irrefl _) same.not_lt
  · have step : (existing * 4 + 1 : ℚ) ≤ ftsCount * 5 := by exact_mod_cast more
    have product := @roundTo_le ℚ _ _ _ _ 53 _ (existing * (7205759403792794 / 2 ^ 53))
      (le_refl _) (by positivity)
    refine iff_of_false (not_lt.mpr ?_) more.not_gt
    unfold double
    norm_num at product step ⊢
    linarith

-----------------------------------------------------------------------------------------
-- A rebuild that fails
-----------------------------------------------------------------------------------------

/-- A page that is not in the index, and one that is. -/
def partlyIndexed : Tables := {
  empty with
  nodes := ((InsertionMap.empty.set "https://a.example/1" ⟨"", "", "a.example", 0, none, 1, "", 1,
    "", "", "", 0, 0⟩).set "https://a.example/2" ⟨"", "", "a.example", 0, none, 1, "", 1, "", "",
    "", 0, 0⟩)
  nodesFts := [⟨"https://a.example/1", "", "", "", "", "", "a.example"⟩]
}

/-- A rebuild whose second statement fails leaves an empty index. -/
theorem rebuild_harms_index
    : ¬ ∀ (failing : Option Nat) (tables : Tables),
        Unharmed tables
          (tables.rebuildFtsIfNeeded .sqlite tables.nodes.size tables.nodesFts.length failing) := by
  intro claim
  rcases claim (some 1) partlyIndexed with same | mirrors
  · exact absurd same (by decide)
  · exact absurd mirrors.length_eq (by decide)

end Tables

end WebIndexer.Store
