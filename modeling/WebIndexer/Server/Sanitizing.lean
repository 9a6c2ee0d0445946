import WebIndexer.Library.Trimming
import WebIndexer.Server.QueryText

/-! What `sanitizeInput` of `src/security.ts` leaves of a text. It trims before it cuts, so that the
cut can lay bare a white space that trimming would have taken away.
-/

namespace WebIndexer.Server

open WebIndexer.Library
open WebIndexer.Runtime

/-- The text that is left when the deletions and the trimming are done. -/
def trimmedRest (input : List Nat) : List Nat := trimUnits (deletions.foldl delete input)

/-- A text that needs no sanitising: it is trimmed and short, and has no character to delete. -/
structure Sanitised (text : List Nat) : Prop where
  ends : IsTrimmed isSpaceUnit text
  short : text.length ≤ 500
  clean : ∀ unit ∈ text, isDeleted unit = false

/-- Sanitising a text leaves a text that needs none, and that sanitising leaves as it is. -/
def Sanitises (input : List Nat) : Prop :=
  sanitizeInput (.text (sanitizeInput (.text input))) = sanitizeInput (.text input)
  ∧ Sanitised (sanitizeInput (.text input))

theorem sanitizeInput_eq_take (input : List Nat)
    : sanitizeInput (.text input) = (trimmedRest input).take 500 :=
  rfl

/-- Deleted characters are gone for good: trimming and cutting bring none back. -/
theorem isDeleted_of_mem_sanitizeInput {input : List Nat} {unit : Nat}
    (member : unit ∈ sanitizeInput (.text input))
    : isDeleted unit = false := by
  have rest : unit ∈ trimmedRest input := List.mem_of_mem_take member
  have kept := mem_of_mem_trimmed rest
  rw [foldl_delete] at kept
  simpa [isDeleted] using (List.mem_filter.mp kept).2

/-- Without characters to delete, the deletions do nothing. -/
theorem foldl_delete_eq_self {text : List Nat} (clean : ∀ unit ∈ text, isDeleted unit = false)
    : deletions.foldl delete text = text := by
  rw [foldl_delete]
  refine List.filter_eq_self.mpr fun unit member => ?_
  rw [Bool.not_eq_true']
  exact clean unit member

/-- A text that needs no sanitising is left as it is. -/
theorem Sanitised.sanitizeInput_eq {text : List Nat} (sanitised : Sanitised text)
    : sanitizeInput (.text text) = text := by
  rw [sanitizeInput_eq_take, trimmedRest, foldl_delete_eq_self sanitised.clean, trimUnits,
    sanitised.ends.trimmed_eq, List.take_of_length_le sanitised.short]

/-- What sanitising leaves needs no more of it if and only if its ends are trimmed. -/
theorem sanitises_iff_isTrimmed (input : List Nat)
    : Sanitises input ↔ IsTrimmed isSpaceUnit (sanitizeInput (.text input)) := by
  constructor
  · exact fun sanitises => sanitises.2.ends
  · intro ends
    have sanitised : Sanitised (sanitizeInput (.text input)) :=
      ⟨ends, List.length_take_le 500 _, fun _ member => isDeleted_of_mem_sanitizeInput member⟩
    exact ⟨sanitised.sanitizeInput_eq, sanitised⟩

/-- The code units of a text that are not among those to delete, from the first one on that is no
white space.
-/
def keptUnits (input : List Nat) : List Nat :=
  (input.filter fun unit => !isDeleted unit).dropWhile isSpaceUnit

/-- What is left of them when the white space at the end is cut off. -/
theorem trimmedRest_eq (input : List Nat)
    : trimmedRest input = (keptUnits input).rdropWhile isSpaceUnit := by
  rw [trimmedRest, foldl_delete]
  rfl

/-- Sanitising a text once is enough if and only if the 500th of its units that are kept, if it or a
later one is no white space, is no white space itself.
-/
theorem sanitises_iff (input : List Nat)
    : Sanitises input
      ↔ ∀ unit ∈ (keptUnits input)[499]?,
          (∃ later ∈ (keptUnits input).drop 499, isSpaceUnit later = false) →
            isSpaceUnit unit = false := by
  rw [sanitises_iff_isTrimmed, sanitizeInput_eq_take]
  refine ((isTrimmed_trimmed isSpaceUnit _).take_succ_iff 499).trans ?_
  refine forall_congr' fun unit => ?_
  change (trimmedRest input)[499]? = some unit → _ ↔ _
  rw [trimmedRest_eq, getElem?_rdropWhile_iff]
  exact and_imp

/-- What `/api/search` passes in has been cut already, and is sanitised once. -/
theorem sanitises_rawText (text : List Nat) : Sanitises (rawText text) := by
  rw [sanitises_iff_isTrimmed]
  change IsTrimmed isSpaceUnit (searchText text)
  rw [searchText_eq]
  exact isTrimmed_trimmed isSpaceUnit _

/-- A text whose cut falls behind a space keeps the space, until it is sanitised again. -/
theorem not_sanitises : ¬ ∀ input, Sanitises input := by
  intro claim
  have ends := (claim (List.replicate 499 0x61 ++ [0x20, 0x62])).2.ends
  exact absurd (ends.last 0x20 (by decide +kernel)) (by decide)

end WebIndexer.Server
