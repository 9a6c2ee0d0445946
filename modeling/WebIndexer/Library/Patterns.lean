import Mathlib.Data.List.Forall2
import Mathlib.Data.List.TakeWhile

/-! Patterns that are a sequence of repeated classes, and a backtracking search for them. Each class
takes as much as it can at first, and gives back one item at a time where the rest does not match.
-/

namespace WebIndexer.Library

variable {α β : Type*}

/-- A class of items with the number of its repetitions: at least `least`, and at most `most` if
there is a bound.
-/
structure Piece (α : Type*) where
  test : α → Bool
  least : Nat
  most : Option Nat
  captured : Bool

/-- The first success of the attempts at `count`, at `count - 1` and so on down to `least`. -/
def firstDown (attempt : Nat → Option β) (least : Nat) : Nat → Option β
  | 0 => if least = 0 then attempt 0 else none
  | count + 1 =>
      if least ≤ count + 1 then
        match attempt (count + 1) with
        | some found => some found
        | none => firstDown attempt least count
      else
        none

/-- A success is that of an attempt. -/
theorem attempt_of_firstDown {attempt : Nat → Option β} {least count : Nat} {found : β}
    (succeeds : firstDown attempt least count = some found)
    : ∃ tried, least ≤ tried ∧ tried ≤ count ∧ attempt tried = some found := by
  induction count with
  | zero =>
      obtain ⟨none_needed, taken⟩ := Option.ite_none_right_eq_some.mp succeeds
      exact ⟨0, Nat.le_of_eq none_needed, Nat.le_refl 0, taken⟩
  | succ count ih =>
      obtain ⟨enough, tail⟩ := Option.ite_none_right_eq_some.mp succeeds
      cases now : attempt (count + 1) with
      | some first =>
          rw [now] at tail
          exact ⟨count + 1, enough, Nat.le_refl _, now.trans tail⟩
      | none =>
          rw [now] at tail
          obtain ⟨tried, above, below, taken⟩ := ih tail
          exact ⟨tried, above, Nat.le_succ_of_le below, taken⟩

/-- There is a success if one of the attempts is one. -/
theorem firstDown_isSome {attempt : Nat → Option β} {least count tried : Nat}
    (above : least ≤ tried) (below : tried ≤ count) (succeeds : (attempt tried).isSome = true)
    : (firstDown attempt least count).isSome = true := by
  induction count with
  | zero =>
      have zero : tried = 0 := Nat.le_zero.mp below
      subst zero
      rw [firstDown, if_pos (Nat.le_zero.mp above)]
      exact succeeds
  | succ count ih =>
      rw [firstDown, if_pos (above.trans below)]
      cases now : attempt (count + 1) with
      | some first => rfl
      | none =>
          refine ih ?_
          rcases Nat.lt_or_eq_of_le below with less | same
          · exact Nat.le_of_lt_succ less
          · rw [same, now] at succeeds
            cases succeeds

namespace Piece

/-- The piece takes this part of a text. -/
def Takes (piece : Piece α) (part : List α) : Prop :=
  (∀ item ∈ part, piece.test item = true) ∧ piece.least ≤ part.length
    ∧ ∀ most ∈ piece.most, part.length ≤ most

/-- How much of a text the piece can take at most. -/
def reach (piece : Piece α) (text : List α) : Nat :=
  match piece.most with
  | none => (text.takeWhile piece.test).length
  | some most => min most (text.takeWhile piece.test).length

/-- The piece takes no more than what passes its test. -/
theorem reach_le (piece : Piece α) (text : List α)
    : piece.reach text ≤ (text.takeWhile piece.test).length := by
  unfold reach
  split
  · exact Nat.le_refl _
  · exact Nat.min_le_right _ _

/-- What the piece reaches is within its bound. -/
theorem reach_le_most {piece : Piece α} {most : Nat} (bound : most ∈ piece.most) (text : List α)
    : piece.reach text ≤ most := by
  unfold reach
  rw [Option.mem_def.mp bound]
  exact Nat.min_le_left _ _

/-- Whatever starts a text within the reach is a part that the piece takes. -/
theorem takes_take {piece : Piece α} {text : List α} {count : Nat} (enough : piece.least ≤ count)
    (within : count ≤ piece.reach text)
    : piece.Takes (text.take count) := by
  have passing := within.trans (piece.reach_le text)
  have length : (text.take count).length = count :=
    List.length_take_of_le (passing.trans (List.takeWhile_prefix _).length_le)
  refine ⟨?_, ?_, ?_⟩
  · intro item member
    have prefixed : text.take count <+: text.takeWhile piece.test :=
      List.prefix_of_prefix_length_le (List.take_prefix _ _) (List.takeWhile_prefix _)
        (length.trans_le passing)
    exact List.mem_takeWhile_imp (prefixed.subset member)
  · exact enough.trans_eq length.symm
  · intro most bound
    exact length.trans_le (within.trans (reach_le_most bound text))

/-- A part that the piece takes is within its reach. -/
theorem length_le_reach {piece : Piece α} {part : List α} (takes : piece.Takes part)
    (rest : List α)
    : part.length ≤ piece.reach (part ++ rest) := by
  have passing : part.length ≤ ((part ++ rest).takeWhile piece.test).length := by
    rw [List.takeWhile_append_of_pos takes.1, List.length_append]
    exact Nat.le_add_right _ _
  unfold reach
  split
  · exact passing
  · rename_i most bound
    exact Nat.le_min.mpr ⟨takes.2.2 most bound, passing⟩

end Piece

/-- A class that takes exactly one item. -/
def one (test : α → Bool) : Piece α := ⟨test, 1, some 1, false⟩

/-- It takes the single items that pass. -/
theorem takes_one {test : α → Bool} {part : List α}
    : (one test).Takes part ↔ ∃ item, part = [item] ∧ test item = true := by
  constructor
  · rintro ⟨passes, least, most⟩
    obtain ⟨item, rfl⟩ := List.length_eq_one_iff.mp (Nat.le_antisymm (most 1 rfl) least)
    exact ⟨item, rfl, passes item List.mem_cons_self⟩
  · rintro ⟨item, rfl, passes⟩
    refine ⟨?_, Nat.le_refl 1, ?_⟩
    · intro other member
      rw [List.mem_singleton.mp member]
      exact passes
    · intro most bound
      cases bound
      exact Nat.le_refl 1

namespace Pattern

variable {pieces others : List (Piece α)} {parts more : List (List α)} {text part : List α}

/-- The parts of a text that the pieces take when the pattern matches at the head of the text. -/
def matchAt : List (Piece α) → List α → Option (List (List α))
  | [], _ => some []
  | piece :: pieces, text =>
      firstDown
        (fun count => (matchAt pieces (text.drop count)).map (text.take count :: ·))
        piece.least (piece.reach text)

/-- The text before the first match, and the parts of the match. -/
def search (pieces : List (Piece α)) : List α → Option (List α × List (List α))
  | [] => (matchAt pieces []).map ([], ·)
  | item :: text =>
      match matchAt pieces (item :: text) with
      | some parts => some ([], parts)
      | none => (search pieces text).map fun found => (item :: found.1, found.2)

/-- The parts that the captured pieces have taken. -/
def captures (pieces : List (Piece α)) (parts : List (List α)) : List (List α) :=
  ((pieces.zip parts).filter fun pair => pair.1.captured).map Prod.snd

/-- The pieces take these parts, one after the other. -/
def Fits (pieces : List (Piece α)) (parts : List (List α)) : Prop :=
  List.Forall₂ Piece.Takes pieces parts

/-- The parts of a sequence of two patterns are those of the one and those of the other. -/
theorem fits_append
    : Fits (pieces ++ others) parts
      ↔ ∃ first second, parts = first ++ second ∧ Fits pieces first ∧ Fits others second := by
  constructor
  · intro fits
    induction pieces generalizing parts with
    | nil => exact ⟨[], parts, rfl, .nil, fits⟩
    | cons piece pieces ih =>
        cases fits with
        | cons takes fits =>
            obtain ⟨first, second, rfl, here, there⟩ := ih fits
            exact ⟨_ :: first, second, rfl, .cons takes here, there⟩
  · rintro ⟨first, second, rfl, here, there⟩
    exact List.rel_append here there

/-- A single piece takes a single part. -/
theorem fits_singleton {piece : Piece α}
    : Fits [piece] parts ↔ ∃ part, parts = [part] ∧ piece.Takes part := by
  constructor
  · intro fits
    cases fits with
    | cons takes fits =>
        cases fits
        exact ⟨_, rfl, takes⟩
  · rintro ⟨part, rfl, takes⟩
    exact .cons takes .nil

/-- The capture of a single piece. -/
theorem captures_singleton (piece : Piece α) (part : List α)
    : captures [piece] [part] = if piece.captured then [part] else [] := by
  cases captured : piece.captured <;> simp [captures, captured]

/-- The captures of a sequence of two patterns. -/
theorem captures_append (fits : Fits pieces parts)
    : captures (pieces ++ others) (parts ++ more)
      = captures pieces parts ++ captures others more := by
  rw [captures, List.zip_append fits.length_eq, List.filter_append, List.map_append]
  rfl

/-- A capture is a part of the match that a captured piece takes. -/
theorem takes_of_mem_captures (fits : Fits pieces parts) (member : part ∈ captures pieces parts)
    : ∃ piece ∈ pieces, piece.captured = true ∧ piece.Takes part ∧ part ∈ parts := by
  obtain ⟨⟨piece, taken⟩, kept, rfl⟩ := List.mem_map.mp member
  obtain ⟨zipped, captured⟩ := List.mem_filter.mp kept
  obtain ⟨member_piece, member_part⟩ := List.of_mem_zip zipped
  exact ⟨piece, member_piece, captured, (List.forall₂_iff_zip.mp fits).2 zipped, member_part⟩

/-- The parts of a match stand at the head of the text, and the pieces take them. -/
theorem fits_of_matchAt (found : matchAt pieces text = some parts)
    : Fits pieces parts ∧ ∃ rest, text = parts.flatten ++ rest := by
  induction pieces generalizing text parts with
  | nil =>
      cases found
      exact ⟨.nil, text, rfl⟩
  | cons piece pieces ih =>
      obtain ⟨count, enough, within, taken⟩ := attempt_of_firstDown found
      obtain ⟨behind, matched, rfl⟩ := Option.map_eq_some_iff.mp taken
      obtain ⟨fits, rest, split⟩ := ih matched
      refine ⟨.cons (Piece.takes_take enough within) fits, rest, ?_⟩
      rw [List.flatten_cons, List.append_assoc, ← split, List.take_append_drop]

/-- The pattern matches wherever its pieces can take what stands there. -/
theorem matchAt_isSome (fits : Fits pieces parts) (rest : List α)
    : (matchAt pieces (parts.flatten ++ rest)).isSome = true := by
  induction fits with
  | nil => rfl
  | @cons piece part pieces parts takes _ ih =>
      rw [List.flatten_cons, List.append_assoc, matchAt]
      refine firstDown_isSome takes.2.1 (Piece.length_le_reach takes _) ?_
      rw [Option.isSome_map, List.drop_left]
      exact ih

/-- A search finds a match, and there is none before it. -/
theorem search_eq_some {front : List α} (found : search pieces text = some (front, parts))
    : Fits pieces parts ∧ (∃ rest, text = front ++ (parts.flatten ++ rest))
      ∧ ∀ before others rest,
          Fits pieces others → text = before ++ (others.flatten ++ rest) →
            front.length ≤ before.length := by
  induction text generalizing front with
  | nil =>
      obtain ⟨matched, here, same⟩ := Option.map_eq_some_iff.mp found
      obtain ⟨rfl, rfl⟩ := Prod.mk.inj same
      obtain ⟨fits, rest, split⟩ := fits_of_matchAt here
      exact ⟨fits, ⟨rest, split⟩, fun _ _ _ _ _ => Nat.zero_le _⟩
  | cons item text ih =>
      cases here : matchAt pieces (item :: text) with
      | some matched =>
          rw [search, here] at found
          obtain ⟨rfl, rfl⟩ := Prod.mk.inj (Option.some.inj found)
          obtain ⟨fits, rest, split⟩ := fits_of_matchAt here
          exact ⟨fits, ⟨rest, split⟩, fun _ _ _ _ _ => Nat.zero_le _⟩
      | none =>
          rw [search, here] at found
          obtain ⟨later, behind, same⟩ := Option.map_eq_some_iff.mp found
          obtain ⟨rfl, rfl⟩ := Prod.mk.inj same
          obtain ⟨fits, ⟨rest, split⟩, first⟩ := ih behind
          refine ⟨fits, ⟨rest, by rw [List.cons_append, ← split]⟩, ?_⟩
          intro before others rest' fits' same'
          cases before with
          | nil =>
              have matches_here := matchAt_isSome fits' rest'
              rw [List.nil_append] at same'
              rw [← same', here] at matches_here
              cases matches_here
          | cons head before =>
              rw [List.cons_append] at same'
              exact Nat.succ_le_succ (first before others rest' fits' (List.cons.inj same').2)

/-- A search without success means that the pattern matches nowhere. -/
theorem not_fits_of_search (missing : search pieces text = none) (fits : Fits pieces parts)
    (front rest : List α)
    : text ≠ front ++ (parts.flatten ++ rest) := by
  induction text generalizing front with
  | nil =>
      intro same
      have empty := (List.append_eq_nil_iff.mp same.symm).2
      have matched := matchAt_isSome fits rest
      rw [empty] at matched
      rw [Option.map_eq_none_iff.mp missing] at matched
      cases matched
  | cons item text ih =>
      intro same
      cases here : matchAt pieces (item :: text) with
      | some matched =>
          rw [search, here] at missing
          cases missing
      | none =>
          rw [search, here] at missing
          cases front with
          | nil =>
              have matched := matchAt_isSome fits rest
              rw [List.nil_append] at same
              rw [← same, here] at matched
              cases matched
          | cons head front =>
              exact ih (Option.map_eq_none_iff.mp missing) front (List.cons.inj same).2

end Pattern

end WebIndexer.Library
