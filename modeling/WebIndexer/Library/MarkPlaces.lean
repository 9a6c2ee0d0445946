import WebIndexer.Library.Markup
import Mathlib.Data.List.Perm.Basic

/-! Where the marks of a text stand in the text itself. A place is the size of the items before it,
to which the marks add nothing, so that the places of the marks that a text has do not move when
other marks are put in.
-/

namespace WebIndexer.Library

variable {α : Type*} {tokens first second : List (Token α)} {units items front back : List α}

-----------------------------------------------------------------------------------------
-- Items
-----------------------------------------------------------------------------------------

/-- The mark is one that opens a pair. -/
def Token.isOpening : Token α → Bool
  | .opening => true
  | .item _ | .closing => false

/-- The mark is one that closes a pair. -/
def Token.isClosing : Token α → Bool
  | .closing => true
  | .item _ | .opening => false

/-- The mark is one of a pair. -/
def Token.isMark (token : Token α) : Bool := token.isOpening || token.isClosing

/-- The items between the marks. -/
def itemsOf : List (Token α) → List α
  | [] => []
  | .item value :: rest => value :: itemsOf rest
  | .opening :: rest | .closing :: rest => itemsOf rest

@[simp] theorem itemsOf_append (first second : List (Token α))
    : itemsOf (first ++ second) = itemsOf first ++ itemsOf second := by
  induction first with
  | nil => rfl
  | cons token rest ih => cases token <;> simp [itemsOf, ih]

@[simp] theorem itemsOf_items (units : List α) : itemsOf (units.map Token.item) = units := by
  induction units with
  | nil => rfl
  | cons unit rest ih => simp [itemsOf, ih]

/-- A marked text has the items that it is a marking of. -/
theorem Marked.itemsOf_eq {good : List α → Prop} (marked : Marked good tokens items)
    : itemsOf tokens = items := by
  induction marked with
  | nil => rfl
  | item value _ ih => rw [itemsOf, ih]
  | pair _ _ _ inside_ih rest_ih =>
      rw [List.cons_append, itemsOf, itemsOf_append, itemsOf, inside_ih, rest_ih]

-----------------------------------------------------------------------------------------
-- Places
-----------------------------------------------------------------------------------------

variable {size : α → Nat} {chosen : Token α → Bool} {place spot : Nat}

/-- The size of the items between the marks. -/
def extent (size : α → Nat) : List (Token α) → Nat
  | [] => 0
  | .item value :: rest => size value + extent size rest
  | .opening :: rest | .closing :: rest => extent size rest

/-- The places of the chosen marks, in a text that begins at a place. -/
def spots (size : α → Nat) (chosen : Token α → Bool) : Nat → List (Token α) → List Nat
  | _, [] => []
  | place, token :: rest =>
      (if chosen token then [place] else []) ++ spots size chosen (place + extent size [token]) rest

@[simp] theorem extent_append (size : α → Nat) (first second : List (Token α))
    : extent size (first ++ second) = extent size first + extent size second := by
  induction first with
  | nil => exact (Nat.zero_add _).symm
  | cons token rest ih => cases token <;> simp [extent, ih, Nat.add_assoc]

theorem extent_cons (size : α → Nat) (token : Token α) (rest : List (Token α))
    : extent size (token :: rest) = extent size [token] + extent size rest :=
  extent_append size [token] rest

theorem spots_append (size : α → Nat) (chosen : Token α → Bool) (place : Nat)
    (first second : List (Token α))
    : spots size chosen place (first ++ second)
      = spots size chosen place first
        ++ spots size chosen (place + extent size first) second := by
  induction first generalizing place with
  | nil => rfl
  | cons token rest ih =>
      rw [List.cons_append, spots, spots, ih, extent_cons size token rest, List.append_assoc,
        Nat.add_assoc]

/-- There is a place for each chosen mark. -/
theorem length_spots (size : α → Nat) (chosen : Token α → Bool) (place : Nat)
    (tokens : List (Token α))
    : (spots size chosen place tokens).length = tokens.countP chosen := by
  induction tokens generalizing place with
  | nil => rfl
  | cons token rest ih =>
      rw [spots, List.length_append, ih, List.countP_cons, Nat.add_comm]
      cases chosen token <;> rfl

/-- A mark stands no earlier than the text begins, and no later than it ends. -/
theorem spot_bounds (member : spot ∈ spots size chosen place tokens)
    : place ≤ spot ∧ spot ≤ place + extent size tokens := by
  induction tokens generalizing place with
  | nil => cases member
  | cons token rest ih =>
      rw [extent_cons]
      rcases List.mem_append.mp member with here | later
      · have same : spot = place := by
          split at here
          · exact List.mem_singleton.mp here
          · cases here
        omega
      · have bounds := ih later
        omega

/-- Behind an item a mark stands later than the text begins. -/
theorem lt_spot_of_item {value : α} (unmarked : chosen (.item value) = false)
    (some_size : 0 < size value)
    (member : spot ∈ spots size chosen place (.item value :: tokens))
    : place < spot := by
  rw [spots, unmarked] at member
  have bounds := spot_bounds member
  have grows : extent size [Token.item value] = size value := rfl
  omega

/-- Among items there is no mark. -/
theorem spots_items (unmarked : ∀ value, chosen (.item value) = false) (place : Nat)
    (units : List α)
    : spots size chosen place (units.map .item) = [] := by
  induction units generalizing place with
  | nil => rfl
  | cons unit rest ih => rw [List.map_cons, spots, unmarked, ih]; rfl

/-- A pair that is put around items adds one mark in front of them. -/
theorem spots_opening_insert (size : α → Nat) (first second : List (Token α)) (units : List α)
    : (spots size Token.isOpening 0
        (first ++ .opening :: (units.map .item ++ .closing :: second))).Perm
        (extent size first
          :: spots size Token.isOpening 0 (first ++ units.map .item ++ second)) := by
  rw [List.append_assoc, spots_append, spots_append, spots, spots_append, spots_append, spots,
    Nat.zero_add]
  exact List.perm_middle

/-- It adds one mark behind them. -/
theorem spots_closing_insert (size : α → Nat) (first second : List (Token α)) (units : List α)
    : (spots size Token.isClosing 0
        (first ++ .opening :: (units.map .item ++ .closing :: second))).Perm
        ((extent size first + extent size (units.map Token.item))
          :: spots size Token.isClosing 0 (first ++ units.map .item ++ second)) := by
  have unmarked : ∀ value : α, Token.isClosing (.item value) = false := fun _ => rfl
  rw [List.append_assoc, spots_append, spots_append, spots, spots_append, spots_append, spots,
    spots_items unmarked, spots_items unmarked, Nat.zero_add]
  exact List.perm_middle

/-- The marks before an item are those that stand no later than it does. -/
theorem countP_spots_le (unmarked : ∀ value, chosen (.item value) = false)
    (early : extent size first ≤ place)
    (late : place < extent size first + extent size (units.map Token.item))
    : (spots size chosen 0 (first ++ units.map .item ++ second)).countP (· ≤ place)
      = first.countP chosen := by
  have front : (spots size chosen 0 first).countP (· ≤ place) = first.countP chosen := by
    rw [← length_spots size chosen 0 first, List.countP_eq_length]
    intro spot member
    have bounds := spot_bounds member
    exact decide_eq_true (by omega)
  have behind : (spots size chosen (0 + extent size (first ++ units.map Token.item)) second).countP
      (· ≤ place) = 0 := by
    rw [List.countP_eq_zero]
    intro spot member
    have bounds := spot_bounds member
    rw [extent_append] at bounds
    exact fun no_later => absurd (of_decide_eq_true no_later) (by omega)
  rw [spots_append, spots_append, spots_items unmarked, List.append_nil, List.countP_append, front,
    behind, Nat.add_zero]

/-- Among items without a mark none parts them. -/
theorem spot_outside
    (member : spot ∈ spots size Token.isMark 0 (first ++ units.map .item ++ second))
    : spot ≤ extent size first ∨ extent size first + extent size (units.map Token.item) ≤ spot := by
  have unmarked : ∀ value : α, Token.isMark (.item value) = false := fun _ => rfl
  rw [spots_append, spots_append, spots_items unmarked, List.append_nil] at member
  rcases List.mem_append.mp member with before | behind
  · have bounds := spot_bounds before
    exact .inl (by omega)
  · have bounds := spot_bounds behind
    rw [extent_append] at bounds
    exact .inr (by omega)

/-- A mark opens a pair or closes one. -/
theorem mem_spots_isMark (member : spot ∈ spots size Token.isMark place tokens)
    : spot ∈ spots size Token.isOpening place tokens
      ∨ spot ∈ spots size Token.isClosing place tokens := by
  induction tokens generalizing place with
  | nil => cases member
  | cons token rest ih =>
      rcases List.mem_append.mp member with here | later
      · cases token with
        | item => cases here
        | opening => exact .inl (List.mem_append_left _ here)
        | closing => exact .inr (List.mem_append_left _ here)
      · exact (ih later).imp (List.mem_append_right _) (List.mem_append_right _)

-----------------------------------------------------------------------------------------
-- Items without a mark between them
-----------------------------------------------------------------------------------------

/-- Items that no mark stands before the end of come first, by induction on them. -/
theorem exists_items_append (some_size : ∀ value, 0 < size value)
    (same : itemsOf tokens = units ++ back)
    (free : ∀ spot ∈ spots size Token.isMark place tokens,
      place + extent size (units.map Token.item) ≤ spot)
    : ∃ rest, tokens = units.map .item ++ rest := by
  induction units generalizing tokens place with
  | nil => exact ⟨tokens, rfl⟩
  | cons unit units ih =>
      have larger : place < place + extent size ((unit :: units).map Token.item) :=
        Nat.lt_add_of_pos_right (Nat.add_pos_left (some_size unit) _)
      cases tokens with
      | nil => cases same
      | cons token rest =>
          cases token with
          | item value =>
              obtain ⟨rfl, rest_same⟩ := List.cons.inj same
              have rest_free : ∀ spot ∈ spots size Token.isMark (place + extent size [.item value])
                  rest, place + extent size [.item value] + extent size (units.map Token.item)
                    ≤ spot := by
                intro spot member
                rw [Nat.add_assoc, ← extent_cons]
                exact free spot (List.mem_append_right _ member)
              obtain ⟨behind, rfl⟩ := ih rest_same rest_free
              exact ⟨behind, rfl⟩
          | opening | closing =>
              have here := free place (List.mem_append_left _ (List.mem_singleton.mpr rfl))
              omega

/-- Items that no mark parts stand together, by induction on the text. -/
theorem exists_together (some_size : ∀ value, 0 < size value) (some_unit : units ≠ [])
    (same : itemsOf tokens = front ++ units ++ back)
    (free : ∀ spot ∈ spots size Token.isMark place tokens,
      spot ≤ place + extent size (front.map Token.item)
      ∨ place + extent size (front.map Token.item) + extent size (units.map Token.item) ≤ spot)
    : ∃ before behind, tokens = before ++ units.map .item ++ behind ∧ itemsOf before = front := by
  induction tokens generalizing front place with
  | nil =>
      cases front with
      | nil => exact absurd (List.append_eq_nil_iff.mp same.symm).1 some_unit
      | cons => cases same
  | cons token rest ih =>
      cases token with
      | opening | closing =>
          have rest_free := fun spot member => free spot (List.mem_append_right _ member)
          obtain ⟨before, behind, rfl, rfl⟩ := ih same rest_free
          exact ⟨_ :: before, behind, rfl, rfl⟩
      | item value =>
          have grows : extent size [Token.item value] = size value := rfl
          cases front with
          | nil =>
              have whole : itemsOf (.item value :: rest) = units ++ back := same
              have all : ∀ spot ∈ spots size Token.isMark place (.item value :: rest),
                  place + extent size (units.map Token.item) ≤ spot := by
                intro spot member
                have later := lt_spot_of_item rfl (some_size value) member
                rcases free spot member with earlier | behind
                · exact absurd earlier (Nat.not_le.mpr later)
                · exact behind
              obtain ⟨behind, parts⟩ := exists_items_append some_size whole all
              exact ⟨[], behind, parts, rfl⟩
          | cons unit front =>
              obtain ⟨rfl, rest_same⟩ := List.cons.inj same
              have rest_free : ∀ spot ∈ spots size Token.isMark (place + extent size [.item value])
                  rest,
                  spot ≤ place + extent size [.item value] + extent size (front.map Token.item)
                  ∨ place + extent size [.item value] + extent size (front.map Token.item)
                      + extent size (units.map Token.item) ≤ spot := by
                intro spot member
                rw [Nat.add_assoc place, ← extent_cons]
                exact free spot (List.mem_append_right _ member)
              obtain ⟨before, behind, rfl, rfl⟩ := ih rest_same rest_free
              exact ⟨.item value :: before, behind, rfl, rfl⟩

end WebIndexer.Library
