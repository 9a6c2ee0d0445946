import Mathlib.Data.List.Basic

/-! Texts with paired marks between their items, each pair around items of a given kind. A pair
around plain items can be put in and taken out, without touching the rest.
-/

namespace WebIndexer.Library

variable {α : Type*}

/-- A piece of a marked text. -/
inductive Token (α : Type*) where
  | item (value : α)
  | opening
  | closing
  deriving DecidableEq, Repr

/-- Pieces with properly nested pairs of marks, around items of which each pair has a good list. -/
inductive Marked (good : List α → Prop) : List (Token α) → List α → Prop
  | nil : Marked good [] []
  | item (value : α) {tokens : List (Token α)} {items : List α} (rest : Marked good tokens items)
    : Marked good (.item value :: tokens) (value :: items)
  | pair {inner tokens : List (Token α)} {enclosed items : List α}
    (inside : Marked good inner enclosed) (fits : good enclosed) (rest : Marked good tokens items)
    : Marked good (.opening :: inner ++ .closing :: tokens) (enclosed ++ items)

variable {good : List α → Prop} {tokens front back : List (Token α)} {units items : List α}

/-- Items without marks are properly marked. -/
theorem marked_items (good : List α → Prop) (items : List α)
    : Marked good (items.map .item) items := by
  induction items with
  | nil => exact .nil
  | cons item rest ih => exact .item item ih

/-- Items in front can be taken off. -/
theorem Marked.of_items_append (marked : Marked good (units.map .item ++ tokens) items)
    : ∃ rest, items = units ++ rest ∧ Marked good tokens rest := by
  induction units generalizing items with
  | nil => exact ⟨items, rfl, marked⟩
  | cons unit units ih =>
      cases marked with
      | item _ later =>
          obtain ⟨rest, rfl, marked⟩ := ih later
          exact ⟨rest, rfl, marked⟩

/-- Items alone are marked as they are. -/
theorem Marked.items_eq (marked : Marked good (units.map .item) items) : items = units := by
  rw [← List.append_nil (units.map Token.item)] at marked
  obtain ⟨rest, rfl, ends⟩ := marked.of_items_append
  cases ends
  exact List.append_nil units

/-- Behind items there is no closing mark that nothing opened. -/
theorem Marked.opened (marked : Marked good (units.map .item ++ .closing :: tokens) items)
    : False := by
  obtain ⟨_, _, rest⟩ := marked.of_items_append
  cases rest

/-- Items can be put in front. -/
theorem Marked.items_append (marked : Marked good tokens items) (units : List α)
    : Marked good (units.map .item ++ tokens) (units ++ items) := by
  induction units with
  | nil => exact marked
  | cons unit units ih => exact .item unit ih

/-- Items stand on one side of a closing mark. -/
theorem append_items_cases {first second : List (Token α)}
    (same : front ++ units.map .item ++ back = first ++ .closing :: second)
    : (∃ middle, first = front ++ units.map .item ++ middle ∧ back = middle ++ .closing :: second)
      ∨ ∃ middle, front = first ++ .closing :: middle
          ∧ second = middle ++ units.map .item ++ back := by
  induction front generalizing first with
  | nil =>
      left
      induction units generalizing first with
      | nil => exact ⟨first, rfl, same⟩
      | cons unit units ih =>
          cases first with
          | nil => cases (List.cons.inj same).1
          | cons head first =>
              obtain ⟨rfl, tails⟩ := List.cons.inj same
              obtain ⟨middle, rfl, parts⟩ := ih tails
              exact ⟨middle, rfl, parts⟩
  | cons head front ih =>
      cases first with
      | nil =>
          obtain ⟨rfl, tails⟩ := List.cons.inj same
          exact .inr ⟨front, rfl, tails.symm⟩
      | cons head' first =>
          obtain ⟨rfl, tails⟩ := List.cons.inj same
          rcases ih tails with ⟨middle, rfl, parts⟩ | ⟨middle, rfl, parts⟩
          · exact .inl ⟨middle, rfl, parts⟩
          · exact .inr ⟨middle, rfl, parts⟩

/-- A pair can be put around good items at the front. -/
theorem Marked.insert_front (fits : good units)
    (marked : Marked good (units.map .item ++ back) items)
    : Marked good (.opening :: (units.map .item ++ .closing :: back)) items := by
  obtain ⟨rest, rfl, later⟩ := marked.of_items_append
  exact .pair (marked_items good units) fits later

/-- A pair can be put around good items; induction on the marked text. -/
theorem Marked.insert (fits : good units) (marked : Marked good tokens items)
    (split : tokens = front ++ units.map .item ++ back)
    : Marked good (front ++ .opening :: (units.map .item ++ .closing :: back)) items := by
  induction marked generalizing front back with
  | nil =>
      obtain ⟨fronts, rfl⟩ := List.append_eq_nil_iff.mp split.symm
      obtain ⟨rfl, no_unit⟩ := List.append_eq_nil_iff.mp fronts
      exact insert_front fits (by rw [no_unit]; exact .nil)
  | @item value tokens items rest ih =>
      cases front with
      | nil => exact insert_front fits (split ▸ rest.item value)
      | cons head front =>
          obtain ⟨rfl, tails⟩ := List.cons.inj split
          exact .item value (ih tails)
  | @pair inner tokens enclosed items inside pair_fits rest inside_ih rest_ih =>
      cases front with
      | nil => exact insert_front fits (split ▸ .pair inside pair_fits rest)
      | cons head front =>
          obtain ⟨rfl, tails⟩ := List.cons.inj split
          rcases append_items_cases tails.symm with ⟨middle, rfl, rfl⟩ | ⟨middle, rfl, rfl⟩
          · have inserted := Marked.pair (inside_ih rfl) pair_fits rest
            simp only [List.cons_append, List.append_assoc] at inserted ⊢
            exact inserted
          · have inserted := Marked.pair inside pair_fits (rest_ih rfl)
            simp only [List.cons_append, List.append_assoc] at inserted ⊢
            exact inserted

/-- No mark is left open at the end. -/
theorem Marked.closed (marked : Marked good tokens items)
    (split : tokens = front ++ .opening :: units.map .item)
    : False := by
  have no_closing : Token.closing ∉ units.map Token.item := by simp
  induction marked generalizing front with
  | nil => exact absurd split (by simp)
  | item value rest ih =>
      cases front with
      | nil => cases (List.cons.inj split).1
      | cons head front => exact ih (List.cons.inj split).2
  | @pair inner tokens enclosed items inside pair_fits rest inside_ih rest_ih =>
      cases front with
      | nil =>
          have tails := (List.cons.inj split).2
          exact no_closing (tails ▸ List.mem_append_right inner List.mem_cons_self)
      | cons head front =>
          have tails := (List.cons.inj split).2
          rcases List.append_eq_append_iff.mp tails
            with ⟨middle, rfl, parts⟩ | ⟨middle, rfl, parts⟩
          · cases middle with
            | nil => cases (List.cons.inj parts).1
            | cons first middle => exact rest_ih (List.cons.inj parts).2
          · have member : Token.closing ∈ Token.opening :: units.map Token.item := by
              rw [parts]
              exact List.mem_append_right middle List.mem_cons_self
            exact no_closing ((List.mem_cons.mp member).resolve_left nofun)

/-- The closing mark of a pair around plain items is the one behind them. -/
theorem Marked.enclosed_eq {inner rest : List (Token α)} (inside : Marked good inner items)
    (same : units.map .item ++ .closing :: back = inner ++ .closing :: rest)
    : inner = units.map .item ∧ back = rest := by
  rcases @append_items_cases α [] (.closing :: back) units inner rest same
    with ⟨middle, rfl, ends⟩ | ⟨_, none, _⟩
  · cases middle with
    | nil => exact ⟨List.append_nil _, (List.cons.inj ends).2⟩
    | cons first middle =>
        obtain ⟨rfl, -⟩ := List.cons.inj ends
        exact inside.opened.elim
  · cases inner <;> cases none

/-- A pair around plain items can be taken out, and its items were good; induction on the marked
text.
-/
theorem Marked.remove (marked : Marked good tokens items)
    (split : tokens = front ++ .opening :: (units.map .item ++ .closing :: back))
    : good units ∧ Marked good (front ++ units.map .item ++ back) items := by
  induction marked generalizing front back with
  | nil => exact absurd split (by simp)
  | item value rest ih =>
      cases front with
      | nil => cases (List.cons.inj split).1
      | cons head front =>
          obtain ⟨rfl, tails⟩ := List.cons.inj split
          obtain ⟨fits, removed⟩ := ih tails
          exact ⟨fits, .item value removed⟩
  | @pair inner tokens enclosed items inside pair_fits rest inside_ih rest_ih =>
      cases front with
      | nil =>
          obtain ⟨rfl, rfl⟩ := inside.enclosed_eq (List.cons.inj split).2.symm
          obtain rfl := inside.items_eq
          exact ⟨pair_fits, rest.items_append _⟩
      | cons head front =>
          obtain ⟨rfl, tails⟩ := List.cons.inj split
          rcases List.append_eq_append_iff.mp tails
            with ⟨middle, rfl, parts⟩ | ⟨middle, rfl, parts⟩
          · -- the pair stands behind this one
            cases middle with
            | nil => cases (List.cons.inj parts).1
            | cons first middle =>
                obtain ⟨rfl, later⟩ := List.cons.inj parts
                obtain ⟨fits, removed⟩ := rest_ih later
                refine ⟨fits, ?_⟩
                have whole := Marked.pair inside pair_fits removed
                simp only [List.cons_append, List.append_assoc] at whole ⊢
                exact whole
          · -- the pair starts inside of this one, and so it ends there
            cases middle with
            | nil => cases (List.cons.inj parts).1
            | cons first middle =>
                obtain ⟨rfl, later⟩ := List.cons.inj parts
                rcases @append_items_cases α [] (.closing :: back) units middle tokens later
                  with ⟨middle, rfl, ends⟩ | ⟨_, none, _⟩
                · cases middle with
                  | nil =>
                      rw [List.nil_append, List.append_nil] at inside
                      exact (inside.closed rfl).elim
                  | cons first middle =>
                      obtain ⟨rfl, rfl⟩ := List.cons.inj ends
                      obtain ⟨fits, removed⟩ := inside_ih rfl
                      refine ⟨fits, ?_⟩
                      have whole := Marked.pair removed pair_fits rest
                      simp only [List.cons_append, List.append_assoc] at whole ⊢
                      exact whole
                · cases middle <;> cases none

end WebIndexer.Library
