import Mathlib.Data.List.Infix

/-! Scans, which read items one after another and may write something for each. Two scans of the
same items write the same when they agree on every item; the other way round it may be that what
one writes too much at an item the other writes at another.
-/

namespace WebIndexer.Library

/-- How a scan goes on after an item, and what it writes for one. -/
structure Scan (σ ι ο : Type*) where
  next : σ → ι → σ
  emit : σ → ι → Option ο

variable {σ τ ι ο : Type*} {scan : Scan σ ι ο} {other : Scan τ ι ο} {s : σ} {t : τ}
  {item : ι} {items : List ι}

/-- What a scan writes. -/
def Scan.run (scan : Scan σ ι ο) : σ → List ι → List ο
  | _, [] => []
  | s, item :: rest => (scan.emit s item).toList ++ scan.run (scan.next s item) rest

/-- The scan after some items. -/
def Scan.after (scan : Scan σ ι ο) (s : σ) (items : List ι) : σ :=
  items.foldl scan.next s

/-- The two scans write the same for each item. -/
def AgreeOn (scan : Scan σ ι ο) (other : Scan τ ι ο) (s : σ) (t : τ) (items : List ι) : Prop :=
  ∀ before item after, items = before ++ item :: after
    → scan.emit (scan.after s before) item = other.emit (other.after t before) item

/-- Two of the items may write the same. -/
def Repeats (writes : ι → ο → Prop) (items : List ι) : Prop :=
  ∃ before item middle again after written,
    items = before ++ item :: (middle ++ again :: after)
    ∧ writes item written ∧ writes again written

theorem agreeOn_nil : AgreeOn scan other s t [] := by
  intro before item after parts
  simp at parts

/-- Scans agree on items when they do on the first one, and afterwards. -/
theorem agreeOn_cons
    : AgreeOn scan other s t (item :: items)
      ↔ scan.emit s item = other.emit t item
        ∧ AgreeOn scan other (scan.next s item) (other.next t item) items := by
  constructor
  · intro agree
    refine ⟨agree [] item items rfl, ?_⟩
    rintro before again after rfl
    exact agree (item :: before) again after rfl
  · rintro ⟨first, rest⟩ before again after parts
    cases before with
    | nil =>
        obtain ⟨rfl, -⟩ := List.cons.inj parts
        exact first
    | cons head before =>
        obtain ⟨rfl, rfl⟩ := List.cons.inj parts
        exact rest before again after rfl

/-- Scans that agree write the same, by induction on the items. -/
theorem run_eq_of_agreeOn (agree : AgreeOn scan other s t items)
    : scan.run s items = other.run t items := by
  induction items generalizing s t with
  | nil => rfl
  | cons item items ih =>
      obtain ⟨first, rest⟩ := agreeOn_cons.mp agree
      rw [Scan.run, Scan.run, first, ih rest]

/-- What a scan writes, it writes for one of the items. -/
theorem exists_writes_of_mem_run {writes : ι → ο → Prop} {written : ο}
    (covers : ∀ s item, ∀ written ∈ scan.emit s item, writes item written)
    (member : written ∈ scan.run s items)
    : ∃ before item after, items = before ++ item :: after ∧ writes item written := by
  induction items generalizing s with
  | nil => simp [Scan.run] at member
  | cons item items ih =>
      rw [Scan.run, List.mem_append, Option.mem_toList] at member
      obtain here | later := member
      · exact ⟨[], item, items, rfl, covers s item written here⟩
      · obtain ⟨before, again, after, rfl, writes⟩ := ih later
        exact ⟨item :: before, again, after, rfl, writes⟩

theorem Repeats.cons {writes : ι → ο → Prop} (repeats : Repeats writes items)
    : Repeats writes (item :: items) := by
  obtain ⟨before, first, middle, again, after, written, rfl, both⟩ := repeats
  exact ⟨item :: before, first, middle, again, after, written, rfl, both⟩

/-- What an item writes is written by a later one, if a scan of the later ones writes it. -/
theorem repeats_of_mem_run {writes : ι → ο → Prop} {written : ο}
    (covers : ∀ s item, ∀ written ∈ scan.emit s item, writes item written)
    (here : writes item written) (member : written ∈ scan.run s items)
    : Repeats writes (item :: items) := by
  obtain ⟨middle, again, after, rfl, later⟩ := exists_writes_of_mem_run covers member
  exact ⟨[], item, middle, again, after, written, rfl, here, later⟩

/-- Scans that write the same agree on every item, unless two of the items may write the same.
Induction on the items: where only one of the scans writes, the other writes it later.
-/
theorem agreeOn_or_repeats {writes : ι → ο → Prop}
    (covers : ∀ s item, ∀ written ∈ scan.emit s item, writes item written)
    (other_covers : ∀ t item, ∀ written ∈ other.emit t item, writes item written)
    (same : scan.run s items = other.run t items)
    : AgreeOn scan other s t items ∨ Repeats writes items := by
  induction items generalizing s t with
  | nil => exact .inl agreeOn_nil
  | cons item items ih =>
      rw [Scan.run, Scan.run] at same
      cases mine : scan.emit s item with
      | none =>
          cases theirs : other.emit t item with
          | none =>
              rw [mine, theirs] at same
              obtain agree | repeats := ih same
              · exact .inl (agreeOn_cons.mpr ⟨mine.trans theirs.symm, agree⟩)
              · exact .inr repeats.cons
          | some written =>
              simp only [mine, theirs, Option.toList_none, Option.toList_some, List.nil_append]
                at same
              have member : written ∈ scan.run (scan.next s item) items := by
                rw [same]
                exact List.mem_cons_self
              exact .inr (repeats_of_mem_run covers (other_covers t item written theirs) member)
      | some written =>
          cases theirs : other.emit t item with
          | none =>
              simp only [mine, theirs, Option.toList_none, Option.toList_some, List.nil_append]
                at same
              have member : written ∈ other.run (other.next t item) items := by
                rw [← same]
                exact List.mem_cons_self
              exact .inr (repeats_of_mem_run other_covers (covers s item written mine) member)
          | some written' =>
              simp only [mine, theirs, Option.toList_some, List.singleton_append, List.cons.injEq]
                at same
              obtain ⟨equal, rest⟩ := same
              obtain agree | repeats := ih rest
              · exact .inl (agreeOn_cons.mpr ⟨by rw [mine, theirs, equal], agree⟩)
              · exact .inr repeats.cons

end WebIndexer.Library
