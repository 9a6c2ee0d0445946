import WebIndexer.Store.Effects

/-! The search index of the SQLite backend. `nodes` is keyed by the address of a page, and
`nodes_fts` has no key, so the two mirror each other as long as no page is saved twice.
-/

namespace WebIndexer.Store

open WebIndexer.Config
open WebIndexer.Library

namespace Tables

variable {tables : Tables} {page : PageData}

/-- The index row of a row of `nodes`. -/
def indexRow (url : String) (row : NodeRow) : FtsRow where
  url := url
  title := row.title
  description := row.description
  metaDescription := row.metaDescription
  ogTitle := row.ogTitle
  ogDescription := row.ogDescription
  domain := row.domain

/-- The index has exactly one row for each row of `nodes`, with its current columns. -/
def Mirrors (tables : Tables) : Prop :=
  tables.nodesFts.Perm (tables.nodes.entries.map fun entry => indexRow entry.1 entry.2)

instance (tables : Tables) : Decidable tables.Mirrors :=
  inferInstanceAs (Decidable (List.Perm _ _))

/-- A `saveNode` of the SQLite backend in which no statement fails. -/
def savePage (tables : Tables) (page : PageData) : Tables :=
  tables.saveNode .sqlite page false

/-- The `saveNode` calls of a run, in order. -/
def savePages (tables : Tables) (pages : List PageData) : Tables :=
  pages.foldl savePage tables

/-- A new database has nothing to index. -/
theorem mirrors_empty : empty.Mirrors := List.Perm.refl []

/-- A saved page is upserted, whatever happens to the frontier. -/
@[simp] theorem nodes_savePage
    : (tables.savePage page).nodes = tables.nodes.set page.url (nodeRow page) :=
  nodes_saveNode

/-- A saved page is appended to the index. -/
@[simp] theorem nodesFts_savePage
    : (tables.savePage page).nodesFts
      = tables.nodesFts ++ [indexRow page.url (nodeRow page)] := by
  unfold savePage saveNode
  by_cases moved : page.origUrl ≠ page.url
  · simp only [if_pos moved]
    rfl
  · simp only [if_neg moved]
    rfl

/-- A page that has not been saved before keeps the mirror: both tables get one row. -/
theorem Mirrors.savePage (mirrors : tables.Mirrors) (fresh : page.url ∉ tables.nodes.keys)
    : (tables.savePage page).Mirrors := by
  unfold Mirrors
  rw [nodesFts_savePage, nodes_savePage, InsertionMap.entries_set_of_not_mem _ fresh,
    List.map_append]
  exact mirrors.append_right _

/-- The index has more rows than `nodes` has. -/
def Overfull (tables : Tables) : Prop :=
  tables.nodes.keys.length < tables.nodesFts.length

/-- Tables that mirror each other have the same number of rows. -/
theorem Mirrors.length_eq (mirrors : tables.Mirrors)
    : tables.nodesFts.length = tables.nodes.keys.length := by
  simpa [InsertionMap.keys] using List.Perm.length_eq mirrors

/-- A page that is saved again adds a row to the index only. -/
theorem Mirrors.overfull (mirrors : tables.Mirrors) (again : page.url ∈ tables.nodes.keys)
    : (tables.savePage page).Overfull := by
  have lengths := mirrors.length_eq
  unfold Overfull
  rw [nodesFts_savePage, nodes_savePage, InsertionMap.keys_set_of_mem _ again,
    List.length_append, List.length_singleton]
  omega

/-- A save never lets `nodes` catch up, since it adds at most one row to it. -/
theorem Overfull.savePage (overfull : tables.Overfull) : (tables.savePage page).Overfull := by
  unfold Overfull at overfull ⊢
  rw [nodesFts_savePage, nodes_savePage, List.length_append, List.length_singleton]
  by_cases present : page.url ∈ tables.nodes.keys
  · rw [InsertionMap.keys_set_of_mem _ present]
    omega
  · simp only [InsertionMap.keys, InsertionMap.entries_set_of_not_mem _ present,
      List.map_append, List.length_append, List.map_singleton, List.length_singleton]
      at overfull ⊢
    omega

/-- Nor do further saves, by induction over them. -/
theorem Overfull.savePages {pages : List PageData} (overfull : tables.Overfull)
    : (tables.savePages pages).Overfull := by
  induction pages generalizing tables with
  | nil => exact overfull
  | cons page rest ih => exact ih overfull.savePage

/-- An overfull index mirrors nothing. -/
theorem Overfull.not_mirrors (overfull : tables.Overfull) : ¬ tables.Mirrors := by
  intro mirrors
  unfold Overfull at overfull
  have lengths := mirrors.length_eq
  omega

/-- The index mirrors the pages after a run of saves exactly when every save is of a page
that had not been saved before, by induction over the saves: the first one that is saved
again overfills the index for good.
-/
theorem mirrors_savePages {pages : List PageData} (mirrors : tables.Mirrors)
    : (tables.savePages pages).Mirrors
      ↔ (pages.map PageData.url).Nodup ∧ ∀ page ∈ pages, page.url ∉ tables.nodes.keys := by
  induction pages generalizing tables with
  | nil => simpa [savePages] using mirrors
  | cons page rest ih =>
      have unfolded : tables.savePages (page :: rest) = (tables.savePage page).savePages rest :=
        rfl
      by_cases again : page.url ∈ tables.nodes.keys
      · have overfull : (tables.savePages (page :: rest)).Overfull :=
          (mirrors.overfull again).savePages
        refine iff_of_false overfull.not_mirrors ?_
        intro fresh
        exact fresh.2 page List.mem_cons_self again
      · rw [unfolded, ih (mirrors.savePage again)]
        simp only [List.map_cons, List.nodup_cons, List.mem_cons, nodes_savePage,
          InsertionMap.mem_keys_set, forall_eq_or_imp, not_or, List.mem_map, not_exists, not_and]
        constructor
        · rintro ⟨distinct, others⟩
          refine ⟨⟨?_, distinct⟩, again, fun other member => (others other member).2⟩
          intro other member
          exact (others other member).1
        · rintro ⟨⟨first, distinct⟩, _, others⟩
          exact ⟨distinct, fun other member => ⟨first other member, others other member⟩⟩

/-- A page that was asked for at one address and found at another. -/
def foundPage (origUrl url : String) : PageData :=
  ⟨url, "", "", "a.example", 0, none, 1, "", 1, "", "", "", 0, 0, origUrl⟩

/-- Two pages that are each saved once are mirrored. -/
theorem mirrors_savePages_of_two
    : (empty.savePages
        [foundPage "https://a.example/1" "https://a.example/1",
          foundPage "https://a.example/2" "https://a.example/3"]).Mirrors :=
  (mirrors_savePages mirrors_empty).mpr (by decide)

/-- Two queued addresses that redirect to one page leave it in the index twice. -/
theorem mirrors_savePages_fails_for_redirects
    : ¬ ∀ pages, (empty.savePages pages).Mirrors := by
  intro claim
  have twice := claim
    [foundPage "https://a.example/1" "https://a.example/3",
      foundPage "https://a.example/2" "https://a.example/3"]
  exact absurd twice.length_eq (by decide)

end Tables

end WebIndexer.Store
