import WebIndexer.Library.Base64
import WebIndexer.Library.InsertionMap
import WebIndexer.Types
import Mathlib.Data.List.Perm.Subperm

/-! The documents that `indexPage` and `bulkIndexPages` of `src/elasticsearch.ts` write. The id
of a document is cut out of the encoded address, and the index keeps one document for an id.
-/

namespace WebIndexer.Elastic

open WebIndexer.Library

/-- `Buffer.from(text)`: the bytes of a text in UTF-8. -/
def bufferFrom (text : String) : List UInt8 := text.toList.flatMap String.utf8EncodeChar

/-- `Buffer.from(url).toString("base64").slice(0, 512)`. -/
def documentId (url : String) : String :=
  String.ofList ((base64.encode (bufferFrom url)).take 512)

/-- A document of the index. -/
structure Document where
  url : String
  title : String
  metaDescription : String
  ogTitle : String
  ogDescription : String
  domain : String
  content : String
  lang : String
  https : Bool
  popularity : Nat
  depth : Int
  timestamp : Nat
  deriving DecidableEq, Repr

/-- The document of a page, whose records have no `content`. -/
def document (doc : PageData) (now : Nat) : Document where
  url := doc.url
  title := doc.title
  metaDescription := if doc.desc ≠ "" then doc.desc else doc.metaDescription
  ogTitle := doc.ogTitle
  ogDescription := doc.ogDescription
  domain := doc.dom
  content := ""
  lang := doc.lang
  https := doc.https = 1
  popularity := doc.pop
  depth := doc.depth
  timestamp := if doc.crawledAt ≠ 0 then doc.crawledAt else now

/-- A page that is to be indexed, with the reading of the clock in case it has no time stamp. -/
structure Upload where
  doc : PageData
  now : Nat

/-- The documents of the index by their ids; writing one replaces that of the same id. -/
abbrev Index := InsertionMap String Document

/-- Write the document of a page. -/
def Index.write (index : Index) (upload : Upload) : Index :=
  index.set (documentId upload.doc.url) (document upload.doc upload.now)

/-- How a request ends: it is carried out, or it is not, or it is but the answer is lost. -/
inductive Reply where
  | done
  | refused
  | lost
  deriving DecidableEq, Repr

/-- `indexPage`. -/
def indexPage (connected : Bool) (reply : Reply) (index : Index) (upload : Upload)
    : Index × Bool :=
  if ¬ connected then
    (index, false)
  else
    match reply with
    | .done => (index.write upload, true)
    | .refused => (index, false)
    | .lost => (index.write upload, false)

/-- `bulkIndexPages`; the index may refuse single documents of a request, and says so. -/
def bulkIndexPages (connected : Bool) (reply : Reply) (accepts : Upload → Bool) (index : Index)
    (uploads : List Upload)
    : Index × Bool :=
  if ¬ connected ∨ uploads = [] then
    (index, false)
  else
    match reply with
    | .done => ((uploads.filter accepts).foldl Index.write index, uploads.all accepts)
    | .refused => (index, false)
    | .lost => ((uploads.filter accepts).foldl Index.write index, false)

/-- The index after pages have been indexed one by one, with all requests carried out. -/
def indexPages (index : Index) (uploads : List Upload) : Index :=
  uploads.foldl (fun index upload => (indexPage true .done index upload).1) index

/-- The index holds one document for each page, and no other. -/
def OnePerPage (index : Index) (uploads : List Upload) : Prop :=
  (index.entries.map Prod.snd).Perm (uploads.map fun upload => document upload.doc upload.now)

/-- The bytes of an address that its id is made of. -/
def idBytes (url : String) : List UInt8 := (bufferFrom url).take 384

-----------------------------------------------------------------------------------------
-- Ids
-----------------------------------------------------------------------------------------

/-- Two addresses have the same id when they begin with the same 384 bytes. -/
theorem documentId_eq_iff {url other : String}
    : documentId url = documentId other ↔ idBytes url = idBytes other := by
  have cut (url : String) : documentId url = String.ofList (base64.encode (idBytes url)) :=
    congrArg String.ofList (Alphabet.take_encode 128 (bufferFrom url))
  rw [cut, cut, String.ofList_inj, Alphabet.encode_injective.eq_iff]

/-- The ids of pages are different when the beginnings of their addresses are. -/
theorem nodup_ids_iff (uploads : List Upload)
    : (uploads.map fun upload => documentId upload.doc.url).Nodup
      ↔ (uploads.map fun upload => idBytes upload.doc.url).Nodup := by
  simp only [List.Nodup, List.pairwise_map, ne_eq, documentId_eq_iff]

-----------------------------------------------------------------------------------------
-- The index
-----------------------------------------------------------------------------------------

/-- Writing pages is entering their documents under their ids. -/
theorem foldl_write (index : Index) (uploads : List Upload)
    : uploads.foldl Index.write index
      = (uploads.map fun upload =>
            (documentId upload.doc.url, document upload.doc upload.now)).foldl
          (fun index entry => index.set entry.1 entry.2) index := by
  rw [List.foldl_map]
  rfl

/-- Writing pages into an empty index leaves one document for each when their ids are different,
and fewer otherwise.
-/
theorem onePerPage_write_iff (uploads : List Upload)
    : OnePerPage (uploads.foldl Index.write .empty) uploads
      ↔ (uploads.map fun upload => idBytes upload.doc.url).Nodup := by
  let entered := uploads.map fun upload =>
    (documentId upload.doc.url, document upload.doc upload.now)
  have ids : entered.map Prod.fst = uploads.map fun upload => documentId upload.doc.url := by
    simp [entered]
  rw [← nodup_ids_iff, OnePerPage, foldl_write, ← ids]
  constructor
  · intro kept
    -- the keys are distinct and among the ids, so that as many of them are all of these
    let written := entered.foldl (fun index entry => index.set entry.1 entry.2) (.empty : Index)
    have among : written.keys ⊆ entered.map Prod.fst := by
      intro key member
      exact (InsertionMap.mem_keys_foldl_set.mp member).resolve_left List.not_mem_nil
    have lengths : written.keys.length = (entered.map Prod.fst).length := by
      have same := kept.length_eq
      rw [List.length_map, List.length_map] at same
      rw [InsertionMap.keys, List.length_map, List.length_map]
      exact same.trans (List.length_map _).symm
    have all := (written.nodup.subperm among).perm_of_length_le (Nat.le_of_eq lengths.symm)
    exact all.nodup_iff.mp written.nodup
  · intro distinct
    have entries : (entered.foldl (fun index entry => index.set entry.1 entry.2)
        (.empty : Index)).entries = entered :=
      @InsertionMap.entries_foldl_set String Document _ .empty entered distinct
    rw [entries, List.map_map]
    exact .refl _

/-- With all requests carried out, both functions write the pages. -/
theorem indexPages_eq (index : Index) (uploads : List Upload)
    : indexPages index uploads = uploads.foldl Index.write index :=
  rfl

theorem bulkIndexPages_done (index : Index) (uploads : List Upload)
    : (bulkIndexPages true .done (fun _ => true) index uploads).1
      = uploads.foldl Index.write index := by
  cases uploads with
  | nil => rfl
  | cons upload rest => simp [bulkIndexPages]

/-- Two addresses have different ids if and only if they differ in their first 384 bytes. Indexing
pages one by one, or in one request, leaves one document for each if and only if the addresses
of any two of them do.
-/
theorem documents_distinct_iff (url other : String) (uploads : List Upload)
    : (documentId url ≠ documentId other ↔ idBytes url ≠ idBytes other)
      ∧ (OnePerPage (indexPages .empty uploads) uploads
        ↔ (uploads.map fun upload => idBytes upload.doc.url).Nodup)
      ∧ (OnePerPage (bulkIndexPages true .done (fun _ => true) .empty uploads).1 uploads
        ↔ (uploads.map fun upload => idBytes upload.doc.url).Nodup) := by
  refine ⟨not_congr documentId_eq_iff, ?_, ?_⟩
  · rw [indexPages_eq]
    exact onePerPage_write_iff uploads
  · rw [bulkIndexPages_done]
    exact onePerPage_write_iff uploads

/-- Addresses with a long common beginning have the same id. -/
theorem documentId_of_long {beginning : String} (long : 384 ≤ (bufferFrom beginning).length)
    (ending other : String)
    : documentId (beginning ++ ending) = documentId (beginning ++ other) := by
  have cut (ending : String) : idBytes (beginning ++ ending) = (bufferFrom beginning).take 384 := by
    rw [idBytes, bufferFrom, String.toList_append, List.flatMap_append]
    exact List.take_append_of_le_length long
  rw [documentId_eq_iff, cut, cut]

/-- A text has at least as many bytes as characters, by induction on them. -/
theorem length_le_bufferFrom (text : String)
    : text.toList.length ≤ (bufferFrom text).length := by
  unfold bufferFrom
  induction text.toList with
  | nil => exact Nat.le_refl _
  | cons char rest ih =>
      have positive := char.utf8Size_pos
      rw [List.flatMap_cons, List.length_append, List.length_cons, String.length_utf8EncodeChar]
      omega

/-- An address, followed by a query string of the given length. -/
def longQuery (address : String) (length : Nat) : String :=
  address ++ String.ofList (List.replicate length 'q')

theorem length_longQuery (address : String) (length : Nat)
    : length ≤ (bufferFrom (longQuery address length)).length := by
  have chars : length ≤ (longQuery address length).toList.length := by simp [longQuery]
  exact Nat.le_trans chars (length_le_bufferFrom _)

/-- Two addresses that differ behind their first 384 bytes have the same id. -/
theorem documents_distinct_fails_for_long_urls
    : ¬ ∀ url other : String, url ≠ other → documentId url ≠ documentId other := by
  intro claim
  have differ : longQuery "https://a.example/?" 384 ++ "1"
      ≠ longQuery "https://a.example/?" 384 ++ "2" := by
    rw [ne_eq, String.append_right_inj]
    decide
  exact claim _ _ differ (documentId_of_long (length_longQuery _ 384) "1" "2")

end WebIndexer.Elastic
