import Mathlib.Data.List.Basic
import WebIndexer.Config
import WebIndexer.Library.History
import WebIndexer.Runtime.Text
import WebIndexer.Types

/-! The two forms in which `server.ts` keeps the domain tree: the JSON text, which a tree message
replaces at once, and its compression, which the callback of `zlib.gzip` replaces later. The
callbacks run in whatever order the compressions end.
-/

namespace WebIndexer.Server

open WebIndexer.Config
open WebIndexer.Library
open WebIndexer.Runtime

/-- The bytes of a `Buffer`. -/
abbrev Buffer := List UInt8

/-- `Buffer.from`, the UTF-8 encoding. -/
def bufferFrom (text : String) : Buffer := text.toUTF8.data.toList

theorem bufferFrom_injective : Function.Injective bufferFrom := by
  intro text other same
  exact String.toByteArray_inj.mp (ByteArray.ext (Array.toList_inj.mp same))

/-- The gzip format: compression with the options `level` and `memLevel`, and the decompression of
a client, which refuses what does not begin with the two bytes that mark the format.
-/
structure Zlib where
  gzip (level memLevel : Nat) (buffer : Buffer) : Buffer
  gunzip (buffer : Buffer) : Option Buffer
  gunzip_gzip (level memLevel : Nat) (buffer : Buffer)
    : gunzip (gzip level memLevel buffer) = some buffer
  marked {buffer content : Buffer} (accepted : gunzip buffer = some content)
    : [0x1f, 0x8b] <+: buffer

/-- The tree variables of the server, and the texts whose compressions are pending. -/
structure TreeCache where
  treeJsonStr : String
  treeGzipBuf : Buffer
  compressing : List String
  deriving DecidableEq

/-- What `loadTreeFromDb` meets: the results of its three queries, with nothing for one that throws
or for a database that does not open, and whether the compression throws.
-/
structure StoredTree where
  nodes : Option (List TreeNode)
  rawEdges : Option (List TreeEdge)
  total : Option Nat
  gzipThrows : Bool

/-- A tree message of the crawler, or the callback of a pending compression. -/
inductive TreeEvent where
  | message (data : TreeData)
  | compressed (index : Nat) (failed : Bool)

/-- What a run has shown of the tree: its newest text, and the text of the compression that ended
without an error last.
-/
structure TreeHistory where
  newest : String
  compressed : Option String
  deriving DecidableEq

/-- A response of `/api/tree`. -/
structure TreeResponse where
  contentType : String
  contentEncoding : Option String
  body : Buffer
  deriving DecidableEq

/-- The tree that `loadTreeFromDb` finds, if it gets as far as one. -/
def StoredTree.data (stored : StoredTree) (backend : Backend) : Option TreeData :=
  match backend, stored.nodes, stored.rawEdges, stored.total with
  | .sqlite, some (node :: more), some rawEdges, some total =>
      let nodes := node :: more
      let domainSet := nodes.map TreeNode.domain
      some {
        nodes := nodes
        edges := rawEdges.filter fun edge => edge.src ∈ domainSet ∧ edge.dst ∈ domainSet
        total := total
        domains := nodes.length
      }
  | _, _, _, _ => none

namespace TreeCache

section

variable (zlib : Zlib) (stringify : TreeData → String)

/-- The text before anything is loaded. -/
def initialText : String := "\x7b\"nodes\":[],\"total\":0\x7d"

/-- The tree variables as they are declared. -/
def initial : TreeCache where
  treeJsonStr := initialText
  treeGzipBuf := bufferFrom initialText
  compressing := []

/-- `gz`. -/
def gz (buffer : Buffer) : Buffer := zlib.gzip 6 8 buffer

/-- `loadTreeFromDb`, which catches what it throws. -/
def loadTreeFromDb (backend : Backend) (stored : StoredTree) (cache : TreeCache) : TreeCache :=
  match stored.data backend with
  | none => cache
  | some data =>
      let loaded := { cache with treeJsonStr := stringify data }
      if stored.gzipThrows then
        loaded
      else
        { loaded with treeGzipBuf := gz zlib (bufferFrom (stringify data)) }

/-- The handling of an event, if it can happen. -/
def step (cache : TreeCache) : TreeEvent → Option TreeCache
  | .message data =>
      some {
        cache with
        treeJsonStr := stringify data
        compressing := cache.compressing ++ [stringify data]
      }
  | .compressed index failed =>
      cache.compressing[index]?.map fun json => {
        cache with
        treeGzipBuf := if failed then cache.treeGzipBuf else zlib.gzip 1 2 (bufferFrom json)
        compressing := cache.compressing.eraseIdx index
      }

/-- `GET /api/tree`, given the request's `accept-encoding`. -/
def getTree (cache : TreeCache) (acceptEncoding : Option String) : TreeResponse :=
  if includes (acceptEncoding.getD "") "gzip" then
    ⟨"application/json", some "gzip", cache.treeGzipBuf⟩
  else
    ⟨"application/json", none, bufferFrom cache.treeJsonStr⟩

/-- The history of the start-up. -/
def startHistory (backend : Backend) (stored : StoredTree) : TreeHistory :=
  match stored.data backend with
  | none => ⟨initialText, none⟩
  | some data => ⟨stringify data, if stored.gzipThrows then none else some (stringify data)⟩

/-- What an event adds to the history. -/
def observe (cache : TreeCache) (event : TreeEvent) (history : TreeHistory) : TreeHistory :=
  match event with
  | .message data => { history with newest := stringify data }
  | .compressed _ true => history
  | .compressed index false => { history with compressed := cache.compressing[index]? }

/-- The server when its script has run, with its history. -/
def boot (backend : Backend) (stored : StoredTree) : TreeCache × TreeHistory :=
  (loadTreeFromDb zlib stringify backend stored initial, startHistory stringify backend stored)

/-- The steps of the server, with their history. -/
abbrev observed : TreeCache × TreeHistory → TreeEvent → Option (TreeCache × TreeHistory) :=
  observing (step zlib stringify) (observe stringify)

/-- What a client gets by decompressing is what a client without gzip gets. -/
def Agrees (cache : TreeCache) : Prop :=
  ∀ accepting other : Option String,
    (cache.getTree accepting).contentEncoding = some "gzip"
    → (cache.getTree other).contentEncoding = none
    → zlib.gunzip (cache.getTree accepting).body = some (cache.getTree other).body

/-- A compression ends without an error, and before those that were begun later. -/
def InOrder (_ : TreeCache × TreeHistory) : TreeEvent → Prop
  | .message _ => True
  | .compressed index failed => index = 0 ∧ failed = false

/-- The history is that of the variables: it has their text, and what they decompress to. -/
structure Recorded (state : TreeCache × TreeHistory) : Prop where
  newest : state.1.treeJsonStr = state.2.newest
  compressed : zlib.gunzip state.1.treeGzipBuf = state.2.compressed.map bufferFrom

/-- The newest text is the one whose compression was begun last, or the compressed one where no
compression is pending.
-/
def Settles (state : TreeCache × TreeHistory) : Prop :=
  state.1.compressing.getLast?.or state.2.compressed = some state.2.newest

end

variable {zlib : Zlib} {stringify : TreeData → String} {backend : Backend} {stored : StoredTree}
  {cache : TreeCache} {state next : TreeCache × TreeHistory} {event : TreeEvent}

/-- A client that accepts gzip gets the compression. -/
theorem getTree_gzip {acceptEncoding : Option String}
    (encoded : (cache.getTree acceptEncoding).contentEncoding = some "gzip")
    : (cache.getTree acceptEncoding).body = cache.treeGzipBuf := by
  unfold getTree at *
  split at encoded
  · rename_i accepts
    rw [if_pos accepts]
  · cases encoded

/-- Any other client gets the text. -/
theorem getTree_plain {acceptEncoding : Option String}
    (plain : (cache.getTree acceptEncoding).contentEncoding = none)
    : (cache.getTree acceptEncoding).body = bufferFrom cache.treeJsonStr := by
  unfold getTree at *
  split at plain
  · cases plain
  · rename_i refuses
    rw [if_neg refuses]

/-- The responses agree when the variables do. -/
theorem agrees_def
    : Agrees zlib cache
      ↔ zlib.gunzip cache.treeGzipBuf = some (bufferFrom cache.treeJsonStr) := by
  constructor
  · intro agrees
    exact agrees (some "gzip") none rfl rfl
  · intro same accepting other encoded plain
    rw [getTree_gzip encoded, getTree_plain plain]
    exact same

/-- The initial buffer is no compression of anything. -/
theorem gunzip_initial : zlib.gunzip (bufferFrom initialText) = none := by
  have unmarked : ¬[0x1f, 0x8b] <+: bufferFrom initialText := by decide
  exact Option.eq_none_iff_forall_not_mem.mpr fun _ accepted =>
    unmarked (zlib.marked accepted)

-----------------------------------------------------------------------------------------
-- What each event does
-----------------------------------------------------------------------------------------

/-- The outcomes of an observed event. -/
inductive ObservedCase (zlib : Zlib) (stringify : TreeData → String)
    (state : TreeCache × TreeHistory)
    : TreeEvent → TreeCache × TreeHistory → Prop
  | message (data : TreeData)
    : ObservedCase zlib stringify state (.message data)
        ({
            state.1 with
            treeJsonStr := stringify data
            compressing := state.1.compressing ++ [stringify data]
          },
          { state.2 with newest := stringify data })
  | failed (index : Nat) (json : String) (pending : state.1.compressing[index]? = some json)
    : ObservedCase zlib stringify state (.compressed index true)
        ({ state.1 with compressing := state.1.compressing.eraseIdx index }, state.2)
  | ended (index : Nat) (json : String) (pending : state.1.compressing[index]? = some json)
    : ObservedCase zlib stringify state (.compressed index false)
        ({
            state.1 with
            treeGzipBuf := zlib.gzip 1 2 (bufferFrom json)
            compressing := state.1.compressing.eraseIdx index
          },
          { state.2 with compressed := some json })

/-- Every observed event has one of the listed outcomes. -/
theorem observed_cases (taken : observed zlib stringify state event = some next)
    : ObservedCase zlib stringify state event next := by
  obtain ⟨after, history⟩ := next
  obtain ⟨stepped, rfl⟩ := observing_cases taken
  cases event with
  | message data =>
      obtain rfl := Option.some.inj stepped
      exact .message data
  | compressed index failed =>
      obtain ⟨json, pending, rfl⟩ := Option.map_eq_some_iff.mp stepped
      cases failed with
      | true => exact .failed index json pending
      | false =>
          have ended : ObservedCase zlib stringify state (.compressed index false) _ :=
            .ended index json pending
          rwa [← pending] at ended

-----------------------------------------------------------------------------------------
-- What a run records
-----------------------------------------------------------------------------------------

/-- The start-up records what it loads. -/
theorem Recorded.boot : Recorded zlib (boot zlib stringify backend stored) := by
  unfold TreeCache.boot loadTreeFromDb startHistory
  cases stored.data backend with
  | none => exact ⟨rfl, gunzip_initial⟩
  | some data =>
      cases throws : stored.gzipThrows with
      | true => exact ⟨rfl, gunzip_initial⟩
      | false => exact ⟨rfl, zlib.gunzip_gzip 6 8 _⟩

/-- Every event records what it does, by cases on its outcome. -/
theorem Recorded.step (recorded : Recorded zlib state)
    (taken : observed zlib stringify state event = some next)
    : Recorded zlib next := by
  cases observed_cases taken with
  | message data => exact ⟨rfl, recorded.compressed⟩
  | failed index json pending => exact ⟨recorded.newest, recorded.compressed⟩
  | ended index json pending => exact ⟨recorded.newest, zlib.gunzip_gzip 1 2 _⟩

/-- Every run records what it does. -/
theorem Recorded.run
    (reached : Reaches (observed zlib stringify) (TreeCache.boot zlib stringify backend stored)
      state)
    : Recorded zlib state := by
  apply reached.invariant
  · exact .boot
  · intro _ _ _ recorded _ taken
    exact recorded.step taken

/-- Compressions that end in order leave the newest text to the end. -/
theorem Settles.step (settles : Settles state) (inOrder : InOrder state event)
    (taken : observed zlib stringify state event = some next)
    : Settles next := by
  unfold Settles at settles ⊢
  cases observed_cases taken with
  | message data => simp
  | failed index json pending => cases inOrder.2
  | ended index json pending =>
      obtain ⟨rfl, -⟩ := inOrder
      rw [← List.head?_eq_getElem?] at pending
      obtain ⟨rest, begun⟩ := List.head?_eq_some_iff.mp pending
      rw [begun, List.getLast?_cons] at settles
      rw [begun]
      cases rest.getLast? <;> simpa using settles

/-- A start-up that compresses what it loads leaves nothing to compress. -/
theorem Settles.boot
    (filled : (TreeCache.boot zlib stringify backend stored).2.compressed ≠ none)
    : Settles (TreeCache.boot zlib stringify backend stored) := by
  unfold Settles
  unfold TreeCache.boot loadTreeFromDb startHistory at *
  cases loaded : stored.data backend with
  | none => simp [loaded] at filled
  | some data => cases throws : stored.gzipThrows <;> simp_all [initial]

/-- The variables agree when the compression that ended last was one of the newest text. -/
theorem Recorded.agrees_iff (recorded : Recorded zlib state)
    : Agrees zlib state.1 ↔ state.2.compressed = some state.2.newest := by
  rw [agrees_def, recorded.compressed, recorded.newest, ← Option.map_some]
  exact (Option.map_injective bufferFrom_injective).eq_iff

/-- When no compression is pending, the two forms of the tree agree exactly when the compression
that ended without an error last was one of the newest text. So they do in every run whose
compressions end in order and without errors, if the start-up has loaded a tree.
-/
theorem formsAgree
    (reached : Reaches (observed zlib stringify) (boot zlib stringify backend stored) state)
    (idle : state.1.compressing = [])
    : (Agrees zlib state.1 ↔ state.2.compressed = some state.2.newest)
      ∧ ((boot zlib stringify backend stored).2.compressed ≠ none
        → Run (observed zlib stringify) InOrder (boot zlib stringify backend stored) state
        → Agrees zlib state.1) := by
  have recorded := Recorded.run reached
  refine ⟨recorded.agrees_iff, fun filled ordered => ?_⟩
  have settles : Settles state := by
    apply ordered.invariant
    · exact .boot filled
    · intro _ _ _ settled inOrder taken
      exact settled.step inOrder taken
  unfold Settles at settles
  rw [idle, List.getLast?_nil, Option.none_or] at settles
  exact recorded.agrees_iff.mpr settles

/-- A gzip format that only marks its content. -/
def marking : Zlib where
  gzip _ _ buffer := [0x1f, 0x8b] ++ buffer
  gunzip buffer := if [0x1f, 0x8b] <+: buffer then some (buffer.drop 2) else none
  gunzip_gzip _ _ buffer := by simp
  marked accepted := by
    split at accepted
    · assumption
    · cases accepted

/-- `JSON.stringify` of the trees without nodes and edges. -/
def stringifyEmpty (data : TreeData) : String :=
  "\x7b\"nodes\":[],\"edges\":[],\"total\":" ++ toString data.total ++ ",\"domains\":"
  ++ toString data.domains ++ "\x7d"

/-- A database with no pages. -/
def noPages : StoredTree where
  nodes := some []
  rawEdges := some []
  total := some 0
  gzipThrows := false

/-- A tree message of a crawler that has stored `total` pages, none of them with a domain. -/
def totalMessage (total : Nat) : TreeEvent := .message ⟨[], [], total, 0⟩

theorem formsAgree_of_message
    : ∃ state, Reaches (observed marking stringifyEmpty)
        (boot marking stringifyEmpty .sqlite noPages) state
      ∧ Agrees marking state.1 := by
  have ordered : (execute (observed marking stringifyEmpty) anyStep
      (boot marking stringifyEmpty .sqlite noPages)
      [totalMessage 1, totalMessage 2, .compressed 0 false, .compressed 0 false]).any
      (fun state => state.1.compressing = [] ∧ state.2.compressed = some state.2.newest) := by
    decide
  obtain ⟨state, reached, passed⟩ := exists_run_of_any ordered
  obtain ⟨idle, newest⟩ := of_decide_eq_true passed
  exact ⟨state, reached, (formsAgree reached idle).1.mpr newest⟩

/-- A server that has no tree yet sends the plain text as its compression, and compressions that
end out of order leave the older text.
-/
theorem formsAgree_fails_for_start
    : ¬(∀ state, Reaches (observed marking stringifyEmpty)
          (boot marking stringifyEmpty .pg noPages) state
        → state.1.compressing = [] → Agrees marking state.1)
      ∧ ¬(∀ state, Reaches (observed marking stringifyEmpty)
            (boot marking stringifyEmpty .sqlite noPages) state
          → state.1.compressing = [] → state.2.compressed ≠ none → Agrees marking state.1) := by
  constructor
  · intro agrees
    have same := agrees_def.mp (agrees _ (.refl _) rfl)
    rw [show (boot marking stringifyEmpty .pg noPages).1 = initial from rfl] at same
    exact absurd same (by rw [initial, gunzip_initial]; nofun)
  · intro agrees
    have overtaken : (execute (observed marking stringifyEmpty) anyStep
        (boot marking stringifyEmpty .sqlite noPages)
        [totalMessage 1, totalMessage 2, .compressed 1 false, .compressed 0 false]).any
        (fun state => state.1.compressing = [] ∧ state.2.compressed ≠ none
          ∧ state.2.compressed ≠ some state.2.newest) := by
      decide
    obtain ⟨state, reached, passed⟩ := exists_run_of_any overtaken
    obtain ⟨idle, filled, older⟩ := of_decide_eq_true passed
    exact older ((Recorded.run reached).agrees_iff.mp (agrees state reached idle filled))

end TreeCache

end WebIndexer.Server
