import WebIndexer.Crawl.Cargo
import WebIndexer.Library.Runs

/-! The integrity of the store. Every item that the crawl carries is a sound row: its depth is
within bounds, and its parent is a page that has been saved. The depth of an item that is
injected to be crawled again is below those of pages, which is why none of them is saved.
-/

namespace WebIndexer.Crawl

open WebIndexer.Config
open WebIndexer.Library
open WebIndexer.Store

/-- `seedInitialUrls`, which queues the seeds one by one and skips those that are rejected:
`urls` are the others.
-/
def seedInitialUrls (tables : Tables) (urls : List String) : Tables :=
  urls.foldl (fun tables url => tables.insertFrontier (seedItem url)) tables

/-- The parent, if there is one, is a saved page. -/
def ParentSaved (tables : Tables) (parent : Option String) : Prop :=
  ∀ url ∈ parent, url ∈ tables.nodes.keys

/-- An item can be a row of the frontier. -/
structure FrontierItem.Sound (tables : Tables) (item : FrontierItem) : Prop where
  deep : -1 ≤ item.depth
  shallow : item.depth ≤ maxDepth
  parent : ParentSaved tables item.parent

/-- The columns can be those of a page. -/
structure PageSound (tables : Tables) (row : NodeRow) : Prop where
  deep : 0 ≤ row.depth
  shallow : row.depth ≤ maxDepth
  parent : ParentSaved tables row.parent

/-- The integrity of the store. -/
structure StoreIntegrity (tables : Tables) : Prop where
  distinct : tables.frontier.urls.Nodup
  visited : ∀ url ∈ tables.nodes.keys, url ∈ tables.visited
  frontier : ∀ row ∈ tables.frontier.rows, FrontierItem.Sound tables row.toFrontierItem
  nodes : ∀ entry ∈ tables.nodes.entries, PageSound tables entry.2

section Monotone

variable {tables after : Tables} (grows : ∀ url ∈ tables.nodes.keys, url ∈ after.nodes.keys)
include grows

/-- A saved parent stays saved. -/
theorem ParentSaved.mono {parent : Option String} (saved : ParentSaved tables parent)
    : ParentSaved after parent :=
  fun url same => grows url (saved url same)

/-- A sound item stays sound. -/
theorem FrontierItem.Sound.mono {item : FrontierItem} (sound : FrontierItem.Sound tables item)
    : FrontierItem.Sound after item :=
  ⟨sound.deep, sound.shallow, sound.parent.mono grows⟩

/-- A sound page stays sound. -/
theorem PageSound.mono {row : NodeRow} (sound : PageSound tables row) : PageSound after row :=
  ⟨sound.deep, sound.shallow, sound.parent.mono grows⟩

end Monotone

/-- A seed is sound. -/
theorem sound_seedItem (tables : Tables) (url : String)
    : FrontierItem.Sound tables (seedItem url) :=
  ⟨by simp [seedItem], by simp [seedItem, maxDepth], nofun⟩

/-- A page to re-crawl is sound. -/
theorem sound_recrawlItem (tables : Tables) (url : String)
    : FrontierItem.Sound tables (recrawlItem url) :=
  ⟨by simp [recrawlItem], by simp [recrawlItem, maxDepth], nofun⟩

/-- A page that is being saved has the depth and the parent of its job, which is no re-crawl,
and it has been saved once a reply says so.
-/
structure Thread.SavesJob (tables : Tables) (thread : Thread) : Prop where
  page : ∀ job page links, thread.point = .saved job page links →
    isRecrawl job = false ∧ page.depth = job.depth ∧ page.parent = job.parent
  reply : ∀ value job page links,
    thread = ⟨.ready (.reply (some value)), .saved job page links⟩ →
    page.url ∈ tables.nodes.keys

/-- The point waits for a page to be saved. -/
def Point.isSaved : Point → Bool
  | .saved .. => true
  | _ => false

namespace Thread.SavesJob

variable {tables : Tables} {thread : Thread}

/-- Other threads save nothing. -/
theorem of_other (other : thread.point.isSaved = false) : thread.SavesJob tables := by
  constructor
  · intro job page links waits
    rw [waits] at other
    cases other
  · intro value job page links same
    rw [same] at other
    cases other

/-- A thread without a reply has the depth and the parent of its job only. -/
theorem of_fresh (fresh : thread.phase.isReply = false)
    (page : ∀ job page links, thread.point = .saved job page links →
      isRecrawl job = false ∧ page.depth = job.depth ∧ page.parent = job.parent)
    : thread.SavesJob tables := by
  refine ⟨page, fun value job page links same => ?_⟩
  rw [same] at fresh
  cases fresh

/-- Saved pages stay saved. -/
theorem mono {after : Tables} (grows : ∀ url ∈ tables.nodes.keys, url ∈ after.nodes.keys)
    (saves : thread.SavesJob tables)
    : thread.SavesJob after :=
  ⟨saves.page, fun value job page links same => grows _ (saves.reply value job page links same)⟩

end Thread.SavesJob

variable {env : Env}

/-- A piece saves a page under its job. -/
theorem Flow.savesJob {shared : Shared} {seeds : List String} {input : Input} {point : Point}
    {outcome : Outcome} (flow : Flow env shared seeds input point outcome) (tables : Tables)
    : ∀ thread ∈ outcome.threads, thread.SavesJob tables := by
  cases flow with
  | asking _ _ _ fetch => exact Outcome.forall_single rfl (.of_other (fetch.point_eq ▸ rfl))
  | started fetch =>
      exact Outcome.forall_pair rfl (.of_other rfl) (.of_other (fetch.point_eq ▸ rfl))
  | pageFetched page first =>
      refine Outcome.forall_single rfl (.of_fresh rfl ?_)
      intro job page links waits
      cases waits
      exact ⟨first, rfl, rfl⟩
  | lost | thrown | cursorRead | done | busy | loopOver | refilled | cleared | consumed =>
      exact Outcome.forall_none rfl
  | _ => exact Outcome.forall_single rfl (.of_other rfl)

namespace State

variable {start state next : State} {label : Label}

/-- The crawl has just started, on empty tables in which some seeds have been queued. -/
def BeginsEmpty (state : State) : Prop :=
  ∃ urls nodeCount frontierCount domainPop domainNodeCount now,
    state = initial (seedInitialUrls .empty urls)
      (.load nodeCount frontierCount domainPop domainNodeCount) now

/-- Everything that the crawl holds is sound. -/
structure Integral (state : State) : Prop where
  laden : Laden (FrontierItem.Sound state.shared.tables) state
  saves : ∀ thread ∈ state.threads, thread.SavesJob state.shared.tables
  visited : ∀ url ∈ state.shared.tables.nodes.keys, url ∈ state.shared.tables.visited
  nodes : ∀ entry ∈ state.shared.tables.nodes.entries, PageSound state.shared.tables entry.2

/-- Then the store has its integrity; addresses are distinct in every frontier. -/
theorem Integral.storeIntegrity (integral : state.Integral)
    : StoreIntegrity state.shared.tables where
  distinct := state.shared.tables.frontier.urls_nodup
  visited := integral.visited
  frontier := integral.laden.rows
  nodes := integral.nodes

/-- Seeding queues the rows of the seeds, as the transaction for links would. -/
theorem seedInitialUrls_eq (tables : Tables) (urls : List String)
    : seedInitialUrls tables urls
      = tables.insertManyFrontier (urls.map seedItem) := by
  unfold seedInitialUrls Tables.insertManyFrontier
  rw [List.foldl_map]

/-- A crawl that begins on empty tables is sound. -/
theorem BeginsEmpty.integral (begins : start.BeginsEmpty) : start.Integral := by
  obtain ⟨urls, _, _, _, _, _, rfl⟩ := begins
  have nodes : (seedInitialUrls .empty urls).nodes = .empty := by
    rw [seedInitialUrls_eq]
    exact Tables.nodes_insertManyFrontier
  have noPages : ∀ entry ∈ (seedInitialUrls .empty urls).nodes.entries, False := by
    rw [nodes]
    exact nofun
  constructor
  · constructor
    · intro row member
      have member : row ∈ (seedInitialUrls .empty urls).frontier.rows := member
      rw [seedInitialUrls_eq] at member
      rcases Tables.mem_rows_insertManyFrontier member with old | new
      · cases old
      · obtain ⟨url, _, same⟩ := List.mem_map.mp new
        exact same ▸ sound_seedItem _ url
    · intro thread member item held
      rcases List.mem_pair.mp member with rfl | rfl <;> cases held
  · intro thread member
    rcases List.mem_pair.mp member with rfl | rfl <;> exact .of_other rfl
  · intro url saved
    obtain ⟨entry, member, _⟩ := List.mem_map.mp saved
    exact (noPages entry member).elim
  · intro entry member
    exact (noPages entry member).elim

/-- Without Kafka, a step brings in sound items: the parent of a link is the page that it was
found on, which has been saved.
-/
theorem Integral.brings (integral : state.Integral) (offline : env.kafkaEnabled = false)
    : Brings env (FrontierItem.Sound state.shared.tables) state label where
  seeds _ _ url _ := sound_seedItem _ url
  links := by
    intro value job page links running item kept
    have member : ⟨.ready (.reply (some value)), .saved job page links⟩ ∈ state.threads := by
      simp [threads, running]
    have link := Shared.keptLink_of_mem kept
    have job : FrontierItem.Sound state.shared.tables job :=
      integral.laden.threads _ member job (List.mem_append_right _ (List.mem_singleton.mpr rfl))
    refine ⟨?_, link.shallow, ?_⟩
    · have deep := job.deep
      rw [link.depth]
      omega
    · intro url same
      rw [link.parent] at same
      obtain rfl := Option.some.inj same
      exact (integral.saves _ member).reply _ _ _ _ rfl
  message := by
    intro item background
    cases background with
    | consume _ _ _ enabled => exact Bool.noConfusion (offline.symm.trans enabled)
  targets url _ := sound_recrawlItem _ url

/-- A step saves pages under their jobs. -/
theorem Integral.saves_step (integral : state.Integral)
    (taken : state.step env label = some next)
    : ∀ thread ∈ next.threads, thread.SavesJob next.shared.tables := by
  have grows : ∀ url ∈ state.shared.tables.nodes.keys, url ∈ next.shared.tables.nodes.keys :=
    fun _ saved => mem_keys_of_step taken saved
  have old : ∀ thread ∈ state.threads, thread.SavesJob next.shared.tables :=
    fun thread member => (integral.saves thread member).mono grows
  refine forall_threads_of_step taken old ?begun ?left ?answered ?redirected ?settled ?recorded
  case begun =>
    intro thread background
    cases background <;> exact .of_other rfl
  case left =>
    intro seeds input point _ _ _ _
    exact (state.shared.resume_flow env seeds input point).savesJob _
  case answered =>
    intro point statement ending tables reply waits executed shared held
    refine ⟨held.page, ?_⟩
    intro value job page links same
    obtain ⟨replied, rfl⟩ := Thread.mk.inj same
    cases replied
    obtain rfl := Option.some.inj waits
    rw [shared]
    exact executed.saved
  case redirected =>
    intro url redirects target point thread _ fetch held
    refine .of_fresh fetch.fresh fun job page links waits => held.page job page links ?_
    exact fetch.point_eq ▸ waits
  case settled =>
    intro url redirects point response _ held
    exact .of_fresh rfl held.page
  case recorded =>
    intro point response held
    exact .of_fresh rfl held.page

/-- A step keeps the saved pages sound and visited. -/
theorem Integral.pages_step (integral : state.Integral)
    (taken : state.step env label = some next)
    : (∀ url ∈ next.shared.tables.nodes.keys, url ∈ next.shared.tables.visited)
      ∧ ∀ entry ∈ next.shared.tables.nodes.entries, PageSound next.shared.tables entry.2 := by
  have grows : ∀ url ∈ state.shared.tables.nodes.keys, url ∈ next.shared.tables.nodes.keys :=
    fun _ saved => mem_keys_of_step taken saved
  rcases tables_of_step taken with same | ⟨point, _, _, _, _, waiting, waits, executed⟩
  · rw [same]
    exact ⟨integral.visited, integral.nodes⟩
  · rcases executed.nodes_cases with same | ⟨page, rfl, written, marked⟩
    · constructor
      · intro url saved
        exact executed.visited_mono (integral.visited url (same ▸ saved))
      · intro entry member
        exact (integral.nodes entry (same ▸ member)).mono grows
    · constructor
      · intro url saved
        rw [written, InsertionMap.mem_keys_set] at saved
        rcases saved with rfl | old
        · exact marked
        · exact executed.visited_mono (integral.visited url old)
      · intro entry member
        rw [written] at member
        rcases InsertionMap.mem_of_mem_set member with rfl | old
        · -- the new page has the depth and the parent of its job, which is no re-crawl
          obtain ⟨job, links, rfl⟩ := Point.eq_saved waits
          obtain ⟨first, depth, parent⟩ := (integral.saves _ waiting).page _ _ _ rfl
          have sound : FrontierItem.Sound state.shared.tables job :=
            integral.laden.threads _ waiting job (List.mem_singleton.mpr rfl)
          have deep := sound.deep
          have other : job.depth ≠ -1 := of_decide_eq_false first
          refine ⟨?_, ?_, ?_⟩
          · change 0 ≤ page.depth
            omega
          · change page.depth ≤ maxDepth
            exact depth ▸ sound.shallow
          · change ParentSaved _ page.parent
            exact parent ▸ sound.parent.mono grows
        · exact (integral.nodes entry old).mono grows

/-- A step keeps everything sound. -/
theorem Integral.step (integral : state.Integral) (offline : env.kafkaEnabled = false)
    (taken : state.step env label = some next)
    : next.Integral where
  laden := by
    refine (integral.laden.step (integral.brings offline) taken).mono fun item sound => ?_
    exact sound.mono fun _ saved => mem_keys_of_step taken saved
  saves := integral.saves_step taken
  visited := (integral.pages_step taken).1
  nodes := (integral.pages_step taken).2

/-- In every run from empty tables without Kafka the store has its integrity. -/
theorem storeIntegrity_of_run (offline : env.kafkaEnabled = false)
    (begins : start.BeginsEmpty) (run : Reaches (step env) start state)
    : StoreIntegrity state.shared.tables := by
  have integral : state.Integral :=
    run.invariant begins.integral fun integral _ taken => integral.step offline taken
  exact integral.storeIntegrity

/-- A crawl of one seed from empty tables. -/
def seededCrawl (url : String) : State :=
  initial (seedInitialUrls .empty [url]) (.load 0 queueLowWater [] fun _ => 0) 0

/-- The page of the seed is fetched and saved. -/
def pageSaved : List Label :=
  boot ++ readBatch 2 ++ vet ++ turn 0 3
    ++ [.http 0 (.page ""), .record 0] ++ turn 0 1 ++ [reply 0] ++ turn 0 1

/-- The store has its integrity when the page of a seed has been saved. -/
theorem storeIntegrity_of_pageSaved
    : ∃ state,
        Reaches (step plainEnv) (seededCrawl "https://a.example/1") state
        ∧ "https://a.example/1" ∈ state.shared.tables.nodes.keys
        ∧ StoreIntegrity state.shared.tables := by
  have executed
      : (execute (step plainEnv) anyStep (seededCrawl "https://a.example/1") pageSaved).any
          (fun state => "https://a.example/1" ∈ state.shared.tables.nodes.keys)
        = true := by
    decide +kernel
  obtain ⟨state, run, saved⟩ := exists_run_of_any executed
  have begins : (seededCrawl "https://a.example/1").BeginsEmpty :=
    ⟨_, _, _, _, _, _, rfl⟩
  exact ⟨state, run, of_decide_eq_true saved, storeIntegrity_of_run rfl begins run⟩

end State

end WebIndexer.Crawl
