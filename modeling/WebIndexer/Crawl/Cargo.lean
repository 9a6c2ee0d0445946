import WebIndexer.Crawl.Flow

/-! The items that the crawl carries: the rows of the frontier, and what the pieces of the
script have read, drawn or kept of them. A step brings in few new ones, so that a fact about
items holds of all that are carried as soon as it holds of those that are brought.
-/

namespace WebIndexer.Crawl

open WebIndexer.Config
open WebIndexer.Fetcher
open WebIndexer.Library
open WebIndexer.Store

/-- The row that injects a page to re-crawl. -/
def recrawlItem (url : String) : FrontierItem := ⟨url, -1, none⟩

/-- The row of a seed. -/
def seedItem (url : String) : FrontierItem := ⟨url, 0, none⟩

/-- The items that a point holds: those it may insert, examine or fetch. -/
def Point.items : Point → List FrontierItem
  | .recrawlLoop targets => targets.map recrawlItem
  | .recrawlInserted url targets => (url :: targets).map recrawlItem
  | .forItem items _ => items
  | .visitedRead item rest _ | .examine item rest _ => item :: rest
  | .skipped _ rest _ => rest
  | .checkRobots visit | .robotsFetched visit | .robotsGate visit | .blockedMarked visit
  | .blockedDeleted visit | .start visit => visit.item :: visit.rest
  | .seedLoop seeds _ _ => seeds.map seedItem
  | .seedVisited url seeds _ _ | .seedInserted url seeds _ _ => (url :: seeds).map seedItem
  | .fetched job | .saved job _ _ | .recrawlMarked job | .recrawlDeleted job | .failMarked job
  | .failDeleted job | .finalise job => [job]
  | .linksInserted job items => job :: items
  | .consumed item => [item]
  | .cursorRead | .entry | .yielded | .batchRead _ | .recrawlRead _ | .seedCounted _
  | .nodesCounted _ | .frontierCounted _ | .popRead _ | .refreshed _ | .countsRead
  | .statsBody | .cleared => []

/-- The items of a reply that has not been looked at. -/
def Input.items : Input → List FrontierItem
  | .reply (some (.rows rows)) => rows.map FrontierRow.toFrontierItem
  | .reply (some (.urls urls)) => urls.map recrawlItem
  | _ => []

/-- The items that a thread carries. -/
def Thread.items (thread : Thread) : List FrontierItem :=
  match thread.phase with
  | .ready input => input.items ++ thread.point.items
  | _ => thread.point.items

/-- A point carries what its statement inserts. -/
theorem Point.inserts_subset {point : Point} {statement : Statement}
    (waits : point.statement = some statement)
    : statement.inserts ⊆ point.items := by
  cases point with
  | recrawlInserted url targets | seedInserted url targets =>
      obtain rfl := Option.some.inj waits
      exact List.cons_subset_cons _ (List.nil_subset _)
  | linksInserted job items =>
      obtain rfl := Option.some.inj waits
      exact List.subset_cons_self ..
  | consumed item =>
      obtain rfl := Option.some.inj waits
      exact List.Subset.refl _
  | _ => first | (obtain rfl := Option.some.inj waits; exact List.nil_subset _) | cases waits

/-- A link of a page passes the filters of the loop, in the state in which the loop looks at it. -/
structure Shared.Passes (env : Env) (shared : Shared) (job : FrontierItem) (link : String)
    : Prop where
  clean : isBlacklisted env.api link = false
  shallow : job.depth + 1 ≤ maxDepth
  nodes : shared.crawl.nodeCount < maxNodes
  frontier : shared.crawl.frontierCount < maxFrontier
  writable : shared.crawl.diskPaused = false
  domain
    : getDomain env.api link ≠ "" →
        shared.crawl.domainNodeCount (getDomain env.api link) < domainMax
        ∧ getDomain env.api link ∉ shared.crawl.domainBlacklist

/-- The links that the loop keeps are those that pass its filters, by induction over the links. The
three limits that end the loop hold for no link or for all of them.
-/
theorem Shared.mem_keptLinks_iff {env : Env} {shared : Shared} {job item : FrontierItem}
    {finalUrl : String} {links : List String}
    : item ∈ shared.keptLinks env job finalUrl links
      ↔ ∃ link ∈ links,
          shared.Passes env job link ∧ item = ⟨link, job.depth + 1, some finalUrl⟩ := by
  induction links with
  | nil => simp [keptLinks]
  | cons link links ih =>
      have dropped (fails : ¬ shared.Passes env job link)
          : item ∈ shared.keptLinks env job finalUrl links
            ↔ ∃ other ∈ link :: links,
                shared.Passes env job other ∧ item = ⟨other, job.depth + 1, some finalUrl⟩ := by
        rw [ih, List.exists_mem_cons_iff, or_iff_right fun kept => fails kept.1]
      have ended (fails : ∀ other, ¬ shared.Passes env job other)
          : item ∈ ([] : List FrontierItem)
            ↔ ∃ other ∈ link :: links,
                shared.Passes env job other ∧ item = ⟨other, job.depth + 1, some finalUrl⟩ := by
        refine iff_of_false List.not_mem_nil ?_
        rintro ⟨other, _, passes, _⟩
        exact fails other passes
      unfold keptLinks
      split
      · rename_i listed
        exact dropped fun passes => Bool.noConfusion (listed.symm.trans passes.clean)
      · rename_i clean
        split
        · rename_i deep
          exact dropped fun passes => absurd deep (Int.not_lt.mpr passes.shallow)
        · rename_i shallow
          split
          · rename_i full
            exact ended fun _ passes => absurd full (Nat.not_le.mpr passes.nodes)
          · rename_i nodes
            split
            · rename_i full
              exact ended fun _ passes => absurd full (Nat.not_le.mpr passes.frontier)
            · rename_i frontier
              split
              · rename_i paused
                exact ended fun _ passes => Bool.noConfusion (paused.symm.trans passes.writable)
              · rename_i writable
                simp only
                split
                · rename_i refused
                  refine dropped fun passes => ?_
                  obtain ⟨room, unlisted⟩ := passes.domain refused.1
                  exact refused.2.elim (Nat.not_le.mpr room) unlisted
                · rename_i admitted
                  have passes : shared.Passes env job link := {
                    clean := Bool.eq_false_iff.mpr clean
                    shallow := Int.not_lt.mp shallow
                    nodes := Nat.not_le.mp nodes
                    frontier := Nat.not_le.mp frontier
                    writable := Bool.eq_false_iff.mpr writable
                    domain := fun valid =>
                      ⟨Nat.not_le.mp fun full => admitted ⟨valid, .inl full⟩,
                        fun listed => admitted ⟨valid, .inr listed⟩⟩
                  }
                  rw [List.mem_cons, ih, List.exists_mem_cons_iff]
                  exact or_congr_left (and_iff_right passes).symm

/-- What the loop over the links of a page has checked of one that it keeps, and what row it
makes of it.
-/
structure KeptLink (env : Env) (shared : Shared) (job : FrontierItem) (finalUrl : String)
    (item : FrontierItem)
    : Prop where
  clean : isBlacklisted env.api item.url = false
  depth : item.depth = job.depth + 1
  shallow : item.depth ≤ maxDepth
  parent : item.parent = some finalUrl
  writable : shared.crawl.diskPaused = false

/-- The links that the loop keeps have been checked. -/
theorem Shared.keptLink_of_mem {env : Env} {shared : Shared} {job item : FrontierItem}
    {finalUrl : String} {links : List String}
    (kept : item ∈ shared.keptLinks env job finalUrl links)
    : KeptLink env shared job finalUrl item := by
  obtain ⟨link, _, passes, rfl⟩ := Shared.mem_keptLinks_iff.mp kept
  exact ⟨passes.clean, rfl, passes.shallow, rfl, passes.writable⟩

/-- They are links of the page. -/
theorem Shared.url_mem_of_keptLinks {env : Env} {shared : Shared} {job item : FrontierItem}
    {finalUrl : String} {links : List String}
    (kept : item ∈ shared.keptLinks env job finalUrl links)
    : item.url ∈ links := by
  obtain ⟨link, member, _, rfl⟩ := Shared.mem_keptLinks_iff.mp kept
  exact member

variable {env : Env} {state next : State} {label : Label} {holds : FrontierItem → Prop}

/-- The fact holds of every item that is carried. -/
structure Laden (holds : FrontierItem → Prop) (state : State) : Prop where
  rows : ∀ row ∈ state.shared.tables.frontier.rows, holds row.toFrontierItem
  threads : ∀ thread ∈ state.threads, ∀ item ∈ thread.items, holds item

/-- A weaker fact holds of them, too. -/
theorem Laden.mono {weaker : FrontierItem → Prop} (laden : Laden holds state)
    (implies : ∀ item, holds item → weaker item)
    : Laden weaker state where
  rows row member := implies _ (laden.rows row member)
  threads thread member item held := implies item (laden.threads thread member item held)

/-- The fact holds of what a step may bring in: the seeds that the piece that runs may draw,
the links that it keeps of a page that has been saved, a Kafka message, and the saved pages,
which may be picked to be crawled again.
-/
structure Brings (env : Env) (holds : FrontierItem → Prop) (state : State) (label : Label)
    : Prop where
  seeds : ∀ seeds, label = .run seeds → ∀ url ∈ seeds, holds (seedItem url)
  links
    : ∀ value job page links,
        state.running = some ⟨.ready (.reply (some value)), .saved job page links⟩ →
        ∀ item ∈ (state.shared.countSuccess env job page).keptLinks env job page.url links,
          holds item
  message : ∀ item, Background env label ⟨.statement, .consumed item⟩ → holds item
  targets : ∀ url ∈ state.shared.tables.nodes.keys, holds (recrawlItem url)

/-- A fetch carries what its point holds. -/
theorem FetchCase.items_eq {shared after : Shared} {url : String} {point : Point}
    {thread : Thread} (fetch : FetchCase shared url point (after, thread))
    : thread.items = point.items := by
  cases fetch <;> rfl

/-- A piece brings in seeds and kept links at most. -/
theorem Flow.laden {shared : Shared} {seeds : List String} {input : Input} {point : Point}
    {outcome : Outcome} (flow : Flow env shared seeds input point outcome)
    (carried : ∀ item ∈ input.items ++ point.items, holds item)
    (drawn : ∀ url ∈ seeds, holds (seedItem url))
    (kept : ∀ value job page links,
      input = .reply (some value) → point = .saved job page links →
      ∀ item ∈ (shared.countSuccess env job page).keptLinks env job page.url links, holds item)
    : ∀ thread ∈ outcome.threads, ∀ item ∈ thread.items, holds item := by
  have held : ∀ item ∈ point.items, holds item :=
    fun item member => carried item (List.mem_append_right _ member)
  have first {item : FrontierItem} {rest : List FrontierItem}
      (held : ∀ other ∈ item :: rest, holds other)
      : ∀ other ∈ rest, holds other :=
    fun other member => held other (List.mem_cons_of_mem _ member)
  have nothing : ∀ item ∈ ([] : List FrontierItem), holds item := by
    intro item member
    cases member
  cases flow with
  | lost | thrown | cursorRead | done | busy | loopOver | refilled | cleared | consumed =>
      exact Outcome.forall_none rfl
  | yielding | reading | recrawling | waiting | recrawlDone | loopIdle | seedsAdded | seeded
  | finalised | nodesCounted | frontierCounted | popRead | refreshFailed | refreshed
  | refreshedHalf | countsRead => exact Outcome.forall_single rfl nothing
  | seeding | refilling =>
      refine Outcome.forall_single rfl fun item member => ?_
      obtain ⟨url, listed, rfl⟩ := List.mem_map.mp member
      exact drawn url listed
  | batch read | targets read =>
      subst read
      refine Outcome.forall_single rfl fun item member => carried item ?_
      exact List.mem_append_left _ member
  | recrawlNext | ask | askRecrawl | unseen | admitRecrawl | admitted | skipped | known | cached
  | rulesRead | rulesFailed | blocked | passed | blockedMarked | seedNext | seedUnseen
  | recrawlFetched | pageFetched | fetchFailed | savedLeaf | saveFailed | recrawlMarked
  | failMarked => exact Outcome.forall_single rfl held
  | recrawlInserted | seen | dropped | crowded | blockedDeleted | seedSeen | seedInserted =>
      exact Outcome.forall_single rfl (first held)
  | linksInserted =>
      refine Outcome.forall_single rfl fun item member => held item ?_
      exact List.mem_singleton.mp member ▸ List.mem_cons_self
  | recrawled ended | failed ended =>
      rcases ended with rfl | rfl <;> exact Outcome.forall_single rfl held
  | asking _ _ _ fetch =>
      refine Outcome.forall_single rfl ?_
      rw [fetch.items_eq]
      exact held
  | started fetch =>
      refine Outcome.forall_pair rfl (first held) ?_
      rw [fetch.items_eq]
      intro item listed
      exact held item (List.mem_singleton.mp listed ▸ List.mem_cons_self)
  | savedLinks answered =>
      refine Outcome.forall_single rfl fun item member => ?_
      rcases List.mem_cons.mp member with rfl | link
      · exact held _ List.mem_cons_self
      · exact kept _ _ _ _ answered rfl item link

/-- Only the statements that the threads wait for change the tables. -/
theorem State.tables_of_step (taken : state.step env label = some next)
    : next.shared.tables = state.shared.tables
      ∨ ∃ point statement ending reply,
          state.acting label = some ⟨.statement, point⟩
          ∧ ⟨.statement, point⟩ ∈ state.threads
          ∧ point.statement = some statement
          ∧ Executed env state.shared.tables statement ending next.shared.tables reply := by
  cases step_cases taken with
  | still _ _ _ shared | begin _ _ _ shared | settle _ shared | record shared =>
      rw [shared]
      exact .inl rfl
  | run _ shared =>
      rw [shared]
      exact .inl (Shared.tables_resume ..)
  | redirect fetch => exact .inl (Extends.of_fetch fetch).tables
  | @exec _ _ _ _ _ _ tables _ _ acting waits executed shared before =>
      have after : next.shared.tables = tables := congrArg Shared.tables shared
      rw [← after] at executed
      exact .inr ⟨_, _, _, _, acting, before.mem_iff.mpr List.mem_cons_self, waits, executed⟩

/-- The rows after a statement are old ones and those that it inserts. -/
theorem Executed.mem_rows {tables after : Tables} {statement : Statement} {ending : Ending}
    {reply : Option Value} {row : FrontierRow}
    (executed : Executed env tables statement ending after reply)
    (member : row ∈ after.frontier.rows)
    : row ∈ tables.frontier.rows ∨ row.toFrontierItem ∈ statement.inserts := by
  cases executed with
  | done ran | lost ran => exact Tables.mem_rows_run ran member
  | rejected => exact .inl member

/-- The pages after a statement are the old ones, with the one that it saves and marks. -/
theorem Executed.nodes_cases {tables after : Tables} {statement : Statement} {ending : Ending}
    {reply : Option Value} (executed : Executed env tables statement ending after reply)
    : after.nodes = tables.nodes
      ∨ ∃ page,
          statement = .saveNode page
          ∧ after.nodes = tables.nodes.set page.url (Tables.nodeRow page)
          ∧ page.url ∈ after.visited := by
  cases executed with
  | done ran | lost ran =>
      rcases Tables.nodes_run ran with same | ⟨page, rfl, written⟩
      · exact .inl same
      · have marked := (Tables.mem_visited_run ran).mpr (.inl List.mem_cons_self)
        exact .inr ⟨page, rfl, written, marked⟩
  | rejected => exact .inl rfl

/-- Saved pages stay. -/
theorem Executed.mem_keys {tables after : Tables} {statement : Statement} {ending : Ending}
    {reply : Option Value} {url : String}
    (executed : Executed env tables statement ending after reply)
    (saved : url ∈ tables.nodes.keys)
    : url ∈ after.nodes.keys := by
  cases executed with
  | done ran | lost ran => exact Tables.mem_keys_run ran saved
  | rejected => exact saved

/-- A page that the script sees saved has been saved. -/
theorem Executed.saved {tables after : Tables} {page : PageData} {ending : Ending}
    {value : Value}
    (executed : Executed env tables (.saveNode page) ending after (some value))
    : page.url ∈ after.nodes.keys := by
  cases executed with
  | done ran =>
      obtain ⟨rfl, rfl⟩ := Prod.mk.inj (Option.some.inj ran)
      rw [Tables.nodes_saveNode, InsertionMap.mem_keys_set]
      exact .inl rfl

/-- Only the handler of a page fetch saves a page. -/
theorem Point.eq_saved {point : Point} {page : PageData}
    (waits : point.statement = some (.saveNode page))
    : ∃ job links, point = .saved job page links := by
  cases point with
  | saved job other links =>
      obtain rfl := Statement.saveNode.inj (Option.some.inj waits)
      exact ⟨job, links, rfl⟩
  | _ => first | cases Option.some.inj waits | cases waits

/-- Saved pages stay through every step. -/
theorem State.mem_keys_of_step {url : String} (taken : state.step env label = some next)
    (saved : url ∈ state.shared.tables.nodes.keys)
    : url ∈ next.shared.tables.nodes.keys := by
  rcases State.tables_of_step taken with same | ⟨_, _, _, _, _, _, _, executed⟩
  · exact same ▸ saved
  · exact executed.mem_keys saved

/-- A reply brings rows of the frontier or saved pages. -/
theorem Executed.mem_items {tables after : Tables} {statement : Statement} {ending : Ending}
    {reply : Option Value} {item : FrontierItem}
    (executed : Executed env tables statement ending after reply)
    (member : item ∈ (Input.reply reply).items)
    : (∃ row ∈ tables.frontier.rows, row.toFrontierItem = item)
      ∨ ∃ url ∈ tables.nodes.keys, recrawlItem url = item := by
  cases executed with
  | lost | rejected => cases member
  | @done _ _ value ran =>
      have answers := Tables.answers_run ran
      cases value with
      | rows rows =>
          cases statement with
          | getBatch =>
              obtain ⟨row, read, same⟩ := List.mem_map.mp member
              exact .inl ⟨row, Tables.rows_getBatch ran read, same⟩
          | _ => cases answers
      | urls urls =>
          cases statement with
          | recrawlTargets =>
              obtain ⟨url, chosen, same⟩ := List.mem_map.mp member
              exact .inr ⟨url, Tables.urls_recrawlTargets ran chosen, same⟩
          | _ => cases answers
      | _ => cases member

/-- A step keeps the fact for all items that are carried, if it holds of those that the step
brings in.
-/
theorem Laden.step (laden : Laden holds state) (brings : Brings env holds state label)
    (taken : state.step env label = some next)
    : Laden holds next := by
  constructor
  · intro row member
    rcases State.tables_of_step taken with same | ⟨point, _, _, _, _, waiting, waits, executed⟩
    · exact laden.rows row (same ▸ member)
    · rcases executed.mem_rows member with old | new
      · exact laden.rows row old
      · exact laden.threads _ waiting _ (Point.inserts_subset waits new)
  · refine State.forall_threads_of_step taken laden.threads ?begun ?left ?answered ?redirected
      ?settled ?recorded
    case begun =>
      intro thread background item member
      cases background with
      | stats | clear => cases member
      | consume url depth parent enabled =>
          obtain rfl := List.mem_singleton.mp member
          exact brings.message _ (.consume url depth parent enabled)
    case left =>
      intro seeds input point same running member _
      refine (state.shared.resume_flow env seeds input point).laden (laden.threads _ member)
        (brings.seeds seeds same) ?_
      intro value job page links replied saved
      subst replied saved
      exact brings.links value job page links running
    case answered =>
      intro point statement ending tables reply _ executed _ held item member
      rcases List.mem_append.mp member with new | old
      · rcases executed.mem_items new with ⟨row, listed, rfl⟩ | ⟨url, saved, rfl⟩
        · exact laden.rows row listed
        · exact brings.targets url saved
      · exact held item old
    case redirected =>
      intro url redirects target point thread _ fetch held
      rw [fetch.items_eq]
      exact held
    case settled =>
      intro url redirects point response _ held
      exact held
    case recorded =>
      intro point response held
      exact held

end WebIndexer.Crawl
