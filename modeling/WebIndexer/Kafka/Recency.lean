import WebIndexer.Kafka.Delivery
import WebIndexer.Library.Along
import WebIndexer.Runtime.Number

/-! What the dedup set of the queue holds after a call. Only `enqueue` forgets addresses, and it
forgets half of the limit; a batch adds all of its addresses, however many there are.
-/

namespace WebIndexer.Kafka

open WebIndexer.Library
open WebIndexer.Runtime

namespace System

variable {api : UrlApi} {system : System}

/-- The dedup set is within its limit, and holds the addresses of the call if these are at most half
as many.
-/
structure Recent (system : System) (call : Call) : Prop where
  bounded : system.queue.seen.size ≤ system.queue.seenMax
  holds : 2 * call.urls.dedup.length ≤ system.queue.seenMax →
    ∀ url ∈ call.urls, url ∈ system.queue.seen

/-- The dedup set is so after each call. -/
def StaysRecent (api : UrlApi) : System → List Call → Prop :=
  Along (serve api) fun system call => (system.serve api call).Recent call

/-- The dedup set has room for the addresses of a batch that it does not hold. -/
def HasRoom (system : System) : Call → Prop
  | .enqueueBatch _ _ items =>
      system.queue.seen.size
        + ((items.map FrontierItem.url).filter fun url => url ∉ system.queue.seen).dedup.length
        ≤ system.queue.seenMax
  | _ => True

/-- The dedup set has room for every batch when it is passed in. -/
def BatchesHaveRoom (api : UrlApi) : System → List Call → Prop :=
  Along (serve api) HasRoom

-----------------------------------------------------------------------------------------
-- The size of the dedup set
-----------------------------------------------------------------------------------------

/-- Within a positive limit, a new address is held after the eviction, which restores the limit. -/
theorem recent_evict_markSeen {url : String} (positive : 0 < system.queue.seenMax)
    (bounded : system.queue.seen.size ≤ system.queue.seenMax) (unseen : url ∉ system.queue.seen)
    : (system.markSeen url).evict.queue.seen.size ≤ system.queue.seenMax
      ∧ url ∈ (system.markSeen url).evict.queue.seen := by
  have size : (system.markSeen url).queue.seen.size = system.queue.seen.size + 1 :=
    InsertionSet.size_add_of_not_mem unseen
  unfold evict
  split
  · rename_i exceeded
    have exceeded : system.queue.seenMax < system.queue.seen.size + 1 := by
      rwa [size] at exceeded
    -- the set was full, and half of a positive limit is at least one and at most all of it
    constructor
    · rw [InsertionSet.size_dropOldest, size]
      change system.queue.seen.size + 1 - (system.queue.seenMax + 1) / 2 ≤ system.queue.seenMax
      omega
    · refine InsertionSet.mem_dropOldest_add unseen ?_
      change (system.queue.seenMax + 1) / 2 ≤ system.queue.seen.size
      omega
  · rename_i fits
    exact ⟨Nat.not_lt.mp fits, by simp⟩

/-- An address that is enqueued leaves the dedup set recent. -/
theorem recent_enqueue {now : Nat} {sends : Bool} {item : FrontierItem}
    (positive : 0 < system.queue.seenMax)
    (bounded : system.queue.seen.size ≤ system.queue.seenMax)
    : (system.enqueue api now sends item).queue.seen.size ≤ system.queue.seenMax
      ∧ item.url ∈ (system.enqueue api now sends item).queue.seen := by
  unfold enqueue
  split
  · rename_i seen
    exact ⟨bounded, seen⟩
  · rename_i unseen
    have recent := recent_evict_markSeen positive bounded unseen
    dsimp only
    split
    · exact recent
    · split
      · exact recent
      · exact recent

/-- A batch grows the dedup set by its addresses that are new. -/
theorem size_enqueueBatch {now : Nat} {sends : Bool} {items : List FrontierItem}
    : (system.enqueueBatch api now sends items).queue.seen.size
      = system.queue.seen.size
        + ((items.map FrontierItem.url).filter fun url =>
            url ∉ system.queue.seen).dedup.length := by
  refine InsertionSet.size_of_gained fun url => ?_
  rw [mem_seen_enqueueBatch, List.mem_map]

-----------------------------------------------------------------------------------------
-- Runs
-----------------------------------------------------------------------------------------

/-- From within its limit, the dedup set is recent after a call exactly when it has room for it. -/
theorem recent_serve_iff (positive : 0 < system.queue.seenMax)
    (bounded : system.queue.seen.size ≤ system.queue.seenMax) (call : Call)
    : (system.serve api call).Recent call ↔ system.HasRoom call := by
  cases call with
  | enqueue now sends item =>
      obtain ⟨within, held⟩ := @recent_enqueue api system now sends item positive bounded
      refine iff_of_true ⟨?_, fun _ url passed => ?_⟩ trivial
      · rw [seenMax_serve]
        exact within
      · rw [List.mem_singleton.mp passed]
        exact held
  | enqueueBatch now sends items =>
      have size := @size_enqueueBatch api system now sends items
      constructor
      · intro recent
        have within := recent.bounded
        rw [seenMax_serve] at within
        exact size.symm.trans_le within
      · intro room
        refine ⟨?_, fun _ url passed => ?_⟩
        · rw [seenMax_serve]
          exact size.trans_le room
        · exact mem_seen_enqueueBatch.mpr (.inr (List.mem_map.mp passed))
  | dequeue | init =>
      refine iff_of_true ⟨?_, fun _ url passed => absurd passed List.not_mem_nil⟩ trivial
      exact bounded

/-- The limit of the dedup set is positive, and the set is within it. -/
def Bounded (system : System) : Prop :=
  0 < system.queue.seenMax ∧ system.queue.seen.size ≤ system.queue.seenMax

/-- A call that leaves the dedup set recent leaves it within its limit for the next call. -/
theorem Bounded.serve {call : Call} (bounded : system.Bounded)
    (recent : (system.serve api call).Recent call)
    : (system.serve api call).Bounded := by
  refine ⟨?_, recent.bounded⟩
  rw [seenMax_serve]
  exact bounded.1

/-- After every call, the dedup set is within its limit and holds the addresses of a call with at
most half as many, if and only if it has room for each batch when that is passed in.
-/
theorem staysRecent_iff (api : UrlApi) (enabled : Bool) (calls : List Call)
    : (initial enabled).StaysRecent api calls ↔ (initial enabled).BatchesHaveRoom api calls := by
  have start : (initial enabled).Bounded := ⟨Nat.succ_pos _, Nat.zero_le _⟩
  exact Along.iff_of_invariant (fun _ call bounded => recent_serve_iff bounded.1 bounded.2 call)
    (fun _ _ bounded recent => bounded.serve recent) start calls

/-- A batch of the given number of addresses. -/
def largeBatch (count : Nat) : List FrontierItem :=
  (List.range count).map fun number => ⟨number.repr, 0, none⟩

/-- The addresses of a batch are all different. -/
theorem dedup_largeBatch (count : Nat)
    : ((largeBatch count).map FrontierItem.url).dedup.length = count := by
  have distinct : ((largeBatch count).map FrontierItem.url).Nodup := by
    rw [largeBatch, List.map_map]
    exact List.nodup_range.map repr_injective
  rw [distinct.dedup, largeBatch, List.length_map, List.length_map, List.length_range]

/-- One batch with an address more than the limit takes a new queue past it. -/
theorem staysRecent_fails_for_batch
    : ¬ ∀ (api : UrlApi) (enabled : Bool) (calls : List Call),
        (initial enabled).StaysRecent api calls := by
  intro claim
  have recent := (claim plainUrlApi false
    [.enqueueBatch 0 true (largeBatch (KafkaUrlQueue.create.seenMax + 1))]).1
  have room : (initial false).HasRoom _ :=
    (recent_serve_iff (Nat.succ_pos _) (Nat.zero_le _) _).mp recent
  have all_new : ((largeBatch (KafkaUrlQueue.create.seenMax + 1)).map FrontierItem.url).filter
      (fun url => url ∉ (initial false).queue.seen)
      = (largeBatch (KafkaUrlQueue.create.seenMax + 1)).map FrontierItem.url :=
    List.filter_eq_self.mpr fun url _ => by simp [initial, KafkaUrlQueue.create]
  simp only [HasRoom] at room
  rw [all_new, dedup_largeBatch] at room
  change 0 + (KafkaUrlQueue.create.seenMax + 1) ≤ KafkaUrlQueue.create.seenMax at room
  omega

end System

end WebIndexer.Kafka
