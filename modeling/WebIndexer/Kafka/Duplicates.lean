import WebIndexer.Kafka.Delivery

/-! How often the queue hands on an address. While the dedup set forgets nothing, each address is
handed on by the first call that passes it in, but a batch that is sent may hold it twice.
-/

namespace WebIndexer.Kafka

open WebIndexer.Library
open WebIndexer.Runtime

namespace System

variable {api : UrlApi} {system : System}

/-- The addresses of all messages of successful sends and of all items appended to `localQueue`.
-/
def outputs (system : System) : List String :=
  (system.sent.map fun message => message.item.url) ++ system.appended.map FrontierItem.url

/-- The queue when all calls have returned. -/
def serveAll (api : UrlApi) (system : System) (calls : List Call) : System :=
  calls.foldl (serve api) system

/-- A batch that is sent holds no address twice that no earlier call has passed in. -/
def SendsDistinct (system : System) : Call → Prop
  | .enqueueBatch _ true items =>
      system.queue.enabled = true
        → ((items.map FrontierItem.url).filter fun url => url ∉ system.mentioned).Nodup
  | _ => True

/-- All batches among the calls that are sent do so. -/
def BatchesDistinct (api : UrlApi) (system : System) : List Call → Prop
  | [] => True
  | call :: rest => system.SendsDistinct call ∧ BatchesDistinct api (system.serve api call) rest

-----------------------------------------------------------------------------------------
-- What each operation hands on
-----------------------------------------------------------------------------------------

@[simp] theorem outputs_markSeen {url : String} : (system.markSeen url).outputs = system.outputs :=
  rfl

@[simp] theorem outputs_push {item : FrontierItem}
    : (system.push item).outputs = system.outputs ++ [item.url] := by
  simp [outputs, push]

/-- A successful send hands on the addresses of its messages. -/
theorem outputs_deliver {now : Nat} {items : List FrontierItem}
    : (system.deliver (items.map (message api now))).outputs.Perm
        (system.outputs ++ items.map FrontierItem.url) := by
  have urls : (items.map (message api now)).map (fun message => message.item.url)
      = items.map FrontierItem.url := by
    simp [message]
  simp only [outputs, deliver, List.map_append, urls, List.append_assoc]
  exact List.Perm.append_left _ List.perm_append_comm

/-- The eviction forgets nothing within the limit. -/
theorem evict_of_le (within : system.queue.seen.size ≤ system.queue.seenMax)
    : system.evict = system :=
  if_neg (Nat.not_lt.mpr within)

/-- The loop over unseen items hands on each of their addresses once, by induction on the items.
-/
theorem exists_outputs_keepUnseen (items : List FrontierItem)
    : ∃ added,
        (system.keepUnseen items).outputs = system.outputs ++ added
        ∧ added.Nodup
        ∧ ∀ url ∈ added, url ∉ system.queue.seen ∧ url ∈ items.map FrontierItem.url := by
  induction items generalizing system with
  | nil => exact ⟨[], by simp [keepUnseen], .nil, by simp⟩
  | cons item rest ih =>
      unfold keepUnseen
      split
      · obtain ⟨added, same, distinct, fresh⟩ := @ih system
        refine ⟨added, same, distinct, fun url member => ?_⟩
        exact ⟨(fresh url member).1, List.mem_cons_of_mem _ (fresh url member).2⟩
      · rename_i unseen
        obtain ⟨added, same, distinct, fresh⟩ := @ih ((system.markSeen item.url).push item)
        refine ⟨item.url :: added, ?_, List.nodup_cons.mpr ⟨?_, distinct⟩, ?_⟩
        · rw [same]
          simp
        · intro again
          exact (fresh _ again).1 (by simp)
        · refine List.forall_mem_cons.mpr ⟨⟨unseen, List.mem_cons_self⟩, fun url member => ?_⟩
          obtain ⟨unmarked, listed⟩ := fresh url member
          exact ⟨fun seen => unmarked (by simp [seen]), List.mem_cons_of_mem _ listed⟩

/-- The loop skips items that have been seen, by induction on them. -/
theorem keepUnseen_of_seen {items : List FrontierItem}
    (seen : ∀ item ∈ items, item.url ∈ system.queue.seen)
    : system.keepUnseen items = system := by
  induction items with
  | nil => rfl
  | cons item rest ih =>
      obtain ⟨first, others⟩ := List.forall_mem_cons.mp seen
      rw [keepUnseen, if_pos first, ih others]

/-- Marking a list of addresses hands on nothing, by induction on the list. -/
theorem outputs_markSeen_foldl (items : List FrontierItem)
    : (items.foldl (fun current item => current.markSeen item.url) system).outputs
      = system.outputs := by
  induction items generalizing system with
  | nil => rfl
  | cons item rest ih => exact ih

-----------------------------------------------------------------------------------------
-- What a call hands on while nothing is forgotten
-----------------------------------------------------------------------------------------

/-- No address has been forgotten: those that have been passed in are seen, and no other has been
handed on.
-/
structure Remembers (system : System) : Prop where
  seen : ∀ url, url ∈ system.queue.seen ↔ url ∈ system.mentioned
  outputs : ∀ url ∈ system.outputs, url ∈ system.mentioned

/-- The addresses that have been passed in, with some more, fit into the dedup set. -/
def Fits (system : System) (urls : List String) : Prop :=
  (system.mentioned ++ urls).dedup.length ≤ system.queue.seenMax

/-- What a call hands on: addresses that have not been seen, and none twice if the call sends no
batch with a repetition.
-/
structure Adds (system : System) (call : Call) (added : List String) : Prop where
  unseen : ∀ url ∈ added, url ∉ system.queue.seen
  passed : ∀ url ∈ added, url ∈ call.urls
  distinct : added.Nodup ↔ system.SendsDistinct call

/-- A new queue has nothing to remember. -/
theorem remembers_initial (enabled : Bool) : (initial enabled).Remembers where
  seen := by simp [initial, KafkaUrlQueue.create]
  outputs := by simp [initial, outputs]

/-- An address that fits is added without an eviction. -/
theorem Remembers.evict_markSeen {url : String} (remembers : system.Remembers)
    (fits : system.Fits [url])
    : (system.markSeen url).evict = system.markSeen url := by
  refine evict_of_le (Nat.le_trans (InsertionSet.size_le_dedup fun other member => ?_) fits)
  rcases mem_seen_markSeen.mp member with rfl | seen
  · exact List.mem_append_right _ (List.mem_singleton_self _)
  · exact List.mem_append_left _ ((remembers.seen other).mp seen)

/-- An address that fits is handed on unless it has been seen, and is seen then. -/
theorem Remembers.enqueue {now : Nat} {sends : Bool} {item : FrontierItem}
    (remembers : system.Remembers) (fits : system.Fits [item.url])
    : (∃ added,
        (system.enqueue api now sends item).outputs.Perm (system.outputs ++ added)
        ∧ system.Adds (.enqueue now sends item) added)
      ∧ ∀ url,
          url ∈ (system.enqueue api now sends item).queue.seen
            ↔ url = item.url ∨ url ∈ system.queue.seen := by
  unfold System.enqueue
  split
  · rename_i seen
    refine ⟨⟨[], by simp, by simp, by simp, by simp [SendsDistinct]⟩, fun url => ?_⟩
    constructor
    · exact .inr
    · rintro (rfl | earlier)
      · exact seen
      · exact earlier
  · rename_i unseen
    have adds : system.Adds (.enqueue now sends item) [item.url] :=
      ⟨by simpa using unseen, by simp [Call.urls], by simp [SendsDistinct]⟩
    simp only [remembers.evict_markSeen fits]
    split
    · exact ⟨⟨[item.url], by simp, adds⟩, fun _ => mem_seen_markSeen⟩
    · split
      · have sent := @outputs_deliver api (system.markSeen item.url) now [item]
        exact ⟨⟨[item.url], sent, adds⟩, fun _ => mem_seen_markSeen⟩
      · exact ⟨⟨[item.url], by simp, adds⟩, fun _ => mem_seen_markSeen⟩

/-- An enabled queue sends what a batch has that has not been seen, with its repetitions. -/
theorem Remembers.adds_unseen {now : Nat} {items : List FrontierItem}
    (remembers : system.Remembers) (enabled : system.queue.enabled = true)
    : system.Adds (.enqueueBatch now true items)
        ((items.filter fun item => item.url ∉ system.queue.seen).map FrontierItem.url) := by
  have urls : (items.filter fun item => item.url ∉ system.queue.seen).map FrontierItem.url
      = (items.map FrontierItem.url).filter fun url => url ∉ system.mentioned := by
    simp only [List.filter_map, Function.comp_def, remembers.seen]
  rw [urls]
  refine ⟨fun url member => ?_, fun url member => List.mem_of_mem_filter member, ?_⟩
  · rw [remembers.seen]
    exact of_decide_eq_true (List.mem_filter.mp member).2
  · exact ⟨fun distinct _ => distinct, fun distinct => distinct enabled⟩

/-- Once the unseen addresses of a batch are marked, all of its addresses are seen. -/
theorem seen_of_marked (items : List FrontierItem)
    : ∀ item ∈ items,
        item.url ∈ ((items.filter fun item => item.url ∉ system.queue.seen).foldl
          (fun current item => current.markSeen item.url) system).queue.seen := by
  intro item member
  rw [(markSeen_foldl_spec _).2]
  by_cases seen : item.url ∈ system.queue.seen
  · exact .inl seen
  · exact .inr ⟨item, by simp [member, seen], rfl⟩

/-- A batch hands on addresses that have not been seen. The loop leaves out repetitions, the
messages do not, and the loop behind a failed send finds every address marked.
-/
theorem Remembers.enqueueBatch {now : Nat} {sends : Bool} {items : List FrontierItem}
    (remembers : system.Remembers)
    : ∃ added,
        (system.enqueueBatch api now sends items).outputs.Perm (system.outputs ++ added)
        ∧ system.Adds (.enqueueBatch now sends items) added := by
  unfold System.enqueueBatch
  split
  · rename_i disabled
    obtain ⟨added, same, distinct, fresh⟩ := @exists_outputs_keepUnseen system items
    refine ⟨added, .of_eq same, fun url member => (fresh url member).1,
      fun url member => (fresh url member).2, iff_of_true distinct ?_⟩
    cases sends with
    | true =>
        intro enabled
        exact absurd enabled disabled
    | false => trivial
  · rename_i enabled
    have sent := @Remembers.adds_unseen system now items remembers (not_not.mp enabled)
    have unsent : system.Adds (.enqueueBatch now false items) [] :=
      ⟨by simp, by simp, by simp [SendsDistinct]⟩
    dsimp only
    split
    · rename_i none_fresh
      rw [outputs_markSeen_foldl]
      cases sends with
      | true =>
          refine ⟨_, ?_, sent⟩
          rw [none_fresh, List.map_nil, List.append_nil]
      | false => exact ⟨[], by simp, unsent⟩
    · cases sends with
      | true =>
          refine ⟨_, outputs_deliver.trans ?_, sent⟩
          rw [outputs_markSeen_foldl]
      | false =>
          refine ⟨[], ?_, unsent⟩
          rw [if_neg Bool.false_ne_true, keepUnseen_of_seen (seen_of_marked items),
            outputs_markSeen_foldl, List.append_nil]

/-- A call whose addresses fit hands on what it adds, and forgets nothing. -/
theorem Remembers.serve {call : Call} (remembers : system.Remembers)
    (fits : system.Fits call.urls)
    : (∃ added,
        (system.serve api call).outputs.Perm (system.outputs ++ added)
        ∧ system.Adds call added)
      ∧ ∀ url,
          url ∈ (system.serve api call).queue.seen
            ↔ url ∈ system.queue.seen ∨ url ∈ call.urls := by
  cases call with
  | enqueue now sends item =>
      obtain ⟨adds, seen⟩ := @Remembers.enqueue api system now sends item remembers fits
      refine ⟨adds, fun url => (seen url).trans ?_⟩
      simp [Call.urls, or_comm]
  | enqueueBatch now sends items =>
      refine ⟨remembers.enqueueBatch, fun url => mem_seen_enqueueBatch.trans ?_⟩
      simp [Call.urls]
  | dequeue | init =>
      refine ⟨⟨[], ?_, by simp, by simp, by simp [SendsDistinct]⟩, fun url => ?_⟩
      · rw [List.append_nil]
        exact .refl system.outputs
      · simp [System.serve, dequeue, Call.urls]

/-- A call whose addresses fit keeps the queue's memory, and hands on each address once exactly
when it did so before and the call sends no batch with a repetition.
-/
theorem Remembers.step {call : Call} (remembers : system.Remembers)
    (fits : system.Fits call.urls)
    : (system.serve api call).Remembers
      ∧ ((system.serve api call).outputs.Nodup
          ↔ system.outputs.Nodup ∧ system.SendsDistinct call) := by
  obtain ⟨⟨added, same, adds⟩, seen⟩ := @Remembers.serve api system call remembers fits
  constructor
  · constructor
    · intro url
      rw [seen, remembers.seen]
      exact List.mem_append.symm
    · intro url member
      rcases List.mem_append.mp (same.subset member) with old | new
      · exact List.mem_append_left _ (remembers.outputs url old)
      · exact List.mem_append_right _ (adds.passed url new)
  · have apart : system.outputs.Disjoint added := fun url old new =>
      adds.unseen url new ((remembers.seen url).mpr (remembers.outputs url old))
    rw [same.nodup_iff, List.nodup_append', ← adds.distinct]
    exact ⟨fun ⟨old, new, _⟩ => ⟨old, new⟩, fun ⟨old, new⟩ => ⟨old, new, apart⟩⟩

/-- Some of the addresses that fit do so too. -/
theorem Fits.mono {urls fewer : List String} (fits : system.Fits urls) (among : fewer ⊆ urls)
    : system.Fits fewer := by
  refine Nat.le_trans ((List.nodup_dedup _).subperm fun url member => ?_).length_le fits
  rw [List.mem_dedup, List.mem_append] at member ⊢
  exact member.imp_right fun passed => among passed

/-- The addresses of a call that has been served count as passed in. -/
theorem Fits.serve {call : Call} {urls : List String} (fits : system.Fits (call.urls ++ urls))
    : (system.serve api call).Fits urls := by
  unfold Fits at fits ⊢
  rw [seenMax_serve]
  rwa [← List.append_assoc] at fits

/-- Along calls whose addresses fit, each address is handed on once exactly when no batch that is
sent holds a repetition, by induction on the calls.
-/
theorem Remembers.serveAll_iff {calls : List Call} (remembers : system.Remembers)
    (fits : system.Fits (calls.flatMap Call.urls))
    : (system.serveAll api calls).outputs.Nodup
      ↔ system.outputs.Nodup ∧ system.BatchesDistinct api calls := by
  induction calls generalizing system with
  | nil => simp [serveAll, BatchesDistinct]
  | cons call rest ih =>
      rw [List.flatMap_cons] at fits
      obtain ⟨kept, nodup_iff⟩ :=
        @Remembers.step api system call remembers (fits.mono (List.subset_append_left _ _))
      have later : (system.serveAll api (call :: rest)).outputs.Nodup
          ↔ (system.serve api call).outputs.Nodup
            ∧ (system.serve api call).BatchesDistinct api rest := ih kept fits.serve
      rw [later, nodup_iff, and_assoc]
      rfl

/-- While the calls mention no more addresses than the dedup set holds, each address is handed
on at most once if and only if no batch that an enabled queue sends holds an address twice that
no earlier call has passed in.
-/
theorem outputs_nodup_iff (api : UrlApi) (enabled : Bool) (calls : List Call)
    (few : (calls.flatMap Call.urls).dedup.length ≤ KafkaUrlQueue.create.seenMax)
    : ((initial enabled).serveAll api calls).outputs.Nodup
      ↔ (initial enabled).BatchesDistinct api calls := by
  have fits : (initial enabled).Fits (calls.flatMap Call.urls) := few
  have none_yet : (initial enabled).outputs.Nodup := List.nodup_nil
  rw [(remembers_initial enabled).serveAll_iff fits]
  exact and_iff_right none_yet

/-- A batch of two addresses, one of which is enqueued again. -/
theorem outputs_nodup_of_two
    : ((initial true).serveAll plainUrlApi [
          .enqueueBatch 0 true [⟨"https://a.example/", 0, none⟩, ⟨"https://b.example/", 0, none⟩],
          .enqueue 0 true ⟨"https://a.example/", 0, none⟩
        ]).outputs.Nodup := by
  refine (outputs_nodup_iff _ _ _ (by decide)).mpr ⟨fun _ => ?_, trivial, trivial⟩
  decide

/-- A batch that holds an address twice sends it twice. -/
theorem outputs_nodup_fails_for_repetition
    : ¬ ∀ (api : UrlApi) (enabled : Bool) (calls : List Call),
        (calls.flatMap Call.urls).dedup.length ≤ KafkaUrlQueue.create.seenMax →
          ((initial enabled).serveAll api calls).outputs.Nodup := by
  intro claim
  have once := claim plainUrlApi true
    [.enqueueBatch 0 true [⟨"https://a.example/", 0, none⟩, ⟨"https://a.example/", 1, none⟩]]
    (by decide)
  exact absurd once (by decide)

end System

end WebIndexer.Kafka
