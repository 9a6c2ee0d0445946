import WebIndexer.Kafka.UrlQueue
import Mathlib.Tactic.Tauto

/-! Which addresses the queue keeps. Every address that is not seen yet is sent or appended to
`localQueue`, except by the fallback of a batch whose send fails: it skips the addresses
that the batch itself has just marked as seen.
-/

namespace WebIndexer.Kafka

open WebIndexer.Library
open WebIndexer.Runtime

namespace System

variable {api : UrlApi} {system : System}

/-- The address was part of a successful send, or was appended to `localQueue`. -/
def Delivered (system : System) (url : String) : Prop :=
  (∃ message ∈ system.sent, message.item.url = url)
  ∨ ∃ item ∈ system.appended, item.url = url

-----------------------------------------------------------------------------------------
-- What each operation delivers and marks as seen
-----------------------------------------------------------------------------------------

/-- Pushing an item delivers its address. -/
@[simp] theorem delivered_push {item : FrontierItem} {url : String}
    : (system.push item).Delivered url ↔ system.Delivered url ∨ item.url = url := by
  simp [Delivered, push, or_and_right, exists_or, or_assoc]

/-- A successful send delivers the addresses of its messages. -/
@[simp] theorem delivered_deliver {messages : List Message} {url : String}
    : (system.deliver messages).Delivered url
      ↔ system.Delivered url ∨ ∃ message ∈ messages, message.item.url = url := by
  simp only [Delivered, deliver, List.mem_append, or_and_right, exists_or]
  exact or_right_comm

/-- The addresses of the messages of a list of items are those of the items. -/
theorem exists_message_iff {now : Nat} {items : List FrontierItem} {url : String}
    : (∃ posted ∈ items.map (message api now), posted.item.url = url)
      ↔ ∃ item ∈ items, item.url = url := by
  constructor
  · rintro ⟨_, member, rfl⟩
    obtain ⟨item, original, rfl⟩ := List.mem_map.mp member
    exact ⟨item, original, rfl⟩
  · rintro ⟨item, member, rfl⟩
    exact ⟨message api now item, List.mem_map_of_mem member, rfl⟩

/-- Marking an address as seen delivers nothing. -/
@[simp] theorem delivered_markSeen {address url : String}
    : (system.markSeen address).Delivered url ↔ system.Delivered url :=
  Iff.rfl

@[simp] theorem mem_seen_markSeen {address url : String}
    : url ∈ (system.markSeen address).queue.seen
      ↔ url = address ∨ url ∈ system.queue.seen :=
  InsertionSet.mem_add

@[simp] theorem seen_push {item : FrontierItem}
    : (system.push item).queue.seen = system.queue.seen :=
  rfl

/-- Evicting delivers nothing. -/
@[simp] theorem delivered_evict {url : String}
    : system.evict.Delivered url ↔ system.Delivered url := by
  unfold evict
  split <;> rfl

/-- Evicting marks nothing as seen. -/
theorem mem_seen_of_evict {url : String} (member : url ∈ system.evict.queue.seen)
    : url ∈ system.queue.seen := by
  unfold evict at member
  split at member
  · exact InsertionSet.mem_of_mem_dropOldest member
  · exact member

/-- `enqueue` delivers an address unless it has been seen. -/
theorem delivered_enqueue {now : Nat} {sends : Bool} {item : FrontierItem} {url : String}
    : (system.enqueue api now sends item).Delivered url
      ↔ system.Delivered url ∨ (item.url ∉ system.queue.seen ∧ item.url = url) := by
  unfold enqueue
  split
  · rename_i seen
    simp [seen]
  · rename_i unseen
    dsimp only
    split
    · simp [unseen]
    · split
      · simp [unseen, message]
      · simp [unseen]

/-- `enqueue` marks no other address as seen. -/
theorem mem_seen_of_enqueue {now : Nat} {sends : Bool} {item : FrontierItem} {url : String}
    (member : url ∈ (system.enqueue api now sends item).queue.seen)
    : url = item.url ∨ url ∈ system.queue.seen := by
  have marked {current : System}
      (kept : current.queue.seen = (system.markSeen item.url).evict.queue.seen)
      (member : url ∈ current.queue.seen)
      : url = item.url ∨ url ∈ system.queue.seen := by
    rw [kept] at member
    exact mem_seen_markSeen.mp (mem_seen_of_evict member)
  unfold enqueue at member
  split at member
  · exact .inr member
  · dsimp only at member
    split at member
    · exact marked rfl member
    · split at member
      · exact marked rfl member
      · exact marked rfl member

/-- The loop over unseen items delivers exactly these, and marks all items as seen, by
induction on the items.
-/
theorem keepUnseen_spec (items : List FrontierItem) {url : String}
    : ((system.keepUnseen items).Delivered url
        ↔ system.Delivered url
          ∨ (url ∉ system.queue.seen ∧ ∃ item ∈ items, item.url = url))
      ∧ (url ∈ (system.keepUnseen items).queue.seen
          ↔ url ∈ system.queue.seen ∨ ∃ item ∈ items, item.url = url) := by
  induction items generalizing system with
  | nil => simp [keepUnseen]
  | cons item rest ih =>
      unfold keepUnseen
      split
      · rename_i seen
        rw [ih.1, ih.2]
        by_cases same : item.url = url
        · subst same
          simp [seen]
        · simp [same]
      · rename_i unseen
        rw [ih.1, ih.2]
        by_cases same : item.url = url
        · subst same
          simp [unseen]
        · simp [same, Ne.symm same]

/-- Marking a list of addresses delivers nothing and marks these, by induction on the list.
-/
theorem markSeen_foldl_spec (items : List FrontierItem) {url : String}
    : ((items.foldl (fun current item => current.markSeen item.url) system).Delivered url
        ↔ system.Delivered url)
      ∧ (url ∈ (items.foldl (fun current item => current.markSeen item.url) system).queue.seen
          ↔ url ∈ system.queue.seen ∨ ∃ item ∈ items, item.url = url) := by
  induction items generalizing system with
  | nil => simp
  | cons item rest ih =>
      refine ⟨ih.1.trans delivered_markSeen, ih.2.trans ?_⟩
      rw [mem_seen_markSeen]
      simp only [List.mem_cons, exists_eq_or_imp, @eq_comm _ item.url url]
      tauto

/-- A batch marks all of its addresses as seen, on every path. -/
theorem mem_seen_enqueueBatch {now : Nat} {sends : Bool} {items : List FrontierItem}
    {url : String}
    : url ∈ (system.enqueueBatch api now sends items).queue.seen
      ↔ url ∈ system.queue.seen ∨ ∃ item ∈ items, item.url = url := by
  have filtered
      : (url ∈ system.queue.seen
          ∨ ∃ item ∈ items.filter (fun item => item.url ∉ system.queue.seen), item.url = url)
        ↔ url ∈ system.queue.seen ∨ ∃ item ∈ items, item.url = url := by
    by_cases seen : url ∈ system.queue.seen
    · simp [seen]
    · simp only [seen, false_or, List.mem_filter, decide_eq_true_eq]
      constructor
      · rintro ⟨item, ⟨member, _⟩, rfl⟩
        exact ⟨item, member, rfl⟩
      · rintro ⟨item, member, rfl⟩
        exact ⟨item, ⟨member, seen⟩, rfl⟩
  unfold enqueueBatch
  split
  · exact (keepUnseen_spec items).2
  · dsimp only
    split
    · exact (markSeen_foldl_spec _).2.trans filtered
    · split
      · exact (markSeen_foldl_spec _).2.trans filtered
      · rw [(keepUnseen_spec items).2, (markSeen_foldl_spec _).2, filtered]
        tauto

/-- A batch delivers its unseen addresses, unless it is sent and the send fails: then it
delivers nothing, since the fallback finds every address marked.
-/
theorem delivered_enqueueBatch {now : Nat} {sends : Bool} {items : List FrontierItem}
    {url : String}
    : (system.enqueueBatch api now sends items).Delivered url
      ↔ system.Delivered url
        ∨ ((system.queue.enabled = false ∨ sends = true)
          ∧ url ∉ system.queue.seen
          ∧ ∃ item ∈ items, item.url = url) := by
  have filtered {item : FrontierItem}
      : item ∈ items.filter (fun item => item.url ∉ system.queue.seen)
        ↔ item ∈ items ∧ item.url ∉ system.queue.seen := by
    simp
  unfold enqueueBatch
  cases mode : system.queue.enabled with
  | false => simpa using (keepUnseen_spec items).1
  | true =>
      simp only [not_true_eq_false, if_false, Bool.true_eq_false, false_or]
      split
      · rename_i none
        rw [(markSeen_foldl_spec _).1]
        refine ⟨.inl, ?_⟩
        rintro (delivered | ⟨_, unseen, item, member, rfl⟩)
        · exact delivered
        · have fresh := filtered.mpr ⟨member, unseen⟩
          rw [none] at fresh
          cases fresh
      · cases sends with
        | true =>
            simp only [if_true, delivered_deliver, (markSeen_foldl_spec _).1, true_and,
              exists_message_iff, filtered]
            refine or_congr_right ⟨?_, ?_⟩
            · rintro ⟨item, ⟨member, unseen⟩, rfl⟩
              exact ⟨unseen, item, member, rfl⟩
            · rintro ⟨unseen, item, member, rfl⟩
              exact ⟨item, ⟨member, unseen⟩, rfl⟩
        | false =>
            simp only [Bool.false_eq_true, if_false, false_and, or_false]
            rw [(keepUnseen_spec items).1, (markSeen_foldl_spec _).1]
            refine ⟨?_, .inl⟩
            rintro (delivered | ⟨unmarked, item, member, rfl⟩)
            · exact delivered
            · rw [(markSeen_foldl_spec _).2, not_or] at unmarked
              exact absurd ⟨item, filtered.mpr ⟨member, unmarked.1⟩, rfl⟩ unmarked.2

-----------------------------------------------------------------------------------------
-- The addresses of a sequence of calls
-----------------------------------------------------------------------------------------

/-- Each address that one of the calls passes in has been delivered when that call returns.
-/
def KeepsUrls (api : UrlApi) (system : System) : List Call → Prop
  | [] => True
  | call :: rest =>
      (∀ url ∈ call.urls, (system.serve api call).Delivered url)
      ∧ KeepsUrls api (system.serve api call) rest

/-- The call is not a batch whose send fails while it holds an address that no earlier call
has passed in.
-/
def BatchIsKnown (system : System) : Call → Prop
  | .enqueueBatch _ false items =>
      system.queue.enabled = true → ∀ item ∈ items, item.url ∈ system.mentioned
  | _ => True

/-- Every failing batch among the calls holds only addresses passed in before. -/
def FailsOnKnownOnly (api : UrlApi) (system : System) : List Call → Prop
  | [] => True
  | call :: rest =>
      system.BatchIsKnown call ∧ FailsOnKnownOnly api (system.serve api call) rest

/-- Seen addresses have been passed in, and these are the delivered ones. -/
structure Accounted (system : System) : Prop where
  seen : ∀ url ∈ system.queue.seen, url ∈ system.mentioned
  delivered : ∀ url, system.Delivered url ↔ url ∈ system.mentioned

/-- A new queue has neither seen nor delivered anything. -/
theorem accounted_initial (enabled : Bool) : (initial enabled).Accounted where
  seen := by simp [initial, KafkaUrlQueue.create]
  delivered := by simp [initial, Delivered]

/-- Serving a single address delivers it unless it has been seen. -/
theorem delivered_serve_enqueue {now : Nat} {sends : Bool} {item : FrontierItem}
    {url : String}
    : (system.serve api (.enqueue now sends item)).Delivered url
      ↔ system.Delivered url ∨ (item.url ∉ system.queue.seen ∧ item.url = url) :=
  delivered_enqueue

/-- Serving a batch delivers its unseen addresses, unless its send fails. -/
theorem delivered_serve_enqueueBatch {now : Nat} {sends : Bool} {items : List FrontierItem}
    {url : String}
    : (system.serve api (.enqueueBatch now sends items)).Delivered url
      ↔ system.Delivered url
        ∨ ((system.queue.enabled = false ∨ sends = true)
          ∧ url ∉ system.queue.seen
          ∧ ∃ item ∈ items, item.url = url) :=
  delivered_enqueueBatch

/-- From an accounted queue, a call delivers its addresses exactly when it is not a failing
batch with a new address.
-/
theorem Accounted.delivers_iff (accounted : system.Accounted) (call : Call)
    : (∀ url ∈ call.urls, (system.serve api call).Delivered url)
      ↔ system.BatchIsKnown call := by
  have ofSeen {url} (seen : url ∈ system.queue.seen) : system.Delivered url :=
    (accounted.delivered url).mpr (accounted.seen url seen)
  cases call with
  | dequeue | init => simp [Call.urls, BatchIsKnown]
  | enqueue now sends item =>
      simp only [Call.urls, List.mem_singleton, forall_eq, BatchIsKnown, iff_true,
        delivered_serve_enqueue, and_true]
      by_cases seen : item.url ∈ system.queue.seen
      · exact .inl (ofSeen seen)
      · exact .inr seen
  | enqueueBatch now sends items =>
      have each {item : FrontierItem} (member : item ∈ items)
          (keeps : system.queue.enabled = false ∨ sends = true)
          : (system.serve api (.enqueueBatch now sends items)).Delivered item.url := by
        rw [delivered_serve_enqueueBatch]
        by_cases seen : item.url ∈ system.queue.seen
        · exact .inl (ofSeen seen)
        · exact .inr ⟨keeps, seen, item, member, rfl⟩
      cases sends with
      | true =>
          simp only [BatchIsKnown, iff_true, Call.urls, List.forall_mem_map]
          exact fun item member => each member (.inr rfl)
      | false =>
          simp only [BatchIsKnown, Call.urls, List.forall_mem_map]
          cases mode : system.queue.enabled with
          | false => simpa using fun item member => each member (.inl mode)
          | true =>
              simp only [delivered_serve_enqueueBatch, mode, Bool.true_eq_false,
                Bool.false_eq_true, or_self, false_and, or_false, accounted.delivered,
                forall_const]

/-- A call that delivers its addresses keeps the queue accounted. -/
theorem Accounted.serve (accounted : system.Accounted) {call : Call}
    (delivers : ∀ url ∈ call.urls, (system.serve api call).Delivered url)
    : (system.serve api call).Accounted := by
  have mentioned {url : String}
      : url ∈ (system.serve api call).mentioned
        ↔ url ∈ system.mentioned ∨ url ∈ call.urls :=
    List.mem_append
  constructor
  · intro url seen
    rw [mentioned]
    cases call with
    | dequeue | init => exact .inl (accounted.seen url seen)
    | enqueue now sends item =>
        rcases mem_seen_of_enqueue seen with rfl | earlier
        · exact .inr (List.mem_singleton_self _)
        · exact .inl (accounted.seen url earlier)
    | enqueueBatch now sends items =>
        rcases mem_seen_enqueueBatch.mp seen with earlier | ⟨item, member, rfl⟩
        · exact .inl (accounted.seen url earlier)
        · exact .inr (List.mem_map_of_mem member)
  · intro url
    rw [mentioned]
    constructor
    · intro delivered
      cases call with
      | dequeue | init => exact .inl ((accounted.delivered url).mp delivered)
      | enqueue now sends item =>
          rcases delivered_serve_enqueue.mp delivered with earlier | ⟨_, rfl⟩
          · exact .inl ((accounted.delivered url).mp earlier)
          · exact .inr (List.mem_singleton_self _)
      | enqueueBatch now sends items =>
          rcases delivered_serve_enqueueBatch.mp delivered with
            earlier | ⟨_, _, item, member, rfl⟩
          · exact .inl ((accounted.delivered url).mp earlier)
          · exact .inr (List.mem_map_of_mem member)
    · rintro (earlier | passed)
      · have delivered := (accounted.delivered url).mpr earlier
        cases call with
        | dequeue | init => exact delivered
        | enqueue => exact delivered_serve_enqueue.mpr (.inl delivered)
        | enqueueBatch => exact delivered_serve_enqueueBatch.mpr (.inl delivered)
      · exact delivers url passed

/-- Along any calls from an accounted queue, the addresses are kept exactly when failing
batches hold known addresses only, by induction on the calls.
-/
theorem Accounted.keeps_iff (accounted : system.Accounted) (calls : List Call)
    : system.KeepsUrls api calls ↔ system.FailsOnKnownOnly api calls := by
  induction calls generalizing system with
  | nil => rfl
  | cons call rest ih =>
      unfold KeepsUrls FailsOnKnownOnly
      rw [← accounted.delivers_iff call]
      exact and_congr_right fun delivers => ih (accounted.serve delivers)

/-- The queue drops no address along a sequence of calls exactly when no `enqueueBatch` on
an enabled queue fails its send while it holds an address that no earlier call passed in.
-/
theorem keepsUrls_iff (api : UrlApi) (enabled : Bool) (calls : List Call)
    : (initial enabled).KeepsUrls api calls
      ↔ (initial enabled).FailsOnKnownOnly api calls :=
  (accounted_initial enabled).keeps_iff calls

/-- A batch of one new address whose send fails is lost: it is neither sent nor appended. -/
theorem keepsUrls_fails_for_batch
    : ¬ ∀ (api : UrlApi) (enabled : Bool) (calls : List Call),
        (initial enabled).KeepsUrls api calls := by
  intro claim
  have keeps := (claim plainUrlApi true
    [.enqueueBatch 0 false [⟨"https://a.example/", 0, none⟩]]).1
      "https://a.example/" (by decide)
  rw [delivered_serve_enqueueBatch] at keeps
  simp [initial, Delivered] at keeps

end System

end WebIndexer.Kafka
