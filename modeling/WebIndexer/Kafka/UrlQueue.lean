import WebIndexer.Library.InsertionSet
import WebIndexer.Runtime.Url
import WebIndexer.Types

/-! The `KafkaUrlQueue` of `src/kafka.ts`, with the history of what it handed on. The outcome
of a call's `producer.send` is an input of the call.
-/

namespace WebIndexer.Kafka

open WebIndexer.Library
open WebIndexer.Runtime

/-- The fields of a `KafkaUrlQueue`. -/
structure KafkaUrlQueue where
  enabled : Bool
  localQueue : List FrontierItem
  seen : InsertionSet String
  seenMax : Nat

/-- The constructor. -/
def KafkaUrlQueue.create : KafkaUrlQueue where
  enabled := false
  localQueue := []
  seen := .empty
  seenMax := 100000

/-- A message to the crawl topic: the key, the fields of its JSON value, and the partition. -/
structure Message where
  key : String
  item : FrontierItem
  enqueuedAt : Nat
  partition : Nat

/-- The hash of a host name: `hash = (hash * 31 + charCodeAt(i)) | 0` for each code unit. -/
def domainHash (units : List Nat) : BitVec 32 :=
  units.foldl (fun hash unit => hash * 31 + BitVec.ofNat 32 unit) 0

/-- `_domainPartition`. -/
def domainPartition (api : UrlApi) (url : String) : Nat :=
  match api.parse url with
  | none => 0
  | some parsed => (domainHash (codeUnits parsed.hostname)).toInt.natAbs % 6

/-- The message that an item is sent as. -/
def message (api : UrlApi) (now : Nat) (item : FrontierItem) : Message where
  key := item.url
  item := item
  enqueuedAt := now
  partition := domainPartition api item.url

/-- A queue with the messages of its successful sends to the crawl topic, the items it has
appended to `localQueue`, and the addresses it was ever passed.
-/
structure System where
  queue : KafkaUrlQueue
  sent : List Message
  appended : List FrontierItem
  mentioned : List String

namespace System

/-- A new queue, in the mode that `init` left it in. -/
def initial (enabled : Bool) : System where
  queue := { KafkaUrlQueue.create with enabled := enabled }
  sent := []
  appended := []
  mentioned := []

/-- `this.localQueue.push(item)`. -/
def push (system : System) (item : FrontierItem) : System := {
  system with
  queue := { system.queue with localQueue := system.queue.localQueue ++ [item] }
  appended := system.appended ++ [item]
}

/-- `this.seen.add(url)`. -/
def markSeen (system : System) (url : String) : System :=
  { system with queue := { system.queue with seen := system.queue.seen.add url } }

/-- The eviction in `enqueue`: past `_seenMax` members, the older half is forgotten. The loop
counts up to half the limit, rounded up.
-/
def evict (system : System) : System :=
  if system.queue.seenMax < system.queue.seen.size then
    {
      system with
      queue := {
        system.queue with
        seen := system.queue.seen.dropOldest ((system.queue.seenMax + 1) / 2)
      }
    }
  else
    system

/-- `producer.send` with messages that it delivers. -/
def deliver (system : System) (messages : List Message) : System :=
  { system with sent := system.sent ++ messages }

/-- `enqueue`. -/
def enqueue (api : UrlApi) (now : Nat) (sends : Bool) (item : FrontierItem)
    (system : System)
    : System :=
  if item.url ∈ system.queue.seen then
    system
  else
    let marked := (system.markSeen item.url).evict
    if ¬ marked.queue.enabled then
      marked.push item
    else if sends then
      marked.deliver [message api now item]
    else
      marked.push item

/-- The loop that `enqueueBatch` runs when disabled, and again when its send failed. -/
def keepUnseen (system : System) : List FrontierItem → System
  | [] => system
  | item :: rest =>
      if item.url ∈ system.queue.seen then
        system.keepUnseen rest
      else
        ((system.markSeen item.url).push item).keepUnseen rest

/-- `enqueueBatch`. The filter runs over the whole batch before the first address is marked
as seen.
-/
def enqueueBatch (api : UrlApi) (now : Nat) (sends : Bool) (items : List FrontierItem)
    (system : System)
    : System :=
  if ¬ system.queue.enabled then
    system.keepUnseen items
  else
    let fresh := items.filter fun item => item.url ∉ system.queue.seen
    let marked := fresh.foldl (fun current item => current.markSeen item.url) system
    if fresh = [] then
      marked
    else if sends then
      marked.deliver (fresh.map (message api now))
    else
      marked.keepUnseen items

/-- `dequeue`: the queue without its head, which is returned. -/
def dequeue (system : System) : System × Option FrontierItem :=
  ({
      system with
      queue := { system.queue with localQueue := system.queue.localQueue.tail }
    },
    system.queue.localQueue.head?)

/-- A use of the queue, with the clock reading and the outcome of its send if it makes one. -/
inductive Call where
  | enqueue (now : Nat) (sends : Bool) (item : FrontierItem)
  | enqueueBatch (now : Nat) (sends : Bool) (items : List FrontierItem)
  | dequeue
  | init (connected : Bool)

/-- The addresses that a call passes in. -/
def Call.urls : Call → List String
  | .enqueue _ _ item => [item.url]
  | .enqueueBatch _ _ items => items.map FrontierItem.url
  | .dequeue | .init _ => []

/-- The queue when a call has returned; `init` connects the producer and sets the mode. -/
def serve (api : UrlApi) (system : System) (call : Call) : System :=
  let served :=
    match call with
    | .enqueue now sends item => system.enqueue api now sends item
    | .enqueueBatch now sends items => system.enqueueBatch api now sends items
    | .dequeue => system.dequeue.1
    | .init connected => { system with queue := { system.queue with enabled := connected } }
  { served with mentioned := system.mentioned ++ call.urls }

variable {api : UrlApi} {system : System}

/-- No operation moves the limit of the dedup set. -/
@[simp] theorem seenMax_evict : system.evict.queue.seenMax = system.queue.seenMax := by
  unfold evict
  split <;> rfl

@[simp] theorem seenMax_keepUnseen (items : List FrontierItem)
    : (system.keepUnseen items).queue.seenMax = system.queue.seenMax := by
  induction items generalizing system with
  | nil => rfl
  | cons item rest ih =>
      unfold keepUnseen
      split
      · exact ih
      · exact ih

@[simp] theorem seenMax_markSeen_foldl (items : List FrontierItem)
    : (items.foldl (fun current item => current.markSeen item.url) system).queue.seenMax
      = system.queue.seenMax := by
  induction items generalizing system with
  | nil => rfl
  | cons item rest ih => exact ih

/-- Nor does a call. -/
@[simp] theorem seenMax_serve (call : Call)
    : (system.serve api call).queue.seenMax = system.queue.seenMax := by
  cases call with
  | enqueue now sends item =>
      simp only [serve, enqueue]
      split
      · rfl
      · split
        · exact seenMax_evict
        · split <;> exact seenMax_evict
  | enqueueBatch now sends items =>
      simp only [serve, enqueueBatch]
      split
      · exact seenMax_keepUnseen items
      · split
        · exact seenMax_markSeen_foldl _
        · split
          · exact seenMax_markSeen_foldl _
          · exact (seenMax_keepUnseen items).trans (seenMax_markSeen_foldl _)
  | dequeue | init => rfl

end System

end WebIndexer.Kafka
