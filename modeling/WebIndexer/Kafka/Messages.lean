import WebIndexer.Kafka.Consumer
import WebIndexer.Kafka.Duplicates
import WebIndexer.Library.Json
import WebIndexer.Library.Rounding

/-! The messages of the crawl topic, from `enqueue` and `enqueueBatch` to the rows of the frontier:
what `JSON.stringify` writes for an item is what `JSON.parse` gives the consumer.
-/

namespace WebIndexer.Kafka

open WebIndexer.Config
open WebIndexer.Library
open WebIndexer.Runtime
open WebIndexer.Store

/-- A parent, as it is written. -/
def parentValue : Option String → Library.Json ℤ
  | none => .null
  | some url => .text (stringUnits url)

/-- The object that `enqueue` and `enqueueBatch` pass to `JSON.stringify`. -/
def Message.document (message : Message) : Library.Json ℤ :=
  .object [
    (stringUnits "url", .text (stringUnits message.item.url)),
    (stringUnits "depth", .number message.item.depth),
    (stringUnits "parent", parentValue message.item.parent),
    (stringUnits "enqueuedAt", .number message.enqueuedAt)
  ]

/-- The message as the topic holds it. -/
def Message.posted (message : Message) : KafkaMessage where
  key := some message.key
  value := some (String.ofList (Library.Json.stringify message.document))

mutual

/-- The value of the script for one that has been read: numbers are rounded to doubles. -/
def ofDocument : Library.Json ℚ → Json
  | .null => .null
  | .bool value => .bool value
  | .number value => .number (double value)
  | .text units => .text (unitsString units)
  | .array items => .array (ofItems items)
  | .object fields => .object (ofFields fields)

def ofItems : List (Library.Json ℚ) → List Json
  | [] => []
  | item :: items => ofDocument item :: ofItems items

def ofFields : List (List UInt16 × Library.Json ℚ) → List (String × Json)
  | [] => []
  | (name, value) :: fields => (unitsString name, ofDocument value) :: ofFields fields

end

/-- `JSON.parse`. How it words the error for a text that is malformed is a parameter. -/
def jsonParse (explain : String → String) : Parser := fun text =>
  match Library.Json.parse text.toList with
  | some document => .ok (ofDocument document)
  | none => .error (explain text)

/-- The value of a parent in the script. -/
def parentOf : Option String → Json
  | none => .null
  | some url => .text url

/-- A driver stores texts, numbers that are integers, and `null` for a parent as they are. -/
def Driver.StoresItems (driver : Driver) : Prop :=
  ∀ item : FrontierItem,
    driver.row (some (.text item.url)) (.number item.depth) (parentOf item.parent) = some item

/-- The item that the consumer makes of a message: `msg.parent || null` takes an empty parent for
none.
-/
def consumed (item : FrontierItem) : FrontierItem :=
  { item with parent := item.parent.filter fun url => url ≠ "" }

/-- Numbers of the message that are written and read as they are. -/
structure Message.Exact (message : Message) : Prop where
  depth : |message.item.depth| < 2 ^ 53
  enqueuedAt : message.enqueuedAt < 2 ^ 53

variable {explain : String → String} {driver : Driver} {message : Message}

/-- An integer that a double has room for is read as it is. -/
theorem double_intCast {value : ℤ} (small : |value| < 2 ^ 53) : double (value : ℚ) = value :=
  roundTo_intCast small

/-- A parent is read as it is written. -/
theorem ofDocument_parentValue (parent : Option String)
    : ofDocument (Library.Json.widen (parentValue parent)) = parentOf parent := by
  cases parent with
  | none => rfl
  | some url => simp [parentValue, Library.Json.widen, ofDocument, parentOf]

/-- The value that the consumer reads of a message. -/
def Message.value (message : Message) : Json :=
  .object [
    ("url", .text message.item.url),
    ("depth", .number message.item.depth),
    ("parent", parentOf message.item.parent),
    ("enqueuedAt", .number message.enqueuedAt)
  ]

/-- The consumer reads the fields that the producer has written. -/
theorem readMessage_posted (exact : message.Exact)
    : readMessage (jsonParse explain) message.posted = .ok message.value := by
  have clock : |(message.enqueuedAt : ℤ)| < 2 ^ 53 := by
    rw [Nat.abs_cast]
    exact_mod_cast exact.enqueuedAt
  have depth := double_intCast exact.depth
  have enqueuedAt := double_intCast clock
  have parent := ofDocument_parentValue message.item.parent
  simp only [Int.cast_natCast] at enqueuedAt
  simp only [readMessage, Message.posted, jsonParse, String.toList_ofList,
    Library.Json.parse_stringify]
  simp only [Message.document, Message.value, Library.Json.widen, Library.Json.widenFields,
    ofDocument, ofFields, unitsString_stringUnits, depth, parent, Int.cast_natCast, enqueuedAt]

/-- The consumer takes the fields of a message for the item that it was sent for. -/
theorem messageRow_value (stores : driver.StoresItems) (message : Message)
    : driver.messageRow message.value = some (consumed message.item) := by
  have url : message.value.get? "url" = some (.text message.item.url) := rfl
  have depth : Json.orElse (message.value.get? "depth") (.number 0)
      = .number message.item.depth := by
    change (if Json.truthy (some (.number message.item.depth)) then _ else _) = _
    split
    · rfl
    · rename_i zero
      simp only [Json.truthy, decide_eq_true_eq, not_not] at zero
      rw [zero]
  have parent : Json.orElse (message.value.get? "parent") .null
      = parentOf (consumed message.item).parent := by
    change Json.orElse (some (parentOf message.item.parent)) .null = _
    cases same : message.item.parent with
    | none => simp [consumed, same, parentOf, Json.orElse, Json.truthy]
    | some parent =>
        by_cases empty : parent = ""
        · simp [consumed, same, parentOf, Json.orElse, Json.truthy, Option.filter, empty]
        · simp [consumed, same, parentOf, Json.orElse, Json.truthy, Option.filter, empty]
  rw [Driver.messageRow, url, depth, parent]
  exact stores (consumed message.item)

/-- The consumer handles a message without a record for the dead-letter topic, and queues the item
that it was sent for when the insertion succeeds.
-/
theorem eachMessage_posted (stores : driver.StoresItems) (exact : message.Exact) (inserts : Bool)
    (consumer : Consumer)
    : eachMessage (jsonParse explain) driver inserts consumer message.posted
      = (if inserts then
          consumer.store (consumer.tables.insertFrontier (consumed message.item))
        else
          consumer, .processed) := by
  rw [eachMessage_of_ok (readMessage_posted exact), Consumer.handle, messageRow_value stores]
  rfl

-----------------------------------------------------------------------------------------
-- What a queue sends
-----------------------------------------------------------------------------------------

namespace System

/-- The items that a call passes in. -/
def Call.items : Call → List FrontierItem
  | .enqueue _ _ item => [item]
  | .enqueueBatch _ _ items => items
  | .dequeue | .init _ => []

/-- The clock reading of a call. -/
def Call.now : Call → Nat
  | .enqueue now _ _ | .enqueueBatch now _ _ => now
  | .dequeue | .init _ => 0

/-- The numbers that a call puts into messages are written and read as they are. -/
structure Call.Exact (call : Call) : Prop where
  now : call.now < 2 ^ 53
  depths : ∀ item ∈ call.items, |item.depth| < 2 ^ 53

variable {api : UrlApi} {system : System} {calls : List Call}

/-- The messages are for items that have been passed in, with numbers that are read as they are.
-/
def Sends (items : List FrontierItem) (system : System) : Prop :=
  ∀ message ∈ system.sent, message.item ∈ items ∧ message.Exact

/-- Forgetting addresses sends nothing. -/
@[simp] theorem sent_evict : system.evict.sent = system.sent := by
  unfold evict
  split <;> rfl

/-- Nor does keeping items for later, by induction over them. -/
@[simp] theorem sent_keepUnseen (items : List FrontierItem)
    : (system.keepUnseen items).sent = system.sent := by
  induction items generalizing system with
  | nil => rfl
  | cons item rest ih =>
      unfold keepUnseen
      split
      · exact ih
      · exact ih

/-- Nor does marking addresses, by induction over them. -/
@[simp] theorem sent_markSeen_foldl (items : List FrontierItem)
    : (items.foldl (fun current item => current.markSeen item.url) system).sent
      = system.sent := by
  induction items generalizing system with
  | nil => rfl
  | cons item rest ih => exact ih

/-- `enqueue` sends a message for its item at most. -/
theorem sent_enqueue {now : Nat} {sends : Bool} {item : FrontierItem} {message : Message}
    (member : message ∈ (system.enqueue api now sends item).sent)
    : message ∈ system.sent ∨ message = Kafka.message api now item := by
  have marked : (system.markSeen item.url).evict.sent = system.sent := sent_evict
  simp only [enqueue] at member
  split at member
  · exact .inl member
  · split at member
    · exact .inl (marked ▸ member)
    · split at member
      · rcases List.mem_append.mp member with old | new
        · exact .inl (marked ▸ old)
        · exact .inr (List.mem_singleton.mp new)
      · exact .inl (marked ▸ member)

/-- `enqueueBatch` sends messages for its items at most. -/
theorem sent_enqueueBatch {now : Nat} {sends : Bool} {items : List FrontierItem}
    {message : Message} (member : message ∈ (system.enqueueBatch api now sends items).sent)
    : message ∈ system.sent ∨ ∃ item ∈ items, message = Kafka.message api now item := by
  simp only [enqueueBatch] at member
  split at member
  · exact .inl (sent_keepUnseen items ▸ member)
  · split at member
    · exact .inl (sent_markSeen_foldl _ ▸ member)
    · split at member
      · rcases List.mem_append.mp member with old | new
        · exact .inl (sent_markSeen_foldl _ ▸ old)
        · obtain ⟨item, listed, rfl⟩ := List.mem_map.mp new
          exact .inr ⟨item, List.mem_of_mem_filter listed, rfl⟩
      · rw [sent_keepUnseen, sent_markSeen_foldl] at member
        exact .inl member

/-- The messages that a call adds are for the items that it passes in. -/
theorem sent_serve (call : Call) {message : Message}
    (member : message ∈ (system.serve api call).sent)
    : message ∈ system.sent
      ∨ ∃ item ∈ call.items, message = Kafka.message api call.now item := by
  cases call with
  | enqueue now sends item =>
      rcases sent_enqueue member with old | same
      · exact .inl old
      · exact .inr ⟨item, List.mem_singleton.mpr rfl, same⟩
  | enqueueBatch now sends items => exact sent_enqueueBatch member
  | dequeue | init => exact .inl member

/-- Every message of a run is for an item that some call has passed in, by induction on the
calls.
-/
theorem sends_serveAll (exact : ∀ call ∈ calls, call.Exact) {items : List FrontierItem}
    (sends : system.Sends items)
    : (system.serveAll api calls).Sends (items ++ calls.flatMap Call.items) := by
  induction calls generalizing system items with
  | nil =>
      intro message member
      obtain ⟨listed, fits⟩ := sends message member
      exact ⟨List.mem_append_left _ listed, fits⟩
  | cons call rest ih =>
      have next : (system.serve api call).Sends (items ++ call.items) := by
        intro message member
        rcases sent_serve call member with old | ⟨item, listed, rfl⟩
        · obtain ⟨listed, fits⟩ := sends message old
          exact ⟨List.mem_append_left _ listed, fits⟩
        · have fits := exact call List.mem_cons_self
          exact ⟨List.mem_append_right _ listed, fits.depths item listed, fits.now⟩
      have later := ih (fun call member => exact call (List.mem_cons_of_mem _ member)) next
      rw [List.flatMap_cons, ← List.append_assoc]
      exact later

end System

-----------------------------------------------------------------------------------------
-- What the consumer makes of it
-----------------------------------------------------------------------------------------

/-- The consumer after some deliveries, each with whether its insertion succeeds. -/
def Consumer.consume (parse : Parser) (driver : Driver) (consumer : Consumer)
    (deliveries : List (Message × Bool))
    : Consumer :=
  deliveries.foldl
    (fun consumer delivery =>
      consumer.after parse driver (.deliver delivery.1.posted delivery.2))
    consumer

/-- The deliveries are handled one by one. -/
theorem Consumer.consume_cons (parse : Parser) (driver : Driver) (consumer : Consumer)
    (message : Message) (inserts : Bool) (rest : List (Message × Bool))
    : consumer.consume parse driver ((message, inserts) :: rest)
      = (consumer.after parse driver (.deliver message.posted inserts)).consume parse driver
          rest :=
  rfl

/-- The consumer after the delivery of a message. -/
theorem Consumer.after_posted (stores : driver.StoresItems) (exact : message.Exact)
    (inserts : Bool) (consumer : Consumer)
    : consumer.after (jsonParse explain) driver (.deliver message.posted inserts)
      = if inserts then
          consumer.store (consumer.tables.insertFrontier (consumed message.item))
        else
          consumer :=
  congrArg Prod.fst (eachMessage_posted stores exact inserts consumer)

/-- What the deliveries have brought: the dead-letter topic has got nothing, every address whose
insertion succeeded is queued, and every row is an old one or the item of a message.
-/
structure Consumer.Brought (before : Consumer) (deliveries : List (Message × Bool))
    (after : Consumer)
    : Prop where
  handed : after.handed = before.handed
  queued : ∀ delivery ∈ deliveries, delivery.2 = true →
    delivery.1.item.url ∈ after.tables.frontier.urls
  kept : ∀ url ∈ before.tables.frontier.urls, url ∈ after.tables.frontier.urls
  rows : ∀ row ∈ after.tables.frontier.rows,
    row ∈ before.tables.frontier.rows
    ∨ ∃ delivery ∈ deliveries, row.toFrontierItem = consumed delivery.1.item

/-- What the deliveries of exact messages have brought, by induction on them. -/
theorem Consumer.brought_consume (stores : driver.StoresItems)
    {deliveries : List (Message × Bool)} (exact : ∀ delivery ∈ deliveries, delivery.1.Exact)
    (consumer : Consumer)
    : consumer.Brought deliveries
        (consumer.consume (jsonParse explain) driver deliveries) := by
  induction deliveries generalizing consumer with
  | nil => exact ⟨rfl, nofun, fun _ listed => listed, fun _ member => .inl member⟩
  | cons delivery rest ih =>
      obtain ⟨message, inserts⟩ := delivery
      have rest_exact : ∀ other ∈ rest, other.1.Exact :=
        fun other member => exact other (List.mem_cons_of_mem _ member)
      have later := ih rest_exact
        (consumer.after (jsonParse explain) driver (.deliver message.posted inserts))
      have first := @Consumer.after_posted explain driver message stores
        (exact _ List.mem_cons_self) inserts consumer
      rw [consume_cons]
      generalize consumer.after (jsonParse explain) driver (.deliver message.posted inserts)
        = next at first later ⊢
      subst first
      cases inserts with
      | false =>
          refine ⟨later.handed, ?_, later.kept, fun row member => ?_⟩
          · intro other member succeeds
            rcases List.mem_cons.mp member with rfl | member
            · cases succeeds
            · exact later.queued other member succeeds
          · rcases later.rows row member with old | ⟨other, member, same⟩
            · exact .inl old
            · exact .inr ⟨other, List.mem_cons_of_mem _ member, same⟩
      | true =>
          refine ⟨later.handed, ?_, ?_, fun row member => ?_⟩
          · intro other member succeeds
            rcases List.mem_cons.mp member with rfl | member
            · exact later.kept _ (Frontier.mem_urls_insert_self ..)
            · exact later.queued other member succeeds
          · exact fun url listed => later.kept url (Frontier.mem_urls_insert listed)
          · rcases later.rows row member with old | ⟨other, member, same⟩
            · rcases Frontier.mem_rows_insert old with older | new
              · exact .inl older
              · exact .inr ⟨_, List.mem_cons_self, new⟩
            · exact .inr ⟨other, List.mem_cons_of_mem _ member, same⟩

/-- Whatever calls a queue has served, and whichever of its messages are delivered, in any order
and any number of times, with insertions that succeed or not: nothing gets to the dead-letter
topic, every address whose insertion succeeded is queued, and every new row is the item of a
call, with its depth and its parent.
-/
theorem items_arrive {api : Runtime.UrlApi} {enabled : Bool} {calls : List System.Call}
    {deliveries : List (Message × Bool)} {tables : Tables} (stores : driver.StoresItems)
    (exact : ∀ call ∈ calls, call.Exact)
    (sent : ∀ delivery ∈ deliveries,
      delivery.1 ∈ ((System.initial enabled).serveAll api calls).sent)
    : let after := (Consumer.start tables).consume (jsonParse explain) driver deliveries
      after.handed = []
      ∧ (∀ delivery ∈ deliveries, delivery.2 = true →
          delivery.1.item.url ∈ after.tables.frontier.urls)
      ∧ ∀ row ∈ after.tables.frontier.rows,
          row ∈ tables.frontier.rows
          ∨ ∃ item ∈ calls.flatMap System.Call.items, row.toFrontierItem = consumed item := by
  have nothing : (System.initial enabled).Sends [] := nofun
  have sends := @System.sends_serveAll api _ calls exact [] nothing
  have brought := @Consumer.brought_consume explain driver stores deliveries
    (fun delivery member => (sends _ (sent delivery member)).2) (Consumer.start tables)
  refine ⟨brought.handed, brought.queued, fun row member => ?_⟩
  rcases brought.rows row member with old | ⟨delivery, listed, same⟩
  · exact .inl old
  · exact .inr ⟨delivery.1.item, (sends _ (sent delivery listed)).1, same⟩

/-- The plain driver stores items as they are. -/
theorem plainDriver_storesItems : plainDriver.StoresItems := by
  rintro ⟨url, depth, _ | parent⟩ <;> simp [plainDriver, parentOf]

/-- A link with an empty parent. -/
def quotedLink : FrontierItem := ⟨"https://a.example/?q=\"x\"", 1, some ""⟩

/-- A message that is delivered twice brings one row. -/
theorem items_arrive_of_link
    : ∃ consumer : Consumer,
        consumer.handed = []
        ∧ "https://a.example/?q=\"x\"" ∈ consumer.tables.frontier.urls
        ∧ ∀ row ∈ consumer.tables.frontier.rows, row.toFrontierItem = consumed quotedLink := by
  let calls : List System.Call := [.enqueue 5 true quotedLink]
  let delivery : Message × Bool := (message plainUrlApi 5 quotedLink, true)
  have exact : ∀ call ∈ calls, System.Call.Exact call := by
    intro call member
    obtain rfl := List.mem_singleton.mp member
    refine ⟨by decide, fun item listed => ?_⟩
    obtain rfl := List.mem_singleton.mp listed
    decide
  have sent : ∀ given ∈ [delivery, delivery],
      given.1 ∈ ((System.initial true).serveAll plainUrlApi calls).sent := by
    intro given member
    rcases List.mem_pair.mp member with rfl | rfl <;> exact List.mem_singleton.mpr rfl
  obtain ⟨handed, queued, rows⟩ := @items_arrive (fun _ => "Unexpected token") plainDriver
    plainUrlApi true calls [delivery, delivery] .empty plainDriver_storesItems exact sent
  refine ⟨_, handed, queued delivery List.mem_cons_self rfl, fun row member => ?_⟩
  rcases rows row member with old | ⟨item, listed, same⟩
  · cases old
  · rw [same, List.mem_singleton.mp listed]

end WebIndexer.Kafka
