import WebIndexer.Store.Effects

/-! `consumeMessages` of `src/kafka.ts`, with the handler that `startKafkaConsumer` of
`src/queue.ts` installs. What `JSON.parse` makes of a text and how the database driver takes the
values of a message are parameters; whether an insertion fails is an input of each delivery.
-/

namespace WebIndexer.Kafka

open WebIndexer.Config
open WebIndexer.Store

/-- The values that `JSON.parse` returns. -/
inductive Json where
  | null
  | bool (value : Bool)
  | number (value : Rat)
  | text (value : String)
  | array (items : List Json)
  | object (fields : List (String × Json))

namespace Json

/-- A property read, with `none` for `undefined`; of equal names the last one counts. Reading a
property of `null` throws, and is not a case of this function.
-/
def get? : Json → String → Option Json
  | .object fields, name => fields.reverse.lookup name
  | _, _ => none

/-- Whether `||` keeps its left operand. -/
def truthy : Option Json → Bool
  | none | some .null => false
  | some (.bool value) => value
  | some (.number value) => value ≠ 0
  | some (.text value) => value ≠ ""
  | some (.array _) | some (.object _) => true

/-- `value || fallback`. -/
def orElse (value : Option Json) (fallback : Json) : Json :=
  match value with
  | some present => if truthy (some present) then present else fallback
  | none => fallback

/-- Whether a value is `null`. -/
def isNull : Json → Bool
  | .null => true
  | _ => false

end Json

/-- `JSON.parse`, with the message of its error where it throws. -/
abbrev Parser := String → Except String Json

/-- How the driver takes the arguments of `insertFrontier`: the text that it stores for a `url`,
and the row for all three; nothing where it refuses a value.
-/
structure Driver where
  urlText : Option Json → Option String
  row : Option Json → Json → Json → Option FrontierItem
  urlText_row
    : ∀ {url depth parent item}, row url depth parent = some item → urlText url = some item.url

/-- `KafkaMessage`, as far as the consumer reads it: the texts of the buffers. -/
structure KafkaMessage where
  key : Option String
  value : Option String
  deriving DecidableEq, Repr

/-- The arguments of a call of `sendToDlq`. -/
structure DlqRecord where
  url : String
  error : String
  deriving DecidableEq, Repr

/-- The tables, with all addresses that have been in `frontier` so far and the records that have
been handed to `sendToDlq`.
-/
structure Consumer where
  tables : Tables
  queued : List String
  handed : List DlqRecord

/-- How the handling of a message ends. -/
inductive Fate where
  | processed
  | threw (error : String)
  deriving DecidableEq, Repr

/-- The message of the error when a property of `null` is read. -/
def nullRead (name : String) : String :=
  "Cannot read properties of null (reading '" ++ name ++ "')"

/-- The row that the handler's arguments for `insertFrontier` make of a message. -/
def Driver.messageRow (driver : Driver) (msg : Json) : Option FrontierItem :=
  driver.row (msg.get? "url") (.orElse (msg.get? "depth") (.number 0))
    (.orElse (msg.get? "parent") .null)

namespace Consumer

/-- A consumer on the given tables. -/
def start (tables : Tables) : Consumer := ⟨tables, tables.frontier.urls, []⟩

/-- The tables have changed. -/
def store (consumer : Consumer) (tables : Tables) : Consumer := {
  consumer with
  tables := tables
  queued := consumer.queued ++ tables.frontier.urls
}

/-- `sendToDlq`. -/
def sendToDlq (consumer : Consumer) (url error : String) : Consumer :=
  { consumer with handed := consumer.handed ++ [⟨url, error⟩] }

/-- The handler of `startKafkaConsumer`. Its `catch` swallows every error: a property read of
`null`, values that the driver refuses, and an insertion that fails.
-/
def handle (driver : Driver) (inserts : Bool) (consumer : Consumer) (msg : Json) : Consumer :=
  if msg.isNull then
    consumer
  else
    match driver.messageRow msg with
    | some item =>
        if inserts then
          consumer.store (consumer.tables.insertFrontier item)
        else
          consumer
    | none => consumer

end Consumer

/-- `JSON.parse(message.value!.toString())`. -/
def readMessage (parse : Parser) (message : KafkaMessage) : Except String Json :=
  match message.value with
  | some text => parse text
  | none => .error (nullRead "toString")

/-- `eachMessage` of `consumeMessages`. The `catch` reads the key, which may be missing. -/
def eachMessage (parse : Parser) (driver : Driver) (inserts : Bool) (consumer : Consumer)
    (message : KafkaMessage)
    : Consumer × Fate :=
  match readMessage parse message with
  | .ok data => (consumer.handle driver inserts data, .processed)
  | .error error =>
      match message.key with
      | some key => (consumer.sendToDlq key error, .processed)
      | none => (consumer, .threw (nullRead "toString"))

/-- What happens next: a message is delivered, whose insertion fails or not if it makes one, or
something else changes the tables.
-/
inductive Event where
  | deliver (message : KafkaMessage) (inserts : Bool)
  | others (tables : Tables)

/-- The consumer after an event. -/
def Consumer.after (parse : Parser) (driver : Driver) (consumer : Consumer) : Event → Consumer
  | .deliver message inserts => (eachMessage parse driver inserts consumer message).1
  | .others tables => consumer.store tables

-----------------------------------------------------------------------------------------
-- Messages that do not disappear
-----------------------------------------------------------------------------------------

/-- The address of a message, as the driver would store it. -/
def messageUrl (parse : Parser) (driver : Driver) (message : KafkaMessage) : Option String :=
  match readMessage parse message with
  | .ok data => if data.isNull then none else driver.urlText (data.get? "url")
  | .error _ => none

/-- The message is not lost: its address is or was in `frontier`, or its handling has handed a
record under its key to `sendToDlq`.
-/
def Keeps (parse : Parser) (driver : Driver) (before after : Consumer) (message : KafkaMessage)
    : Prop :=
  (∃ url, messageUrl parse driver message = some url ∧ url ∈ after.queued)
  ∨ ∃ record, message.key = some record.url ∧ after.handed = before.handed ++ [record]

/-- The value of the message is missing or malformed, or it is not `null` and its insertion
succeeds, or its address was in `frontier` before.
-/
def Survives (parse : Parser) (driver : Driver) (before : Consumer) (message : KafkaMessage)
    (inserts : Bool)
    : Prop :=
  match readMessage parse message with
  | .error _ => True
  | .ok data =>
      data.isNull = false
      ∧ (inserts = true ∧ (driver.messageRow data).isSome = true
        ∨ ∃ url, driver.urlText (data.get? "url") = some url ∧ url ∈ before.queued)

section Run

variable (parse : Parser) (driver : Driver)

/-- A message that is processed without throwing is kept. -/
def KeepsEvent (consumer : Consumer) : Event → Prop
  | .deliver message inserts =>
      let handled := eachMessage parse driver inserts consumer message
      handled.2 = .processed → Keeps parse driver consumer handled.1 message
  | .others _ => True

/-- A message that is processed without throwing survives its handling. -/
def SurvivesEvent (consumer : Consumer) : Event → Prop
  | .deliver message inserts =>
      let handled := eachMessage parse driver inserts consumer message
      handled.2 = .processed → Survives parse driver consumer message inserts
  | .others _ => True

/-- Every event along the way meets a condition on the consumer that it finds. -/
def Throughout (met : Consumer → Event → Prop) : Consumer → List Event → Prop
  | _, [] => True
  | consumer, event :: rest =>
      met consumer event ∧ Throughout met (consumer.after parse driver event) rest

variable {parse : Parser} {driver : Driver} {consumer : Consumer}

/-- An insertion puts its address in `frontier`, or finds it there. -/
theorem mem_queued_store (consumer : Consumer) (item : FrontierItem)
    : item.url ∈ (consumer.store (consumer.tables.insertFrontier item)).queued :=
  List.mem_append_right _ (Frontier.mem_urls_insert_self consumer.tables.frontier item)

/-- A consumer that hands on no record hands on none for the message. -/
theorem keeps_self_iff {message : KafkaMessage}
    : Keeps parse driver consumer consumer message
      ↔ ∃ url, messageUrl parse driver message = some url ∧ url ∈ consumer.queued := by
  simp [Keeps]

variable {message : KafkaMessage} {data : Json} {inserts : Bool}

/-- The handler is given every value that can be read. -/
theorem eachMessage_of_ok (read : readMessage parse message = .ok data)
    : eachMessage parse driver inserts consumer message
      = (consumer.handle driver inserts data, .processed) := by
  simp [eachMessage, read]

/-- What the handler does: it stores the row of a message, or nothing has happened. -/
theorem handle_cases (driver : Driver) (inserts : Bool) (consumer : Consumer) (data : Json)
    : (∃ item,
        data.isNull = false ∧ inserts = true ∧ driver.messageRow data = some item
        ∧ consumer.handle driver inserts data
          = consumer.store (consumer.tables.insertFrontier item))
      ∨ ((data.isNull = true ∨ inserts = false ∨ driver.messageRow data = none)
        ∧ consumer.handle driver inserts data = consumer) := by
  unfold Consumer.handle
  cases null : data.isNull <;> cases inserts <;> cases row : driver.messageRow data <;> simp

/-- The address of a message is that of its row. -/
theorem messageUrl_of_row {item : FrontierItem} (read : readMessage parse message = .ok data)
    (present : data.isNull = false) (row : driver.messageRow data = some item)
    : messageUrl parse driver message = some item.url := by
  simp [messageUrl, read, present, driver.urlText_row row]

/-- A message that the handler is given is kept exactly when it survives. -/
theorem keeps_handle_iff (read : readMessage parse message = .ok data)
    : Keeps parse driver consumer (consumer.handle driver inserts data) message
      ↔ Survives parse driver consumer message inserts := by
  unfold Survives
  rw [read]
  rcases handle_cases driver inserts consumer data with
    ⟨item, present, inserted, row, same⟩ | ⟨reason, same⟩
  · rw [same]
    have url := messageUrl_of_row read present row
    have queued := mem_queued_store consumer item
    exact iff_of_true (.inl ⟨_, url, queued⟩)
      ⟨present, .inl ⟨inserted, by rw [row, Option.isSome_some]⟩⟩
  · -- nothing was stored and nothing handed on, so only an earlier row can save the message
    rw [same, keeps_self_iff]
    cases null : data.isNull with
    | true => simp [messageUrl, read, null]
    | false =>
        have failed : ¬ (inserts = true ∧ (driver.messageRow data).isSome = true) := by
          rintro ⟨inserted, accepted⟩
          simp_all
        simp [messageUrl, read, null, failed]

/-- A processed message is kept exactly when it survives: the handler never throws, so only a
value that cannot be read gets to the dead-letter topic.
-/
theorem keepsEvent_iff (event : Event)
    : KeepsEvent parse driver consumer event
      ↔ SurvivesEvent parse driver consumer event := by
  cases event with
  | others tables => rfl
  | deliver message inserts =>
      simp only [KeepsEvent, SurvivesEvent]
      cases read : readMessage parse message with
      | ok data =>
          rw [eachMessage_of_ok read]
          exact imp_congr_right fun _ => keeps_handle_iff read
      | error error =>
          have survives : Survives parse driver consumer message inserts := by
            simp [Survives, read]
          simp only [eachMessage, read]
          cases named : message.key with
          | none => simp
          | some key =>
              have handed : Keeps parse driver consumer (consumer.sendToDlq key error) message :=
                .inr ⟨⟨key, error⟩, named, rfl⟩
              simp [handed, survives]

/-- No consumed message disappears exactly as long as each message that is processed without
throwing has a value that is missing or malformed, or has an insertion that succeeds, or has an
address that was in `frontier` before.
-/
theorem keepsMessages_iff (parse : Parser) (driver : Driver) (tables : Tables)
    (events : List Event)
    : Throughout parse driver (KeepsEvent parse driver) (.start tables) events
      ↔ Throughout parse driver (SurvivesEvent parse driver) (.start tables) events := by
  generalize Consumer.start tables = consumer
  induction events generalizing consumer with
  | nil => rfl
  | cons event rest ih => exact and_congr (keepsEvent_iff event) (ih _)

end Run

/-- A driver that takes a text, a number and a text or `null`. -/
def plainDriver : Driver where
  urlText
    | some (.text url) => some url
    | _ => none
  row
    | some (.text url), .number depth, .text parent => some ⟨url, depth.floor, some parent⟩
    | some (.text url), .number depth, .null => some ⟨url, depth.floor, none⟩
    | _, _, _ => none
  urlText_row := by
    intro url depth parent item row
    split at row <;> simp_all
    all_goals exact congrArg FrontierItem.url row

/-- The value that the producer writes for a page without a parent. -/
def pageText : String := "\x7b\"url\":\"https://a.example/\",\"depth\":1,\"parent\":null\x7d"

/-- What `JSON.parse` makes of that text; other texts count as malformed. -/
def parsePageText (text : String) : Except String Json :=
  if text = pageText then
    .ok (.object [("url", .text "https://a.example/"), ("depth", .number 1), ("parent", .null)])
  else
    .error "Unexpected token"

/-- A message whose insertion fails leaves no trace: the handler swallows the error, and nothing
is handed to the dead-letter topic.
-/
theorem keepsMessages_fails_for_insertion
    : ¬ ∀ (parse : Parser) (driver : Driver) (tables : Tables)
          (events : List Event),
        Throughout parse driver (KeepsEvent parse driver) (.start tables)
          events := by
  intro claim
  have kept := (claim parsePageText plainDriver .empty
    [.deliver ⟨some "https://a.example/", some pageText⟩ false]).1
  rw [keepsEvent_iff] at kept
  have survives := kept rfl
  revert survives
  simp [Survives, readMessage, parsePageText, Json.isNull, Consumer.start, Tables.empty,
    Frontier.urls, Frontier.empty]

end WebIndexer.Kafka
