import EventDispatch.Error
import EventDispatch.Settings.Shape

/-!
# Settings of the kinds of sources

What the attributes of a trigger say to a source of each kind, with the defaults.

## Main definitions

* `HttpSettings`, `GeneratorSettings`, `QueueSettings`, `StreamSettings`, `PollSettings`,
  `ItemPollSettings`: the settings, each with `decode` and `toJson`.
* The `check` functions: what else the settings of a kind have to satisfy.
-/

namespace EventDispatch

private def nat (n : Nat) : Json := .num (.natural n)

private def texts (items : List String) : Json := .arr (items.map .str)

private def u64 : Decoder Nat := .natural "u64"

private def usize : Decoder Nat := .natural "usize"

/-- A reason that concerns a trigger. -/
private def ofTrigger (id reason : String) : Error :=
  .configuration ("Trigger '" ++ id ++ "': " ++ reason)

/-! ### HTTP -/

/-- Where a source listens for requests, and how many it handles at a time. -/
structure HttpSettings where
  listenAddress : String := "0.0.0.0:8080"
  maxInFlight : Nat := 256
deriving DecidableEq, Repr, Inhabited

namespace HttpSettings

/-- The fields. -/
def shape : Shape HttpSettings :=
  ((Shape.field "listen_address" .text (some "0.0.0.0:8080")).and
    (Shape.field "max_in_flight" usize (some 256))).map fun (listenAddress, maxInFlight) =>
      { listenAddress, maxInFlight }

/-- Reads the settings. -/
def decode : Decoder HttpSettings := shape.decode "HttpConfig"

/-- The settings with all defaults written out. -/
def toJson (s : HttpSettings) : Json :=
  .obj [("listen_address", .str s.listenAddress), ("max_in_flight", nat s.maxInFlight)]

/-- At least one request is handled at a time. -/
def check (id : String) (s : HttpSettings) : Except Error Unit :=
  if s.maxInFlight = 0 then .error (ofTrigger id "max_in_flight must be greater than zero")
  else .ok ()

end HttpSettings

/-! ### Generators -/

/-- How long a generator pauses between events, in milliseconds, and what the events hold. -/
structure GeneratorSettings where
  minDelay : Nat := 0
  maxDelay : Nat := 1000
  body : String := ""
deriving DecidableEq, Repr, Inhabited

namespace GeneratorSettings

/-- The fields. -/
def shape : Shape GeneratorSettings :=
  ((Shape.field "min_delay_ms" u64 (some 0)).and ((Shape.field "max_delay_ms" u64 (some 1000)).and
    (Shape.field "body" .text (some "")))).map fun (minDelay, maxDelay, body) =>
      { minDelay, maxDelay, body }

/-- Reads the settings. -/
def decode : Decoder GeneratorSettings := shape.decode "GeneratorConfig"

/-- The settings with all defaults written out. -/
def toJson (s : GeneratorSettings) : Json :=
  .obj [("body", .str s.body), ("max_delay_ms", nat s.maxDelay), ("min_delay_ms", nat s.minDelay)]

/-- The least delay is at most the greatest. -/
def check (id : String) (s : GeneratorSettings) : Except Error Unit :=
  if s.maxDelay < s.minDelay then
    .error (ofTrigger id ("min_delay_ms (" ++ toString s.minDelay ++ ") exceeds max_delay_ms (" ++
      toString s.maxDelay ++ ")"))
  else .ok ()

end GeneratorSettings

/-! ### Brokers -/

/-- The topic a source listens to, and the group it belongs to. -/
structure QueueSettings where
  topic : String
  queueName : Option String := none
deriving DecidableEq, Repr, Inhabited

namespace QueueSettings

/-- The fields. -/
def shape : Shape QueueSettings :=
  ((Shape.field "topic" .text none).and
    (Shape.field "queue_name" (.orNull .text) (some none))).map fun (topic, queueName) =>
      { topic, queueName }

/-- Reads the settings. -/
def decode : Decoder QueueSettings := shape.decode "QueueConfig"

/-- The group as JSON. -/
def groupJson (s : QueueSettings) : Json :=
  match s.queueName with
  | some name => .str name
  | none => .null

/-- The settings with all defaults written out. -/
def toJson (s : QueueSettings) : Json :=
  .obj [("queue_name", s.groupJson), ("topic", .str s.topic)]

end QueueSettings

/-! ### Streams -/

/-- The stream and the shards a source reads, how often, in milliseconds, and how much at a time. -/
structure StreamSettings where
  streamName : String
  shards : List String
  pollInterval : Nat := 500
  batchSize : Nat := 100
deriving DecidableEq, Repr, Inhabited

namespace StreamSettings

/-- The fields. -/
def shape : Shape StreamSettings :=
  ((Shape.field "stream_name" .text none).and ((Shape.field "shards" (.listOf .text) none).and
    ((Shape.field "poll_interval_ms" u64 (some 500)).and
      (Shape.field "batch_size" usize (some 100))))).map
    fun (streamName, shards, pollInterval, batchSize) =>
      { streamName, shards, pollInterval, batchSize }

/-- Reads the settings. -/
def decode : Decoder StreamSettings := shape.decode "StreamConfig"

/-- The settings with all defaults written out. -/
def toJson (s : StreamSettings) : Json :=
  .obj [("batch_size", nat s.batchSize), ("poll_interval_ms", nat s.pollInterval),
    ("shards", texts s.shards), ("stream_name", .str s.streamName)]

/-- There is a shard, and no shard twice. -/
def check (id : String) (s : StreamSettings) : Except Error Unit :=
  if s.shards.isEmpty then .error (ofTrigger id "at least one shard is required")
  else if ¬ s.shards.Nodup then
    .error (ofTrigger id ("shard IDs must be unique, got " ++ Text.listed s.shards))
  else .ok ()

end StreamSettings

/-! ### Polling -/

/-- How often a source polls, in milliseconds, and how many events go to a worker together. -/
structure PollSettings where
  interval : Nat := 1000
  maxBatchSize : Nat := 64
deriving DecidableEq, Repr, Inhabited

namespace PollSettings

/-- The fields. -/
def shape : Shape PollSettings :=
  ((Shape.field "interval_ms" u64 (some 1000)).and
    (Shape.field "max_batch_size" usize (some 64))).map fun (interval, maxBatchSize) =>
      { interval, maxBatchSize }

/-- Reads the settings. -/
def decode : Decoder PollSettings := shape.decode "PollerConfig"

/-- The settings' fields, with all defaults written out. -/
def fields (s : PollSettings) : Json.Object :=
  [("interval_ms", nat s.interval), ("max_batch_size", nat s.maxBatchSize)]

/-- The settings with all defaults written out. -/
def toJson (s : PollSettings) : Json := .obj s.fields

end PollSettings

/-- Which items of a store a source polls, and how. -/
structure ItemPollSettings where
  paths : List String
  attributes : List String := []
  queries : List String := []
  suffixes : List String := []
  /-- After the first poll only changed items are asked for. -/
  incremental : Bool := true
  shardId : Nat := 0
  totalShards : Nat := 1
  pageSize : Nat := 250
  /-- The pause between two pages, in milliseconds. -/
  pageDelay : Nat := 0
  poll : PollSettings
deriving DecidableEq, Repr, Inhabited

namespace ItemPollSettings

/-- The fields that are not those of every polling source. -/
def shape : Shape (PollSettings → ItemPollSettings) :=
  ((Shape.field "paths" (.listOf .text) none).and
    ((Shape.field "attributes" (.listOf .text) (some [])).and
      ((Shape.field "queries" (.listOf .text) (some [])).and
        ((Shape.field "suffixes" (.listOf .text) (some [])).and
          ((Shape.field "incremental" .boolean (some true)).and
            ((Shape.field "shard_id" usize (some 0)).and
              ((Shape.field "total_shards" usize (some 1)).and
                ((Shape.field "page_size" usize (some 250)).and
                  (Shape.field "page_delay_ms" u64 (some 0)))))))))).map
    fun (paths, attributes, queries, suffixes, incremental, shardId, totalShards, pageSize, pageDelay)
        poll =>
      { paths, attributes, queries, suffixes, incremental, shardId, totalShards, pageSize, pageDelay,
        poll }

/-- Reads the settings; those of every polling source stand in the same object. -/
def decode : Decoder ItemPollSettings := fun value =>
  (Shape.flatten "ItemPollerConfig" shape PollSettings.shape value).map fun (s, poll) => s poll

/-- The settings with all defaults written out. -/
def toJson (s : ItemPollSettings) : Json :=
  .obj (Keyed.ofList ([
    ("paths", texts s.paths), ("attributes", texts s.attributes), ("queries", texts s.queries),
    ("suffixes", texts s.suffixes), ("incremental", .bool s.incremental),
    ("shard_id", nat s.shardId), ("total_shards", nat s.totalShards),
    ("page_size", nat s.pageSize), ("page_delay_ms", nat s.pageDelay)] ++ s.poll.fields))

/-- There is a path, the shard is one of all shards, and a page holds an item. -/
def check (id : String) (s : ItemPollSettings) : Except Error Unit :=
  if s.paths.isEmpty then .error (ofTrigger id "at least one path is required")
  else if s.totalShards ≤ s.shardId then
    .error (ofTrigger id ("shard_id " ++ toString s.shardId ++ " out of range for " ++
      toString s.totalShards ++ " total shards"))
  else if s.pageSize = 0 then .error (ofTrigger id "page_size must be greater than zero")
  else .ok ()

end ItemPollSettings

end EventDispatch
