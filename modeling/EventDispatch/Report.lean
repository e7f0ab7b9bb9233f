import EventDispatch.Function
import EventDispatch.Http.Message
import EventDispatch.Poll.Channel
import EventDispatch.Poll.ItemStore
import EventDispatch.Queue.Broker
import EventDispatch.Statistics.Snapshot
import EventDispatch.Text.Quoted

/-!
# Reports

What happens at a station, told in JSON. Times of the present day and ids issued at random differ from
run to run, so they are not told but marked.

## Main definitions

* `Report.object`, `Report.extend`: objects from fields in any order.
* `Report.bytes`, `Report.time`, `Report.id`, `Report.attributes`: the parts of an event.
* `Report.event`, `Report.outcome`, `Report.reply`, `Report.error`, …: one function for each thing told.
-/

namespace EventDispatch.Report

/-! ### Values -/

/-- An object from its fields in any order. -/
def object (fields : List (String × Json)) : Json := .obj (Keyed.ofList fields)

/-- An object with more fields. -/
def extend (fields : List (String × Json)) : Json → Json
  | .obj base => .obj (Keyed.merge base (Keyed.ofList fields))
  | other => other

/-- A natural number. -/
def nat (n : Nat) : Json := .ofNat n

/-- A list. -/
def list {α : Type} (f : α → Json) (items : List α) : Json := .arr (items.map f)

/-- A value that may be missing. -/
def option {α : Type} (f : α → Json) : Option α → Json
  | some x => f x
  | none => .null

/-- A field that is told only if there is something to tell. -/
def unlessEmpty {α : Type} (name : String) (f : α → Json) (items : List α) : List (String × Json) :=
  if items.isEmpty then [] else [(name, list f items)]

/-- Texts by name. -/
def texts (t : Keyed String) : Json := .obj (t.mapValues .str)

/-- That a call succeeded. -/
def done : Json := .obj [("ok", .bool true)]

/-! ### Errors -/

/-- The kind of an error. -/
def errorKind : Error → String
  | .noAvailableWorkers => "NoAvailableWorkers"
  | .allocationTimeout _ => "AllocationTimeout"
  | .configuration _ => "Configuration"
  | .unknownKind _ => "UnknownKind"
  | .duplicateKind _ => "DuplicateKind"
  | .transport _ => "Transport"
  | .invalidState _ => "InvalidState"
  | .internal _ => "Internal"

/-- The kind of a configuration error. -/
def configErrorKind : ConfigError → String
  | .loadFailed _ _ => "LoadFailed"
  | .invalidValue _ _ => "InvalidValue"
  | .missingField _ _ => "MissingField"
  | .invalidAttributes _ _ => "InvalidAttributes"

/-- A failure of a kind. -/
def failure (kind message : String) : Json := object [("error", .str kind), ("message", .str message)]

/-- An error. -/
def error (e : Error) : Json := failure (errorKind e) e.message

/-- A configuration error. -/
def configError (e : ConfigError) : Json := failure (configErrorKind e) e.message

/-- The result of a call. -/
def result {α : Type} (f : α → Json) : Except Error α → Json
  | .ok x => f x
  | .error e => error e

/-- The result of a look at a configuration. -/
def configResult {α : Type} (f : α → Json) : Except ConfigError α → Json
  | .ok x => f x
  | .error e => configError e

/-- The result of reading a value. -/
def decoded {α : Type} (f : α → Json) : Except DecodeError α → Json
  | .ok x => f x
  | .error e => failure "Deserialize" e.message

/-! ### Bodies, times and ids -/

/-- The most bytes of a body that are told. -/
def longestBody : Nat := 4096

/-- A byte in two hexadecimal digits. -/
def hexByte (b : UInt8) : String := (if b < 16 then "0" else "") ++ Text.hex b.toNat

/-- A body: its text, or its bytes in hexadecimal digits, or its length if it is long. -/
def bytes (b : ByteArray) : Json :=
  if longestBody < b.size then .obj [("len", nat b.size)]
  else
    match String.fromUTF8? b with
    | some text => .str text
    | none => .obj [("hex", .str (String.join (b.toList.map hexByte)))]

/-- What stands for a time of the present day. -/
def present : Json := .str "<now>"

/-- The second lies within a day of the present. -/
def isPresent (now : Timestamp) (secs : Int) : Bool := (secs - now.secs).natAbs < 86400

/-- A time. -/
def time (now t : Timestamp) : Json :=
  if isPresent now t.secs then present else .arr [.ofInt t.secs, nat t.nanos]

/-- The text has the form of an id issued at random. -/
def isRandomId (id : String) : Bool :=
  let chars := id.toList
  chars.length == 36 && chars[14]? == some '4' && [8, 13, 18, 23].all (chars[·]? == some '-')

/-- An id. -/
def id (id : String) : Json := .str (if isRandomId id then "<uuid-v4>" else id)

/-- The name of the nanoseconds that belong to seconds of the present day. -/
private def presentNanos? (now : Timestamp) (name : String) (value : Json) : Option String :=
  let chars := name.toList.reverse
  match value.asInt? with
  | some secs =>
    if "_secs".toList.reverse.isPrefixOf chars && isPresent now secs then
      some (String.ofList (chars.drop 4).reverse ++ "nsecs")
    else none
  | none => none

/-- Attributes; those that together tell a time of the present day are marked. -/
def attributes (now : Timestamp) (a : Json.Object) : Json :=
  let nanos := a.filterMap fun (name, value) => presentNanos? now name value
  .obj (a.map fun (name, value) =>
    (name, if nanos.contains name || (presentNanos? now name value).isSome then present else value))

/-! ### Events and outcomes -/

/-- What an event tells about its source. -/
def source (i : SourceInfo) : Json := .arr [.str i.id, .str i.kind, .str i.class_.name]

/-- An event. -/
def event (now : Timestamp) (e : Event) : Json :=
  object [("id", id e.id), ("body", bytes e.body), ("headers", texts e.headers),
    ("content_type", .str e.contentType), ("method", .str e.method), ("path", .str e.path),
    ("timestamp", time now e.timestamp), ("attributes", attributes now e.attributes),
    ("source", option source e.source)]

/-- An entry into a function, in full or only the most important. -/
def entry (now : Timestamp) (brief : Bool) (e : Entry) : Json :=
  extend [("worker", nat e.worker)]
    (if brief then
      object [("body", bytes e.event.body), ("path", .str e.event.path),
        ("source", option source e.event.source)]
    else event now e.event)

/-- What became of an event. -/
def outcome : Outcome → Json
  | .ok (.structured status headers body contentType) =>
    object [("type", .str "structured"), ("status_code", option nat status),
      ("headers", texts headers), ("body", bytes body), ("content_type", option .str contentType)]
  | .ok (.bytes body) => object [("type", .str "bytes"), ("body", bytes body)]
  | .ok (.text body) => object [("type", .str "text"), ("body", bytes body.toUTF8)]
  | .ok .empty => object [("type", .str "empty")]
  | .error f =>
    object [("type", .str "error"), ("message", .str f.message), ("display", .str f.message),
      ("status_code", option nat f.status)]

/-- What a worker handled, without the time it took. -/
def worker (c : WorkerCounts) : Json :=
  object [("success", nat c.success.toNat), ("failure", nat c.failure.toNat),
    ("count", nat c.count.toNat)]

/-- What sources handled, by id. -/
def counts (c : Keyed SourceCounts) : Json := .obj (c.mapValues SourceCounts.toJson)

/-- A length of time. -/
def span (s : Span) : Json := .arr [nat s.secs, nat s.nanos]

/-! ### Clients -/

/-- A delivery of a broker. -/
def delivery (d : Delivery) : Json :=
  object [("id", nat d.id), ("topic", .str d.topic), ("body", bytes d.body), ("headers", texts d.headers)]

/-- A request for a page of a directory. -/
def listRequest (r : ListRequest) : Json :=
  object [("path", .str r.path), ("attributes", .str r.attributes), ("query", .str r.query),
    ("shard_id", nat r.shardId), ("total_shards", nat r.totalShards), ("limit", nat r.limit),
    ("marker", .str r.marker)]

/-- A page of a directory. -/
def listPage (now : Timestamp) (p : ListPage) : Json :=
  object [("items", list (fun i => .arr [.str i.name, attributes now i.attributes]) p.items),
    ("last_item_included", .bool p.isLast), ("next_marker", .str p.nextMarker)]

/-- A message of a poll cycle. -/
def pollMessage (now : Timestamp) : PollMessage → Json
  | .event e =>
    object [("path", .str e.path), ("body", bytes e.body), ("id", id e.id),
      ("timestamp", time now e.timestamp), ("attributes", attributes now e.attributes)]
  | .cycleComplete => .str "cycle_complete"

/-- One header stands before another: by name, and then by value. -/
private def headerLe (a b : String × ByteArray) : Bool :=
  a.1 < b.1 || (a.1 == b.1 && !decide (b.2.toList < a.2.toList))

/-- A reply, with its headers in order. -/
def reply (r : HttpReply) : Json :=
  object [("status", nat r.status), ("body", bytes r.body),
    ("headers", list (fun (name, value) => .arr [.str name, bytes value]) (r.headers.mergeSort headerLe))]

end EventDispatch.Report
