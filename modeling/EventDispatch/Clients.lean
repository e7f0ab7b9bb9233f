import EventDispatch.Poll.ItemStore
import EventDispatch.Queue.Broker
import EventDispatch.Stream.Records
import EventDispatch.Ambient

/-!
# Clients

The broker, the stream and the item store as sources reach them: a call may take a while to arrive, and
some calls may fail on the way. What sources asked for is kept on record.

## Main definitions

* `RemoteCall`: the calls that sources make.
* `Clients`: the three clients, their latencies and failures, and the record.
* `Trip`: a call on its way to a client.
* `World`: the clients together with what activities find around them.
-/

namespace EventDispatch

/-- The calls that sources make. -/
inductive RemoteCall where
  | receive
  | ack
  | initialPosition
  | getRecords
  | getItems
  | updateItem
deriving DecidableEq, Repr, Inhabited

/-- The name of a call. -/
def RemoteCall.name : RemoteCall → String
  | receive => "receive"
  | ack => "ack"
  | initialPosition => "initial_position"
  | getRecords => "get_records"
  | getItems => "get_items"
  | updateItem => "update_item"

/-- How calls of one kind travel. -/
structure Route where
  /-- How long a call takes to arrive, in milliseconds. -/
  latency : Option Nat
  /-- Calls that are still to fail on the way. -/
  failing : Nat
deriving DecidableEq, Repr, Inhabited

/-- The clients as sources reach them. -/
structure Clients where
  broker : Broker
  stream : RecordStream
  items : ItemStore
  routes : List (RemoteCall × Route)
  /-- The topic, group and wait of every call for deliveries. -/
  groups : List (String × Option String × Nat)
  /-- The stream, shard and preceding record of every call for an initial position. -/
  initialCalls : List (String × String × Option String)
deriving Inhabited

namespace Clients

/-- Clients that hold nothing, reached at once and without failures. -/
def new : Clients :=
  { broker := .new, stream := .new, items := .new, routes := [], groups := [], initialCalls := [] }

/-- How calls of one kind travel. -/
def route (call : RemoteCall) (c : Clients) : Route := (c.routes.lookup call).getD ⟨none, 0⟩

/-- Changes how calls of one kind travel. -/
def setRoute (call : RemoteCall) (f : Route → Route) (c : Clients) : Clients :=
  { c with routes := (call, f (c.route call)) :: c.routes.filter (·.1 != call) }

end Clients

/-- A call on its way to a client. -/
inductive Trip where
  | leaving
  | underway (until_ : Nat)
deriving DecidableEq, Repr, Inhabited

namespace Trip

/-- The failure of a call on its way, if it is to fail. -/
def arrive (call : RemoteCall) (c : Clients) : Option Error × Clients :=
  match (c.route call).failing with
  | failing + 1 =>
    (some (.transport ("Injected " ++ call.name ++ " failure")),
      c.setRoute call fun r => { r with failing })
  | 0 => (none, c)

/-- The next move of a call: it arrives, with a failure or without, or is underway for a while. -/
def step (call : RemoteCall) (now : Nat) (c : Clients) :
    Trip → Option (Move Trip (Option Error) × Clients)
  | .leaving =>
    match (c.route call).latency with
    | some ms => some (.goes (.underway (now + ms)), c)
    | none => let (e, c) := arrive call c; some (.ends e, c)
  | .underway until_ =>
    if until_ ≤ now then let (e, c) := arrive call c; some (.ends e, c) else none

/-- The instant at which the call moves by itself. -/
def deadline : Trip → Option Nat
  | .leaving => none
  | .underway until_ => some until_

end Trip

/-- What a source notes that does nothing else. -/
inductive ProbeNote where
  /-- It was started, from a checkpoint or without one. -/
  | started (id : String) (token : Option String)
  /-- It was stopped, by force or without. -/
  | stopped (id : String) (force : Bool)
deriving DecidableEq, Repr

/-- What activities find around them, the clients they reach, and what was noted, in order. -/
structure World where
  ambient : Ambient
  clients : Clients
  notes : List ProbeNote
deriving Inhabited

namespace World

/-- Before anything has happened. -/
def start (epoch : Timestamp) (function : Function) : World :=
  { ambient := .start epoch function, clients := .new, notes := [] }

/-- The present instant. -/
def now (w : World) : Nat := w.ambient.now

/-- Reads the wall clock. -/
def readClock (w : World) : Timestamp × World :=
  let (t, ambient) := w.ambient.readClock
  (t, { w with ambient })

/-- The world with a note more. -/
def note (n : ProbeNote) (w : World) : World := { w with notes := w.notes ++ [n] }

/-- One step of a call on its way. -/
def stepTrip (call : RemoteCall) (trip : Trip) (w : World) :
    Option (Move Trip (Option Error) × World) :=
  (trip.step call w.now w.clients).map fun (m, clients) => (m, { w with clients })

end World

end EventDispatch
