import EventDispatch.Event
import EventDispatch.Pool

/-!
# A message broker in memory

Topics with deliveries that are pending, handed out and not yet acknowledged, or acknowledged. A call
that finds no pending delivery waits for a note. A note goes to the call that waits longest; with none
waiting one note is kept for the next.

## Main definitions

* `Delivery`, `Topic`, `Broker`: the state.
* `Broker.publish`, `Broker.ack`: the calls that do not wait.
* `Receive`: one call that waits for a delivery.
-/

namespace EventDispatch

/-- A published message. -/
structure Delivery where
  id : Nat
  topic : String
  body : ByteArray
  headers : Keyed String
  publishedAt : Timestamp
deriving Inhabited

/-- The state of a topic. -/
structure Topic where
  /-- Deliveries that nobody received, in publish order. -/
  pending : List Delivery
  /-- Deliveries that were received and not acknowledged. -/
  unacked : List Delivery
  /-- Ids of the acknowledged deliveries. -/
  acked : List Nat
  /-- A note that nobody has taken. -/
  note : Bool
  /-- Tickets that wait for a note, in the order they came. -/
  waiting : List Nat
  /-- Tickets that were given a note and have not gone on. -/
  noted : List Nat
  nextTicket : Nat
deriving Inhabited

namespace Topic

/-- A topic where nothing was published. -/
def new : Topic :=
  { pending := [], unacked := [], acked := [], note := false, waiting := [], noted := [],
    nextTicket := 0 }

/-- Gives a note to the ticket that waits longest, or keeps it. -/
def notify (t : Topic) : Topic :=
  match t.waiting with
  | ticket :: waiting => { t with waiting, noted := t.noted ++ [ticket] }
  | [] => { t with note := true }

/-- Hands out the oldest pending delivery. -/
def takeNext (t : Topic) : Option (Delivery × Topic) :=
  match t.pending with
  | delivery :: pending => some (delivery, { t with pending, unacked := t.unacked ++ [delivery] })
  | [] => none

/-- Asks for a note: a kept one is taken at once, and else a ticket waits. -/
def awaitNote (t : Topic) : Option Nat × Topic :=
  if t.note then (none, { t with note := false })
  else (some t.nextTicket,
    { t with waiting := t.waiting ++ [t.nextTicket], nextTicket := t.nextTicket + 1 })

/-- Gives a ticket up; a note given to it is passed on. -/
def withdraw (ticket : Nat) (t : Topic) : Topic :=
  if ticket ∈ t.noted then { t with noted := t.noted.erase ticket }.notify
  else { t with waiting := t.waiting.erase ticket }

end Topic

/-- The topics, and how many messages were published. -/
structure Broker where
  topics : Keyed Topic
  published : Nat
deriving Inhabited

namespace Broker

/-- A broker without topics. -/
def new : Broker := ⟨[], 0⟩

/-- A topic, which is made when it is asked for first. -/
def topic (name : String) (b : Broker) : Topic := (b.topics.get? name).getD .new

/-- The broker with a topic in a new state. -/
def setTopic (name : String) (t : Topic) (b : Broker) : Broker :=
  { b with topics := b.topics.insert name t }

/-- Publishes a message, under the next id. -/
def publish (name : String) (body : ByteArray) (headers : Keyed String) (now : Timestamp)
    (b : Broker) : Nat × Broker :=
  let id := b.published + 1
  let t := b.topic name
  let delivery : Delivery := { id, topic := name, body, headers, publishedAt := now }
  (id, { b with published := id }.setTopic name { t with pending := t.pending ++ [delivery] }.notify)

/-- Acknowledges a delivery that was received. -/
def ack (name : String) (id : Nat) (b : Broker) : Except Error Broker :=
  match b.topics.get? name with
  | none => .error (.transport ("Unknown topic: " ++ name))
  | some t =>
    if t.unacked.any (·.id == id) then
      .ok (b.setTopic name
        { t with unacked := t.unacked.filter (·.id != id), acked := t.acked ++ [id] })
    else .error (.transport ("Delivery " ++ toString id ++ " is not awaiting ack on " ++ name))

end Broker

/-- One call that receives a delivery from a topic, waiting up to an instant. -/
inductive Receive where
  | asking (topic : String) (wait : Nat)
  /-- About to look for a pending delivery. -/
  | looking (topic : String) (deadline : Nat)
  | waiting (topic : String) (ticket : Nat) (deadline : Nat)
deriving DecidableEq, Repr, Inhabited

namespace Receive

/-- The next move: a pending delivery is handed out, and with more pending the next call is told; with
none pending the call waits for a note, and looks a last time when its time is over. -/
def step (now : Nat) (b : Broker) : Receive → Option (Move Receive (Option Delivery) × Broker)
  | .asking topic wait =>
    some (.goes (.looking topic (now + wait)), b.setTopic topic (b.topic topic))
  | .looking topic deadline =>
    match (b.topic topic).takeNext with
    | some (delivery, t) =>
      let t := if t.pending.isEmpty then t else t.notify
      some (.ends (some delivery), b.setTopic topic t)
    | none =>
      match (b.topic topic).awaitNote with
      | (none, t) => some (.goes (.looking topic deadline), b.setTopic topic t)
      | (some ticket, t) => some (.goes (.waiting topic ticket deadline), b.setTopic topic t)
  | .waiting topic ticket deadline =>
    let t := b.topic topic
    if ticket ∈ t.noted then
      some (.goes (.looking topic deadline),
        b.setTopic topic { t with noted := t.noted.erase ticket })
    else if deadline ≤ now then
      let t := t.withdraw ticket
      match t.takeNext with
      | some (delivery, t) => some (.ends (some delivery), b.setTopic topic t)
      | none => some (.ends none, b.setTopic topic t)
    else none

/-- The instant at which the call moves by itself. -/
def deadline : Receive → Option Nat
  | .waiting _ _ deadline => some deadline
  | _ => none

/-- Gives the call up. -/
def drop (b : Broker) : Receive → Broker
  | .waiting topic ticket _ => b.setTopic topic ((b.topic topic).withdraw ticket)
  | _ => b

end Receive

end EventDispatch
