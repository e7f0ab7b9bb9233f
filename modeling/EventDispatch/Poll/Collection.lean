import EventDispatch.Poll.Driver

/-!
# Collecting the events of a search

A search for events whose messages are collected instead of submitted, all of them or only the first
few.

## Main definitions

* `Collection`: the search, the channel, and what was received.
* `Collection.step`: one move.
-/

namespace EventDispatch

/-- A search whose messages are collected. -/
structure Collection where
  channel : Channel
  producer : Producer
  messages : List PollMessage
  /-- The number of messages after which nobody receives any more. -/
  wanted : Option Nat
  /-- Nobody receives any more. -/
  closed : Bool
  /-- The half that is going on. -/
  turn : CycleHalf
deriving Inhabited

namespace Collection

/-- A search that has not begun, with a channel of so many places. -/
def new (capacity : Nat) (wanted : Option Nat) : Collection :=
  { channel := .new capacity, producer := .ready, messages := [], wanted, closed := false,
    turn := .searching }

/-- As many messages were received as are wanted. -/
def isFull (c : Collection) : Bool :=
  match c.wanted with
  | some n => n ≤ c.messages.length
  | none => false

/-- The next move of the receiving half. -/
def receive (c : Collection) : Option Collection :=
  if c.closed then none
  else if c.isFull then some { c with channel := c.channel.closeReceiver, closed := true }
  else
    match c.channel.receive with
    | (.pending, _) => none
    | (.closed, channel) => some { c with channel := channel.closeReceiver, closed := true }
    | (.message m, channel) => some { c with channel, messages := c.messages ++ [m] }

/-- The next move of one of the two halves. -/
def stepHalf (w : World) (d : PollDriver) (c : Collection) :
    CycleHalf → Option (Collection × World × PollDriver)
  | .searching => (c.producer.step w d c.channel).map fun (producer, w, d, channel) =>
      ({ c with producer, channel, turn := .searching }, w, d)
  | .receiving => c.receive.map fun c => ({ c with turn := .receiving }, w, d)

/-- The next move: the half whose turn it is goes on until it has to wait. It ends with all that was
received. -/
def step (w : World) (d : PollDriver) (c : Collection) :
    Option (Move Collection (List PollMessage) × World × PollDriver) :=
  match (c.stepHalf w d c.turn).or (c.stepHalf w d c.turn.other) with
  | some (c, w, d) => some (.goes c, w, d)
  | none => if c.producer.isDone && c.closed then some (.ends c.messages, w, d) else none

end Collection

end EventDispatch
