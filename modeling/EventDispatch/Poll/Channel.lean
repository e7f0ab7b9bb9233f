import EventDispatch.Event

/-!
# Channels of a poll cycle

The way from those who list items to the one who submits them: a queue with a fixed number of places.
Who finds no place waits for one, in the order of coming.

## Main definitions

* `PollMessage`: what is sent.
* `Channel`, with `receive`, `closeReceiver` and `closeSenders`.
* `Sending`: one call that sends a message.
* `CycleHalf`: the two sides of the way.
-/

namespace EventDispatch

/-- What is sent in a poll cycle. -/
inductive PollMessage where
  | event (e : Event)
  /-- All events of the cycle were sent. -/
  | cycleComplete
deriving Inhabited

/-- A queue with a fixed number of places. -/
structure Channel where
  queue : List PollMessage
  /-- Places that nobody holds. -/
  free : Nat
  /-- Tickets that wait for a place, in the order they came. -/
  waiting : List Nat
  /-- Tickets that were given a place. -/
  granted : List Nat
  nextTicket : Nat
  receiverGone : Bool
  sendersGone : Bool
deriving Inhabited

/-- What a look into a channel leads to. -/
inductive Received where
  | message (m : PollMessage)
  /-- The queue is empty, and nobody is left to send. -/
  | closed
  /-- The queue is empty for now. -/
  | pending
deriving Inhabited

namespace Channel

/-- An empty queue with a number of places. -/
def new (capacity : Nat) : Channel :=
  { queue := [], free := capacity, waiting := [], granted := [], nextTicket := 0,
    receiverGone := false, sendersGone := false }

/-- Gives a place to the ticket that waits longest, or leaves it free. -/
def addPlace (c : Channel) : Channel :=
  match c.waiting with
  | ticket :: waiting => { c with waiting, granted := c.granted ++ [ticket] }
  | [] => { c with free := c.free + 1 }

/-- Takes the oldest message, whose place is then free. -/
def receive (c : Channel) : Received × Channel :=
  match c.queue with
  | m :: queue => (.message m, { c with queue }.addPlace)
  | [] => (if c.sendersGone then .closed else .pending, c)

/-- Nobody receives any more. -/
def closeReceiver (c : Channel) : Channel := { c with receiverGone := true, queue := [] }

/-- Nobody sends any more. -/
def closeSenders (c : Channel) : Channel := { c with sendersGone := true }

end Channel

/-- One call that sends a message. -/
inductive Sending where
  | ready
  | waiting (ticket : Nat)
deriving DecidableEq, Repr, Inhabited

/-- What one move of a call that sends leads to. -/
inductive Sent where
  | sent
  /-- Nobody receives any more. -/
  | refused
  | waits (s : Sending)
deriving Inhabited

namespace Sending

/-- The next move, or nothing while there is no place. -/
def step (m : PollMessage) (c : Channel) : Sending → Option (Sent × Channel)
  | .ready =>
    if c.receiverGone then some (.refused, c)
    else
      match c.free with
      | free + 1 => some (.sent, { c with free, queue := c.queue ++ [m] })
      | 0 => some (.waits (.waiting c.nextTicket),
          { c with waiting := c.waiting ++ [c.nextTicket], nextTicket := c.nextTicket + 1 })
  | .waiting ticket =>
    if c.receiverGone then some (.refused, c)
    else if ticket ∈ c.granted then
      some (.sent, { c with granted := c.granted.erase ticket, queue := c.queue ++ [m] })
    else none

end Sending

/-- The two halves of a poll cycle, which go on in turn: each until it has to wait for the other. -/
inductive CycleHalf where
  /-- Searching for events and sending them. -/
  | searching
  /-- Receiving them. -/
  | receiving
deriving DecidableEq, Repr, Inhabited

/-- The half that goes on when this one has to wait. -/
def CycleHalf.other : CycleHalf → CycleHalf
  | searching => receiving
  | receiving => searching

end EventDispatch
