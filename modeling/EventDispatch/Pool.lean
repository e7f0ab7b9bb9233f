import EventDispatch.Error

/-!
# Bounded pools

A pool hands out a fixed number of items, one holder each, and serves those who wait in the order they
came. Who waits holds a ticket. A permit stands for an idle item: it is free, or granted to a ticket
that has not been redeemed yet.

## Main definitions

* `Pool`: the state of a pool; `Pool.full` is a pool at rest.
* `Pool.request`, `Pool.redeem`, `Pool.withdraw`: the three acts of one who waits.
* `Pool.tryTake`, `Pool.giveBack`: taking without waiting, and returning.
* `Acquire`: one call that takes an item, within a time limit or without.
-/

namespace EventDispatch

/-- The state of a pool. -/
structure Pool (α : Type) where
  name : String
  capacity : Nat
  /-- Idle items; the item given back last is handed out first. -/
  idle : List α
  /-- Permits that nobody holds. -/
  free : Nat
  /-- Tickets that wait for a permit, in the order they came. -/
  waiting : List Nat
  /-- Tickets that were granted a permit and have not been redeemed. -/
  granted : List Nat
  nextTicket : Nat
deriving Repr, Inhabited

namespace Pool

variable {α : Type}

/-- A pool of items, all idle; the last one goes first. -/
def full (name : String) (items : List α) : Pool α :=
  { name, capacity := items.length, idle := items.reverse, free := items.length,
    waiting := [], granted := [], nextTicket := 0 }

/-- Items that can be taken at once. -/
def available (p : Pool α) : Nat := p.free

/-- Asks for an item: a free permit is granted to the new ticket, and else the ticket waits. -/
def request (p : Pool α) : Nat × Pool α :=
  let ticket := p.nextTicket
  let p := { p with nextTicket := ticket + 1 }
  match p.free with
  | free + 1 => (ticket, { p with free, granted := p.granted ++ [ticket] })
  | 0 => (ticket, { p with waiting := p.waiting ++ [ticket] })

/-- Adds a permit: it goes to the ticket that waits longest, and is free if none waits. -/
def addPermit (p : Pool α) : Pool α :=
  match p.waiting with
  | ticket :: waiting => { p with waiting, granted := p.granted ++ [ticket] }
  | [] => { p with free := p.free + 1 }

/-- Takes an idle item for a permit that was used up; with none idle the permit is added again. -/
def popIdle (p : Pool α) : Except Error α × Pool α :=
  match p.idle with
  | item :: idle => (.ok item, { p with idle })
  | [] => (.error (.internal ("Pool " ++ p.name ++ " granted a permit with no idle item")), p.addPermit)

/-- Turns a granted ticket into an item; nothing while the ticket still waits. -/
def redeem (ticket : Nat) (p : Pool α) : Option (Except Error α × Pool α) :=
  if ticket ∈ p.granted then some { p with granted := p.granted.erase ticket }.popIdle
  else none

/-- Gives a ticket up; a permit granted to it goes to the next. -/
def withdraw (ticket : Nat) (p : Pool α) : Pool α :=
  if ticket ∈ p.granted then { p with granted := p.granted.erase ticket }.addPermit
  else { p with waiting := p.waiting.erase ticket }

/-- Takes an item if a permit is free. -/
def tryTake (p : Pool α) : Except Error α × Pool α :=
  match p.free with
  | free + 1 => { p with free }.popIdle
  | 0 => (.error .noAvailableWorkers, p)

/-- Takes an item back, unless it is the same as an idle one or the pool is full. -/
def giveBack (same : α → α → Bool) (item : α) (p : Pool α) : Bool × Pool α :=
  if p.idle.any (same · item) then (false, p)
  else if p.capacity ≤ p.idle.length then (false, p)
  else (true, { p with idle := item :: p.idle }.addPermit)

end Pool

/-! ### Taking an item within a time limit -/

/-- What one move of an activity leads to: the activity goes on, or it ends with a result. -/
inductive Move (μ ρ : Type) where
  | goes (next : μ)
  | ends (result : ρ)
deriving Repr

/-- One call that takes an item from a pool. Times are in milliseconds. -/
inductive Acquire where
  /-- The call has not asked yet. Without a limit it waits for ever, and with limit zero not at all. -/
  | asking (limit : Option Nat)
  /-- The call holds a ticket, until an instant if it has a limit. -/
  | waiting (ticket : Nat) (limit : Option (Nat × Nat))
deriving Repr, DecidableEq, Inhabited

namespace Acquire

variable {α : Type}

/-- The next move at an instant; nothing while the call has to wait. A permit counts even if the limit
is reached at the same instant. -/
def step (now : Nat) (p : Pool α) : Acquire → Option (Move Acquire (Except Error α) × Pool α)
  | .asking (some 0) => let (result, p) := p.tryTake; some (.ends result, p)
  | .asking limit =>
    let (ticket, p) := p.request
    some (.goes (.waiting ticket (limit.map fun t => (now + t, t))), p)
  | .waiting ticket limit =>
    match p.redeem ticket with
    | some (result, p) => some (.ends result, p)
    | none =>
      match limit with
      | none => none
      | some (deadline, t) =>
        if deadline ≤ now then
          some (.ends (.error (.timedOut (.ofMillis t))), p.withdraw ticket)
        else none

/-- The instant at which the call moves by itself. -/
def deadline : Acquire → Option Nat
  | .waiting _ (some (deadline, _)) => some deadline
  | _ => none

/-- Gives the call up. -/
def drop (p : Pool α) : Acquire → Pool α
  | .waiting ticket _ => p.withdraw ticket
  | .asking _ => p

end Acquire

end EventDispatch
