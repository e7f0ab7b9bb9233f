import EventDispatch.Pool
import EventDispatch.Statistics
import EventDispatch.Function

/-!
# Crews

The workers of a source and the pool in which they wait for events. A crew is shared, so that
submissions at the same time each take a worker of their own; or exclusive, for callers that keep their
worker; or it consists of a single worker.

## Main definitions

* `Worker`: a worker, told apart from all others by its serial number.
* `Crew`, with `Crew.release` and `Crew.recordRun`.
* `createWorkers`: workers made by a factory that may refuse.
-/

namespace EventDispatch

/-- A worker: its serial number is its own, while its index, and the number by which its function knows
it, may be those of others too. -/
structure Worker where
  serial : Nat
  index : Nat
  knownAs : Nat
deriving DecidableEq, Repr, Inhabited

/-- How a crew is used. -/
inductive Sharing where
  /-- Submissions at the same time take workers of their own. -/
  | shared
  /-- Callers keep their workers. -/
  | exclusive
  /-- There is one worker. -/
  | single
deriving DecidableEq, Repr, Inhabited

/-- The workers of a source. -/
structure Crew where
  sharing : Sharing
  pool : Pool Worker
  members : List Worker
  /-- What each member handled, in the order of the members. -/
  counts : List WorkerCounts
deriving Inhabited

namespace Crew

/-- A crew whose workers have the given indices; a single worker has a pool of another name. -/
def ofIndices (sharing : Sharing) (indices : List Nat) : Crew :=
  let members := indices.zipIdx.map fun (index, serial) => ⟨serial, index, index⟩
  let name := match sharing with
    | .single => "singleton"
    | _ => "workers"
  { sharing, pool := .full name members, members, counts := members.map fun _ => .zero }

/-- A crew of workers `0, 1, …`; a single worker has index `0`. -/
def ofCount (sharing : Sharing) (count : Nat) : Crew :=
  match sharing with
  | .single => ofIndices .single [0]
  | _ => ofIndices sharing (List.range count)

/-- Submissions at the same time may take workers of their own. -/
def shareable (c : Crew) : Bool := c.sharing == .shared

/-- Workers the pool was made for. -/
def capacity (c : Crew) : Nat := c.pool.capacity

/-- Workers that can be taken at once. -/
def available (c : Crew) : Nat := c.pool.available

/-- Gives a worker back; one that is idle already, or for which there is no room, is not kept. -/
def release (worker : Worker) (c : Crew) : Crew :=
  { c with pool := (c.pool.giveBack (fun a b => a.serial == b.serial) worker).2 }

/-- One more event handled by a worker. -/
def recordRun (worker : Worker) (outcome : Outcome) (c : Crew) : Crew :=
  { c with counts := c.counts.modify worker.serial (WorkerCounts.record outcome.succeeded ⟨0, 0⟩) }

end Crew

/-- The indices of workers made by a factory, from an index on, unless the factory refuses one. -/
def createWorkers (refuse : Nat → Option Error) (index : Nat) : Nat → Except Error (List Nat)
  | 0 => .ok []
  | count + 1 =>
    match refuse index with
    | some e => .error e
    | none => (createWorkers refuse (index + 1) count).map (index :: ·)

end EventDispatch
