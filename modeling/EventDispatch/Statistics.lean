import EventDispatch.Keyed
import EventDispatch.Span

/-!
# Statistics

Counters of sources and workers. They hold 64 bits and wrap around; differences between two snapshots
stop at zero.

## Main definitions

* `SourceCounts`: what a source handled, with the `record` functions and `diff`.
* `WorkerCounts`: what a worker handled, with `record`, `diff` and `average`.
* `diffBySource`: the differences of all the sources of a processor.
-/

namespace EventDispatch

/-- The difference of two counters, and zero where the second is ahead. -/
def sinceCount (current previous : UInt64) : UInt64 :=
  if previous ≤ current then current - previous else 0

/-- What a source handled. Calls that found no worker count as failures too. -/
structure SourceCounts where
  success : UInt64
  failure : UInt64
  allocationFailures : UInt64
deriving DecidableEq, Repr, Inhabited

namespace SourceCounts

/-- Nothing handled yet. -/
def zero : SourceCounts := ⟨0, 0, 0⟩

/-- One more event that its function handled, with success or without. -/
def record (succeeded : Bool) (c : SourceCounts) : SourceCounts :=
  if succeeded then { c with success := c.success + 1 } else { c with failure := c.failure + 1 }

/-- One more call that found no worker. -/
def recordAllocationFailure (c : SourceCounts) : SourceCounts :=
  { c with allocationFailures := c.allocationFailures + 1, failure := c.failure + 1 }

/-- Events handled, with success or without. -/
def total (c : SourceCounts) : UInt64 := c.success + c.failure

/-- What was handled since an earlier snapshot. -/
def diff (current previous : SourceCounts) : SourceCounts :=
  ⟨sinceCount current.success previous.success, sinceCount current.failure previous.failure,
    sinceCount current.allocationFailures previous.allocationFailures⟩

end SourceCounts

/-- What a worker handled, and how long it took in microseconds. -/
structure WorkerCounts where
  success : UInt64
  failure : UInt64
  micros : UInt64
  count : UInt64
deriving DecidableEq, Repr, Inhabited

namespace WorkerCounts

/-- Nothing handled yet. -/
def zero : WorkerCounts := ⟨0, 0, 0, 0⟩

/-- One more event, handled with success or without, in the time given. -/
def record (succeeded : Bool) (took : Span) (c : WorkerCounts) : WorkerCounts :=
  { success := if succeeded then c.success + 1 else c.success
    failure := if succeeded then c.failure else c.failure + 1
    micros := c.micros + took.micros
    count := c.count + 1 }

/-- What was handled since an earlier snapshot. -/
def diff (current previous : WorkerCounts) : WorkerCounts :=
  ⟨sinceCount current.success previous.success, sinceCount current.failure previous.failure,
    sinceCount current.micros previous.micros, sinceCount current.count previous.count⟩

/-- The time an event took on average, in whole microseconds, once there was an event. -/
def average (c : WorkerCounts) : Option Span :=
  if c.count = 0 then none else some (Span.ofMicros (c.micros / c.count).toNat)

end WorkerCounts

/-- What each source handled since an earlier snapshot; a source that was not there then is counted
from zero. -/
def diffBySource (current previous : Keyed SourceCounts) : Keyed SourceCounts :=
  current.map fun (id, counts) =>
    (id, match previous.get? id with
      | some earlier => counts.diff earlier
      | none => counts)

end EventDispatch
