import EventDispatch.Settings.Shape
import EventDispatch.Statistics

/-!
# Snapshots of statistics as JSON

How counts are read from JSON and written as JSON.

## Main definitions

* `SourceCounts.decode`, `SourceCounts.toJson`: the counts of a source.
* `WorkerCounts.decode`, `WorkerCounts.toJson`: the counts of a worker.
-/

namespace EventDispatch

/-- A counter among the fields of a snapshot. -/
private def counter (name : String) : Shape UInt64 :=
  (Shape.field name (.natural "u64") none).map UInt64.ofNat

/-- A counter as JSON. -/
private def counterJson (n : UInt64) : Json := .num (.natural n.toNat)

namespace SourceCounts

/-- The fields. -/
def shape : Shape SourceCounts :=
  ((counter "events_handled_success_total").and ((counter "events_handled_failure_total").and
    (counter "allocation_failures_total"))).map fun (success, failure, allocationFailures) =>
      { success, failure, allocationFailures }

/-- Reads the counts of a source. -/
def decode : Decoder SourceCounts := shape.decode "SourceStatisticsSnapshot"

/-- The counts of a source as JSON. -/
def toJson (c : SourceCounts) : Json :=
  .obj [("allocation_failures_total", counterJson c.allocationFailures),
    ("events_handled_failure_total", counterJson c.failure),
    ("events_handled_success_total", counterJson c.success)]

end SourceCounts

namespace WorkerCounts

/-- The fields. -/
def shape : Shape WorkerCounts :=
  ((counter "events_handled_success_total").and ((counter "events_handled_failure_total").and
    ((counter "processing_duration_us_total").and (counter "processing_count_total")))).map
    fun (success, failure, micros, count) => { success, failure, micros, count }

/-- Reads the counts of a worker. -/
def decode : Decoder WorkerCounts := shape.decode "WorkerStatisticsSnapshot"

/-- The counts of a worker as JSON. -/
def toJson (c : WorkerCounts) : Json :=
  .obj [("events_handled_failure_total", counterJson c.failure),
    ("events_handled_success_total", counterJson c.success),
    ("processing_count_total", counterJson c.count),
    ("processing_duration_us_total", counterJson c.micros)]

end WorkerCounts

end EventDispatch
