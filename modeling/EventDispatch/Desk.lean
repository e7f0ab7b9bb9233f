import EventDispatch.Ambient
import EventDispatch.Crew

/-!
# Desks

What every source has: its own description, its crew, and the counts of what it handled. Events are
prepared at the desk, and their outcomes recorded there.

## Main definitions

* `Desk`, with `Desk.prepare`, `Desk.record` and `Desk.requireShareable`.
* `SubmitOutcome`, `BatchOutcome`: what becomes of a submission.
-/

namespace EventDispatch

/-- What every source has. -/
structure Desk where
  info : SourceInfo
  crew : Crew
  counts : SourceCounts
deriving Inhabited

/-- What becomes of one submitted event. -/
inductive SubmitOutcome where
  | completed (response : Response)
  | failed (failure : Failure)
  /-- No worker was found, and the function not entered. -/
  | noWorker (e : Error)

/-- What becomes of a batch of events. -/
inductive BatchOutcome where
  /-- One outcome for each event. -/
  | processed (outcomes : List Outcome)
  /-- No worker was found, and the function not entered. -/
  | noWorker (e : Error)

/-- The outcome of an event that a worker handled. -/
def SubmitOutcome.ofOutcome : Outcome → SubmitOutcome
  | .ok response => .completed response
  | .error failure => .failed failure

namespace Desk

/-- A desk where nothing was handled yet. -/
def new (info : SourceInfo) (crew : Crew) : Desk := ⟨info, crew, .zero⟩

/-- Marks an event as the source's own, and gives it an id if it has none. -/
def prepare (d : Desk) (event : Event) (a : Ambient) : Event × Ambient :=
  let event := { event with source := some d.info }
  if event.id.isEmpty then
    let (id, a) := a.freshId
    ({ event with id }, a)
  else (event, a)

/-- Prepares events in order. -/
def prepareAll (d : Desk) : List Event → Ambient → List Event × Ambient
  | [], a => ([], a)
  | event :: rest, a =>
    let (event, a) := d.prepare event a
    let (rest, a) := d.prepareAll rest a
    (event :: rest, a)

/-- Records an outcome for the source. -/
def record (outcome : Outcome) (d : Desk) : Desk :=
  { d with counts := d.counts.record outcome.succeeded }

/-- Records an outcome for the worker that produced it. -/
def recordWorker (worker : Worker) (outcome : Outcome) (d : Desk) : Desk :=
  { d with crew := d.crew.recordRun worker outcome }

/-- Records an outcome for the worker that produced it and then for the source. -/
def recordRun (worker : Worker) (outcome : Outcome) (d : Desk) : Desk :=
  (d.recordWorker worker outcome).record outcome

/-- Records a call that found no worker. -/
def recordAllocationFailure (d : Desk) : Desk :=
  { d with counts := d.counts.recordAllocationFailure }

/-- Gives a worker back to the crew. -/
def release (worker : Worker) (d : Desk) : Desk := { d with crew := d.crew.release worker }

/-- Whether a worker is given back before its outcome is recorded for the source, or after, is the same. -/
theorem record_release (worker : Worker) (outcome : Outcome) (d : Desk) :
    (d.release worker).record outcome = (d.record outcome).release worker := rfl

/-- Refuses a crew that is not shared. -/
def requireShareable (d : Desk) : Except Error Unit :=
  if d.crew.shareable then .ok ()
  else .error (.configuration ("Event source '" ++ d.info.id ++ "' (" ++ d.info.kind ++
    ") requires a shareable worker allocator"))

end Desk

end EventDispatch
