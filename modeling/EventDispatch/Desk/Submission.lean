import EventDispatch.Desk

/-!
# Submissions

The calls that give events to workers, as activities: each one moves from one point where it may wait
to the next, holds at most one worker, and gives that worker back when it ends or is given up.

## Main definitions

* `Allocation`: takes a worker for the caller to keep.
* `Assignment`: runs the function on an event with a worker that the caller holds.
* `Submission`: takes a worker, runs the function on one event, gives the worker back.
* `Batch`: the same for several events, one after the other on one worker.
-/

namespace EventDispatch

/-- One step of taking a worker from a desk's crew. A failure is recorded at the desk. -/
def Desk.stepAcquire (a : Ambient) (d : Desk) (acquire : Acquire) :
    Option (Move Acquire (Except Error Worker) × Desk) :=
  match acquire.step a.now d.crew.pool with
  | none => none
  | some (.goes next, pool) => some (.goes next, { d with crew := { d.crew with pool } })
  | some (.ends (.ok worker), pool) =>
    some (.ends (.ok worker), { d with crew := { d.crew with pool } })
  | some (.ends (.error e), pool) =>
    some (.ends (.error e), { d with crew := { d.crew with pool } }.recordAllocationFailure)

/-- Gives up taking a worker. -/
def Desk.dropAcquire (d : Desk) (acquire : Acquire) : Desk :=
  { d with crew := { d.crew with pool := acquire.drop d.crew.pool } }

/-! ### Keeping a worker -/

/-- A call that takes a worker for its caller. -/
abbrev Allocation := Acquire

/-- The next move of an allocation. -/
def Allocation.step (a : Ambient) (d : Desk) (s : Allocation) :
    Option (Move Allocation (Except Error Worker) × Desk) := d.stepAcquire a s

/-! ### One event on a worker that is held already -/

/-- A call that runs the function on an event with a worker that its caller holds. -/
inductive Assignment where
  | ready (worker : Worker) (event : Event)
  /-- The event needs no preparation any more. -/
  | prepared (worker : Worker) (event : Event)
  | running (worker : Worker) (event : Event) (run : Running)
deriving Inhabited

namespace Assignment

/-- The next move: the event is prepared and the function entered; when the run ends its outcome is
recorded. -/
def step (a : Ambient) (d : Desk) : Assignment → Option (Move Assignment (Outcome × Event) × Ambient × Desk)
  | .ready worker event =>
    let (event, a) := d.prepare event a
    some (.goes (.prepared worker event), a, d)
  | .prepared worker event =>
    let (run, a) := a.enter worker.knownAs event
    some (.goes (.running worker event run), a, d)
  | .running worker event run =>
    if run.ends ≤ a.now then
      some (.ends (run.outcome, event), a, d.recordRun worker run.outcome)
    else none

/-- The instant at which the call moves by itself. -/
def deadline : Assignment → Option Nat
  | .ready _ _ | .prepared _ _ => none
  | .running _ _ run => some run.ends

end Assignment

/-! ### One event -/

/-- A call that gives one event to a worker of the crew. -/
inductive Submission where
  | ready (event : Event) (limit : Option Nat)
  | acquiring (event : Event) (acquire : Acquire)
  | running (worker : Worker) (event : Event) (run : Running)
deriving Inhabited

namespace Submission

/-- The next move: the event is prepared, a worker taken, the function entered; when the run ends it is
recorded for the worker, the worker is given back, and the outcome is recorded for the source. -/
def step (a : Ambient) (d : Desk) :
    Submission → Option (Move Submission (SubmitOutcome × Event) × Ambient × Desk)
  | .ready event limit =>
    let (event, a) := d.prepare event a
    some (.goes (.acquiring event (.asking limit)), a, d)
  | .acquiring event acquire =>
    match d.stepAcquire a acquire with
    | none => none
    | some (.goes acquire, d) => some (.goes (.acquiring event acquire), a, d)
    | some (.ends (.error e), d) => some (.ends (.noWorker e, event), a, d)
    | some (.ends (.ok worker), d) =>
      let (run, a) := a.enter worker.knownAs event
      some (.goes (.running worker event run), a, d)
  | .running worker event run =>
    if run.ends ≤ a.now then
      some (.ends (.ofOutcome run.outcome, event), a,
        ((d.recordWorker worker run.outcome).release worker).record run.outcome)
    else none

/-- The instant at which the call moves by itself. -/
def deadline : Submission → Option Nat
  | .ready _ _ => none
  | .acquiring _ acquire => acquire.deadline
  | .running _ _ run => some run.ends

/-- Gives the call up: its worker goes back, and a run that was going on is not recorded. -/
def drop (d : Desk) : Submission → Desk
  | .ready _ _ => d
  | .acquiring _ acquire => d.dropAcquire acquire
  | .running worker _ _ => d.release worker

end Submission

/-! ### Several events -/

/-- A call that gives several events to one worker of the crew. -/
inductive Batch where
  | ready (events : List Event) (limit : Option Nat)
  | acquiring (events : List Event) (acquire : Acquire)
  /-- The worker is held, some events are done, and the rest is still to come. -/
  | between (worker : Worker) (done : List Outcome) (events rest : List Event)
  | running (worker : Worker) (done : List Outcome) (events rest : List Event) (run : Running)
deriving Inhabited

namespace Batch

/-- The next move: all events are prepared and one worker taken; the events then run one after the
other, each recorded as it ends; at last the worker is given back. -/
def step (a : Ambient) (d : Desk) :
    Batch → Option (Move Batch (BatchOutcome × List Event) × Ambient × Desk)
  | .ready events limit =>
    let (events, a) := d.prepareAll events a
    some (.goes (.acquiring events (.asking limit)), a, d)
  | .acquiring events acquire =>
    match d.stepAcquire a acquire with
    | none => none
    | some (.goes acquire, d) => some (.goes (.acquiring events acquire), a, d)
    | some (.ends (.error e), d) => some (.ends (.noWorker e, events), a, d)
    | some (.ends (.ok worker), d) => some (.goes (.between worker [] events events), a, d)
  | .between worker done events [] =>
    some (.ends (.processed done, events), a, d.release worker)
  | .between worker done events (event :: rest) =>
    let (run, a) := a.enter worker.knownAs event
    some (.goes (.running worker done events rest run), a, d)
  | .running worker done events rest run =>
    if run.ends ≤ a.now then
      some (.goes (.between worker (done ++ [run.outcome]) events rest), a,
        d.recordRun worker run.outcome)
    else none

/-- The instant at which the call moves by itself. -/
def deadline : Batch → Option Nat
  | .acquiring _ acquire => acquire.deadline
  | .running _ _ _ _ run => some run.ends
  | _ => none

/-- Gives the call up: its worker goes back, and a run that was going on is not recorded. -/
def drop (d : Desk) : Batch → Desk
  | .ready _ _ => d
  | .acquiring _ acquire => d.dropAcquire acquire
  | .between worker _ _ _ => d.release worker
  | .running worker _ _ _ _ => d.release worker

end Batch

end EventDispatch
