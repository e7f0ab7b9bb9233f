import EventDispatch.Settings.Adapters
import EventDispatch.Task

/-!
# Generators

A source that makes its own events: every worker of its crew has a task that pauses, submits an event,
and begins again.

## Main definitions

* `Generator`: the state of the source.
* `Generation`: the state of one of its tasks.
* `Generator.rules`: how the tasks behave.
-/

namespace EventDispatch

/-- One task of a generator: its number, and how many events it made in this run. -/
inductive Generation where
  /-- About to pause. -/
  | idle (index made : Nat)
  | pausing (index made : Nat) (pause : Pause)
  | submitting (index made : Nat) (submission : Submission)
deriving Inhabited

/-- A source that makes its own events. -/
structure Generator where
  desk : Desk
  settings : GeneratorSettings
  /-- How long a submission waits for a worker, in milliseconds. -/
  limit : Nat
  lifecycle : Lifecycle (Task Generation)
deriving Inhabited

namespace Generator

/-- A generator that never ran. -/
def new (info : SourceInfo) (settings : GeneratorSettings) (limit : Nat) (crew : Crew) : Generator :=
  { desk := .new info crew, settings, limit, lifecycle := .new }

/-- The event that a task makes. -/
def event (g : Generator) (index made : Nat) (now : Timestamp) : Event :=
  { Event.blank now with
    body := g.settings.body.toUTF8
    path := "/generator/" ++ toString index
    attributes := [("sequence", .ofNat made)] }

/-- The next move of a task. It pauses for the least delay before every event. That a pause is longer, up to
the greatest delay, is the run in which the task moves later. -/
def step (signal : Signal) (task : Generation) (w : World) (g : Generator) :
    Option (Move Generation Unit × World × Generator) :=
  match task with
  | .idle index made =>
    match Pause.begin? w.now g.settings.minDelay signal g.lifecycle with
    | none => some (.ends (), w, g)
    | some pause => some (.goes (.pausing index made pause), w, g)
  | .pausing index made pause =>
    match pause.ends? w.now signal g.lifecycle with
    | none => none
    | some false => some (.ends (), w, g)
    | some true =>
      let (now, w) := w.readClock
      some (.goes (.submitting index (made + 1) (.ready (g.event index made now) (some g.limit))), w, g)
  | .submitting index made submission =>
    match submission.step w.ambient g.desk with
    | none => none
    | some (.goes submission, ambient, desk) =>
      some (.goes (.submitting index made submission), { w with ambient }, { g with desk })
    | some (.ends _, ambient, desk) =>
      some (.goes (.idle index made), { w with ambient }, { g with desk })

/-- How the tasks of a generator behave. -/
def rules : TaskRules Generator Generation where
  lifecycle g := g.lifecycle
  setLifecycle lifecycle g := { g with lifecycle }
  step := step
  drop task w g :=
    match task with
    | .submitting _ _ submission => (w, { g with desk := submission.drop g.desk })
    | _ => (w, g)
  deadline task :=
    match task with
    | .idle _ _ => none
    | .pausing _ _ pause => some pause.until_
    | .submitting _ _ submission => submission.deadline

/-- Starts the source: one task for each worker of a shared crew. -/
def start (g : Generator) : Except Error Unit × Generator :=
  match g.desk.requireShareable with
  | .error e => (.error e, g)
  | .ok () => rules.start ((List.range g.desk.crew.capacity).map (.idle · 0)) g

end Generator

end EventDispatch
