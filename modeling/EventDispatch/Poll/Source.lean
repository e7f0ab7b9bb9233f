import EventDispatch.Poll.Driver
import EventDispatch.Task

/-!
# Sources that poll

A source with one task that polls in cycles. In a cycle a driver searches for events, and at the same
time the events found are submitted in batches; after each batch the driver takes note of the outcomes.

## Main definitions

* `PollPhase`: what the source is at.
* `PollSource`: the state of the source.
* `Consumer`: the half of a cycle that submits events.
* `PollTask`: the state of the task.
* `PollSource.rules`: how the task behaves.
-/

namespace EventDispatch

/-- What a source that polls is at. -/
inductive PollPhase where
  /-- The first cycle is not over. -/
  | coldStart
  | polling
  /-- The driver takes note of outcomes. -/
  | checkpointing
deriving DecidableEq, Repr, Inhabited

/-- The name of a phase. -/
def PollPhase.name : PollPhase → String
  | coldStart => "cold_start"
  | polling => "polling"
  | checkpointing => "checkpointing"

/-- The half of a cycle that submits events. `isLast` says that the cycle brings no more of them. -/
inductive Consumer where
  | receiving (batch : List Event)
  | submitting (isLast : Bool) (batch : Batch)
  | wrapping (isLast : Bool) (previous : PollPhase) (wrapup : Wrapup)
  | done
deriving Inhabited

/-- The task of a source that polls. -/
inductive PollTask where
  /-- About to begin a cycle, unless it is told to stop. -/
  | checking
  | cycling (turn : CycleHalf) (channel : Channel) (producer : Producer) (consumer : Consumer)
  | pausing (pause : Pause)
deriving Inhabited

/-- A source that polls. -/
structure PollSource where
  desk : Desk
  driver : PollDriver
  settings : PollSettings
  /-- How long a batch waits for a worker, in milliseconds. -/
  limit : Nat
  phase : PollPhase
  /-- Cycles that are over. -/
  cycles : Nat
  lifecycle : Lifecycle (Task PollTask)
deriving Inhabited

namespace PollSource

/-- A source that never ran. -/
def new (info : SourceInfo) (driver : PollDriver) (settings : PollSettings) (limit : Nat)
    (crew : Crew) : PollSource :=
  { desk := .new info crew, driver, settings, limit, phase := .coldStart, cycles := 0,
    lifecycle := .new }

/-- Events that go to a worker together, and messages that may be on their way. -/
def batchSize (s : PollSource) : Nat := max s.settings.maxBatchSize 1

/-- Goes on after a batch: to the next, or to the end. -/
def afterBatch (isLast : Bool) : Consumer :=
  if isLast then .done else .receiving []

/-- The next move of the half of a cycle that submits events. -/
def stepConsumer (signal : Signal) (c : Channel) (w : World) (s : PollSource) :
    Consumer → Option (Consumer × Channel × World × PollSource)
  | .receiving batch =>
    let submit (isLast : Bool) (events : List Event) : Consumer :=
      .submitting isLast (.ready events (some s.limit))
    let finish (c : Channel) : Consumer × Channel :=
      if !batch.isEmpty && !s.lifecycle.isTriggered signal then (submit true batch, c)
      else (.done, c.closeReceiver)
    match c.receive with
    | (.pending, _) => none
    | (.closed, c) => let (next, c) := finish c; some (next, c, w, s)
    | (.message .cycleComplete, c) => let (next, c) := finish c; some (next, c, w, s)
    | (.message (.event event), c) =>
      let batch := batch ++ [event]
      if s.batchSize ≤ batch.length then
        if s.lifecycle.isTriggered signal then some (.done, c.closeReceiver, w, s)
        else some (submit false batch, c, w, s)
      else some (.receiving batch, c, w, s)
  | .submitting isLast batch =>
    let leave (c : Channel) : Channel := if isLast then c.closeReceiver else c
    match batch.step w.ambient s.desk with
    | none => none
    | some (.goes batch, ambient, desk) =>
      some (.submitting isLast batch, c, { w with ambient }, { s with desk })
    | some (.ends (.noWorker _, _), ambient, desk) =>
      some (afterBatch isLast, leave c, { w with ambient }, { s with desk })
    | some (.ends (.processed outcomes, events), ambient, desk) =>
      let wrapup := Wrapup.ofBatch ambient.now s.driver events outcomes
      some (.wrapping isLast s.phase wrapup, c, { w with ambient },
        { s with desk, phase := .checkpointing })
  | .wrapping isLast previous wrapup =>
    let leave (c : Channel) : Channel := if isLast then c.closeReceiver else c
    match wrapup.step w s.driver with
    | none => none
    | some (.goes wrapup, w, driver) =>
      some (.wrapping isLast previous wrapup, c, w, { s with driver })
    | some (.ends (), w, driver) =>
      some (afterBatch isLast, leave c, w, { s with driver, phase := previous })
  | .done => none

/-- The next move of one half of a cycle. -/
def stepHalf (signal : Signal) (w : World) (s : PollSource) (c : Channel) (producer : Producer)
    (consumer : Consumer) : CycleHalf → Option (PollTask × World × PollSource)
  | .searching => (producer.step w s.driver c).map fun (producer, w, driver, c) =>
      (.cycling .searching c producer consumer, w, { s with driver })
  | .receiving => (stepConsumer signal c w s consumer).map fun (consumer, c, w, s) =>
      (.cycling .receiving c producer consumer, w, s)

/-- The next move of the task: the half of a cycle whose turn it is goes on until it has to wait. -/
def step (signal : Signal) (task : PollTask) (w : World) (s : PollSource) :
    Option (Move PollTask Unit × World × PollSource) :=
  match task with
  | .checking =>
    if s.lifecycle.isTriggered signal then some (.ends (), w, s)
    else some (.goes (.cycling .searching (.new s.batchSize) .ready (.receiving [])), w, s)
  | .cycling turn c producer consumer =>
    let half := stepHalf signal w s c producer consumer
    match (half turn).or (half turn.other) with
    | some (task, w, s) => some (.goes task, w, s)
    | none =>
      match producer, consumer with
      | .done, .done =>
        let s := { s with cycles := s.cycles + 1, phase := .polling }
        match Pause.begin? w.now s.settings.interval signal s.lifecycle with
        | none => some (.ends (), w, s)
        | some pause => some (.goes (.pausing pause), w, s)
      | _, _ => none
  | .pausing pause =>
    match pause.ends? w.now signal s.lifecycle with
    | none => none
    | some true => some (.goes .checking, w, s)
    | some false => some (.ends (), w, s)

/-- The instant at which the submitting half of a cycle moves by itself. -/
def consumerDeadline : Consumer → Option Nat
  | .submitting _ batch => batch.deadline
  | .wrapping _ _ wrapup => wrapup.deadline
  | _ => none

/-- How the task of the source behaves. -/
def rules : TaskRules PollSource PollTask where
  lifecycle s := s.lifecycle
  setLifecycle lifecycle s := { s with lifecycle }
  step := step
  drop task w s :=
    match task with
    | .cycling _ _ _ (.submitting _ batch) => (w, { s with desk := batch.drop s.desk })
    | _ => (w, s)
  deadline task :=
    match task with
    | .checking => none
    | .pausing pause => some pause.until_
    | .cycling _ _ producer consumer =>
      (producer.deadline.toList ++ (consumerDeadline consumer).toList).min?

/-- Starts the source. -/
def start (s : PollSource) : Except Error Unit × PollSource := rules.start [.checking] s

/-- What the source tells of its settings. -/
def toJson (s : PollSource) : Json :=
  match s.driver.toJson with
  | .obj fields => .obj (Keyed.merge fields s.settings.fields)
  | other => other

end PollSource

end EventDispatch
