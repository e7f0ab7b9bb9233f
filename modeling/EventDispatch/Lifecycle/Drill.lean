import EventDispatch.Schedule
import EventDispatch.Task

/-!
# Drills

A lifecycle whose tasks do no work of their own: they count how often they came round, or only take
their time. Callers wait for its signals and stop it.

## Main definitions

* `Chore`: the tasks.
* `Drill`: the lifecycle, the signals that callers know, and the counts.
* `DrillCall`: the calls that wait.
* `Drill.system`: all of it as a system.
-/

namespace EventDispatch

/-- A task of a drill. -/
inductive Chore where
  /-- About to pause before it works, each for a number of milliseconds; it counts under a label. -/
  | idle (label : String) (pause work : Nat)
  | pausing (label : String) (pause work : Nat) (p : Pause)
  | working (label : String) (pause work : Nat) (until_ : Nat)
  /-- About to take its time, whatever the signal. -/
  | tired (ms : Nat)
  | asleep (until_ : Nat)
deriving DecidableEq, Repr, Inhabited

/-- A lifecycle whose tasks do no work of their own. -/
structure Drill where
  lifecycle : Lifecycle (Task Chore)
  /-- The signals that callers know, by label. -/
  signals : Keyed Signal
  counts : Keyed Nat
deriving Inhabited

namespace Drill

/-- A lifecycle without tasks. -/
def new : Drill := ⟨.new, [], []⟩

/-- The next move of a task. -/
def step (signal : Signal) (task : Chore) (w : World) (d : Drill) :
    Option (Move Chore Unit × World × Drill) :=
  match task with
  | .idle label pause work =>
    match Pause.begin? w.now pause signal d.lifecycle with
    | none => some (.ends (), w, d)
    | some p => some (.goes (.pausing label pause work p), w, d)
  | .pausing label pause work p =>
    match p.ends? w.now signal d.lifecycle with
    | none => none
    | some false => some (.ends (), w, d)
    | some true => some (.goes (.working label pause work (w.now + work)), w, d)
  | .working label pause work until_ =>
    if until_ ≤ w.now then
      some (.goes (.idle label pause work), w, { d with counts := d.counts.modify label (· + 1) })
    else none
  | .tired ms => some (.goes (.asleep (w.now + ms)), w, d)
  | .asleep until_ => if until_ ≤ w.now then some (.ends (), w, d) else none

/-- How the tasks of a drill behave. -/
def rules : TaskRules Drill Chore where
  lifecycle d := d.lifecycle
  setLifecycle lifecycle d := { d with lifecycle }
  step := step
  drop _ w d := (w, d)
  deadline task :=
    match task with
    | .pausing _ _ _ p => some p.until_
    | .working _ _ _ until_ | .asleep until_ => some until_
    | .idle _ _ _ | .tired _ => none

end Drill

/-- A call that waits for a signal or for the end of the tasks. -/
inductive DrillCall where
  /-- About to pause for a number of milliseconds. -/
  | sleep (signal : Signal) (ms : Nat)
  | pausing (signal : Signal) (p : Pause)
  | listen (signal : Signal)
  | stop (s : Stop)
deriving Inhabited

/-- What such a call answers. -/
inductive DrillAnswer where
  /-- The pause is over; whether its whole time has passed. -/
  | slept (whole : Bool)
  | resolved
  | stopped
deriving Inhabited

namespace DrillCall

/-- The next move of a call. -/
def step (w : World) (d : Drill) : DrillCall → Option (Move DrillCall DrillAnswer × World × Drill)
  | .sleep signal ms =>
    match Pause.begin? w.now ms signal d.lifecycle with
    | none => some (.ends (.slept false), w, d)
    | some p => some (.goes (.pausing signal p), w, d)
  | .pausing signal p =>
    (p.ends? w.now signal d.lifecycle).map fun whole => (.ends (.slept whole), w, d)
  | .listen signal => if d.lifecycle.isReleased signal then some (.ends .resolved, w, d) else none
  | .stop s =>
    (Drill.rules.stop s w d).map fun (m, w, d) =>
      match m with
      | .goes s => (.goes (.stop s), w, d)
      | .ends () => (.ends .stopped, w, d)

/-- The instant at which a call moves by itself. -/
def deadline : DrillCall → Option Nat
  | .pausing _ p => some p.until_
  | _ => none

end DrillCall

/-- A drill with its calls as a system. -/
def Drill.system : System (World × Drill) Nat DrillCall DrillAnswer where
  now x := x.1.now
  setNow now x := ({ x.1 with ambient := { x.1.ambient with now } }, x.2)
  step call x := call.step x.1 x.2
  drop _ x := x
  deadline call _ := call.deadline
  tasks x := x.2.lifecycle.live.map Prod.fst
  stepTask handle x := Drill.rules.stepLive handle x.1 x.2
  taskDeadline handle x := Drill.rules.deadlineLive handle x.2

end EventDispatch
