import EventDispatch.Generator
import EventDispatch.Http.Source
import EventDispatch.Poll.Source
import EventDispatch.Queue.Listener
import EventDispatch.Stream.Reader

/-!
# Sources

A source of any kind: what it tells about itself, how it starts and stops, and how its tasks move. A
probe is a source that does nothing but note when it is started and stopped.

## Main definitions

* `Probe`, `Source`: the sources; `Source.desk`, `Source.config`, `Source.workers`.
* `Source.start`, `Source.stepStop`: the calls that start and stop a source.
* `Source.tasks`, `Source.stepTask`, `Source.taskDeadline`: its tasks.
-/

namespace EventDispatch

/-- A source that notes its starts and stops, and fails them if it is told to. -/
structure Probe where
  desk : Desk
  attributes : Json.Object
deriving Inhabited

namespace Probe

/-- An attribute that is a text. -/
def text? (name : String) (p : Probe) : Option String := (p.attributes.get? name).bind Json.asString?

/-- The failure that an attribute asks for. -/
def failure? (name : String) (p : Probe) : Option Error := (p.text? name).map .transport

end Probe

/-- A source of any kind. -/
inductive Source where
  | http (s : HttpSource)
  | generator (s : Generator)
  | queue (s : QueueSource)
  | stream (s : StreamSource)
  | poll (s : PollSource)
  | probe (s : Probe)
deriving Inhabited

namespace Source

/-- The desk of a source. -/
def desk : Source → Desk
  | http s => s.desk
  | generator s => s.desk
  | queue s => s.desk
  | stream s => s.desk
  | poll s => s.desk
  | probe s => s.desk

/-- The source with its desk in a new state. -/
def setDesk (desk : Desk) : Source → Source
  | http s => http { s with desk }
  | generator s => generator { s with desk }
  | queue s => queue { s with desk }
  | stream s => stream { s with desk }
  | poll s => poll { s with desk }
  | probe s => probe { s with desk }

/-- What events tell about the source. -/
def info (s : Source) : SourceInfo := s.desk.info

/-- What the source handled. -/
def counts (s : Source) : SourceCounts := s.desk.counts

/-- What each of its workers handled. -/
def workerCounts (s : Source) : List WorkerCounts := s.desk.crew.counts

/-- What the source tells of its settings. -/
def config : Source → Json
  | http s => s.settings.toJson
  | generator s => s.settings.toJson
  | queue s => s.toJson
  | stream s => s.settings.toJson
  | poll s => s.toJson
  | probe s => .obj s.attributes

/-! ### Starting and stopping -/

/-- Starts the source from a checkpoint, or without one. -/
def start (token : Option String) (w : World) : Source → Except Error Unit × World × Source
  | http s => let (result, s) := s.start; (result, w, http s)
  | generator s => let (result, s) := s.start; (result, w, generator s)
  | queue s => let (result, s) := s.start; (result, w, queue s)
  | stream s => let (result, s) := s.start token; (result, w, stream s)
  | poll s => let (result, s) := s.start; (result, w, poll s)
  | probe s =>
    let w := w.note (.started s.desk.info.id token)
    match s.failure? "fail_start" with
    | some e => (.error e, w, probe s)
    | none => (.ok (), w, probe s)

/-- One move of a call that stops a source with tasks; `finish` gives the checkpoint and the source
once all tasks have ended. -/
private def stepStopTasks {σ τ : Type} (rules : TaskRules σ τ) (wrap : σ → Source)
    (finish : σ → Option String × σ) (stop : Stop) (w : World) (s : σ) :
    Option (Move Stop (Except Error (Option String)) × World × Source) :=
  (rules.stop stop w s).map fun (m, w, s) =>
    match m with
    | .goes next => (.goes next, w, wrap s)
    | .ends () => let (token, s) := finish s; (.ends (.ok token), w, wrap s)

/-- One move of a call that stops the source; it ends with the checkpoint from which the source can go
on. -/
def stepStop (stop : Stop) (w : World) :
    Source → Option (Move Stop (Except Error (Option String)) × World × Source)
  | http s => stepStopTasks HttpSource.rules http (fun s => (none, { s with bound := false })) stop w s
  | generator s => stepStopTasks Generator.rules generator (none, ·) stop w s
  | queue s => stepStopTasks QueueSource.rules queue (none, ·) stop w s
  | stream s => stepStopTasks StreamSource.rules stream (fun s => (s.checkpoint, s)) stop w s
  | poll s => stepStopTasks PollSource.rules poll (none, ·) stop w s
  | probe s =>
    match stop with
    | .ready force =>
      let w := w.note (.stopped s.desk.info.id force)
      match s.failure? "fail_stop" with
      | some e => some (.ends (.error e), w, probe s)
      | none => some (.ends (.ok (s.text? "checkpoint")), w, probe s)
    | .joining _ => some (.ends (.ok (s.text? "checkpoint")), w, probe s)

/-! ### Tasks -/

/-- The handles of the tasks that have not ended. -/
def tasks : Source → List Nat
  | http s => s.lifecycle.live.map Prod.fst
  | generator s => s.lifecycle.live.map Prod.fst
  | queue s => s.lifecycle.live.map Prod.fst
  | stream s => s.lifecycle.live.map Prod.fst
  | poll s => s.lifecycle.live.map Prod.fst
  | probe _ => []

/-- The next move of a task, or nothing while it has to wait. -/
def stepTask (handle : Nat) (w : World) : Source → Option (World × Source)
  | http s => (HttpSource.rules.stepLive handle w s).map fun (w, s) => (w, http s)
  | generator s => (Generator.rules.stepLive handle w s).map fun (w, s) => (w, generator s)
  | queue s => (QueueSource.rules.stepLive handle w s).map fun (w, s) => (w, queue s)
  | stream s => (StreamSource.rules.stepLive handle w s).map fun (w, s) => (w, stream s)
  | poll s => (PollSource.rules.stepLive handle w s).map fun (w, s) => (w, poll s)
  | probe _ => none

/-- The instant at which a task moves by itself. -/
def taskDeadline (handle : Nat) : Source → Option Nat
  | http s => HttpSource.rules.deadlineLive handle s
  | generator s => Generator.rules.deadlineLive handle s
  | queue s => QueueSource.rules.deadlineLive handle s
  | stream s => StreamSource.rules.deadlineLive handle s
  | poll s => PollSource.rules.deadlineLive handle s
  | probe _ => none

end Source

end EventDispatch
