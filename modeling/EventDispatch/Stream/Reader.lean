import EventDispatch.Json.Printer
import EventDispatch.Settings.Adapters
import EventDispatch.Task

/-!
# Sources that read a stream

A source with one task for each shard. A task takes a worker for the whole run, finds the position
where it starts, and then fetches batches of records and gives them to its worker in order. The sequence
number of the last record handled in each shard is the source's checkpoint.

## Main definitions

* `StreamSource`: the state of the source.
* `Reader`: the state of one of its tasks.
* `StreamSource.start`, `StreamSource.checkpoint`: where runs start and what they leave.
* `StreamSource.rules`: how the tasks behave.
-/

namespace EventDispatch

/-- One task of a source that reads a stream. Where it holds a worker, the state names it. -/
inductive Reader where
  /-- About to take a worker, unless it is told to stop. -/
  | hiring (shard : String) (allocation : Allocation)
  /-- Asking for the position where to start. -/
  | locating (shard : String) (worker : Worker) (resume : Option String) (trip : Trip)
  /-- Pausing after a failed call for the position. -/
  | relocating (shard : String) (worker : Worker) (resume : Option String) (pause : Pause)
  /-- About to pause before the next fetch. -/
  | idle (shard : String) (worker : Worker) (position : String)
  | pausing (shard : String) (worker : Worker) (position : String) (pause : Pause)
  | fetching (shard : String) (worker : Worker) (position : String) (trip : Trip)
  /-- Between two records of a batch. -/
  | between (shard : String) (worker : Worker) (rest : List Record) (next : String)
  | handling (shard : String) (worker : Worker) (record : Record) (rest : List Record)
      (next : String) (assignment : Assignment)
deriving Inhabited

/-- The worker that a task holds. -/
def Reader.worker? : Reader → Option Worker
  | hiring _ _ => none
  | locating _ worker _ _ | relocating _ worker _ _ | idle _ worker _ | pausing _ worker _ _
  | fetching _ worker _ _ | between _ worker _ _ | handling _ worker _ _ _ _ => some worker

/-- A source that reads a stream. -/
structure StreamSource where
  desk : Desk
  settings : StreamSettings
  /-- The sequence number of the last record handled, by shard. -/
  positions : Keyed String
  lifecycle : Lifecycle (Task Reader)
deriving Inhabited

namespace StreamSource

/-- A source that never ran. -/
def new (info : SourceInfo) (settings : StreamSettings) (crew : Crew) : StreamSource :=
  { desk := .new info crew, settings, positions := [], lifecycle := .new }

/-- The event made of a record. -/
def event (shard : String) (record : Record) : Event :=
  { Event.blank record.arrivedAt with
    id := record.sequence
    body := record.data
    path := shard
    attributes := [("partition_key", .str record.key), ("sequence_number", .str record.sequence),
      ("shard_id", .str shard)] }

/-- Gives the task's worker back. -/
def quit (worker : Worker) (w : World) (s : StreamSource) :
    Option (Move Reader Unit × World × StreamSource) :=
  some (.ends (), w, { s with desk := s.desk.release worker })

/-- The next move of a task. A task that waits for a worker, or fetches records, goes on with either when the
signal is there too; here it takes the signal. That it takes the other is the run in which it moves before
the signal is sent. -/
def step (signal : Signal) (task : Reader) (w : World) (s : StreamSource) :
    Option (Move Reader Unit × World × StreamSource) :=
  match task with
  | .hiring shard allocation =>
    if s.lifecycle.isReleased signal then
      some (.ends (), w, { s with desk := s.desk.dropAcquire allocation })
    else
      match allocation.step w.ambient s.desk with
      | none => none
      | some (.goes allocation, desk) => some (.goes (.hiring shard allocation), w, { s with desk })
      | some (.ends (.error _), desk) => some (.ends (), w, { s with desk })
      | some (.ends (.ok worker), desk) =>
        let resume := s.positions.get? shard
        some (.goes (.locating shard worker resume .leaving), w, { s with desk })
  | .locating shard worker resume trip =>
    let w := match trip with
      | .leaving =>
        let asked := (s.settings.streamName, shard, resume)
        { w with clients := { w.clients with initialCalls := w.clients.initialCalls ++ [asked] } }
      | .underway _ => w
    let retry (w : World) : Option (Move Reader Unit × World × StreamSource) :=
      match Pause.begin? w.now s.settings.pollInterval signal s.lifecycle with
      | none => quit worker w s
      | some pause => some (.goes (.relocating shard worker resume pause), w, s)
    match w.stepTrip .initialPosition trip with
    | none => none
    | some (.goes trip, w) => some (.goes (.locating shard worker resume trip), w, s)
    | some (.ends (some _), w) => retry w
    | some (.ends none, w) =>
      match w.clients.stream.initialPosition shard resume with
      | .error _ => retry w
      | .ok position => some (.goes (.idle shard worker position), w, s)
  | .relocating shard worker resume pause =>
    match pause.ends? w.now signal s.lifecycle with
    | none => none
    | some true => some (.goes (.locating shard worker resume .leaving), w, s)
    | some false => quit worker w s
  | .idle shard worker position =>
    match Pause.begin? w.now s.settings.pollInterval signal s.lifecycle with
    | none => quit worker w s
    | some pause => some (.goes (.pausing shard worker position pause), w, s)
  | .pausing shard worker position pause =>
    match pause.ends? w.now signal s.lifecycle with
    | none => none
    | some true => some (.goes (.fetching shard worker position .leaving), w, s)
    | some false => quit worker w s
  | .fetching shard worker position trip =>
    if s.lifecycle.isReleased signal then quit worker w s
    else
      match w.stepTrip .getRecords trip with
      | none => none
      | some (.goes trip, w) => some (.goes (.fetching shard worker position trip), w, s)
      | some (.ends (some _), w) => some (.goes (.idle shard worker position), w, s)
      | some (.ends none, w) =>
        let (fetched, stream) := w.clients.stream.getRecords shard position s.settings.batchSize
        let w : World := { w with clients := { w.clients with stream } }
        match fetched with
        | .refused _ => some (.goes (.idle shard worker position), w, s)
        | .overflow => quit worker w s
        | .batch b => some (.goes (.between shard worker b.records b.nextPosition), w, s)
  | .between shard worker rest next =>
    match rest with
    | [] => some (.goes (.idle shard worker next), w, s)
    | record :: rest =>
      if s.lifecycle.isTriggered signal then quit worker w s
      else
        let assignment := Assignment.ready worker (event shard record)
        some (.goes (.handling shard worker record rest next assignment), w, s)
  | .handling shard worker record rest next assignment =>
    match assignment.step w.ambient s.desk with
    | none => none
    | some (.goes assignment, ambient, desk) =>
      some (.goes (.handling shard worker record rest next assignment), { w with ambient },
        { s with desk })
    | some (.ends _, ambient, desk) =>
      some (.goes (.between shard worker rest next), { w with ambient },
        { s with desk, positions := s.positions.insert shard record.sequence })

/-- The instant at which a task moves by itself. -/
def deadline : Reader → Option Nat
  | .hiring _ allocation => allocation.deadline
  | .locating _ _ _ trip => trip.deadline
  | .relocating _ _ _ pause => some pause.until_
  | .idle _ _ _ => none
  | .pausing _ _ _ pause => some pause.until_
  | .fetching _ _ _ trip => trip.deadline
  | .between _ _ _ _ => none
  | .handling _ _ _ _ _ assignment => assignment.deadline

/-- Gives a task up: the worker it holds goes back. -/
def drop (task : Reader) (s : StreamSource) : StreamSource :=
  match task with
  | .hiring _ allocation => { s with desk := s.desk.dropAcquire allocation }
  | task =>
    match task.worker? with
    | some worker => { s with desk := s.desk.release worker }
    | none => s

/-- How the tasks of the source behave. -/
def rules : TaskRules StreamSource Reader where
  lifecycle s := s.lifecycle
  setLifecycle lifecycle s := { s with lifecycle }
  step := step
  drop task w s := (w, drop task s)
  deadline := deadline

/-- Lays the sequence numbers of a checkpoint over the source's own. -/
def restore (token : Option String) (s : StreamSource) : Except Error StreamSource :=
  match token with
  | none => .ok s
  | some text =>
    match Json.parseTexts text with
    | .error e => .error (.configuration ("Invalid stream checkpoint: " ++ e.message))
    | .ok entries => .ok { s with positions := s.positions.merge (Keyed.ofList entries) }

/-- Starts the source from a checkpoint, one task for each shard. -/
def start (token : Option String) (s : StreamSource) : Except Error Unit × StreamSource :=
  match s.restore token with
  | .error e => (.error e, s)
  | .ok s => rules.start (s.settings.shards.map (.hiring · (.asking none))) s

/-- The checkpoint: the sequence numbers by shard as JSON, once there is one. -/
def checkpoint (s : StreamSource) : Option String :=
  if s.positions.isEmpty then none
  else some (Json.obj (s.positions.mapValues Json.str)).render

end StreamSource

end EventDispatch
