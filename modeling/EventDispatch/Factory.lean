import EventDispatch.Registry
import EventDispatch.Settings.Processor
import EventDispatch.Source

/-!
# Making sources

For every kind of trigger, how its source is made: the attributes are read as the settings of the kind,
these are checked, and then the workers are made. The first step that fails ends the making.

## Main definitions

* `RuntimeFactory`: what makes the functions of workers.
* `Workshop`: what makes crews.
* `SourceFactory`, with one function for each kind.
* `builtinSources`, `brokerSources`, `streamSources`, `itemSources`: the kinds, registered together.
-/

namespace EventDispatch

/-- What makes functions: the function, and the worker indices for which it refuses to. -/
structure RuntimeFactory where
  function : Function
  refuses : RuntimeSettings → Nat → Option Error
deriving Inhabited

/-- What makes the function that sends bodies back. -/
def RuntimeFactory.echo : RuntimeFactory := ⟨.echo, fun _ _ => none⟩

/-- What makes crews. -/
structure Workshop where
  runtime : RuntimeFactory
  settings : RuntimeSettings
deriving Inhabited

/-- A crew of workers; a single worker, or as many as are asked for. -/
def Workshop.crew (sharing : Sharing) (count : Nat) (w : Workshop) : Except Error Crew :=
  let count := match sharing with
    | .single => 1
    | _ => count
  (createWorkers (w.runtime.refuses w.settings) 0 count).map (Crew.ofIndices sharing)

/-- What makes sources of one kind from a trigger and its id. -/
abbrev SourceFactory := String → TriggerSettings → Workshop → Except Error Source

namespace TriggerSettings

/-- The attributes as settings that pass a check. -/
def checked {α : Type} (id : String) (decoder : Decoder α) (check : String → α → Except Error Unit)
    (t : TriggerSettings) : Except Error α :=
  match t.typed id decoder with
  | .error e => .error (.ofConfig e)
  | .ok settings => (check id settings).map fun _ => settings

/-- A shared crew of as many workers as the trigger asks for. -/
def sharedCrew (id : String) (default : Nat) (t : TriggerSettings) (w : Workshop) :
    Except Error Crew :=
  match t.workerCount id default with
  | .error e => .error (.ofConfig e)
  | .ok count => w.crew .shared count

end TriggerSettings

namespace SourceFactory

/-- No further check. -/
private def anySettings {α : Type} (_ : String) (_ : α) : Except Error Unit := .ok ()

/-- Makes a source that serves requests. -/
def http : SourceFactory := fun id trigger workshop =>
  match trigger.checked id HttpSettings.decode HttpSettings.check with
  | .error e => .error e
  | .ok settings => (trigger.sharedCrew id 1 workshop).map fun crew =>
      .http (.new ⟨id, "http", .sync⟩ settings trigger.workerTimeout crew)

/-- Makes a generator. -/
def generator : SourceFactory := fun id trigger workshop =>
  match trigger.checked id GeneratorSettings.decode GeneratorSettings.check with
  | .error e => .error e
  | .ok settings => (trigger.sharedCrew id 1 workshop).map fun crew =>
      .generator (.new ⟨id, "generator", .async⟩ settings trigger.workerTimeout crew)

/-- Makes a source that listens to a broker and leaves deliveries unacknowledged; it has a worker for
each processor of the machine unless the trigger asks for another number. -/
def nats (processors : Nat) : SourceFactory := fun id trigger workshop =>
  match trigger.checked id QueueSettings.decode anySettings with
  | .error e => .error e
  | .ok settings => (trigger.sharedCrew id processors workshop).map fun crew =>
      .queue (.new ⟨id, "nats", .async⟩ settings .never trigger.workerTimeout crew)

/-- Makes a source that listens to a broker, with a single worker, and acknowledges what was handled. -/
def rabbitMq : SourceFactory := fun id trigger workshop =>
  match trigger.checked id QueueSettings.decode anySettings with
  | .error e => .error e
  | .ok settings => (workshop.crew .single 1).map fun crew =>
      .queue (.new ⟨id, "rabbit-mq", .async⟩ settings .onSubmitSuccess trigger.workerTimeout crew)

/-- Makes a source that reads a stream, with a worker for each shard. -/
def kinesis : SourceFactory := fun id trigger workshop =>
  match trigger.checked id StreamSettings.decode StreamSettings.check with
  | .error e => .error e
  | .ok settings => (workshop.crew .exclusive settings.shards.length).map fun crew =>
      .stream (.new ⟨id, "kinesis", .async⟩ settings crew)

/-- Makes a source that polls an item store. -/
def itemPoller : SourceFactory := fun id trigger workshop =>
  match trigger.checked id ItemPollSettings.decode ItemPollSettings.check with
  | .error e => .error e
  | .ok settings => (trigger.sharedCrew id 1 workshop).map fun crew =>
      .poll (.new ⟨id, "v3io-item-poller", .async⟩ (.items (.new id settings)) settings.poll
        trigger.workerTimeout crew)

end SourceFactory

/-- The kinds that need no client. -/
def builtinSources : List (String × SourceFactory) :=
  [("http", .http), ("generator", .generator)]

/-- The kinds that need a broker. -/
def brokerSources (processors : Nat) : List (String × SourceFactory) :=
  [("nats", .nats processors), ("rabbit-mq", .rabbitMq)]

/-- The kinds that need a stream. -/
def streamSources : List (String × SourceFactory) := [("kinesis", .kinesis)]

/-- The kinds that need an item store. -/
def itemSources : List (String × SourceFactory) := [("v3io-item-poller", .itemPoller)]

/-- The kinds of runtimes that are always there. -/
def builtinRuntimes : List (String × RuntimeFactory) := [("echo", .echo)]

/-- The tables of a processor without clients. -/
def Registries.builtin : Registries SourceFactory RuntimeFactory :=
  let r : Registries SourceFactory RuntimeFactory := .empty
  { sources := { r.sources with entries := .ofList builtinSources }
    runtimes := { r.runtimes with entries := .ofList builtinRuntimes } }

end EventDispatch
