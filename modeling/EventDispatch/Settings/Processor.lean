import EventDispatch.Error
import EventDispatch.Settings.Readers
import EventDispatch.Text.Blank

/-!
# Settings of a processor

The function's kind and the triggers, as a configuration gives them.

## Main definitions

* `RuntimeSettings`, `TriggerSettings`, `ProcessorSettings`, each with `decode` and `toJson`.
* `ProcessorSettings.validate`: what every configuration has to satisfy.
* `TriggerSettings.workerCount`, `TriggerSettings.typed`: what a kind of source asks a trigger for.
-/

namespace EventDispatch

/-- The kind of function that workers run, and what it is told. -/
structure RuntimeSettings where
  kind : String := "echo"
  handler : Option String := none
  attributes : Json.Object := []
deriving Inhabited

/-- A trigger: its kind, its workers, and what its source is told. -/
structure TriggerSettings where
  kind : String
  numWorkers : Option Nat := none
  /-- How long a submission waits for a worker, in milliseconds. -/
  workerTimeout : Nat := 10000
  attributes : Json.Object := []
deriving Inhabited

/-- The settings of a processor. -/
structure ProcessorSettings where
  runtime : RuntimeSettings := {}
  triggers : Keyed TriggerSettings := []
deriving Inhabited

namespace RuntimeSettings

/-- The fields. -/
def shape (r : Readers) : Shape RuntimeSettings :=
  ((Shape.field "kind" r.text none).and ((Shape.field "handler" (.orNull r.text) (some none)).and
    (Shape.field "attributes" r.attributes (some [])))).map fun (kind, handler, attributes) =>
      { kind, handler, attributes }

/-- Reads the settings. -/
def decodeWith (r : Readers) : Decoder RuntimeSettings := r.record "RuntimeConfig" (shape r)

/-- Reads the settings strictly. -/
def decode : Decoder RuntimeSettings := decodeWith .strict

/-- The settings with all defaults written out. -/
def toJson (s : RuntimeSettings) : Json :=
  .obj [("attributes", .obj s.attributes),
    ("handler", match s.handler with
      | some h => .str h
      | none => .null),
    ("kind", .str s.kind)]

end RuntimeSettings

namespace TriggerSettings

/-- The fields. -/
def shape (r : Readers) : Shape TriggerSettings :=
  ((Shape.field "kind" r.text none).and
    ((Shape.field "num_workers" (.orNull (r.natural "usize")) (some none)).and
      ((Shape.field "worker_availability_timeout_ms" (r.natural "u64") (some 10000)).and
        (Shape.field "attributes" r.attributes (some []))))).map
    fun (kind, numWorkers, workerTimeout, attributes) =>
      { kind, numWorkers, workerTimeout, attributes }

/-- Reads the settings. -/
def decodeWith (r : Readers) : Decoder TriggerSettings := r.record "TriggerConfig" (shape r)

/-- Reads the settings strictly. -/
def decode : Decoder TriggerSettings := decodeWith .strict

/-- The settings with all defaults written out. -/
def toJson (s : TriggerSettings) : Json :=
  .obj [("attributes", .obj s.attributes), ("kind", .str s.kind),
    ("num_workers", match s.numWorkers with
      | some n => .num (.natural n)
      | none => .null),
    ("worker_availability_timeout_ms", .num (.natural s.workerTimeout))]

/-- The number of workers asked for, or a default; never zero. -/
def workerCount (id : String) (default : Nat) (s : TriggerSettings) : Except ConfigError Nat :=
  let count := s.numWorkers.getD default
  if count = 0 then
    .error (.invalidValue "num_workers" ("trigger '" ++ id ++ "' needs at least one worker"))
  else .ok count

/-- The attributes as the settings of a kind of source. -/
def typed {α : Type} (id : String) (decoder : Decoder α) (s : TriggerSettings) :
    Except ConfigError α :=
  match decoder (.obj s.attributes) with
  | .ok x => .ok x
  | .error e => .error (.invalidAttributes id e.message)

end TriggerSettings

namespace ProcessorSettings

/-- The fields. -/
def shape (r : Readers) : Shape ProcessorSettings :=
  ((Shape.field "runtime" (RuntimeSettings.decodeWith r) (some {})).and
    (Shape.field "triggers" (.tableOf (TriggerSettings.decodeWith r)) (some []))).map
    fun (runtime, triggers) => { runtime, triggers }

/-- Reads the settings. -/
def decodeWith (r : Readers) : Decoder ProcessorSettings := r.record "ProcessorConfig" (shape r)

/-- Reads the settings strictly. -/
def decode : Decoder ProcessorSettings := decodeWith .strict

/-- The settings with all defaults written out. -/
def toJson (s : ProcessorSettings) : Json :=
  .obj [("runtime", s.runtime.toJson),
    ("triggers", .obj (s.triggers.mapValues TriggerSettings.toJson))]

/-- The triggers in order: each has a kind, and none asks for zero workers. -/
def validateTriggers : Keyed TriggerSettings → Except ConfigError Unit
  | [] => .ok ()
  | (id, trigger) :: rest =>
    if Text.isBlank trigger.kind then .error (.missingField "kind" ("trigger '" ++ id ++ "'"))
    else
      match trigger.workerCount id 1 with
      | .error e => .error e
      | .ok _ => validateTriggers rest

/-- What every configuration has to satisfy. -/
def validate (s : ProcessorSettings) : Except ConfigError Unit :=
  if Text.isBlank s.runtime.kind then .error (.missingField "kind" "runtime")
  else validateTriggers s.triggers

end ProcessorSettings

end EventDispatch
