import EventDispatch.Factory

/-!
# Processors

The sources of a configuration, made, started and stopped together. A processor is made as a whole or
not at all; where a source does not start, those that have started are stopped again.

## Main definitions

* `Processor`, `Processor.new`: a processor, and how it is made.
* `Processor.statistics`, `Processor.describe`: what it tells.
* `ProcessorCall`: one call that starts or stops it.
-/

namespace EventDispatch

/-- The sources by id, and whether they were started. -/
structure Processor where
  sources : Keyed Source
  running : Bool
deriving Inhabited

/-- Checkpoints of sources by id. -/
abbrev Checkpoints := Keyed (Option String)

namespace Processor

/-- Makes the sources of triggers in order, up to the first that cannot be made. -/
def makeSources (registry : Registry SourceFactory) (workshop : Workshop) :
    Keyed TriggerSettings → Except Error (Keyed Source)
  | [] => .ok []
  | (id, trigger) :: rest =>
    match registry.get trigger.kind with
    | .error e => .error e
    | .ok factory =>
      match factory id trigger workshop with
      | .error e => .error e
      | .ok source => (makeSources registry workshop rest).map ((id, source) :: ·)

/-- Makes a processor: the configuration is valid, its kind of runtime is known, and every source can
be made. -/
def new (settings : ProcessorSettings) (registries : Registries SourceFactory RuntimeFactory) :
    Except Error Processor :=
  match settings.validate with
  | .error e => .error (.ofConfig e)
  | .ok () =>
    match registries.runtimes.get settings.runtime.kind with
    | .error e => .error e
    | .ok runtime =>
      (makeSources registries.sources ⟨runtime, settings.runtime⟩ settings.triggers).map
        fun sources => { sources, running := false }

/-- What each source handled. -/
def statistics (p : Processor) : Keyed SourceCounts := p.sources.mapValues Source.counts

/-- The ids of the sources and whether they were started, as a text. -/
def describe (p : Processor) : String :=
  "Processor \x7b sources: " ++ Text.listed p.sources.keys ++ ", running: " ++ toString p.running ++
    " \x7d"

/-- The processor with one source in a new state. -/
def setSource (id : String) (source : Source) (p : Processor) : Processor :=
  { p with sources := p.sources.modify id fun _ => source }

/-- Lets something happen to one source. -/
def onSource {α : Type} (id : String) (p : Processor) (f : Source → Option (α × World × Source)) :
    Option (α × World × Processor) :=
  match p.sources.get? id with
  | none => none
  | some source => (f source).map fun (x, w, source) => (x, w, p.setSource id source)

end Processor

/-- One call that starts or stops a processor. -/
inductive ProcessorCall where
  | begin (checkpoints : Checkpoints)
  /-- Some sources have started, in this order; the others are still to start. -/
  | starting (checkpoints : Checkpoints) (started rest : List String)
  /-- A source did not start; those that have are being stopped. -/
  | undoing (e : Error) (rest : List String) (stop : Stop)
  | halt (force : Bool)
  /-- Sources are being stopped one after the other. -/
  | stopping (force : Bool) (done : Checkpoints) (failure : Option Error) (rest : List String)
      (stop : Stop)
deriving Inhabited

/-- What a call that starts or stops a processor answers. -/
inductive ProcessorAnswer where
  | started (result : Except Error Unit)
  | stopped (result : Except Error Checkpoints)

namespace ProcessorCall

/-- The next move. Sources start and stop in the order of their ids. -/
def step (w : World) (p : Processor) :
    ProcessorCall → Option (Move ProcessorCall ProcessorAnswer × World × Processor)
  | .begin checkpoints =>
    if p.running then
      some (.ends (.started (.error (.invalidState "Processor is already running"))), w, p)
    else some (.goes (.starting checkpoints [] p.sources.keys), w, { p with running := true })
  | .starting _ _ [] => some (.ends (.started (.ok ())), w, p)
  | .starting checkpoints started (id :: rest) =>
    p.onSource id fun source =>
      match source.start ((checkpoints.get? id).getD none) w with
      | (.ok (), w, source) => some (.goes (.starting checkpoints (started ++ [id]) rest), w, source)
      | (.error e, w, source) => some (.goes (.undoing e started (.ready true)), w, source)
  | .undoing e [] _ => some (.ends (.started (.error e)), w, { p with running := false })
  | .undoing e (id :: rest) stop =>
    p.onSource id fun source =>
      (source.stepStop stop w).map fun (m, w, source) =>
        match m with
        | .goes stop => (.goes (.undoing e (id :: rest) stop), w, source)
        | .ends _ => (.goes (.undoing e rest (.ready true)), w, source)
  | .halt force =>
    some (.goes (.stopping force [] none p.sources.keys (.ready force)), w, { p with running := false })
  | .stopping _ done failure [] _ =>
    some (.ends (.stopped (match failure with
      | some e => .error e
      | none => .ok done)), w, p)
  | .stopping force done failure (id :: rest) stop =>
    p.onSource id fun source =>
      (source.stepStop stop w).map fun (m, w, source) =>
        match m with
        | .goes stop => (.goes (.stopping force done failure (id :: rest) stop), w, source)
        | .ends (.ok token) =>
          (.goes (.stopping force (done.insert id token) failure rest (.ready force)), w, source)
        | .ends (.error e) =>
          (.goes (.stopping force done (failure <|> some e) rest (.ready force)), w, source)

end ProcessorCall

end EventDispatch
