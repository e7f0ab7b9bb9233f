import EventDispatch.Settings.Layers
import EventDispatch.Station

/-!
# The command line

A processor run from the command line: it reads its options, loads its settings, makes its sources, and
then tells what it made, or starts the sources and runs.

## Main definitions

* `Parameter`, `Options`, `ArgumentFault`: what may be given, what was, and why arguments are refused.
* `Request.ofArguments`: what the arguments ask for.
* `Course`, `Options.launch`: what becomes of a run.
-/

namespace EventDispatch

/-- What may be given on the command line. -/
inductive Parameter where
  | config
  | check
  | statsInterval
  | forceStop
  | help
  | version
deriving DecidableEq, Repr

namespace Parameter

/-- All of them, in the order in which they are listed. -/
def all : List Parameter := [config, check, statsInterval, forceStop, help, version]

/-- The name behind two dashes. -/
def name : Parameter → String
  | config => "config"
  | check => "check"
  | statsInterval => "stats-interval-secs"
  | forceStop => "force-stop"
  | help => "help"
  | version => "version"

/-- The letter behind one dash. -/
def letter? : Parameter → Option Char
  | config => some 'c'
  | help => some 'h'
  | version => some 'V'
  | _ => none

/-- What stands for the value, if there is one. -/
def value? : Parameter → Option String
  | config => some "CONFIG"
  | statsInterval => some "STATS_INTERVAL_SECS"
  | _ => none

/-- What it does. -/
def purpose : Parameter → String
  | config => "Configuration file (default: config/processor.yaml)"
  | check => "Load and validate the configuration, build every trigger, then exit"
  | statsInterval => "Log per-trigger statistics at this interval (0 disables) [default: 0]"
  | forceStop => "Abandon in-flight work on shutdown instead of draining it"
  | help => "Print help"
  | version => "Print version"

/-- How it is written. -/
def spelling (p : Parameter) : String :=
  "--" ++ p.name ++ (match p.value? with
    | some v => " <" ++ v ++ ">"
    | none => "")

end Parameter

/-- Why arguments are refused. -/
inductive ArgumentFault where
  | unexpected (argument : String)
  | valueMissing (p : Parameter)
  | valueUnneeded (p : Parameter) (value : String)
  | repeated (p : Parameter)
  | invalidValue (p : Parameter) (value reason : String)
deriving DecidableEq, Repr

/-- The wording of a refusal. -/
def ArgumentFault.message : ArgumentFault → String
  | unexpected argument => "unexpected argument '" ++ argument ++ "' found"
  | valueMissing p => "a value is required for '" ++ p.spelling ++ "' but none was supplied"
  | valueUnneeded p value =>
    "unexpected value '" ++ value ++ "' for '" ++ p.spelling ++ "' found; no more were expected"
  | repeated p => "the argument '" ++ p.spelling ++ "' cannot be used multiple times"
  | invalidValue p value reason =>
    "invalid value '" ++ value ++ "' for '" ++ p.spelling ++ "': " ++ reason

/-- The options of a run. -/
structure Options where
  config : Option String := none
  check : Bool := false
  /-- Seconds between reports of the statistics; none at `0`. -/
  statsInterval : Nat := 0
  forceStop : Bool := false
deriving DecidableEq, Repr

/-- What arguments ask for. -/
inductive Request where
  | help
  | version
  | run (options : Options)
  | refused (fault : ArgumentFault)
deriving DecidableEq, Repr

namespace Request

/-- The options read so far. -/
structure Progress where
  options : Options := {}
  /-- What was given. -/
  given : List Parameter := []
  /-- What was named last, with its value if that followed; it counts only when the next one is known. -/
  pending : Option (Parameter × Option String) := none

/-- A natural number of 64 bits, after the one that its first digits stand for. -/
def readCount (value : Nat) : List Char → Except String Nat
  | [] => .ok value
  | c :: rest =>
    if !c.isDigit then .error "invalid digit found in string"
    else
      let value := value * 10 + (c.toNat - '0'.toNat)
      if value < Width.natural64 then readCount value rest
      else .error "number too large to fit in target type"

/-- A natural number of 64 bits. -/
def count (text : String) : Except String Nat :=
  match text.toList with
  | [] => .error "cannot parse integer from empty string"
  | '+' :: c :: rest => readCount 0 (c :: rest)
  | cs => readCount 0 cs

/-- Sets an option, or answers with another request at once. -/
def settle (p : Parameter) (value : Option String) (s : Progress) : Except Request Progress :=
  if p.value?.isSome && value.isNone then .error (.refused (.valueMissing p))
  else if s.given.contains p then .error (.refused (.repeated p))
  else
    let s := { s with given := p :: s.given }
    let value := value.getD ""
    match p with
    | .config =>
      if value.isEmpty then .error (.refused (.valueMissing p))
      else .ok { s with options := { s.options with config := some value } }
    | .check => .ok { s with options := { s.options with check := true } }
    | .statsInterval =>
      match count value with
      | .error reason => .error (.refused (.invalidValue p value reason))
      | .ok n => .ok { s with options := { s.options with statsInterval := n } }
    | .forceStop => .ok { s with options := { s.options with forceStop := true } }
    | .help => .error .help
    | .version => .error .version

/-- Sets the option that was named last. -/
def settlePending (s : Progress) : Except Request Progress :=
  match s.pending with
  | none => .ok s
  | some (p, value) => settle p value { s with pending := none }

/-- An option with the value that stands in the same argument, if one does. -/
def take (p : Parameter) (attached : Option String) (s : Progress) : Except Request Progress := do
  let s ← settlePending s
  if p.value?.isSome && attached.isNone then .ok { s with pending := some (p, none) }
  else settle p attached s

/-- An argument behind two dashes. -/
def readName (argument : List Char) (s : Progress) : Except Request Progress :=
  let name := String.ofList (argument.takeWhile (· ≠ '='))
  let attached := match argument.dropWhile (· ≠ '=') with
    | _ :: value => some (String.ofList value)
    | [] => none
  match Parameter.all.find? (·.name == name) with
  | none => .error (.refused (.unexpected ("--" ++ name)))
  | some p =>
    match p.value?, attached with
    | none, some value => .error (.refused (.valueUnneeded p value))
    | _, _ => take p attached s

/-- Letters behind one dash; one that needs a value takes what follows it. -/
def readLetters (s : Progress) : List Char → Except Request Progress
  | [] => .ok s
  | c :: rest =>
    match Parameter.all.find? (·.letter? == some c) with
    | none => .error (.refused (.unexpected (String.ofList ['-', c])))
    | some p =>
      if p.value?.isSome then
        take p (match rest with
          | [] => none
          | '=' :: value => some (String.ofList value)
          | value => some (String.ofList value)) s
      else
        match take p none s with
        | .ok s => readLetters s rest
        | .error r => .error r

/-- Reads the arguments. After two dashes by themselves all others stand for themselves. -/
def readArguments (s : Progress) : List String → Except Request Progress
  | [] => settlePending s
  | argument :: rest =>
    match argument.toList, s.pending with
    | ['-', '-'], _ =>
      match rest with
      | [] => settlePending s
      | next :: _ => .error (.refused (.unexpected next))
    | '-' :: '-' :: name, _ =>
      match readName name s with
      | .ok s => readArguments s rest
      | .error r => .error r
    | '-' :: c :: letters, _ =>
      match readLetters s (c :: letters) with
      | .ok s => readArguments s rest
      | .error r => .error r
    | _, some (p, none) => readArguments { s with pending := some (p, some argument) } rest
    | _, _ => .error (.refused (.unexpected argument))

/-- What arguments ask for. -/
def ofArguments (arguments : List String) : Request :=
  match readArguments {} arguments with
  | .ok s => .run s.options
  | .error r => r

end Request

/-! ### Runs -/

/-- What a run that has ended leaves behind. -/
structure Output where
  code : UInt32
  /-- Lines on the standard output. -/
  out : List String := []
  /-- Lines on the standard error output. -/
  err : List String := []
deriving DecidableEq, Repr

namespace Output

/-- The name of the program. -/
def programName : String := "eventsource-processor"

/-- How the program is called. -/
def usage : String := "Usage: " ++ programName ++ " [OPTIONS]"

/-- The options and what they do. -/
def help : Output where
  code := 0
  out := ["Dispatch trigger events to function workers", "", usage, "", "Options:"] ++
    Parameter.all.flatMap fun p =>
      ["  " ++ (match p.letter? with
          | some c => String.ofList ['-', c, ',', ' ']
          | none => "    ") ++ p.spelling,
        "          " ++ p.purpose]

/-- The version of the program. -/
def version : Output := { code := 0, out := [programName ++ " 0.1.0"] }

/-- The refusal of arguments. -/
def refusal (fault : ArgumentFault) : Output where
  code := 2
  err := ["error: " ++ fault.message, "", usage, "", "For more information, try '--help'."]

/-- The failure of a step of the run, and its cause. -/
def failure (step cause : String) : Output where
  code := 1
  err := ["Error: " ++ step, "", "Caused by:", "    " ++ cause]

/-- What a processor was made of. -/
def description (p : Processor) : Output where
  code := 0
  out := p.sources.map fun (id, source) =>
    id ++ ": kind=" ++ source.info.kind ++ " class=" ++ source.info.class_.name ++ " workers=" ++
      toString source.desk.crew.members.length

end Output

/-- A processor at work. -/
abbrev StationRun := Schedule Station (String × Nat) Operation Answer

/-- What becomes of a run. -/
inductive Course where
  | ends (output : Output)
  | runs (run : StationRun)

namespace Options

/-- Where the settings are read from if no file is named. -/
def defaultConfig : String := "config/processor.yaml"

/-- Starts the sources of a processor. -/
def start (p : Processor) : Course :=
  let station := Station.new (.start ⟨0, 0⟩ .echo) p
  match (Schedule.start Station.system station).perform Station.system 0 (.run (.begin [])) with
  | (some (.ran (.started (.error e))), _) =>
    .ends (.failure "Failed to start event sources" e.message)
  | (_, run) => .runs run

/-- Runs a processor with settings from a layer, if it could be read, and the environment. -/
def launch (options : Options) (base : Except LoadFault Json.Object) (environment : Keyed String) :
    Course :=
  match ProcessorSettings.load (options.config.getD defaultConfig) base environment with
  | .error e => .ends (.failure "Failed to load configuration" e.message)
  | .ok settings =>
    match Processor.new settings .builtin with
    | .error e => .ends (.failure "Failed to create event sources" e.message)
    | .ok p => if options.check then .ends (.description p) else start p

end Options

end EventDispatch
