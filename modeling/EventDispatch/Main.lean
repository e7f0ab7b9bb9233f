import EventDispatch.CommandLine

/-!
# The program

Reads the arguments, the environment and the configuration file, and runs the processor that comes out
of them. A processor at work goes on until the program is interrupted.

## Main definitions

* `main`: the program.
-/

namespace EventDispatch

/-- The variables of the environment. -/
def readEnvironment : IO (Keyed String) := do
  try
    let bytes ← IO.FS.readBinFile "/proc/self/environ"
    let text := (String.fromUTF8? bytes).getD ""
    return Keyed.ofList ((text.splitOn (String.singleton (Char.ofNat 0))).filterMap fun entry =>
      let name := entry.toList.takeWhile (· ≠ '=')
      match entry.toList.drop name.length with
      | _ :: value => some (String.ofList name, String.ofList value)
      | [] => none)
  catch _ => return []

/-- The layer of settings in a file. Only a file that was not named may be missing. -/
def readLayer (config : Option String) : IO (Except LoadFault Json.Object) := do
  try
    return Layers.ofFile (← IO.FS.readFile (config.getD Options.defaultConfig))
  catch _ =>
    return if config.isSome then .error .unreadable else .ok []

/-- Writes what a run leaves behind. -/
def Output.write (output : Output) : IO UInt32 := do
  for line in output.out do IO.println line
  for line in output.err do IO.eprintln line
  return output.code

/-- Milliseconds between two looks at the clock. -/
def pace : Nat := 10

/-- Lets time pass for a processor at work. -/
partial def keepRunning (run : StationRun) : IO UInt32 := do
  let before ← IO.monoMsNow
  IO.sleep (UInt32.ofNat pace)
  keepRunning (run.advance Station.system ((← IO.monoMsNow) - before))

/-- Does what the arguments ask for. -/
def Request.serve : Request → IO UInt32
  | .help => Output.help.write
  | .version => Output.version.write
  | .refused fault => (Output.refusal fault).write
  | .run options => do
    match options.launch (← readLayer options.config) (← readEnvironment) with
    | .ends output => output.write
    | .runs atWork => keepRunning atWork

end EventDispatch

/-- The program. -/
def main (arguments : List String) : IO UInt32 :=
  (EventDispatch.Request.ofArguments arguments).serve
