import EventDispatch.Settings.Processor
import EventDispatch.Yaml.Node

/-!
# Settings in layers

The settings of a processor come from a YAML file, over which the environment is laid. Every layer is a
table whose keys name places in the whole: `triggers.web.kind` lies two tables deep, `list[2]` in a
list. Tables are merged, everything else is replaced, and the case of keys does not count.

## Main definitions

* `LayerStep`, `readPath?`: the places that keys name.
* `Layers.overlay`, `Layers.put`: lays a value over another.
* `Layers.ofYaml`, `Layers.ofFile`, `Layers.ofEnvironment`: the layers.
* `LoadFault`: why no settings come out.
* `ProcessorSettings.load`: the settings that come out, if they are valid.
-/

namespace EventDispatch

/-- One step towards a place. -/
inductive LayerStep where
  /-- Into a table. -/
  | field (name : String)
  /-- Into a list; numbers below zero count from its end. -/
  | item (index : Int)
deriving DecidableEq, Repr

namespace Layers

/-! ### Places -/

/-- The characters of names in paths. -/
def isName (c : Char) : Bool := c.isAlphanum || c == ' ' || c == '_' || c == '-'

private def isGap (c : Char) : Bool := c == ' ' || c == '\t'

/-- The steps after a name: names behind points and numbers in square brackets. -/
def readSteps? : Nat → List Char → Option (List LayerStep)
  | _, [] => some []
  | 0, _ :: _ => none
  | fuel + 1, '.' :: rest =>
    let name := rest.takeWhile isName
    if name.isEmpty then none
    else (readSteps? fuel (rest.dropWhile isName)).map (.field (String.ofList name) :: ·)
  | fuel + 1, '[' :: rest =>
    let inner := rest.dropWhile isGap
    let (negative, digits) := match inner with
      | '-' :: rest => (true, rest)
      | _ => (false, inner)
    let number := digits.takeWhile Char.isDigit
    match Decimal.integer? 10 (if negative then '-' :: number else number),
        (digits.dropWhile Char.isDigit).dropWhile isGap with
    | some index, ']' :: rest => (readSteps? fuel rest).map (.item index :: ·)
    | _, _ => none
  | _, _ :: _ => none

/-- The place that a key names: the name it starts with, and the steps from there. -/
def readPath? (key : String) : Option (String × List LayerStep) :=
  let cs := key.toList
  let name := cs.takeWhile isName
  if name.isEmpty then none
  else (readSteps? cs.length (cs.dropWhile isName)).map (String.ofList name, ·)

/-! ### Laying values over others -/

/-- The value as a table; an empty one if it is none. -/
def tableOf (value : Json) : Json.Object := value.asObject?.getD []

/-- The value as a list; an empty one if it is none. -/
def listOf : Json → List Json
  | .arr items => items
  | _ => []

mutual

/-- A value laid over what stands in its place, if anything does: tables are merged, everything else
is replaced. -/
def overlay (value : Json) (old : Option Json) : Json :=
  match value with
  | .obj fields => overlayFields fields (old.getD (.obj []))
  | value => value

/-- Fields laid over a value, which becomes a table. -/
def overlayFields (fields : List (String × Json)) (old : Json) : Json :=
  match fields with
  | [] => old
  | (key, value) :: rest =>
    let key := Text.toLower key
    let table := tableOf old
    overlayFields rest (.obj (table.insert key (overlay value (table.get? key))))

end

/-- A value laid over the place that steps lead to. On the way, tables and lists take the place of
everything else, and lists grow as far as needed. -/
def put (value : Json) : List LayerStep → Json → Json
  | [], _ => value
  | [.field name], old => overlayFields [(name, value)] old
  | .field name :: rest, old =>
    let table := tableOf old
    .obj (table.insert name (put value rest ((table.get? name).getD .null)))
  | .item index :: rest, old =>
    let items := listOf old
    let place := if 0 ≤ index then index.toNat else items.length - index.natAbs
    let grown := items ++ List.replicate (place + 1 - items.length) .null
    .arr (grown.modify place (put value rest))

/-- A layer's entry laid over the whole. A key that is no path names a field. -/
def putEntry (key : String) (value : Json) (whole : Json) : Json :=
  let key := Text.toLower key
  match readPath? key with
  | some (name, steps) => put value (.field name :: steps) whole
  | none => put value [.field key] whole

/-- Layers laid over each other in order. -/
def join (layers : List Json.Object) : Json :=
  layers.foldl (fun whole layer => layer.foldl (fun whole (key, value) => putEntry key value whole) whole)
    (.obj [])

/-! ### Layers -/

mutual

/-- The value of a node; nothing if a real number cannot be read, or a key is neither a text nor a whole
number. -/
def ofNode? : Yaml.Node → Option Json
  | .undefined => some .null
  | .scalar v =>
    match v with
    | .null => some .null
    | .bool b => some (.bool b)
    | .int n => some (.ofInt n)
    | .real text => (Decimal.real? text.toList).map fun bits => .num (.real bits)
    | .text s => some (.str s)
  | .list items => (ofNodes? items).map .arr
  | .mapping entries => (ofEntries? entries).map fun fields => .obj (Keyed.ofList fields)

/-- The values of nodes. -/
def ofNodes? : List Yaml.Node → Option (List Json)
  | [] => some []
  | n :: rest => do return (← ofNode? n) :: (← ofNodes? rest)

/-- The fields of a mapping. -/
def ofEntries? : List (Yaml.Node × Yaml.Node) → Option (List (String × Json))
  | [] => some []
  | (key, value) :: rest => do
    let key ← match key with
      | .scalar (.text s) => some s
      | .scalar (.int n) => some (toString n)
      | _ => none
    return (key, ← ofNode? value) :: (← ofEntries? rest)

end

end Layers

/-- Why no settings come out of the layers. -/
inductive LoadFault where
  | unreadable
  | notYaml
  | severalDocuments (count : Nat)
  | notATable
  | misfit (e : DecodeError)
deriving DecidableEq, Repr

/-- The wording of a fault. -/
def LoadFault.message : LoadFault → String
  | unreadable => "the file cannot be read"
  | notYaml => "the text is not valid YAML"
  | severalDocuments count => "the text holds " ++ toString count ++ " documents"
  | notATable => "the document is not a table"
  | misfit e => e.message

namespace Layers

/-- The layer that a YAML text holds. A text without a document is an empty layer. -/
def ofYaml (text : String) : Except LoadFault Json.Object :=
  match Yaml.Node.documents? text with
  | none => .error .notYaml
  | some [] => .ok []
  | some [root] =>
    match ofNode? root with
    | none => .error .notYaml
    | some (.obj fields) => .ok fields
    | some _ => .error .notATable
  | some roots => .error (.severalDocuments roots.length)

/-- The layer that a YAML file holds. A byte order mark at its start is passed over. -/
def ofFile (text : String) : Except LoadFault Json.Object :=
  match text.toList with
  | c :: rest => ofYaml (if c = Char.ofNat 0xFEFF then String.ofList rest else text)
  | [] => .ok []

/-- What the names of the processor's variables start with, in small letters. -/
def variableStart : List Char := "processor__".toList

/-- Points in the place of double underscores. -/
def pointed : List Char → List Char
  | '_' :: '_' :: rest => '.' :: pointed rest
  | c :: rest => c :: pointed rest
  | [] => []

/-- The layer of the environment: the variables whose names start with the processor's name. -/
def ofEnvironment (environment : Keyed String) : Json.Object :=
  Keyed.ofList (environment.filterMap fun (name, value) =>
    let name := (Text.toLower name).toList
    if variableStart.isPrefixOf name then
      some (String.ofList (pointed (name.drop variableStart.length)), .str value)
    else none)

end Layers

/-- The settings of a processor from a layer, if it could be read, and the environment; they have to be
valid. A failure names where the layer came from. -/
def ProcessorSettings.load (source : String) (base : Except LoadFault Json.Object)
    (environment : Keyed String) : Except ConfigError ProcessorSettings :=
  match base with
  | .error fault => .error (.loadFailed source fault.message)
  | .ok base =>
    match decodeWith .lenient (Layers.join [base, Layers.ofEnvironment environment]) with
    | .error e => .error (.loadFailed source (LoadFault.misfit e).message)
    | .ok settings => settings.validate.map fun _ => settings

end EventDispatch
