import EventDispatch.Event
import EventDispatch.Settings.Shape

/-!
# Classes of sources and checkpoints as JSON

## Main definitions

* `SourceClass.decode`: reads a class, from its name or from an object whose only field is its name.
* `decodeToken`, `tokenJson`: checkpoints.
-/

namespace EventDispatch

/-- The class of a name. -/
def SourceClass.ofName? (name : String) : Option SourceClass :=
  if name = "sync" then some .sync else if name = "async" then some .async else none

/-- Reads the name of a class. -/
private def classOfName (name : String) : Except DecodeError SourceClass :=
  match SourceClass.ofName? name with
  | some c => .ok c
  | none => .error (.unknownVariant name "`sync` or `async`")

/-- Reads a class, from its name or from an object whose only field has that name and is null. -/
def SourceClass.decode : Decoder SourceClass
  | .str name => classOfName name
  | .obj [(name, value)] =>
    match classOfName name, value with
    | .error e, _ => .error e
    | .ok c, .null => .ok c
    | .ok _, value => Decoder.mismatch "unit" value
  | .obj _ => .error (.invalidValue "map" "map with a single key")
  | value => Decoder.mismatch "string or map" value

/-- Reads a checkpoint: a text, or null for a cold start. -/
def decodeToken : Decoder (Option String) := .orNull .text

/-- A checkpoint as JSON. -/
def tokenJson : Option String → Json
  | some token => .str token
  | none => .null

end EventDispatch
