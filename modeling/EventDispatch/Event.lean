import EventDispatch.Json.Value
import EventDispatch.Timestamp

/-!
# Events

What a trigger hands to a function: a body with headers, attributes and the source it came from.

## Main definitions

* `SourceClass`, `SourceInfo`: what an event tells about its source.
* `Event`, with `header` and `reset`.
-/

namespace EventDispatch

/-- Whether the sender of an event waits for the function's answer. -/
inductive SourceClass where
  | sync
  | async
deriving DecidableEq, Repr, Inhabited

/-- The name of a class. -/
def SourceClass.name : SourceClass → String
  | .sync => "sync"
  | .async => "async"

/-- What an event tells about its source. -/
structure SourceInfo where
  id : String
  kind : String
  class_ : SourceClass
deriving DecidableEq, Repr, Inhabited

/-- What a trigger hands to a function. -/
structure Event where
  id : String
  body : ByteArray
  headers : Keyed String
  contentType : String
  method : String
  path : String
  timestamp : Timestamp
  attributes : Json.Object
  /-- The source that submitted the event. -/
  source : Option SourceInfo
deriving Inhabited

namespace Event

/-- An event that holds nothing but a time. -/
def blank (timestamp : Timestamp) : Event :=
  { id := "", body := .empty, headers := [], contentType := "", method := "", path := "",
    timestamp, attributes := [], source := none }

/-- Two names that differ at most in the case of ASCII letters. -/
def sameName (a b : String) : Bool := a.toList.map Char.toLower == b.toList.map Char.toLower

/-- The value of the first header of a name; the case of ASCII letters does not count. -/
def header (name : String) (e : Event) : Option String :=
  (e.headers.find? fun h => sameName h.1 name).map Prod.snd

/-- The body as a text, if it is one. -/
def bodyText? (e : Event) : Option String := String.fromUTF8? e.body

/-- The event emptied for its next use. -/
def reset (now : Timestamp) (_ : Event) : Event := blank now

end Event

end EventDispatch
