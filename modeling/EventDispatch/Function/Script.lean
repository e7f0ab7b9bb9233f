import EventDispatch.Error
import EventDispatch.Function

/-!
# Scripted functions

Functions given by rules: the first rule that fits an entry, and is not used up, says how the run ends.
Scripts, events and bodies are read from JSON.

## Main definitions

* `Json.bytes`: a body, as a text, in hexadecimal digits, or as a text repeated.
* `Event.ofJson`: an event.
* `Script.Rule`, `Script`: the rules; `Script.function` is the function.
-/

namespace EventDispatch

/-! ### Reading fields that have defaults -/

namespace Json

/-- A field, or null. -/
def get (key : String) (j : Json) : Json := (j.field? key).getD .null

/-- A field that is a text, or an empty one. -/
def getText (key : String) (j : Json) : String := (j.get key).asString?.getD ""

/-- A field that is a natural number. -/
def getNat? (key : String) (j : Json) : Option Nat := (j.get key).asNat?

/-- A field that is true. -/
def getBool (key : String) (j : Json) : Bool :=
  match j.get key with
  | .bool b => b
  | _ => false

/-- The items of a field that is a list, or none. -/
def getItems (key : String) (j : Json) : List Json :=
  match j.get key with
  | .arr items => items
  | _ => []

/-- The entries of a field that is an object, or none. -/
def getObject (key : String) (j : Json) : Object := (j.get key).asObject?.getD []

/-- The texts among the entries of a field. -/
def getTexts (key : String) (j : Json) : Keyed String :=
  (j.getObject key).filterMap fun (k, v) => v.asString?.map ((k, ·))

/-- The bytes written as pairs of hexadecimal digits. -/
private def bytesOfHex : List Char → ByteArray → ByteArray
  | a :: b :: rest, done =>
    let value (c : Char) : Nat := (Decimal.hexDigit? c).getD 0
    bytesOfHex rest (done.push (UInt8.ofNat (value a * 16 + value b)))
  | _, done => done

/-- A text some times over, in bytes. -/
private def repeatBytes (part : ByteArray) : Nat → ByteArray → ByteArray
  | 0, done => done
  | count + 1, done => repeatBytes part count (done ++ part)

/-- A body: a text, hexadecimal digits, or a text repeated. -/
def bytes : Json → ByteArray
  | .str s => s.toUTF8
  | j =>
    match (j.get "hex").asString? with
    | some digits => bytesOfHex digits.toList .empty
    | none => repeatBytes (j.getText "repeat").toUTF8 ((j.getNat? "count").getD 0) .empty

end Json

/-- An event; what the value leaves out is empty, and its time then the one given. A time that the
calendar does not know counts as its start. -/
def Event.ofJson (now : Timestamp) (j : Json) : Event :=
  { Event.blank now with
    id := j.getText "id"
    body := (j.get "body").bytes
    headers := j.getTexts "headers"
    contentType := j.getText "content_type"
    method := j.getText "method"
    path := j.getText "path"
    attributes := j.getObject "attributes"
    timestamp :=
      match j.get "timestamp" with
      | .arr [secs, nanos] =>
        ((secs.asInt?.bind fun s => nanos.asNat?.bind fun n => Timestamp.ofParts? s n)).getD ⟨0, 0⟩
      | _ => now }

/-! ### Rules -/

/-- A rule: which entries it fits, how often it may be used, and how the run ends. -/
structure Script.Rule where
  body : Option ByteArray
  path : Option String
  worker : Option Nat
  times : Option Nat
  result : Json
deriving Inhabited

/-- A function given by rules, and by the result for entries that no rule fits. -/
structure Script where
  rules : List Script.Rule
  default : Json
deriving Inhabited

namespace Script

/-- The rule fits an entry. -/
def Rule.fits (r : Rule) (e : Entry) : Bool :=
  r.body.all (· == e.event.body) && r.path.all (· == e.event.path) && r.worker.all (· == e.worker)

/-- A rule read from JSON. -/
def Rule.ofJson (j : Json) : Rule :=
  { body := (j.field? "body").map Json.bytes
    path := (j.get "path").asString?
    worker := j.getNat? "worker"
    times := j.getNat? "times"
    result := j.get "result" }

/-- A script read from JSON. -/
def ofJson (j : Json) : Script := ⟨(j.getItems "rules").map Rule.ofJson, j.get "default"⟩

/-- The number of the first rule that fits an entry and is not used up. -/
def pick (s : Script) (used : List Nat) (e : Entry) : Option Nat :=
  (s.rules.zip used).findIdx? fun (r, n) => r.fits e && r.times.all (n < ·)

/-- How often each rule was used for some entries. Rules without a limit are not counted. -/
def used (s : Script) (past : Array Entry) : List Nat :=
  let none_ := s.rules.map fun _ => 0
  if s.rules.all (·.times.isNone) then none_
  else past.foldl (fun used e =>
    match s.pick used e with
    | some i => used.modify i (· + 1)
    | none => used) none_

/-- How a run ends, by the result that a rule gives. -/
def conclusion (event : Event) (result : Json) : Conclusion :=
  let body := (result.get "body").bytes
  let status := result.getNat? "status_code"
  match result.getText "type" with
  | "bytes" => .answers (.bytes body)
  | "text" => .answers (.text ((String.fromUTF8? body).getD ""))
  | "empty" => .answers .empty
  | "structured" =>
    if result.getBool "short" then .answers (.structured status [] body none)
    else
      .answers (.structured status (result.getTexts "headers") body (result.get "content_type").asString?)
  | "error" => .fails ⟨result.getText "message", status⟩
  | "panic" =>
    let payload := result.getText "payload"
    .panics (if payload = "str" || payload = "string" then some (result.getText "message") else none)
  | _ => .answers (.text (event.bodyText?.getD ""))

/-- The function of a script. -/
def function (s : Script) : Function := fun past entry =>
  let result :=
    match (s.pick (s.used past) entry).bind (s.rules[·]?) with
    | some r => r.result
    | none => s.default
  ⟨(result.getNat? "delay_ms").getD 0, conclusion entry.event result⟩

end Script

end EventDispatch
