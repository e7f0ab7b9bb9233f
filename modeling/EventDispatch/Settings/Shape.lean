import EventDispatch.Json.Parser

/-!
# Reading records from JSON

A record is read from an object by the names of its fields, or from a list by their places. Fields of
an object are read in the order of their names, so the first misfit in that order is reported; only
then the fields that are missing, in the order in which the record declares them.

## Main definitions

* `DecodeError`: why a value does not fit, and the wording.
* `Decoder`, with `text`, `natural`, `boolean`, `listOf`, `orNull`, `tableOf`, `object`.
* `Shape`: the fields of a record; `Shape.field`, `Shape.decode`, `Shape.flatten`.
-/

namespace EventDispatch

/-- Why a JSON value does not fit. -/
inductive DecodeError where
  /-- A value of another type. -/
  | invalidType (found expected : String)
  /-- A value of the right type that is out of range. -/
  | invalidValue (found expected : String)
  | missingField (name : String)
  | unknownVariant (name expected : String)
  | invalidLength (length : Nat) (expected : String)
deriving DecidableEq, Repr

/-- The wording of a misfit. -/
def DecodeError.message : DecodeError → String
  | invalidType found expected => "invalid type: " ++ found ++ ", expected " ++ expected
  | invalidValue found expected => "invalid value: " ++ found ++ ", expected " ++ expected
  | missingField name => "missing field `" ++ name ++ "`"
  | unknownVariant name expected => "unknown variant `" ++ name ++ "`, expected " ++ expected
  | invalidLength length expected => "invalid length " ++ toString length ++ ", expected " ++ expected

/-- A value as misfits name it. -/
def Json.describe : Json → String
  | .null => "null"
  | .bool b => "boolean `" ++ toString b ++ "`"
  | .num n => n.describe
  | .str s => "string " ++ Text.quoted s
  | .arr _ => "sequence"
  | .obj _ => "map"

/-- How values of a type are read. -/
abbrev Decoder (α : Type) := Json → Except DecodeError α

namespace Decoder

/-- The refusal of a value of another type. -/
def mismatch {α : Type} (expected : String) (value : Json) : Except DecodeError α :=
  .error (.invalidType value.describe expected)

/-- A text. -/
def text : Decoder String
  | .str s => .ok s
  | value => mismatch "a string" value

/-- A whole number from zero up to 64 bits; `expected` names the type. -/
def natural (expected : String) : Decoder Nat
  | .num (.natural n) => .ok n
  | .num (.negative n) => .error (.invalidValue (Json.num (.negative n)).describe expected)
  | value => mismatch expected value

/-- A truth value. -/
def boolean : Decoder Bool
  | .bool b => .ok b
  | value => mismatch "a boolean" value

/-- Every item of a list. -/
def items {α : Type} (item : Decoder α) : List Json → Except DecodeError (List α)
  | [] => .ok []
  | value :: rest =>
    match item value with
    | .error e => .error e
    | .ok x => (items item rest).map (x :: ·)

/-- A list. -/
def listOf {α : Type} (item : Decoder α) : Decoder (List α)
  | .arr values => items item values
  | value => mismatch "a sequence" value

/-- A value that may be null. -/
def orNull {α : Type} (inner : Decoder α) : Decoder (Option α)
  | .null => .ok none
  | value => (inner value).map some

/-- An object as it is. -/
def object : Decoder Json.Object
  | .obj fields => .ok fields
  | value => mismatch "a map" value

/-- Every value of a table, in the order of the keys. -/
def entries {α : Type} (entry : Decoder α) : Json.Object → Except DecodeError (Keyed α)
  | [] => .ok []
  | (key, value) :: rest =>
    match entry value with
    | .error e => .error e
    | .ok x => (entries entry rest).map ((key, x) :: ·)

/-- A table of values by name. -/
def tableOf {α : Type} (entry : Decoder α) : Decoder (Keyed α)
  | .obj fields => entries entry fields
  | value => mismatch "a map" value

end Decoder

/-- The fields of a record `α`, in the order in which it declares them. -/
structure Shape (α : Type) where
  /-- The names of the fields, and whether a value fits. -/
  checks : List (String × (Json → Except DecodeError Unit))
  /-- The record, from an object whose fields fit. -/
  ofObject : Json.Object → Except DecodeError α
  /-- The record, from the items of a list from an index on; `expected` names the record's length. -/
  ofItems : (expected : String) → (index : Nat) → List Json → Except DecodeError (α × List Json)

namespace Shape

variable {α β : Type}

/-- A record of one field. A field without a default has to be there. -/
def field (name : String) (decoder : Decoder α) (default : Option α) : Shape α where
  checks := [(name, fun value => (decoder value).map fun _ => ())]
  ofObject fields :=
    match fields.get? name, default with
    | some value, _ => decoder value
    | none, some x => .ok x
    | none, none => .error (.missingField name)
  ofItems expected index items :=
    match items, default with
    | value :: rest, _ => (decoder value).map (·, rest)
    | [], some x => .ok (x, [])
    | [], none => .error (.invalidLength index expected)

/-- A record made from another. -/
def map (f : α → β) (s : Shape α) : Shape β where
  checks := s.checks
  ofObject fields := (s.ofObject fields).map f
  ofItems expected index items := (s.ofItems expected index items).map fun (x, rest) => (f x, rest)

/-- A record of two parts, one after the other. -/
def and (s : Shape α) (t : Shape β) : Shape (α × β) where
  checks := s.checks ++ t.checks
  ofObject fields :=
    match s.ofObject fields with
    | .error e => .error e
    | .ok x => (t.ofObject fields).map (x, ·)
  ofItems expected index items :=
    match s.ofItems expected index items with
    | .error e => .error e
    | .ok (x, rest) =>
      (t.ofItems expected (index + s.checks.length) rest).map fun (y, rest) => ((x, y), rest)

/-- The first misfit among the fields of an object, in the order of their names. -/
def checkFields (s : Shape α) : Json.Object → Except DecodeError Unit
  | [] => .ok ()
  | (name, value) :: rest =>
    match s.checks.lookup name with
    | none => s.checkFields rest
    | some check =>
      match check value with
      | .error e => .error e
      | .ok () => s.checkFields rest

/-- The record from an object. -/
def decodeObject (s : Shape α) (fields : Json.Object) : Except DecodeError α :=
  match s.checkFields fields with
  | .error e => .error e
  | .ok () => s.ofObject fields

/-- The record of a name from an object or a list. -/
def decode (name : String) (s : Shape α) : Decoder α
  | .obj fields => s.decodeObject fields
  | .arr values =>
    let count := s.checks.length
    let expected := "struct " ++ name ++ " with " ++ toString count ++
      (if count == 1 then " element" else " elements")
    match s.ofItems expected 0 values with
    | .error e => .error e
    | .ok (x, []) => .ok x
    | .ok (_, _ :: _) => .error (.invalidLength values.length "fewer elements in array")
  | value => Decoder.mismatch ("struct " ++ name) value

/-- A record of a name whose second part has its fields in the same object; the first part is read
before it. Such a record is not read from a list. -/
def flatten (name : String) (s : Shape α) (t : Shape β) : Decoder (α × β)
  | .obj fields =>
    match s.decodeObject fields with
    | .error e => .error e
    | .ok x => (t.decodeObject fields).map (x, ·)
  | value => Decoder.mismatch ("struct " ++ name) value

end Shape

end EventDispatch
