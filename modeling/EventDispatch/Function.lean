import EventDispatch.Event

/-!
# Functions

What workers run. A function is entered with an event; after some time it answers with a response,
fails, or panics. Its answer may depend on everything it was entered with before.

## Main definitions

* `Response`, `Failure`, `Outcome`: what becomes of an event.
* `Conclusion`: how one run of a function ends; `Conclusion.outcome` is what the worker makes of it.
* `Function`: the functions, with `Function.echo`.
-/

namespace EventDispatch

/-- What a function answers. -/
inductive Response where
  /-- An answer with a status, headers and a type of content. -/
  | structured (status : Option Nat) (headers : Keyed String) (body : ByteArray)
      (contentType : Option String)
  | bytes (body : ByteArray)
  | text (body : String)
  | empty
deriving Inhabited

/-- Why a function failed, and the status it asks for. -/
structure Failure where
  message : String
  status : Option Nat
deriving DecidableEq, Repr, Inhabited

/-- What becomes of an event that was given to a worker. -/
abbrev Outcome := Except Failure Response

/-- The event was handled with success. -/
def Outcome.succeeded : Outcome → Bool
  | .ok _ => true
  | .error _ => false

/-- How one run of a function ends. -/
inductive Conclusion where
  | answers (response : Response)
  | fails (failure : Failure)
  /-- The run breaks off, with a text that tells why or without one. -/
  | panics (text : Option String)
deriving Inhabited

/-- What a worker makes of the end of a run: a panic is a failure without a status. -/
def Conclusion.outcome : Conclusion → Outcome
  | .answers response => .ok response
  | .fails failure => .error failure
  | .panics text => .error ⟨"Function panicked: " ++ text.getD "unknown panic", none⟩

/-- One entry into a function: the number by which it knows the worker, and the event. -/
structure Entry where
  worker : Nat
  event : Event
deriving Inhabited

/-- One run of a function: how long it takes, in milliseconds, and how it ends. -/
structure Run where
  takes : Nat
  conclusion : Conclusion
deriving Inhabited

/-- A function: the run that an entry starts, given all the entries before it. -/
def Function := Array Entry → Entry → Run

instance : Inhabited Function := ⟨fun _ _ => default⟩

/-- The function that sends every event's body back, with its type of content. -/
def Function.echo : Function := fun _ entry =>
  let event := entry.event
  ⟨0, .answers (.structured (some 200) [] event.body
    (if event.contentType.isEmpty then none else some event.contentType))⟩

end EventDispatch
