import EventDispatch.Json.Parser
import EventDispatch.Span

/-!
# Errors

Why a call of the dispatcher fails, and the wording.

## Main definitions

* `ConfigError`: what is wrong with a configuration.
* `Error`: why a call fails.
* `Error.isAllocationFailure`: the call found no worker in time.
-/

namespace EventDispatch

/-- What is wrong with a configuration. -/
inductive ConfigError where
  /-- The configuration could not be loaded from its source. -/
  | loadFailed (source reason : String)
  /-- A field holds a value it may not hold. -/
  | invalidValue (field reason : String)
  /-- A field that has to be there is missing or blank. -/
  | missingField (field place : String)
  /-- The attributes of a trigger do not fit its kind. -/
  | invalidAttributes (trigger reason : String)
deriving DecidableEq, Repr

/-- The wording of a configuration error. -/
def ConfigError.message : ConfigError → String
  | .loadFailed source reason => "Failed to load configuration from " ++ source ++ ": " ++ reason
  | .invalidValue field reason => "Invalid value for '" ++ field ++ "': " ++ reason
  | .missingField field place => "Missing required field '" ++ field ++ "' in " ++ place
  | .invalidAttributes trigger reason =>
    "Failed to parse attributes of trigger '" ++ trigger ++ "': " ++ reason

/-- Why a call of the dispatcher fails. -/
inductive Error where
  /-- No worker is idle, and the caller does not wait. -/
  | noAvailableWorkers
  /-- No worker became idle in the time given, in milliseconds. -/
  | allocationTimeout (ms : UInt64)
  /-- The configuration rules the call out. -/
  | configuration (reason : String)
  /-- No factory is registered for a kind. -/
  | unknownKind (kind : String)
  /-- A factory is registered for a kind already. -/
  | duplicateKind (kind : String)
  /-- A broker, stream, store or socket refused. -/
  | transport (reason : String)
  /-- The call does not fit the state of its source or processor. -/
  | invalidState (reason : String)
  /-- A rule of the dispatcher's own was broken. -/
  | internal (reason : String)
deriving DecidableEq, Repr

namespace Error

/-- The wording of an error. -/
def message : Error → String
  | noAvailableWorkers => "No available workers"
  | allocationTimeout ms => "Timed out allocating worker after " ++ toString ms ++ "ms"
  | configuration reason => "Configuration error: " ++ reason
  | unknownKind kind => "Unknown kind: " ++ kind
  | duplicateKind kind => "Kind already registered: " ++ kind
  | transport reason => "Transport error: " ++ reason
  | invalidState reason => "Invalid state: " ++ reason
  | internal reason => "Internal error: " ++ reason

/-- The call found no worker in time. -/
def isAllocationFailure : Error → Bool
  | noAvailableWorkers | allocationTimeout _ => true
  | _ => false

/-- The failure of a wait for a worker after the time given. -/
def timedOut (limit : Span) : Error := allocationTimeout limit.millis

/-- A configuration error as the reason of a failed call. -/
def ofConfig (e : ConfigError) : Error := configuration e.message

/-- A JSON text or value that was refused, by the wording of the refusal. -/
def ofJson (reason : String) : Error := configuration ("JSON serialization error: " ++ reason)

end Error

end EventDispatch
