import EventDispatch.Error

/-!
# Registries

Tables that say what to make for a kind: the sources for the kinds of triggers, and the functions for
the kinds of runtimes. A kind is registered once.

## Main definitions

* `Registry`, with `register` and `get`.
* `Registries`: the two tables of a processor, and the kinds that are registered together.

## Main results

* `Registry.get_register`: what a table holds after a registration.
-/

namespace EventDispatch

/-- What to make for each kind. -/
structure Registry (α : Type) where
  name : String
  entries : Keyed α
deriving Inhabited

namespace Registry

variable {α : Type}

/-- Registers a kind, unless it is taken. -/
def register (kind : String) (x : α) (r : Registry α) : Except Error (Registry α) :=
  if r.entries.contains kind then .error (.duplicateKind kind)
  else .ok { r with entries := r.entries.insert kind x }

/-- What is registered for a kind. -/
def get (kind : String) (r : Registry α) : Except Error α :=
  match r.entries.get? kind with
  | some x => .ok x
  | none => .error (.unknownKind kind)

/-- The registered kinds, in order. -/
def kinds (r : Registry α) : List String := r.entries.keys

/-- The table's name and kinds as a text. -/
def describe (r : Registry α) : String :=
  "Registry \x7b name: " ++ Text.quoted r.name ++ ", kinds: " ++ Text.listed r.kinds ++ " \x7d"

theorem get_register {kind k : String} {x : α} {r r' : Registry α}
    (h : r.register kind x = .ok r') :
    r'.get k = if k = kind then .ok x else r.get k := by
  unfold register at h
  split at h
  · simp at h
  · obtain rfl := Except.ok.inj h
    by_cases hk : k = kind <;> simp [get, Keyed.get?_insert, hk]

end Registry

/-- The tables of a processor: for the kinds of triggers, and for the kinds of runtimes. -/
structure Registries (α β : Type) where
  sources : Registry α
  runtimes : Registry β
deriving Inhabited

namespace Registries

variable {α β : Type}

/-- Tables without kinds. -/
def empty : Registries α β := ⟨⟨"event_sources", []⟩, ⟨"runtimes", []⟩⟩

/-- Registers kinds of triggers in order. Where one is taken, those before it stay registered. -/
def registerSources : List (String × α) → Registries α β → Option Error × Registries α β
  | [], r => (none, r)
  | (kind, x) :: rest, r =>
    match r.sources.register kind x with
    | .error e => (some e, r)
    | .ok sources => registerSources rest { r with sources }

/-- The two tables as a text. -/
def describe (r : Registries α β) : String :=
  "Registries \x7b sources: " ++ r.sources.describe ++ ", runtimes: " ++ r.runtimes.describe ++ " \x7d"

end Registries

end EventDispatch
