/-!
# Entries sorted by key

Tables of named entries: each name once, in the order of the names. All of the dispatcher's maps, from
the fields of a JSON object to the sources of a processor, are of this form.

## Main definitions

* `Keyed`: the tables, with `get?`, `insert`, `erase`, `keys` and `ofList`.

## Main results

* `Keyed.get?_insert`: what a table holds after an insertion.
-/

namespace EventDispatch

/-- Entries sorted by key. -/
abbrev Keyed (α : Type) := List (String × α)

namespace Keyed

variable {α β : Type}

/-- Sets an entry, in place if its key is there and otherwise where the order puts it. -/
def insert (key : String) (value : α) : Keyed α → Keyed α
  | [] => [(key, value)]
  | (k, v) :: rest =>
    if key = k then (key, value) :: rest
    else if key < k then (key, value) :: (k, v) :: rest
    else (k, v) :: insert key value rest

/-- The entry of a key. -/
def get? (key : String) : Keyed α → Option α
  | [] => none
  | (k, v) :: rest => if key = k then some v else get? key rest

/-- The table without an entry. -/
def erase (key : String) (table : Keyed α) : Keyed α := table.filter fun e => e.1 != key

/-- The keys, in order. -/
def keys (table : Keyed α) : List String := table.map Prod.fst

/-- The key has an entry. -/
def contains (key : String) (table : Keyed α) : Bool := (table.get? key).isSome

/-- Changes the entry of a key, if there is one. -/
def modify (key : String) (f : α → α) (table : Keyed α) : Keyed α :=
  table.map fun (k, v) => if k = key then (k, f v) else (k, v)

/-- The second table's entries laid over the first. -/
def merge (base upper : Keyed α) : Keyed α :=
  upper.foldl (fun acc (k, v) => insert k v acc) base

/-- A table from entries in any order; of two with one key the later counts. -/
def ofList (entries : List (String × α)) : Keyed α := merge [] entries

/-- A table with every entry changed. -/
def mapValues (f : α → β) (table : Keyed α) : Keyed β := table.map fun (k, v) => (k, f v)

@[simp] theorem get?_nil (key : String) : get? key ([] : Keyed α) = none := rfl

theorem get?_insert (key k : String) (value : α) (table : Keyed α) :
    (table.insert key value).get? k = if k = key then some value else table.get? k := by
  induction table with
  | nil => by_cases h : k = key <;> simp [insert, get?, h]
  | cons entry rest ih =>
    obtain ⟨k', v⟩ := entry
    by_cases h₁ : key = k'
    · subst h₁
      by_cases h : k = key <;> simp [insert, get?, h]
    · by_cases h₂ : key < k'
      · by_cases h : k = key <;> simp [insert, get?, h₁, h₂, h]
      · by_cases h : k = k'
        · subst h
          have : k ≠ key := fun h => h₁ h.symm
          simp [insert, get?, h₁, h₂, this]
        · simp [insert, get?, h₁, h₂, h, ih]

@[simp] theorem get?_insert_self (key : String) (value : α) (table : Keyed α) :
    (table.insert key value).get? key = some value := by simp [get?_insert]

end Keyed

end EventDispatch
