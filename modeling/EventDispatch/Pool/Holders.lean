import EventDispatch.Keyed
import EventDispatch.Schedule

/-!
# Callers of a pool

A pool together with callers who take its items, each under a label of its own. Who takes another item
under the same label gives the first one back.

## Main definitions

* `PoolHolders`: the pool and the items held.
* `PoolHolders.system`: the calls that take items, as a system.
-/

namespace EventDispatch

/-- A pool and the items that callers hold. -/
structure PoolHolders (α : Type) where
  now : Nat
  pool : Pool α
  held : Keyed α
deriving Inhabited

namespace PoolHolders

variable {α : Type}

/-- A pool whose items nobody holds. -/
def new (name : String) (items : List α) : PoolHolders α := ⟨0, .full name items, []⟩

/-- Holds an item under a label; one that was held there before goes back. -/
def hold (giveBack : α → Pool α → Pool α) (label : String) (item : α) (h : PoolHolders α) :
    PoolHolders α :=
  let pool := match h.held.get? label with
    | some old => giveBack old h.pool
    | none => h.pool
  { h with pool, held := h.held.insert label item }

/-- The calls that take items, those under a label to hold them; `giveBack` is how items go back. -/
def system (giveBack : α → Pool α → Pool α) :
    System (PoolHolders α) Empty (Option String × Acquire) (Except Error α) where
  now h := h.now
  setNow now h := { h with now }
  step := fun (label, acquire) h =>
    (acquire.step h.now h.pool).map fun (m, pool) =>
      let h := { h with pool }
      match m with
      | .goes next => (.goes (label, next), h)
      | .ends result =>
        (.ends result, match label, result with
          | some label, .ok item => h.hold giveBack label item
          | _, _ => h)
  drop := fun (_, acquire) h => { h with pool := acquire.drop h.pool }
  deadline := fun (_, acquire) _ => acquire.deadline
  tasks _ := []
  stepTask _ _ := none
  taskDeadline _ _ := none

end PoolHolders

end EventDispatch
