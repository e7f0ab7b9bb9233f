import EventDispatch.Pool

/-!
# The running and stopping of a source

A source that runs has background tasks and a signal that tells them to stop. A run begins with a
signal of its own; stopping sends it, takes the handles of the tasks spawned so far, gives these tasks
up if it is forced, and waits until all of them have ended.

## Main definitions

* `Lifecycle τ`: the state, for tasks of type `τ`; `begin`, `spawn`, `halt`, `replace`, `finish`.
* `Signal`: what a task listens to; `isTriggered`, `isReleased`.
* `Stop`: one call that stops the source.
* `Pause`: a wait that the signal cuts short.
-/

namespace EventDispatch

/-- The signal of one run, by the number of the run; number `0` stands before the first run. -/
abbrev Signal := Nat

/-- The state of a source's background work. -/
structure Lifecycle (τ : Type) where
  running : Bool
  /-- The signal of the run that began last. -/
  signal : Signal
  /-- The signals that were sent. -/
  sent : List Signal
  /-- Tasks that have not ended, each under its handle. -/
  live : List (Nat × τ)
  /-- Handles of tasks that no stop has taken yet. -/
  handles : List Nat
  nextHandle : Nat
deriving Repr, Inhabited

namespace Lifecycle

variable {τ : Type}

/-- A source that never ran. -/
def new : Lifecycle τ :=
  { running := false, signal := 0, sent := [], live := [], handles := [], nextHandle := 0 }

/-- The signal was sent. -/
def isTriggered (signal : Signal) (l : Lifecycle τ) : Bool := l.sent.contains signal

/-- Whoever waits for the signal goes on: it was sent, or a later run replaced it. -/
def isReleased (signal : Signal) (l : Lifecycle τ) : Bool :=
  l.isTriggered signal || signal < l.signal

/-- Begins a run, unless one is going on. -/
def begin (l : Lifecycle τ) : Except Error Signal × Lifecycle τ :=
  if l.running then (.error (.invalidState "Event source is already running"), l)
  else
    let signal := l.signal + 1
    (.ok signal, { l with running := true, signal })

/-- Starts a background task. -/
def spawn (task : τ) (l : Lifecycle τ) : Lifecycle τ :=
  { l with live := l.live ++ [(l.nextHandle, task)], handles := l.handles ++ [l.nextHandle],
           nextHandle := l.nextHandle + 1 }

/-- Starts several background tasks in order. -/
def spawnAll (tasks : List τ) (l : Lifecycle τ) : Lifecycle τ := tasks.foldl (fun l t => l.spawn t) l

/-- The task behind a handle, while it has not ended. -/
def task? (handle : Nat) (l : Lifecycle τ) : Option τ := l.live.lookup handle

/-- Puts a task's next state in its place. -/
def replace (handle : Nat) (task : τ) (l : Lifecycle τ) : Lifecycle τ :=
  { l with live := l.live.map fun t => if t.1 == handle then (handle, task) else t }

/-- Removes a task that has ended or was given up. -/
def finish (handle : Nat) (l : Lifecycle τ) : Lifecycle τ :=
  { l with live := l.live.filter fun t => t.1 != handle }

/-- Begins to stop a running source: sends its signal and takes the handles of its tasks. Says which
handles were taken; nothing if the source was not running. -/
def halt (l : Lifecycle τ) : Option (List Nat) × Lifecycle τ :=
  if l.running then
    (some l.handles, { l with running := false, sent := l.signal :: l.sent, handles := [] })
  else (none, l)

/-- Every task behind these handles has ended. -/
def allEnded (handles : List Nat) (l : Lifecycle τ) : Bool :=
  handles.all fun h => (l.task? h).isNone

end Lifecycle

/-- One call that stops a source. -/
inductive Stop where
  | ready (force : Bool)
  /-- The signal was sent; the tasks behind these handles are waited for. -/
  | joining (handles : List Nat)
deriving DecidableEq, Repr, Inhabited

namespace Stop

/-- The next move of a stop over a state `σ` that contains the lifecycle of its tasks: `giveUp` says
what else becomes of the state when the task behind a handle is given up. -/
def step {τ σ : Type} (get : σ → Lifecycle τ) (set : Lifecycle τ → σ → σ) (giveUp : τ → σ → σ)
    (s : σ) : Stop → Option (Move Stop Unit × σ)
  | .ready force =>
    match (get s).halt with
    | (none, _) => some (.ends (), s)
    | (some handles, l) =>
      let s := set l s
      let s := if force then
          handles.foldl (fun s h =>
            match (get s).task? h with
            | some task => giveUp task (set ((get s).finish h) s)
            | none => s) s
        else s
      some (.goes (.joining handles), s)
  | .joining handles => if (get s).allEnded handles then some (.ends (), s) else none

end Stop

/-- A wait until an instant, which a signal cuts short. -/
structure Pause where
  until_ : Nat
deriving DecidableEq, Repr, Inhabited

namespace Pause

/-- How a pause ends at an instant: `some true` if its time is over, `some false` if the signal came,
and nothing while it lasts. When both are so, either may end it; here its time does. That the signal does is
the run in which the task moves after the signal and before the time is over. -/
def ends? {τ : Type} (now : Nat) (signal : Signal) (l : Lifecycle τ) (p : Pause) : Option Bool :=
  if p.until_ ≤ now then some true
  else if l.isReleased signal then some false
  else none

/-- A pause from an instant on; none if the signal was sent before. -/
def begin? {τ : Type} (now ms : Nat) (signal : Signal) (l : Lifecycle τ) : Option Pause :=
  if l.isTriggered signal then none else some ⟨now + ms⟩

end Pause

end EventDispatch
