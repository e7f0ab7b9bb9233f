import EventDispatch.Clients
import EventDispatch.Desk.Submission
import EventDispatch.Lifecycle

/-!
# Background tasks of sources

A task belongs to one run of its source and listens to that run's signal. What a task may do is given
by its kind; here is what all kinds have in common.

## Main definitions

* `Task`: a task and its signal.
* `TaskRules`: the moves, deadlines and clean-up of one kind of task.
* `TaskRules.stepLive`, `TaskRules.stop`: one move of a live task, and of a call that stops a source.
-/

namespace EventDispatch

/-- A task in the background, and the signal of the run that it belongs to. -/
structure Task (τ : Type) where
  signal : Signal
  state : τ
deriving Inhabited

/-- How the tasks `τ` of a kind of source `σ` behave. -/
structure TaskRules (σ τ : Type) where
  lifecycle : σ → Lifecycle (Task τ)
  setLifecycle : Lifecycle (Task τ) → σ → σ
  /-- The next move of a task, or nothing while it has to wait. -/
  step : Signal → τ → World → σ → Option (Move τ Unit × World × σ)
  /-- Gives a task up. -/
  drop : τ → World → σ → World × σ
  /-- The instant at which a task moves by itself. -/
  deadline : τ → Option Nat

namespace TaskRules

variable {σ τ : Type}

/-- One move of the task behind a handle. -/
def stepLive (r : TaskRules σ τ) (handle : Nat) (w : World) (s : σ) : Option (World × σ) :=
  match (r.lifecycle s).task? handle with
  | none => none
  | some task =>
    match r.step task.signal task.state w s with
    | none => none
    | some (.goes next, w, s) =>
      some (w, r.setLifecycle ((r.lifecycle s).replace handle ⟨task.signal, next⟩) s)
    | some (.ends (), w, s) => some (w, r.setLifecycle ((r.lifecycle s).finish handle) s)

/-- The instant at which the task behind a handle moves by itself. -/
def deadlineLive (r : TaskRules σ τ) (handle : Nat) (s : σ) : Option Nat :=
  ((r.lifecycle s).task? handle).bind fun task => r.deadline task.state

/-- One move of a call that stops the source. -/
def stop (r : TaskRules σ τ) (stop : Stop) (w : World) (s : σ) :
    Option (Move Stop Unit × World × σ) :=
  (Stop.step (fun (x : World × σ) => r.lifecycle x.2) (fun l x => (x.1, r.setLifecycle l x.2))
      (fun task x => r.drop task.state x.1 x.2) (w, s) stop).map fun (m, w, s) => (m, w, s)

/-- Begins a run with the tasks given. -/
def start (r : TaskRules σ τ) (tasks : List τ) (s : σ) : Except Error Unit × σ :=
  match (r.lifecycle s).begin with
  | (.error e, _) => (.error e, s)
  | (.ok signal, l) => (.ok (), r.setLifecycle (l.spawnAll (tasks.map (⟨signal, ·⟩))) s)

end TaskRules

end EventDispatch
