import EventDispatch.Pool

/-!
# Schedules

Activities that share a state and move one at a time. An activity that can move is never kept waiting
by one that cannot; of those that can move, the one that has waited longest goes first. Time stands
still while anything can move, and then jumps to the next deadline.

## Main definitions

* `System`: a shared state and the activities over it.
* `Schedule`: the state, the activities in the order in which they began to wait, and what has ended.
* `Schedule.settle`: lets everything move that can at the present instant.
* `Schedule.advance`: lets time pass.
* `Schedule.perform`: runs one activity in the foreground, up to a limit.
-/

namespace EventDispatch

/-- A state `σ` with tasks of its own, named by keys `κ`, and with operations `μ` that others perform
on it and that answer with `ρ`. -/
structure System (σ κ μ ρ : Type) where
  now : σ → Nat
  setNow : Nat → σ → σ
  /-- The next move of an operation, or nothing while it has to wait. -/
  step : μ → σ → Option (Move μ ρ × σ)
  /-- Gives an operation up. -/
  drop : μ → σ → σ
  /-- The instant at which an operation moves by itself. -/
  deadline : μ → σ → Option Nat
  /-- The tasks that have not ended. -/
  tasks : σ → List κ
  /-- The next move of a task, or nothing while it has to wait. -/
  stepTask : κ → σ → Option σ
  /-- The instant at which a task moves by itself. -/
  taskDeadline : κ → σ → Option Nat

/-- Who moves: a task of the state, an operation in the background by its number, or the operation in
the foreground. -/
inductive Actor (κ : Type) where
  | task (key : κ)
  | job (number : Nat)
  | foreground
deriving DecidableEq, Repr

/-- An operation in the background. -/
structure BackgroundJob (μ : Type) where
  number : Nat
  label : String
  operation : μ

/-- An operation in the background that has ended. -/
structure Ended (ρ : Type) where
  at_ : Nat
  label : String
  result : ρ

/-- A state with the activities over it. -/
structure Schedule (σ κ μ ρ : Type) where
  state : σ
  jobs : List (BackgroundJob μ)
  foreground : Option μ
  /-- What the foreground operation answered. -/
  answer : Option ρ
  ended : List (Ended ρ)
  /-- The actors, the one that has waited longest first. -/
  line : List (Actor κ)
  nextJob : Nat

namespace Schedule

variable {σ κ μ ρ : Type} [DecidableEq κ]

/-- A state without operations. -/
def start (sys : System σ κ μ ρ) (state : σ) : Schedule σ κ μ ρ :=
  { state, jobs := [], foreground := none, answer := none, ended := [],
    line := (sys.tasks state).map .task, nextJob := 0 }

/-- The schedule with its state changed by a caller. -/
def mapState (f : σ → σ) (s : Schedule σ κ μ ρ) : Schedule σ κ μ ρ := { s with state := f s.state }

/-- One move of an actor, or nothing while it has to wait. -/
def move (sys : System σ κ μ ρ) (actor : Actor κ) (s : Schedule σ κ μ ρ) :
    Option (Schedule σ κ μ ρ) :=
  match actor with
  | .task key => (sys.stepTask key s.state).map fun state => { s with state }
  | .foreground =>
    match s.foreground with
    | none => none
    | some operation =>
      match sys.step operation s.state with
      | none => none
      | some (.goes next, state) => some { s with state, foreground := some next }
      | some (.ends result, state) =>
        some { s with state, foreground := none, answer := some result }
  | .job number =>
    match s.jobs.find? (·.number == number) with
    | none => none
    | some job =>
      match sys.step job.operation s.state with
      | none => none
      | some (.goes next, state) =>
        some { s with state, jobs := s.jobs.map fun j =>
          if j.number == number then { j with operation := next } else j }
      | some (.ends result, state) =>
        some { s with state, jobs := s.jobs.filter (·.number != number),
                      ended := s.ended ++ [⟨sys.now s.state, job.label, result⟩] }

/-- Moves of one actor until it has to wait, or the fuel is used up. -/
def run (sys : System σ κ μ ρ) (actor : Actor κ) : Nat → Schedule σ κ μ ρ → Schedule σ κ μ ρ
  | 0, s => s
  | fuel + 1, s =>
    match s.move sys actor with
    | none => s
    | some s => s.run sys actor fuel

/-- The actor can move. -/
def canMove (sys : System σ κ μ ρ) (s : Schedule σ κ μ ρ) (actor : Actor κ) : Bool :=
  (s.move sys actor).isSome

/-- The actors there are. -/
def actors (sys : System σ κ μ ρ) (s : Schedule σ κ μ ρ) : List (Actor κ) :=
  (sys.tasks s.state).map .task ++ s.jobs.map (.job ·.number) ++
    (if s.foreground.isSome then [.foreground] else [])

/-- Brings the line up to date: who is gone leaves it, who is new joins its end. -/
def refresh (sys : System σ κ μ ρ) (s : Schedule σ κ μ ρ) : Schedule σ κ μ ρ :=
  let present := s.actors sys
  let kept := s.line.filter (present.contains ·)
  { s with line := kept ++ present.filter fun a => !kept.contains a }

/-- The most moves an actor makes before others have their turn. -/
def movesPerTurn : Nat := 100000

/-- Gives each of the actors a turn, after which they stand at the end of the line. -/
def turns (sys : System σ κ μ ρ) : List (Actor κ) → Schedule σ κ μ ρ → Schedule σ κ μ ρ
  | [], s => s
  | actor :: rest, s =>
    let s := s.run sys actor movesPerTurn
    turns sys rest { s with line := s.line.erase actor ++ [actor] }

/-- Lets everything move that can at the present instant, in rounds: those that can move at the start
of a round have their turn, in the order in which they began to wait. -/
def settle (sys : System σ κ μ ρ) : Nat → Schedule σ κ μ ρ → Schedule σ κ μ ρ
  | 0, s => s
  | rounds + 1, s =>
    let s := s.refresh sys
    match s.line.filter (s.canMove sys) with
    | [] => s
    | movable => settle sys rounds (turns sys movable s)

/-- The most rounds at one instant. -/
def roundsPerInstant : Nat := 100000

/-- Lets everything move that can at the present instant. -/
def rest (sys : System σ κ μ ρ) (s : Schedule σ κ μ ρ) : Schedule σ κ μ ρ :=
  s.settle sys roundsPerInstant

/-- The first deadline of an actor after the present instant. -/
def nextDeadline (sys : System σ κ μ ρ) (s : Schedule σ κ μ ρ) : Option Nat :=
  let now := sys.now s.state
  let deadlines :=
    (sys.tasks s.state).filterMap (sys.taskDeadline · s.state) ++
      s.jobs.filterMap (fun job => sys.deadline job.operation s.state) ++
      (match s.foreground with
        | some operation => (sys.deadline operation s.state).toList
        | none => [])
  (deadlines.filter (now < ·)).min?

/-- Lets time pass up to an instant, from deadline to deadline, or until the foreground has answered.
Every jump takes at least a millisecond, so as many jumps as milliseconds are enough. -/
def passUntil (sys : System σ κ μ ρ) (target : Nat) (untilAnswer : Bool) :
    Nat → Schedule σ κ μ ρ → Schedule σ κ μ ρ
  | 0, s => s
  | jumps + 1, s =>
    let s := s.rest sys
    if untilAnswer && s.answer.isSome then s
    else
      let now := sys.now s.state
      if target ≤ now then s
      else
        let next := match s.nextDeadline sys with
          | some deadline => min deadline target
          | none => target
        passUntil sys target untilAnswer jumps (s.mapState (sys.setNow next))

/-- Lets a number of milliseconds pass. -/
def advance (sys : System σ κ μ ρ) (ms : Nat) (s : Schedule σ κ μ ρ) : Schedule σ κ μ ρ :=
  s.passUntil sys (sys.now s.state + ms) false (ms + 2)

/-- Runs an operation in the foreground for at most a number of milliseconds; after that it is given
up. Answers with its result, if it ended. -/
def perform (sys : System σ κ μ ρ) (limit : Nat) (operation : μ) (s : Schedule σ κ μ ρ) :
    Option ρ × Schedule σ κ μ ρ :=
  let s := { s with foreground := some operation, answer := none }
  let s := s.passUntil sys (sys.now s.state + limit) true (limit + 2)
  match s.answer with
  | some result => (some result, { s with answer := none })
  | none =>
    let state := match s.foreground with
      | some operation => sys.drop operation s.state
      | none => s.state
    let s : Schedule σ κ μ ρ := { s with state, foreground := none }
    (none, s.rest sys)

/-- Starts an operation in the background. -/
def spawn (sys : System σ κ μ ρ) (label : String) (operation : μ) (s : Schedule σ κ μ ρ) :
    Schedule σ κ μ ρ :=
  let s : Schedule σ κ μ ρ :=
    { s with jobs := s.jobs ++ [⟨s.nextJob, label, operation⟩], nextJob := s.nextJob + 1 }
  s.rest sys

/-- Gives up the background operation that was started last under a label, if it still runs. -/
def cancel (sys : System σ κ μ ρ) (label : String) (s : Schedule σ κ μ ρ) : Schedule σ κ μ ρ :=
  match s.jobs.reverse.find? (·.label == label) with
  | none => s
  | some job =>
    let s : Schedule σ κ μ ρ :=
      { s with state := sys.drop job.operation s.state,
               jobs := s.jobs.filter (·.number != job.number) }
    s.rest sys

end Schedule

end EventDispatch
