import EventDispatch.Poll.Collection
import EventDispatch.Processor
import EventDispatch.Schedule

/-!
# Stations

A processor in its world, with callers who perform operations on it at the same time: they start and
stop it or single sources, submit events, send requests, take and keep workers, and use the clients.

## Main definitions

* `Station`: the processor, its world, and the workers that callers keep.
* `Operation`, `Answer`: the calls that may wait, and what they answer.
* `Station.system`: all of it as a system.
-/

namespace EventDispatch

/-- A processor in its world. -/
structure Station where
  world : World
  processor : Processor
  /-- Workers that callers keep, by label. -/
  kept : Keyed Worker
  /-- Workers that callers keep until they drop the lease or lease another under its label. -/
  leases : Keyed Worker
deriving Inhabited

/-- A call that may wait. Those on a single source name it. -/
inductive Operation where
  | run (call : ProcessorCall)
  | stop (id : String) (s : Stop)
  | submit (id : String) (s : Submission)
  | batch (id : String) (b : Batch)
  /-- Takes a worker under a label, as a lease or to keep. -/
  | allocate (id label : String) (asLease : Bool) (a : Allocation)
  | assign (id : String) (a : Assignment)
  | serve (id : String) (s : Serving)
  | collect (id : String) (c : Collection)
  | wrapUp (id : String) (w : Wrapup)
  | receive (r : Receive)
deriving Inhabited

/-- What a call answers. -/
inductive Answer where
  | ran (a : ProcessorAnswer)
  | stopped (result : Except Error (Option String))
  | submitted (outcome : SubmitOutcome) (event : Event)
  | batched (outcome : BatchOutcome) (events : List Event)
  | allocated (result : Except Error Worker)
  | assigned (outcome : Outcome) (event : Event)
  | served (reply : HttpReply)
  | collected (messages : List PollMessage)
  | wrappedUp
  | received (delivery : Option Delivery)

namespace Station

/-- A processor that nothing has happened to. -/
def new (world : World) (processor : Processor) : Station := ⟨world, processor, [], []⟩

/-- A station with a single source. -/
def ofSource (world : World) (source : Source) : Station :=
  new world ⟨[(source.info.id, source)], false⟩

/-- A source of the processor. -/
def source? (id : String) (s : Station) : Option Source := s.processor.sources.get? id

/-- Changes a source at its desk. -/
def modifyDesk (id : String) (f : Desk → Desk) (s : Station) : Station :=
  { s with processor := { s.processor with
      sources := s.processor.sources.modify id fun source => source.setDesk (f source.desk) } }

/-- Changes the clients. -/
def modifyClients (f : Clients → Clients) (s : Station) : Station :=
  { s with world := { s.world with clients := f s.world.clients } }

/-- Starts a source by itself. -/
def startSource (id : String) (token : Option String) (s : Station) :
    Option (Except Error Unit × Station) :=
  (s.source? id).map fun source =>
    let (result, world, source) := source.start token s.world
    (result, { s with world, processor := s.processor.setSource id source })

/-- Drops the lease under a label: its worker goes back. -/
def dropLease (id label : String) (s : Station) : Station :=
  match s.leases.get? label with
  | some worker => { s.modifyDesk id (·.release worker) with leases := s.leases.erase label }
  | none => s

/-- Takes note of a worker that a caller took under a label. -/
def keep (id label : String) (asLease : Bool) (worker : Worker) (s : Station) : Station :=
  if asLease then
    let s := s.dropLease id label
    { s with leases := s.leases.insert label worker }
  else { s with kept := s.kept.insert label worker }

/-- One move at the desk of a source. -/
private def stepDesk {μ ρ : Type} (id : String) (s : Station)
    (f : Ambient → Desk → Option (Move μ ρ × Ambient × Desk)) (goes : μ → Operation)
    (ends : ρ → Answer) : Option (Move Operation Answer × Station) :=
  (s.source? id).bind fun source =>
    (f s.world.ambient source.desk).map fun (m, ambient, desk) =>
      let s : Station :=
        { s with world := { s.world with ambient }
                 processor := s.processor.setSource id (source.setDesk desk) }
      match m with
      | .goes next => (.goes (goes next), s)
      | .ends result => (.ends (ends result), s)

/-- One move of a source's driver. -/
private def stepDriver {μ ρ : Type} (id : String) (s : Station)
    (f : World → PollDriver → Option (Move μ ρ × World × PollDriver)) (goes : μ → Operation)
    (ends : ρ → Answer) : Option (Move Operation Answer × Station) :=
  match s.source? id with
  | some (.poll source) =>
    (f s.world source.driver).map fun (m, world, driver) =>
      let s := { s with world, processor := s.processor.setSource id (.poll { source with driver }) }
      match m with
      | .goes next => (.goes (goes next), s)
      | .ends result => (.ends (ends result), s)
  | _ => none

/-- The next move of an operation. -/
def step (s : Station) : Operation → Option (Move Operation Answer × Station)
  | .run call =>
    (call.step s.world s.processor).map fun (m, world, processor) =>
      let s := { s with world, processor }
      match m with
      | .goes next => (.goes (.run next), s)
      | .ends answer => (.ends (.ran answer), s)
  | .stop id call =>
    (s.source? id).bind fun source =>
      (source.stepStop call s.world).map fun (m, world, source) =>
        let s := { s with world, processor := s.processor.setSource id source }
        match m with
        | .goes next => (.goes (.stop id next), s)
        | .ends result => (.ends (.stopped result), s)
  | .submit id call => stepDesk id s (call.step · ·) (.submit id) fun (o, e) => .submitted o e
  | .batch id call => stepDesk id s (call.step · ·) (.batch id) fun (o, es) => .batched o es
  | .assign id call => stepDesk id s (call.step · ·) (.assign id) fun (o, e) => .assigned o e
  | .allocate id label asLease call =>
    (stepDesk id s (fun a d => (call.step a d).map fun (m, d) => (m, a, d))
        (.allocate id label asLease) .allocated).map fun (m, s) =>
      match m with
      | .ends (.allocated (.ok worker)) => (m, s.keep id label asLease worker)
      | _ => (m, s)
  | .serve id call =>
    match s.source? id with
    | some (.http source) =>
      (call.step s.world.ambient source).map fun (m, ambient, source) =>
        let s : Station :=
          { s with world := { s.world with ambient }
                   processor := s.processor.setSource id (.http source) }
        match m with
        | .goes next => (.goes (.serve id next), s)
        | .ends reply => (.ends (.served reply), s)
    | _ => none
  | .collect id call => stepDriver id s (call.step · ·) (.collect id) .collected
  | .wrapUp id call => stepDriver id s (call.step · ·) (.wrapUp id) fun _ => .wrappedUp
  | .receive call =>
    (call.step s.world.now s.world.clients.broker).map fun (m, broker) =>
      let s := s.modifyClients fun c => { c with broker }
      match m with
      | .goes next => (.goes (.receive next), s)
      | .ends delivery => (.ends (.received delivery), s)

/-- Gives an operation up. -/
def drop (s : Station) : Operation → Station
  | .submit id call => s.modifyDesk id call.drop
  | .batch id call => s.modifyDesk id call.drop
  | .allocate id _ _ call => s.modifyDesk id (·.dropAcquire call)
  | .serve id call =>
    match s.source? id with
    | some (.http source) =>
      { s with processor := s.processor.setSource id (.http (call.drop source)) }
    | _ => s
  | .receive call => s.modifyClients fun c => { c with broker := call.drop c.broker }
  | _ => s

/-- The instant at which an operation moves by itself. -/
def deadline : Operation → Option Nat
  | .run _ | .stop _ _ => none
  | .submit _ call => call.deadline
  | .batch _ call => call.deadline
  | .allocate _ _ _ call => Acquire.deadline call
  | .assign _ call => call.deadline
  | .serve _ call => call.deadline
  | .collect _ call => call.producer.deadline
  | .wrapUp _ call => call.deadline
  | .receive call => call.deadline

/-- A station with its operations as a system. A task is named by its source and its handle. -/
def system : System Station (String × Nat) Operation Answer where
  now s := s.world.now
  setNow now s :=
    { s with world := { s.world with ambient := { s.world.ambient with now } } }
  step call s := s.step call
  drop call s := s.drop call
  deadline call _ := deadline call
  tasks s := s.processor.sources.flatMap fun (id, source) => source.tasks.map (id, ·)
  stepTask := fun (id, handle) s =>
    (s.source? id).bind fun source =>
      (source.stepTask handle s.world).map fun (world, source) =>
        { s with world, processor := s.processor.setSource id source }
  taskDeadline := fun (id, handle) s => (s.source? id).bind (·.taskDeadline handle)

end Station

end EventDispatch
