import EventDispatch.Settings.Adapters
import EventDispatch.Task

/-!
# Sources that listen to a broker

A source whose tasks receive deliveries from a topic, submit each as an event and, if the source
acknowledges, acknowledge what a worker handled.

## Main definitions

* `QueueSource`: the state of the source.
* `Listener`: the state of one of its tasks.
* `QueueSource.rules`: how the tasks behave.
-/

namespace EventDispatch

/-- When a source acknowledges deliveries. -/
inductive AckPolicy where
  | never
  /-- Once the function was run on the delivery, with success or without. -/
  | onSubmitSuccess
deriving DecidableEq, Repr, Inhabited

/-- The name of a policy. -/
def AckPolicy.name : AckPolicy → String
  | never => "never"
  | onSubmitSuccess => "on_submit_success"

/-- One task of a source that listens to a broker. -/
inductive Listener where
  /-- About to receive, unless it is told to stop. -/
  | checking
  | reaching (trip : Trip)
  | receiving (call : Receive)
  | handling (delivery : Delivery) (submission : Submission)
  | acking (delivery : Delivery) (trip : Trip)
  /-- Pausing after a failed call. -/
  | resting (pause : Pause)
deriving Inhabited

/-- A source that listens to a broker. -/
structure QueueSource where
  desk : Desk
  settings : QueueSettings
  policy : AckPolicy
  /-- How long a submission waits for a worker, in milliseconds. -/
  limit : Nat
  lifecycle : Lifecycle (Task Listener)
deriving Inhabited

namespace QueueSource

/-- How long a task waits for a delivery, and how long it pauses after a failure, in milliseconds. -/
def receiveWait : Nat := 1000

/-- A source that never ran. -/
def new (info : SourceInfo) (settings : QueueSettings) (policy : AckPolicy) (limit : Nat)
    (crew : Crew) : QueueSource :=
  { desk := .new info crew, settings, policy, limit, lifecycle := .new }

/-- The number of tasks: one for each worker of a shared crew, but at least one, and else one. -/
def listeners (q : QueueSource) : Nat :=
  if q.desk.crew.shareable then max q.desk.crew.capacity 1 else 1

/-- The event made of a delivery. -/
def event (delivery : Delivery) : Event :=
  let event : Event :=
    { Event.blank delivery.publishedAt with
      body := delivery.body
      path := delivery.topic
      headers := delivery.headers
      attributes := [("delivery_id", .ofNat delivery.id)] }
  { event with contentType := (event.header "content-type").getD "" }

/-- A worker handled the event, so the delivery may be acknowledged. -/
def wasHandled : SubmitOutcome → Bool
  | .noWorker _ => false
  | _ => true

/-- The next move of a task. A task that reaches for the broker, or waits for a delivery, goes on with either
when the signal is there too; here it takes the signal. That it takes the other is the run in which it moves
before the signal is sent. -/
def step (signal : Signal) (task : Listener) (w : World) (q : QueueSource) :
    Option (Move Listener Unit × World × QueueSource) :=
  match task with
  | .checking =>
    if q.lifecycle.isTriggered signal then some (.ends (), w, q)
    else
      let asked := (q.settings.topic, q.settings.queueName, receiveWait)
      let clients := { w.clients with groups := w.clients.groups ++ [asked] }
      some (.goes (.reaching .leaving), { w with clients }, q)
  | .reaching trip =>
    if q.lifecycle.isReleased signal then some (.ends (), w, q)
    else
      match w.stepTrip .receive trip with
      | none => none
      | some (.goes trip, w) => some (.goes (.reaching trip), w, q)
      | some (.ends none, w) => some (.goes (.receiving (.asking q.settings.topic receiveWait)), w, q)
      | some (.ends (some _), w) =>
        match Pause.begin? w.now receiveWait signal q.lifecycle with
        | none => some (.ends (), w, q)
        | some pause => some (.goes (.resting pause), w, q)
  | .receiving call =>
    if q.lifecycle.isReleased signal then
      some (.ends (), { w with clients := { w.clients with broker := call.drop w.clients.broker } }, q)
    else
      match call.step w.now w.clients.broker with
      | none => none
      | some (.goes call, broker) =>
        some (.goes (.receiving call), { w with clients := { w.clients with broker } }, q)
      | some (.ends received, broker) =>
        let w : World := { w with clients := { w.clients with broker } }
        match received with
        | none => some (.goes .checking, w, q)
        | some delivery =>
          some (.goes (.handling delivery (.ready (event delivery) (some q.limit))), w, q)
  | .handling delivery submission =>
    match submission.step w.ambient q.desk with
    | none => none
    | some (.goes submission, ambient, desk) =>
      some (.goes (.handling delivery submission), { w with ambient }, { q with desk })
    | some (.ends (outcome, _), ambient, desk) =>
      let next : Listener :=
        if wasHandled outcome && q.policy == .onSubmitSuccess then .acking delivery .leaving
        else .checking
      some (.goes next, { w with ambient }, { q with desk })
  | .acking delivery trip =>
    match w.stepTrip .ack trip with
    | none => none
    | some (.goes trip, w) => some (.goes (.acking delivery trip), w, q)
    | some (.ends (some _), w) => some (.goes .checking, w, q)
    | some (.ends none, w) =>
      match w.clients.broker.ack delivery.topic delivery.id with
      | .error _ => some (.goes .checking, w, q)
      | .ok broker => some (.goes .checking, { w with clients := { w.clients with broker } }, q)
  | .resting pause =>
    match pause.ends? w.now signal q.lifecycle with
    | none => none
    | some true => some (.goes .checking, w, q)
    | some false => some (.ends (), w, q)

/-- Gives a task up. -/
def drop (task : Listener) (w : World) (q : QueueSource) : World × QueueSource :=
  match task with
  | .receiving call =>
    ({ w with clients := { w.clients with broker := call.drop w.clients.broker } }, q)
  | .handling _ submission => (w, { q with desk := submission.drop q.desk })
  | _ => (w, q)

/-- The instant at which a task moves by itself. -/
def deadline : Listener → Option Nat
  | .checking => none
  | .reaching trip => trip.deadline
  | .receiving call => call.deadline
  | .handling _ submission => submission.deadline
  | .acking _ trip => trip.deadline
  | .resting pause => some pause.until_

/-- How the tasks of the source behave. -/
def rules : TaskRules QueueSource Listener where
  lifecycle q := q.lifecycle
  setLifecycle lifecycle q := { q with lifecycle }
  step := step
  drop := drop
  deadline := deadline

/-- What the source tells of its settings. -/
def toJson (q : QueueSource) : Json :=
  .obj [("ack_policy", .str q.policy.name), ("listeners", .ofNat q.listeners),
    ("queue_name", q.settings.groupJson), ("topic", .str q.settings.topic)]

/-- Starts the source. -/
def start (q : QueueSource) : Except Error Unit × QueueSource :=
  rules.start (List.replicate q.listeners .checking) q

end QueueSource

end EventDispatch
