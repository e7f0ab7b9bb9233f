import EventDispatch.Decimal.Literal
import EventDispatch.Http.Message
import EventDispatch.Settings.Adapters
import EventDispatch.Task

/-!
# Sources that serve requests

A source that turns requests into events and the function's answers into replies. The events come from
a pool of their own, whose size limits the number of requests that are handled at a time; a request
that finds none waits for one.

## What is deliberately absent

Connections are not there. A reply is what answers the request, and it has its body whatever the method:
that a reply to `HEAD` goes out without one, though with the length of it, is left to those who write it to a
connection.

## Main definitions

* `HttpSource`: the state of the source.
* `Serving`: one request on its way to a reply.
* `HttpReply.ofOutcome`: the reply to what became of a submission.
* `HttpSource.start`, `HttpSource.rules`: listening for requests.
-/

namespace EventDispatch

/-- A source that serves requests. -/
structure HttpSource where
  desk : Desk
  settings : HttpSettings
  /-- How long a submission waits for a worker, in milliseconds. -/
  limit : Nat
  events : Pool Event
  /-- The task that listens ends as soon as it is told to. -/
  lifecycle : Lifecycle (Task Unit)
  /-- The source listens at its address. -/
  bound : Bool
deriving Inhabited

/-! ### Replies -/

namespace HttpReply

/-- The reply to a function's answer. -/
def ofResponse : Response → HttpReply
  | .structured status headers body contentType =>
    let headers := headers ++ (contentType.map (("content-type", ·))).toList
    match build (statusOr 200 status) headers body with
    | .ok reply => reply
    | .error e => plain 500 ("Invalid function response: " ++ e.message)
  | .bytes body => typed 200 "application/octet-stream" body
  | .text body => typed 200 "text/plain; charset=utf-8" body.toUTF8
  | .empty => plain 200 ""

/-- The reply to what became of a submission. -/
def ofOutcome : SubmitOutcome → HttpReply
  | .completed response => ofResponse response
  | .failed failure => plain (statusOr 500 failure.status) failure.message
  | .noWorker e => plain (if e.isAllocationFailure then 503 else 500) e.message

/-- The reply to a request whose body is too long. -/
def bodyTooLong : HttpReply :=
  typed 413 "text/plain; charset=utf-8"
    "Failed to buffer the request body: length limit exceeded".toUTF8

end HttpReply

/-! ### Requests -/

/-- One request on its way to a reply. -/
inductive Serving where
  | arriving (request : HttpRequest)
  /-- Waiting for an event of the pool. -/
  | queued (request : HttpRequest) (acquire : Acquire)
  | submitting (submission : Submission)
deriving Inhabited

namespace Serving

/-- The most bytes that a body may have. -/
def maxBodySize : Nat := 2097152

/-- The visible headers of a request; of two with one name the later counts. -/
def visibleHeaders (request : HttpRequest) : Keyed String :=
  .ofList (request.headers.filterMap fun (name, value) =>
    (Http.visibleText? value).map ((name, ·)))

/-- The type of content that a request names first. -/
def contentType? (request : HttpRequest) : Option String :=
  (Http.valuesOf "content-type" request.headers).head?.bind Http.visibleText?

/-- Fills an event with a request. What the event holds already stays in front. -/
def fill (request : HttpRequest) (now : Timestamp) (event : Event) : Event :=
  { event with
    timestamp := now
    method := event.method ++ request.method
    path := event.path ++ request.target.path
    body := event.body ++ request.body
    headers := event.headers.merge (visibleHeaders request)
    contentType := event.contentType ++ (contentType? request).getD ""
    attributes :=
      match request.target.query with
      | some query => event.attributes.insert "query" (.str query)
      | none => event.attributes }

/-- Gives an event back to its pool, emptied. -/
def giveBack (s : HttpSource) (event : Event) (now : Timestamp) : HttpSource :=
  { s with events := (s.events.giveBack (fun _ _ => false) (event.reset now)).2 }

/-- The event of a submission. -/
def eventOf : Submission → Event
  | .ready event _ | .acquiring event _ | .running _ event _ => event

/-- The next move: the event is taken from its pool and filled, submitted, and given back. The reply keeps its
body, also for `HEAD`. -/
def step (a : Ambient) (s : HttpSource) :
    Serving → Option (Move Serving HttpReply × Ambient × HttpSource)
  | .arriving request =>
    if maxBodySize < request.body.size then some (.ends HttpReply.bodyTooLong.withLength, a, s)
    else some (.goes (.queued request (.asking none)), a, s)
  | .queued request acquire =>
    match acquire.step a.now s.events with
    | none => none
    | some (.goes acquire, events) => some (.goes (.queued request acquire), a, { s with events })
    | some (.ends taken, events) =>
      let (now, a) := a.readClock
      let event := match taken with
        | .ok event => event
        | .error _ => .blank now
      some (.goes (.submitting (.ready (fill request now event) (some s.limit))), a, { s with events })
  | .submitting submission =>
    match submission.step a s.desk with
    | none => none
    | some (.goes submission, a, desk) => some (.goes (.submitting submission), a, { s with desk })
    | some (.ends (outcome, event), a, desk) =>
      let (now, a) := a.readClock
      some (.ends (HttpReply.ofOutcome outcome).withLength, a, giveBack { s with desk } event now)

/-- The instant at which the request moves by itself. -/
def deadline : Serving → Option Nat
  | .arriving _ => none
  | .queued _ acquire => acquire.deadline
  | .submitting submission => submission.deadline

/-- Gives the request up: its worker and its event go back. -/
def drop (s : HttpSource) : Serving → HttpSource
  | .arriving _ => s
  | .queued _ acquire => { s with events := acquire.drop s.events }
  | .submitting submission =>
    let event := eventOf submission
    giveBack { s with desk := submission.drop s.desk } event event.timestamp

end Serving

/-! ### Listening -/

/-- Why a text is no address to listen at: an address is a host and a port behind the last colon. -/
def addressFault? (address : String) : Option String :=
  let chars := address.toList.reverse
  if !chars.contains ':' then some "invalid socket address"
  else
    let port := (chars.takeWhile (· ≠ ':')).reverse
    if (Decimal.natural? 65536 port).isSome then none else some "invalid port value"

namespace HttpSource

/-- A source that never ran. The events of its pool get their times from the requests that fill them. -/
def new (info : SourceInfo) (settings : HttpSettings) (limit : Nat) (crew : Crew) : HttpSource :=
  { desk := .new info crew, settings, limit, lifecycle := .new, bound := false,
    events := .full "events" (List.replicate settings.maxInFlight (.blank default)) }

/-- How the task that listens behaves. -/
def rules : TaskRules HttpSource Unit where
  lifecycle s := s.lifecycle
  setLifecycle lifecycle s := { s with lifecycle }
  step signal _ w s := if s.lifecycle.isReleased signal then some (.ends (), w, s) else none
  drop _ w s := (w, s)
  deadline _ := none

/-- Starts to listen. Where the address does not allow that, the run that has begun ends. -/
def start (s : HttpSource) : Except Error Unit × HttpSource :=
  match s.desk.requireShareable with
  | .error e => (.error e, s)
  | .ok () =>
    match addressFault? s.settings.listenAddress with
    | none =>
      match rules.start [()] s with
      | (.error e, s) => (.error e, s)
      | (.ok (), s) => (.ok (), { s with bound := true })
    | some fault =>
      match rules.start [] s with
      | (.error e, s) => (.error e, s)
      | (.ok (), s) =>
        (.error (.transport ("Failed to bind to " ++ s.settings.listenAddress ++ ": " ++ fault)),
          { s with lifecycle := s.lifecycle.halt.2 })

end HttpSource

end EventDispatch
