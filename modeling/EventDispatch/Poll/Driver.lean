import EventDispatch.Clients
import EventDispatch.Poll.Channel
import EventDispatch.Poll.Query
import EventDispatch.Settings.Adapters

/-!
# Where polled events come from

A driver finds new events and sends them through the channel of a poll cycle; after a batch was handled
it takes note of the outcomes. One driver lists the items of a store; another plays cycles that were
laid down beforehand.

## Main definitions

* `ItemPoller`, `Feed`, `PollDriver`: the drivers.
* `Listing`: the listing of one path, page by page.
* `Producer`: one search for new events.
* `Wrapup`: what a driver does after a batch.
-/

namespace EventDispatch

/-! ### Drivers -/

/-- The driver that lists the items of a store. -/
structure ItemPoller where
  settings : ItemPollSettings
  stamp : Stamp
  /-- The attributes that listings ask for. -/
  attributes : String
  firstPoll : Bool
  query : String
deriving Inhabited

namespace ItemPoller

/-- The query of the first poll, or of later ones. -/
def queryText (settings : ItemPollSettings) (stamp : Stamp) (firstPoll : Bool) : String :=
  QueryParts.text { firstPoll, incremental := settings.incremental, stamp,
                    suffixes := settings.suffixes, queries := settings.queries }

/-- A driver that has not polled yet. -/
def new (id : String) (settings : ItemPollSettings) : ItemPoller :=
  let stamp := Stamp.ofSource id
  { settings, stamp, attributes := requestedAttributes stamp settings.attributes, firstPoll := true,
    query := queryText settings stamp true }

/-- The first poll is over; from now on the query of later ones counts. -/
def completeFirstPoll (p : ItemPoller) : ItemPoller :=
  if p.firstPoll then { p with firstPoll := false, query := queryText p.settings p.stamp false } else p

/-- The request for the page of a path that starts after a marker. -/
def request (p : ItemPoller) (path query marker : String) : ListRequest :=
  { path, attributes := p.attributes, query, shardId := p.settings.shardId,
    totalShards := p.settings.totalShards, limit := p.settings.pageSize, marker }

/-- The path of an item below the path that was listed. -/
def itemPath (path name : String) : String := ItemStore.trimSlashes path ++ "/" ++ name

/-- The event made of an item: its time is the item's, or the present. -/
def event (path : String) (item : Item) (now : Timestamp) : Event :=
  { Event.blank (item.modifiedAt?.getD now) with
    path := itemPath path item.name
    attributes := item.attributes }

/-- The attributes that stamp an item as handled. -/
def stampOf (p : ItemPoller) (event : Event) : Json.Object :=
  Keyed.ofList [(p.stamp.secs, .ofInt event.timestamp.secs),
    (p.stamp.nsecs, .ofNat event.timestamp.nanos)]

end ItemPoller

/-- One message of a cycle that was laid down, after a pause in milliseconds. -/
structure FeedStep where
  delay : Option Nat
  message : PollMessage
deriving Inhabited

/-- What a feed noted. -/
inductive FeedNote where
  | receiverClosed
  | handled (events : List (ByteArray × Outcome))
deriving Inhabited

/-- The driver that plays cycles laid down beforehand, the last one again and again. -/
structure Feed where
  cycles : List (List FeedStep)
  /-- Cycles played so far. -/
  played : Nat
  /-- The pause after a batch, in milliseconds. -/
  wrapupDelay : Option Nat
  notes : List FeedNote
deriving Inhabited

/-- The messages of the next cycle. -/
def Feed.next (f : Feed) : List FeedStep :=
  (f.cycles[min f.played (f.cycles.length - 1)]?).getD []

/-- A driver. -/
inductive PollDriver where
  | items (p : ItemPoller)
  | feed (f : Feed)
deriving Inhabited

/-- What a driver tells of its settings. -/
def PollDriver.toJson : PollDriver → Json
  | .items p => p.settings.toJson
  | .feed f => .obj [("cycles", .ofNat f.cycles.length)]

/-! ### Listing a path -/

/-- How the listing of a path stands. -/
inductive ListingStage where
  /-- Requesting a page, for the first time or again. -/
  | requesting (attempt : Nat) (trip : Trip)
  /-- Pausing before the page is requested again. -/
  | retrying (attempt until_ : Nat)
  /-- Sending the items of a page; whether it is the last page, and the marker of the next. -/
  | sending (event : Event) (rest : List Item) (isLast : Bool) (next : String) (send : Sending)
  /-- Pausing before the next page. -/
  | turning (until_ : Nat)
  | done
deriving Inhabited

/-- The listing of a path, page by page. -/
structure Listing where
  path : String
  marker : String
  stage : ListingStage
deriving Inhabited

namespace Listing

/-- How often a page is requested before the listing is given up. -/
def pageAttempts : Nat := 3

/-- A listing that has not begun. -/
def new (path : String) : Listing := ⟨path, "", .requesting 1 .leaving⟩

/-- The listing is over. -/
def isDone (l : Listing) : Bool :=
  match l.stage with
  | .done => true
  | _ => false

/-- The stage after a request failed. -/
def afterFailure (now delay attempt : Nat) : ListingStage :=
  if attempt < pageAttempts then .retrying (attempt + 1) (now + delay) else .done

/-- The listing with some items of a page left to send. -/
def sendItems (items : List Item) (isLast : Bool) (next : String) (delay : Nat) (w : World)
    (l : Listing) : Listing × World :=
  match items with
  | item :: rest =>
    let (now, w) := w.readClock
    ({ l with stage := .sending (ItemPoller.event l.path item now) rest isLast next .ready }, w)
  | [] =>
    if isLast then ({ l with stage := .done }, w)
    else if delay = 0 then ({ l with marker := next, stage := .requesting 1 .leaving }, w)
    else ({ l with marker := next, stage := .turning (w.now + delay) }, w)

/-- The next move of a listing: pages are requested one after the other, each up to three times, and
their items sent in order. -/
def step (p : ItemPoller) (query : String) (w : World) (c : Channel) (l : Listing) :
    Option (Listing × World × Channel) :=
  let delay := p.settings.pageDelay
  match l.stage with
  | .requesting attempt trip =>
    match w.stepTrip .getItems trip with
    | none => none
    | some (.goes trip, w) => some ({ l with stage := .requesting attempt trip }, w, c)
    | some (.ends (some _), w) => some ({ l with stage := afterFailure w.now delay attempt }, w, c)
    | some (.ends none, w) =>
      let (answer, items) := w.clients.items.list (p.request l.path query l.marker)
      let w : World := { w with clients := { w.clients with items } }
      match answer with
      | .error _ => some ({ l with stage := afterFailure w.now delay attempt }, w, c)
      | .ok page =>
        let (l, w) := sendItems page.items page.isLast page.nextMarker delay w l
        some (l, w, c)
  | .retrying attempt until_ =>
    if until_ ≤ w.now then some ({ l with stage := .requesting attempt .leaving }, w, c) else none
  | .sending event rest isLast next send =>
    match send.step (.event event) c with
    | none => none
    | some (.waits send, c) => some ({ l with stage := .sending event rest isLast next send }, w, c)
    | some (.refused, c) => some ({ l with stage := .done }, w, c)
    | some (.sent, c) =>
      let (l, w) := sendItems rest isLast next delay w l
      some (l, w, c)
  | .turning until_ =>
    if until_ ≤ w.now then some ({ l with stage := .requesting 1 .leaving }, w, c) else none
  | .done => none

/-- The instant at which a listing moves by itself. -/
def deadline (l : Listing) : Option Nat :=
  match l.stage with
  | .requesting _ trip => trip.deadline
  | .retrying _ until_ | .turning until_ => some until_
  | _ => none

/-- The next move of the first listing that can move. -/
def stepFirst (p : ItemPoller) (query : String) (w : World) (c : Channel) :
    List Listing → Option (List Listing × World × Channel)
  | [] => none
  | l :: rest =>
    match l.step p query w c with
    | some (l, w, c) => some (l :: rest, w, c)
    | none => (stepFirst p query w c rest).map fun (rest, w, c) => (l :: rest, w, c)

end Listing

/-! ### Searching for events -/

/-- One search for new events. -/
inductive Producer where
  | ready
  /-- All paths are listed side by side, with the query of the moment. -/
  | listing (query : String) (listings : List Listing)
  /-- All paths are listed; the end of the cycle is being sent. -/
  | completing (send : Sending)
  /-- Playing the messages of a cycle. -/
  | playing (rest : List FeedStep)
  | pausing (message : PollMessage) (rest : List FeedStep) (until_ : Nat)
  | sending (message : PollMessage) (rest : List FeedStep) (send : Sending)
  | done
deriving Inhabited

namespace Producer

/-- The search is over. -/
def isDone : Producer → Bool
  | .done => true
  | _ => false

/-- The next move of a search. -/
def step (w : World) (d : PollDriver) (c : Channel) :
    Producer → Option (Producer × World × PollDriver × Channel)
  | .ready =>
    match d with
    | .items p => some (.listing p.query (p.settings.paths.map .new), w, d, c)
    | .feed f => some (.playing f.next, w, .feed { f with played := f.played + 1 }, c)
  | .listing query listings =>
    match d with
    | .feed _ => none
    | .items p =>
      if listings.all Listing.isDone then some (.completing .ready, w, d, c)
      else (Listing.stepFirst p query w c listings).map fun (listings, w, c) =>
        (.listing query listings, w, d, c)
  | .completing send =>
    match send.step .cycleComplete c with
    | none => none
    | some (.waits send, c) => some (.completing send, w, d, c)
    | some (_, c) =>
      let d : PollDriver := match d with
        | .items p => .items p.completeFirstPoll
        | d => d
      some (.done, w, d, c.closeSenders)
  | .playing [] => some (.done, w, d, c.closeSenders)
  | .playing (first :: rest) =>
    match first.delay with
    | some ms => some (.pausing first.message rest (w.now + ms), w, d, c)
    | none => some (.sending first.message rest .ready, w, d, c)
  | .pausing message rest until_ =>
    if until_ ≤ w.now then some (.sending message rest .ready, w, d, c) else none
  | .sending message rest send =>
    match send.step message c with
    | none => none
    | some (.waits send, c) => some (.sending message rest send, w, d, c)
    | some (.sent, c) => some (.playing rest, w, d, c)
    | some (.refused, c) =>
      let d : PollDriver := match d with
        | .feed f => .feed { f with notes := f.notes ++ [.receiverClosed] }
        | d => d
      some (.done, w, d, c.closeSenders)
  | .done => none

/-- The instant at which a search moves by itself. -/
def deadline : Producer → Option Nat
  | .listing _ listings => (listings.filterMap Listing.deadline).min?
  | .pausing _ _ until_ => some until_
  | _ => none

end Producer

/-! ### After a batch -/

/-- What a driver does after a batch. -/
inductive Wrapup where
  /-- Stamping the items whose events were handled with success. -/
  | stamping (rest : List (String × Json.Object)) (trip : Trip)
  | pausing (events : List (ByteArray × Outcome)) (until_ : Nat)
  | noting (events : List (ByteArray × Outcome))
deriving Inhabited

namespace Wrapup

/-- What the driver is to do after a batch of events with these outcomes. -/
def ofBatch (now : Nat) (d : PollDriver) (events : List Event) (outcomes : List Outcome) : Wrapup :=
  match d with
  | .items p =>
    let handled := (events.zip outcomes).filter fun (_, outcome) => outcome.succeeded
    .stamping (handled.map fun (event, _) => (event.path, p.stampOf event)) .leaving
  | .feed f =>
    let handled := (events.zip outcomes).map fun (event, outcome) => (event.body, outcome)
    match f.wrapupDelay with
    | some ms => .pausing handled (now + ms)
    | none => .noting handled

/-- The next move. -/
def step (w : World) (d : PollDriver) : Wrapup → Option (Move Wrapup Unit × World × PollDriver)
  | .stamping [] _ => some (.ends (), w, d)
  | .stamping ((path, attributes) :: rest) trip =>
    match w.stepTrip .updateItem trip with
    | none => none
    | some (.goes trip, w) => some (.goes (.stamping ((path, attributes) :: rest) trip), w, d)
    | some (.ends (some _), w) => some (.goes (.stamping rest .leaving), w, d)
    | some (.ends none, w) =>
      let (_, items) := w.clients.items.update path attributes
      some (.goes (.stamping rest .leaving), { w with clients := { w.clients with items } }, d)
  | .pausing events until_ =>
    if until_ ≤ w.now then some (.goes (.noting events), w, d) else none
  | .noting events =>
    match d with
    | .feed f => some (.ends (), w, .feed { f with notes := f.notes ++ [.handled events] })
    | d => some (.ends (), w, d)

/-- The instant at which the work moves by itself. -/
def deadline : Wrapup → Option Nat
  | .stamping _ trip => trip.deadline
  | .pausing _ until_ => some until_
  | .noting _ => none

end Wrapup

end EventDispatch
