import EventDispatch.Poll.Source

/-!
# What a move of a poller's task is

The task of a source that polls checks whether it is to go on, polls, and pauses, over and over. While it
polls, one half of the cycle searches and the other one submits what is found. Each way in which the task,
or a part of it, can move is one case of a relation, with all that holds when it moves so; that a source
keeps this or that is then shown case by case.

## Main definitions

* `Listing.Moves`, `Producer.Moves`: what a move of the half that searches is.
* `Wrapup.Moves`, `Consumer.Moves`: what a move of the half that submits is.
* `PollSource.Moves`: what a move of the task is.

## Main results

* `Listing.moves_of_step`, `Producer.moves_of_step`, `Wrapup.moves_of_step`, `Consumer.moves_of_step`,
  `PollSource.moves_of_step`: there are no other moves.
-/

namespace EventDispatch

/-! ### Searching -/

/-- What a move of the listing of a path is. -/
inductive Listing.Moves (p : ItemPoller) (query : String) (w : World) (c : Channel) :
    Listing → Listing → World → Channel → Prop where
  /-- The request is on its way. -/
  | asks {path marker : String} {attempt : Nat} {trip trip' : Trip} {w' : World}
      (htrip : w.stepTrip .getItems trip = some (.goes trip', w')) :
      Moves p query w c ⟨path, marker, .requesting attempt trip⟩
        ⟨path, marker, .requesting attempt trip'⟩ w' c
  /-- The request is lost. -/
  | loses {path marker : String} {attempt : Nat} {trip : Trip} {e : Error} {w' : World}
      (htrip : w.stepTrip .getItems trip = some (.ends (some e), w')) :
      Moves p query w c ⟨path, marker, .requesting attempt trip⟩
        ⟨path, marker, afterFailure w'.now p.settings.pageDelay attempt⟩ w' c
  /-- The store refuses the request. -/
  | fails {path marker : String} {attempt : Nat} {trip : Trip} {e : Error} {w' : World} {items : ItemStore}
      (htrip : w.stepTrip .getItems trip = some (.ends none, w'))
      (hlist : w'.clients.items.list (p.request path query marker) = (.error e, items)) :
      Moves p query w c ⟨path, marker, .requesting attempt trip⟩
        ⟨path, marker, afterFailure w'.now p.settings.pageDelay attempt⟩
        { w' with clients := { w'.clients with items } } c
  /-- The store sends a page. -/
  | brings {path marker : String} {attempt : Nat} {trip : Trip} {page : ListPage} {w' : World}
      {items : ItemStore} (htrip : w.stepTrip .getItems trip = some (.ends none, w'))
      (hlist : w'.clients.items.list (p.request path query marker) = (.ok page, items)) {l : Listing}
      {w'' : World} (hsend : sendItems page.items page.isLast page.nextMarker p.settings.pageDelay
        { w' with clients := { w'.clients with items } } ⟨path, marker, .requesting attempt trip⟩ =
          (l, w'')) :
      Moves p query w c ⟨path, marker, .requesting attempt trip⟩ l w'' c
  /-- The request is made again. -/
  | retries {path marker : String} {attempt until_ : Nat} (hnow : until_ ≤ w.now) :
      Moves p query w c ⟨path, marker, .retrying attempt until_⟩
        ⟨path, marker, .requesting attempt .leaving⟩ w c
  /-- An event waits for a place in the channel. -/
  | waits {path marker : String} {event : Event} {rest : List Item} {isLast : Bool} {next : String}
      {send send' : Sending} {c' : Channel} (hsend : send.step (.event event) c = some (.waits send', c')) :
      Moves p query w c ⟨path, marker, .sending event rest isLast next send⟩
        ⟨path, marker, .sending event rest isLast next send'⟩ w c'
  /-- An event finds nobody who receives. -/
  | leaves {path marker : String} {event : Event} {rest : List Item} {isLast : Bool} {next : String}
      {send : Sending} {c' : Channel} (hsend : send.step (.event event) c = some (.refused, c')) :
      Moves p query w c ⟨path, marker, .sending event rest isLast next send⟩ ⟨path, marker, .done⟩ w c'
  /-- An event is sent. -/
  | sends {path marker : String} {event : Event} {rest : List Item} {isLast : Bool} {next : String}
      {send : Sending} {c' : Channel} (hsent : send.step (.event event) c = some (.sent, c')) {l : Listing}
      {w' : World} (hsend : sendItems rest isLast next p.settings.pageDelay w
        ⟨path, marker, .sending event rest isLast next send⟩ = (l, w')) :
      Moves p query w c ⟨path, marker, .sending event rest isLast next send⟩ l w' c'
  /-- The next page is requested. -/
  | turns {path marker : String} {until_ : Nat} (hnow : until_ ≤ w.now) :
      Moves p query w c ⟨path, marker, .turning until_⟩ ⟨path, marker, .requesting 1 .leaving⟩ w c

/-- A listing moves in no other way. -/
theorem Listing.moves_of_step {p : ItemPoller} {query : String} {w w' : World} {c c' : Channel}
    {l l' : Listing} (hs : l.step p query w c = some (l', w', c')) : l.Moves p query w c l' w' c' := by
  rcases l with ⟨path, marker, stage⟩
  cases stage with
  | requesting attempt trip =>
    simp only [step] at hs
    split at hs
    · cases hs
    next htrip =>
      cases hs
      exact .asks htrip
    next htrip =>
      cases hs
      exact .loses htrip
    next w₁ htrip =>
      cases hlist : w₁.clients.items.list (p.request path query marker) with
      | mk answer items =>
        rw [hlist] at hs
        cases answer with
        | error e =>
          cases hs
          exact @Moves.fails p query w c path marker attempt trip e w₁ items htrip hlist
        | ok page =>
          cases hs
          exact .brings htrip hlist rfl
  | retrying attempt until_ =>
    simp only [step] at hs
    split at hs
    next hnow =>
      cases hs
      exact .retries hnow
    · cases hs
  | sending event rest isLast next send =>
    simp only [step] at hs
    split at hs
    · cases hs
    next hsend =>
      cases hs
      exact .waits hsend
    next hsend =>
      cases hs
      exact .leaves hsend
    next hsend =>
      cases hs
      exact .sends hsend rfl
  | turning until_ =>
    simp only [step] at hs
    split at hs
    next hnow =>
      cases hs
      exact .turns hnow
    · cases hs
  | done => cases hs

/-- What a move of a search is. -/
inductive Producer.Moves (w : World) (c : Channel) :
    PollDriver → Producer → Producer → World → PollDriver → Channel → Prop where
  /-- All paths are to be listed. -/
  | begins {p : ItemPoller} : Moves w c (.items p) .ready
      (.listing p.query (p.settings.paths.map .new)) w (.items p) c
  /-- The messages of a cycle are to be played. -/
  | plays {f : Feed} :
      Moves w c (.feed f) .ready (.playing f.next) w (.feed { f with played := f.played + 1 }) c
  /-- One of the listings moves. -/
  | lists {p : ItemPoller} {query : String} {listings listings' : List Listing} {w' : World} {c' : Channel}
      (hs : Listing.stepFirst p query w c listings = some (listings', w', c')) :
      Moves w c (.items p) (.listing query listings) (.listing query listings') w' (.items p) c'
  /-- All paths are listed. -/
  | concludes {p : ItemPoller} {query : String} {listings : List Listing}
      (hall : listings.all Listing.isDone = true) :
      Moves w c (.items p) (.listing query listings) (.completing .ready) w (.items p) c
  /-- The end of the cycle waits for a place in the channel. -/
  | lingers {d : PollDriver} {send send' : Sending} {c' : Channel}
      (hsend : send.step .cycleComplete c = some (.waits send', c')) :
      Moves w c d (.completing send) (.completing send') w d c'
  /-- The end of the cycle is told, and with it the first poll is over. -/
  | completes {p : ItemPoller} {send : Sending} {r : Sent} {c' : Channel}
      (hsend : send.step .cycleComplete c = some (r, c')) (hr : ∀ send', r ≠ .waits send') :
      Moves w c (.items p) (.completing send) .done w (.items p.completeFirstPoll) c'.closeSenders
  /-- The end of the cycle is told. -/
  | finishes {f : Feed} {send : Sending} {r : Sent} {c' : Channel}
      (hsend : send.step .cycleComplete c = some (r, c')) (hr : ∀ send', r ≠ .waits send') :
      Moves w c (.feed f) (.completing send) .done w (.feed f) c'.closeSenders
  /-- All messages are played. -/
  | stops {d : PollDriver} : Moves w c d (.playing []) .done w d c.closeSenders
  /-- The next message is to be sent later. -/
  | pauses {d : PollDriver} {first : FeedStep} {rest : List FeedStep} {ms : Nat}
      (hdelay : first.delay = some ms) :
      Moves w c d (.playing (first :: rest)) (.pausing first.message rest (w.now + ms)) w d c
  /-- The next message is to be sent. -/
  | goes {d : PollDriver} {first : FeedStep} {rest : List FeedStep} (hdelay : first.delay = none) :
      Moves w c d (.playing (first :: rest)) (.sending first.message rest .ready) w d c
  /-- The pause before a message is over. -/
  | wakes {d : PollDriver} {message : PollMessage} {rest : List FeedStep} {until_ : Nat}
      (hnow : until_ ≤ w.now) :
      Moves w c d (.pausing message rest until_) (.sending message rest .ready) w d c
  /-- A message waits for a place in the channel. -/
  | waits {d : PollDriver} {message : PollMessage} {rest : List FeedStep} {send send' : Sending}
      {c' : Channel} (hsend : send.step message c = some (.waits send', c')) :
      Moves w c d (.sending message rest send) (.sending message rest send') w d c'
  /-- A message is sent. -/
  | sends {d : PollDriver} {message : PollMessage} {rest : List FeedStep} {send : Sending} {c' : Channel}
      (hsend : send.step message c = some (.sent, c')) :
      Moves w c d (.sending message rest send) (.playing rest) w d c'
  /-- A message finds nobody who receives. -/
  | leaves {p : ItemPoller} {message : PollMessage} {rest : List FeedStep} {send : Sending} {c' : Channel}
      (hsend : send.step message c = some (.refused, c')) :
      Moves w c (.items p) (.sending message rest send) .done w (.items p) c'.closeSenders
  /-- A message finds nobody who receives, and the feed notes it. -/
  | notes {f : Feed} {message : PollMessage} {rest : List FeedStep} {send : Sending} {c' : Channel}
      (hsend : send.step message c = some (.refused, c')) :
      Moves w c (.feed f) (.sending message rest send) .done w
        (.feed { f with notes := f.notes ++ [.receiverClosed] }) c'.closeSenders

/-- A search moves in no other way. -/
theorem Producer.moves_of_step {w w' : World} {d d' : PollDriver} {c c' : Channel}
    {producer producer' : Producer} (hs : producer.step w d c = some (producer', w', d', c')) :
    Moves w c d producer producer' w' d' c' := by
  cases producer with
  | ready =>
    cases d with
    | items p =>
      cases hs
      exact .begins
    | feed f =>
      cases hs
      exact .plays
  | listing query listings =>
    cases d with
    | feed f => cases hs
    | items p =>
      simp only [step] at hs
      split at hs
      next hall =>
        cases hs
        exact .concludes hall
      · obtain ⟨⟨listings', w₁, c₁⟩, hfirst, heq⟩ := Option.map_eq_some_iff.mp hs
        cases heq
        exact .lists hfirst
  | completing send =>
    simp only [step] at hs
    split at hs
    · cases hs
    next hsend =>
      cases hs
      exact .lingers hsend
    next hr hsend =>
      cases hs
      cases d with
      | items p => exact .completes hsend fun send' heq => hr send' heq
      | feed f => exact .finishes hsend fun send' heq => hr send' heq
  | playing rest =>
    cases rest with
    | nil =>
      cases hs
      exact .stops
    | cons first rest =>
      simp only [step] at hs
      split at hs
      next hdelay =>
        cases hs
        exact .pauses hdelay
      next hdelay =>
        cases hs
        exact .goes hdelay
  | pausing message rest until_ =>
    simp only [step] at hs
    split at hs
    next hnow =>
      cases hs
      exact .wakes hnow
    · cases hs
  | sending message rest send =>
    simp only [step] at hs
    split at hs
    · cases hs
    next hsend =>
      cases hs
      exact .waits hsend
    next hsend =>
      cases hs
      exact .sends hsend
    next hsend =>
      cases hs
      cases d with
      | items p => exact .leaves hsend
      | feed f => exact .notes hsend
  | done => cases hs

/-! ### Submitting -/

/-- What a move after a batch is. -/
inductive Wrapup.Moves (w : World) : PollDriver → Wrapup → Move Wrapup Unit → World → PollDriver → Prop where
  /-- All items are stamped. -/
  | ends {d : PollDriver} {trip : Trip} : Moves w d (.stamping [] trip) (.ends ()) w d
  /-- An update is on its way. -/
  | asks {d : PollDriver} {path : String} {attributes : Json.Object} {rest : List (String × Json.Object)}
      {trip trip' : Trip} {w' : World} (htrip : w.stepTrip .updateItem trip = some (.goes trip', w')) :
      Moves w d (.stamping ((path, attributes) :: rest) trip)
        (.goes (.stamping ((path, attributes) :: rest) trip')) w' d
  /-- An update is lost. -/
  | loses {d : PollDriver} {path : String} {attributes : Json.Object} {rest : List (String × Json.Object)}
      {trip : Trip} {e : Error} {w' : World}
      (htrip : w.stepTrip .updateItem trip = some (.ends (some e), w')) :
      Moves w d (.stamping ((path, attributes) :: rest) trip) (.goes (.stamping rest .leaving)) w' d
  /-- An update arrives. -/
  | stamps {d : PollDriver} {path : String} {attributes : Json.Object} {rest : List (String × Json.Object)}
      {trip : Trip} {w' : World} (htrip : w.stepTrip .updateItem trip = some (.ends none, w')) :
      Moves w d (.stamping ((path, attributes) :: rest) trip) (.goes (.stamping rest .leaving))
        { w' with clients := { w'.clients with items := (w'.clients.items.update path attributes).2 } } d
  /-- A pause is over. -/
  | wakes {d : PollDriver} {events : List (ByteArray × Outcome)} {until_ : Nat} (hnow : until_ ≤ w.now) :
      Moves w d (.pausing events until_) (.goes (.noting events)) w d
  /-- There is nothing to note. -/
  | skips {p : ItemPoller} {events : List (ByteArray × Outcome)} :
      Moves w (.items p) (.noting events) (.ends ()) w (.items p)
  /-- What was handled is noted. -/
  | notes {f : Feed} {events : List (ByteArray × Outcome)} : Moves w (.feed f) (.noting events) (.ends ()) w
      (.feed { f with notes := f.notes ++ [.handled events] })

/-- There is no other move after a batch. -/
theorem Wrapup.moves_of_step {w w' : World} {d d' : PollDriver} {wrapup : Wrapup} {m : Move Wrapup Unit}
    (hs : wrapup.step w d = some (m, w', d')) : Moves w d wrapup m w' d' := by
  cases wrapup with
  | stamping rest trip =>
    cases rest with
    | nil =>
      cases hs
      exact .ends
    | cons update rest =>
      obtain ⟨path, attributes⟩ := update
      simp only [step] at hs
      split at hs
      · cases hs
      next htrip =>
        cases hs
        exact .asks htrip
      next htrip =>
        cases hs
        exact .loses htrip
      next htrip =>
        cases hs
        exact .stamps htrip
  | pausing events until_ =>
    simp only [step] at hs
    split at hs
    next hnow =>
      cases hs
      exact .wakes hnow
    · cases hs
  | noting events =>
    cases d with
    | items p =>
      cases hs
      exact .skips
    | feed f =>
      cases hs
      exact .notes

/-- What a move of the half that submits is. -/
inductive Consumer.Moves (signal : Signal) (c : Channel) (w : World) (s : PollSource) :
    Consumer → Consumer → Channel → World → PollSource → Prop where
  /-- An event is received, and the batch has room for more. -/
  | gathers {batch : List Event} {event : Event} {c' : Channel}
      (hreceive : c.receive = (.message (.event event), c'))
      (hroom : (batch ++ [event]).length < s.batchSize) :
      Moves signal c w s (.receiving batch) (.receiving (batch ++ [event])) c' w s
  /-- An event is received, and the batch is full. -/
  | fills {batch : List Event} {event : Event} {c' : Channel}
      (hreceive : c.receive = (.message (.event event), c')) (hfull : s.batchSize ≤ (batch ++ [event]).length)
      (hsignal : s.lifecycle.isTriggered signal = false) : Moves signal c w s (.receiving batch)
        (.submitting false (.ready (batch ++ [event]) (some s.limit))) c' w s
  /-- An event is received, the batch is full, and the run was told to stop. -/
  | leaves {batch : List Event} {event : Event} {c' : Channel}
      (hreceive : c.receive = (.message (.event event), c')) (hfull : s.batchSize ≤ (batch ++ [event]).length)
      (hsignal : s.lifecycle.isTriggered signal = true) :
      Moves signal c w s (.receiving batch) .done c'.closeReceiver w s
  /-- No event follows, and the last batch is submitted. -/
  | finishes {batch : List Event} {r : Received} {c' : Channel} (hreceive : c.receive = (r, c'))
      (hlast : r = .closed ∨ r = .message .cycleComplete) (hbatch : batch ≠ [])
      (hsignal : s.lifecycle.isTriggered signal = false) :
      Moves signal c w s (.receiving batch) (.submitting true (.ready batch (some s.limit))) c' w s
  /-- No event follows, and there is nothing to submit, or the run was told to stop. -/
  | closes {batch : List Event} {r : Received} {c' : Channel} (hreceive : c.receive = (r, c'))
      (hlast : r = .closed ∨ r = .message .cycleComplete)
      (hidle : batch = [] ∨ s.lifecycle.isTriggered signal = true) :
      Moves signal c w s (.receiving batch) .done c'.closeReceiver w s
  /-- The batch goes on. -/
  | submits {isLast : Bool} {batch next : Batch} {ambient : Ambient} {desk : Desk}
      (hs : batch.step w.ambient s.desk = some (.goes next, ambient, desk)) :
      Moves signal c w s (.submitting isLast batch) (.submitting isLast next) c { w with ambient }
        { s with desk }
  /-- No worker was free for the batch in time. -/
  | misses {isLast : Bool} {batch : Batch} {e : Error} {events : List Event} {ambient : Ambient} {desk : Desk}
      (hs : batch.step w.ambient s.desk = some (.ends (.noWorker e, events), ambient, desk)) :
      Moves signal c w s (.submitting isLast batch) (PollSource.afterBatch isLast)
        (if isLast then c.closeReceiver else c) { w with ambient } { s with desk }
  /-- The batch was processed. -/
  | handles {isLast : Bool} {batch : Batch} {outcomes : List Outcome} {events : List Event}
      {ambient : Ambient} {desk : Desk}
      (hs : batch.step w.ambient s.desk = some (.ends (.processed outcomes, events), ambient, desk)) :
      Moves signal c w s (.submitting isLast batch)
        (.wrapping isLast s.phase (.ofBatch ambient.now s.driver events outcomes)) c { w with ambient }
        { s with desk, phase := .checkpointing }
  /-- What is done after a batch goes on. -/
  | wraps {isLast : Bool} {previous : PollPhase} {wrapup next : Wrapup} {w' : World} {driver : PollDriver}
      (hs : wrapup.step w s.driver = some (.goes next, w', driver)) :
      Moves signal c w s (.wrapping isLast previous wrapup) (.wrapping isLast previous next) c w'
        { s with driver }
  /-- All is done after a batch. -/
  | returns {isLast : Bool} {previous : PollPhase} {wrapup : Wrapup} {w' : World} {driver : PollDriver}
      (hs : wrapup.step w s.driver = some (.ends (), w', driver)) :
      Moves signal c w s (.wrapping isLast previous wrapup) (PollSource.afterBatch isLast)
        (if isLast then c.closeReceiver else c) w' { s with driver, phase := previous }

/-- The half that submits moves in no other way. -/
theorem Consumer.moves_of_step {signal : Signal} {c c' : Channel} {w w' : World} {s s' : PollSource}
    {consumer consumer' : Consumer}
    (hs : s.stepConsumer signal c w consumer = some (consumer', c', w', s')) :
    consumer.Moves signal c w s consumer' c' w' s' := by
  cases consumer with
  | receiving batch =>
    -- The end of the cycle: the last batch is submitted, or nobody receives any more.
    have hfinish : ∀ {r c₁ next c₂}, c.receive = (r, c₁) → (r = .closed ∨ r = .message .cycleComplete) →
        (if !batch.isEmpty && !s.lifecycle.isTriggered signal then
          (Consumer.submitting true (.ready batch (some s.limit)), c₁)
          else (.done, c₁.closeReceiver)) = (next, c₂) →
        Consumer.Moves signal c w s (.receiving batch) next c₂ w s := by
      intro r c₁ next c₂ hreceive hlast heq
      split at heq
      next hgoes =>
        simp only [Bool.and_eq_true, Bool.not_eq_true', List.isEmpty_eq_false_iff] at hgoes
        cases heq
        exact .finishes hreceive hlast hgoes.1 hgoes.2
      next hidle =>
        cases heq
        refine .closes hreceive hlast ?_
        cases batch with
        | nil => exact .inl rfl
        | cons event rest => exact .inr (by simpa using hidle)
    simp only [PollSource.stepConsumer] at hs
    split at hs
    · cases hs
    next hreceive =>
      simp only [Option.some.injEq, Prod.mk.injEq] at hs
      obtain ⟨hnext, hc, rfl, rfl⟩ := hs
      exact hfinish hreceive (.inl rfl) (Prod.ext hnext hc)
    next hreceive =>
      simp only [Option.some.injEq, Prod.mk.injEq] at hs
      obtain ⟨hnext, hc, rfl, rfl⟩ := hs
      exact hfinish hreceive (.inr rfl) (Prod.ext hnext hc)
    next hreceive =>
      split at hs
      next hfull =>
        split at hs
        next hsignal =>
          cases hs
          exact .leaves hreceive hfull hsignal
        next hsignal =>
          cases hs
          exact .fills hreceive hfull (Bool.eq_false_iff.mpr hsignal)
      next hroom =>
        cases hs
        exact .gathers hreceive (Nat.lt_of_not_le hroom)
  | submitting isLast batch =>
    simp only [PollSource.stepConsumer] at hs
    split at hs
    · cases hs
    next hbatch =>
      cases hs
      exact .submits hbatch
    next hbatch =>
      cases hs
      exact .misses hbatch
    next hbatch =>
      cases hs
      exact .handles hbatch
  | wrapping isLast previous wrapup =>
    simp only [PollSource.stepConsumer] at hs
    split at hs
    · cases hs
    next hwrapup =>
      cases hs
      exact .wraps hwrapup
    next hwrapup =>
      cases hs
      exact .returns hwrapup
  | done => cases hs

/-! ### The task -/

namespace PollSource

/-- What a move of the task is. -/
inductive Moves (signal : Signal) (w : World) (s : PollSource) :
    PollTask → Move PollTask Unit → World → PollSource → Prop where
  /-- The run was told to stop before a cycle. -/
  | stops (hsignal : s.lifecycle.isTriggered signal = true) : Moves signal w s .checking (.ends ()) w s
  /-- A cycle begins. -/
  | begins (hsignal : s.lifecycle.isTriggered signal = false) : Moves signal w s .checking
      (.goes (.cycling .searching (.new s.batchSize) .ready (.receiving []))) w s
  /-- The search of a cycle moves. -/
  | searches {turn : CycleHalf} {c c' : Channel} {producer producer' : Producer} {consumer : Consumer}
      {w' : World} {driver : PollDriver}
      (hs : producer.step w s.driver c = some (producer', w', driver, c')) :
      Moves signal w s (.cycling turn c producer consumer)
        (.goes (.cycling .searching c' producer' consumer)) w' { s with driver }
  /-- The other half of a cycle moves. -/
  | receives {turn : CycleHalf} {c c' : Channel} {producer : Producer} {consumer consumer' : Consumer}
      {w' : World} {s' : PollSource}
      (hs : s.stepConsumer signal c w consumer = some (consumer', c', w', s')) :
      Moves signal w s (.cycling turn c producer consumer)
        (.goes (.cycling .receiving c' producer consumer')) w' s'
  /-- Both halves of a cycle are over, and a pause begins. -/
  | rests {turn : CycleHalf} {c : Channel} {pause : Pause}
      (hpause : Pause.begin? w.now s.settings.interval signal s.lifecycle = some pause) :
      Moves signal w s (.cycling turn c .done .done) (.goes (.pausing pause)) w
        { s with cycles := s.cycles + 1, phase := .polling }
  /-- Both halves are over, and the run was told to stop. -/
  | retires {turn : CycleHalf} {c : Channel} (hsignal : s.lifecycle.isTriggered signal = true) :
      Moves signal w s (.cycling turn c .done .done) (.ends ()) w
        { s with cycles := s.cycles + 1, phase := .polling }
  /-- A pause is over. -/
  | wakes {pause : Pause} (hpause : pause.ends? w.now signal s.lifecycle = some true) :
      Moves signal w s (.pausing pause) (.goes .checking) w s
  /-- A pause is cut short, since the run was told to stop. -/
  | breaks {pause : Pause} (hpause : pause.ends? w.now signal s.lifecycle = some false) :
      Moves signal w s (.pausing pause) (.ends ()) w s

/-- The task moves in no other way. -/
theorem moves_of_step {signal : Signal} {task : PollTask} {w w' : World} {s s' : PollSource}
    {m : Move PollTask Unit} (hs : s.step signal task w = some (m, w', s')) :
    Moves signal w s task m w' s' := by
  have hhalf : ∀ {turn half c producer consumer next w' s'},
      stepHalf signal w s c producer consumer half = some (next, w', s') →
        Moves signal w s (.cycling turn c producer consumer) (.goes next) w' s' := by
    intro turn half c producer consumer next w' s' hhalf
    cases half with
    | searching =>
      obtain ⟨⟨producer', w₁, driver, c'⟩, hsearch, heq⟩ := Option.map_eq_some_iff.mp hhalf
      cases heq
      exact .searches hsearch
    | receiving =>
      obtain ⟨⟨consumer', c', w₁, s₁⟩, hsubmit, heq⟩ := Option.map_eq_some_iff.mp hhalf
      cases heq
      exact .receives hsubmit
  cases task with
  | checking =>
    rw [step] at hs
    split at hs
    next hsignal =>
      cases hs
      exact .stops hsignal
    next hsignal =>
      cases hs
      exact .begins (Bool.eq_false_iff.mpr hsignal)
  | cycling turn c producer consumer =>
    unfold step at hs
    dsimp only at hs
    split at hs
    next next w₁ s₁ hmoved =>
      cases hs
      rcases Option.or_eq_some_iff.mp hmoved with hturn | ⟨-, hother⟩
      · exact hhalf hturn
      · exact hhalf hother
    · split at hs
      · split at hs
        next hpause =>
          cases hs
          rw [Pause.begin?] at hpause
          split at hpause
          next hsignal => exact .retires hsignal
          · cases hpause
        next hpause =>
          cases hs
          exact .rests hpause
      · cases hs
  | pausing pause =>
    rw [step] at hs
    split at hs
    · cases hs
    next hpause =>
      cases hs
      exact .wakes hpause
    next hpause =>
      cases hs
      exact .breaks hpause

end PollSource

end EventDispatch
