import EventDispatch.Proofs.FirstPoll
import EventDispatch.Proofs.Stalls

/-!
# The search of a cycle

In a cycle all paths are listed side by side. They share the store, whose requests may fail, and the channel,
and the listing that comes forward is any of them. What is kept of each, whatever the others do, can be told
from what it does itself: its requests are answered, with one page or another, or fail, and the events of its
items are accepted. That much is shown here, once for all that may be kept; and that the events are sent as
they are accepted, and the end of the cycle is told when all listings are over, once, after all events.

## What is deliberately absent

Nothing is said of what a page holds. A run that is told to stop is another matter, since its events may find
nobody who receives.

## Main definitions

* `Inquiry`: what the listing of a path has asked for, and the events that were accepted.
* `Inquiry.Lasts`: something that is kept of a listing, as long as it gets pages of a kind.
* `CycleListings`: a cycle of a poller with the inquiries of its listings and all messages that its search has sent;
  `CycleListings.Step` is one move of anybody.
* `CycleListings.Meets`: the pages that are still to be asked for are of a kind.
* `CycleListings.Tells`: what a search tells.

## Main results

* `Inquiry.stands_of_step`, `Producer.stands_of_step`: what one move of a listing, and of the search, does.
* `CycleListings.Sound.of_reachable`, `CycleListings.tells_of_reachable`: what every run keeps that is not told
  to stop, and what follows of its messages.
-/

namespace EventDispatch

/-- The marker of the next page that a listing asks for, if it is not over before. -/
def Listing.ahead? (l : Listing) : Option String :=
  match l.stage with
  | .sending _ _ isLast next _ => if isLast then none else some next
  | .done => none
  | _ => some l.marker

/-! ### What a listing has done -/

/-- What the listing of a path has done. -/
structure Inquiry where
  path : String
  /-- The requests for pages, each with whether it was answered. -/
  asked : List (ListRequest × Bool)
  /-- The events that were accepted, in order. -/
  accepted : List Event

/-- The paths of events that were made of items. -/
theorem Survey.paths_of_brings {path : String} {items : List Item} {events : List Event}
    (h : List.Forall₂ (Brings path) items events) :
    events.map Event.path = (items.map Item.name).map (ItemPoller.itemPath path) := by
  induction h with
  | nil => rfl
  | cons hevent hrest ih =>
    obtain ⟨now, rfl⟩ := hevent
    rw [List.map_cons, ih]
    rfl

namespace Inquiry

/-- A listing that has not begun. -/
def new (path : String) : Inquiry := ⟨path, [], []⟩

/-- A request is answered, or fails. -/
def asks (request : ListRequest) (answered : Bool) (i : Inquiry) : Inquiry :=
  { i with asked := i.asked ++ [(request, answered)] }

/-- An event is accepted. -/
def accepts (event : Event) (i : Inquiry) : Inquiry := { i with accepted := i.accepted ++ [event] }

/-- What the next move of a listing adds. -/
def after (p : ItemPoller) (query : String) (w : World) (c : Channel) (l : Listing) (i : Inquiry) : Inquiry :=
  match l.stage with
  | .requesting _ trip =>
    let request := p.request l.path query l.marker
    match w.stepTrip .getItems trip with
    | some (.ends none, w) => i.asks request (w.clients.items.list request).1.toBool
    | some (.ends (some _), _) => i.asks request false
    | _ => i
  | .sending event _ _ _ send =>
    match send.step (.event event) c with
    | some (.sent, _) => i.accepts event
    | _ => i
  | _ => i

/-- What the next move of the first listing that can move adds. -/
def afterFirst (p : ItemPoller) (query : String) (w : World) (c : Channel) :
    List Listing → List Inquiry → List Inquiry
  | l :: listings, i :: inquiries =>
    if (l.step p query w c).isSome then i.after p query w c l :: inquiries
    else i :: afterFirst p query w c listings inquiries
  | _, inquiries => inquiries

variable {p : ItemPoller} {query path : String} {w w' : World} {c c' : Channel} {l l' : Listing} {i i' : Inquiry}
  {first : ItemStore}

/-- The first listing that can move does, and no other record changes than its own. -/
theorem afterFirst_cases {R : Inquiry → Listing → Prop} {inquiries : List Inquiry}
    {listings listings' : List Listing} (h : List.Forall₂ R inquiries listings)
    (hs : Listing.stepFirst p query w c listings = some (listings', w', c')) :
    ∃ pre i post before l later l', inquiries = pre ++ i :: post ∧ listings = before ++ l :: later ∧
      List.Forall₂ R pre before ∧ R i l ∧ List.Forall₂ R post later ∧
      l.step p query w c = some (l', w', c') ∧ listings' = before ++ l' :: later ∧
      afterFirst p query w c listings inquiries = pre ++ i.after p query w c l :: post := by
  induction h generalizing listings' with
  | nil => cases hs
  | @cons i l inquiries listings hr hrest ih =>
    rw [Listing.stepFirst] at hs
    rw [afterFirst]
    split at hs
    next l' w₁ c₁ hstep =>
      cases hs
      exact ⟨[], i, inquiries, [], l, listings, l', rfl, rfl, .nil, hr, hrest, hstep, rfl,
        if_pos (by rw [hstep]; rfl)⟩
    next hnone =>
      obtain ⟨⟨rest, w₁, c₁⟩, hfirst, heq⟩ := Option.map_eq_some_iff.mp hs
      cases heq
      obtain ⟨pre, j, post, before, l₁, later, l', rfl, rfl, hpre, hone, hpost, hstep, rfl, hafter⟩ := ih hfirst
      refine ⟨i :: pre, j, post, l :: before, l₁, later, l', rfl, rfl, .cons hr hpre, hone, hpost, hstep, rfl, ?_⟩
      rw [if_neg (by rw [hnone]; exact Bool.false_ne_true), hafter]
      rfl

theorem path_after (i : Inquiry) : (i.after p query w c l).path = i.path := by
  unfold after
  split
  · dsimp only
    split <;> rfl
  · split <;> rfl
  · rfl

/-- What a move of a listing sends is what is accepted. -/
theorem sends_of_step (hs : l.step p query w c = some (l', w', c')) (i : Inquiry) : ∃ events : List Event,
    c'.queue = c.queue ++ events.map PollMessage.event ∧
      (i.after p query w c l).accepted = i.accepted ++ events := by
  cases Listing.moves_of_step hs with
  | asks htrip | loses htrip | fails htrip | brings htrip =>
    simp only [after, htrip]
    exact ⟨[], (List.append_nil _).symm, (List.append_nil _).symm⟩
  | retries | turns => exact ⟨[], (List.append_nil _).symm, (List.append_nil _).symm⟩
  | waits hsend =>
    simp only [after, hsend]
    cases (Sending.leaves_of_step hsend).2 with
    | waits _ _ hqueue => exact ⟨[], hqueue.trans (List.append_nil _).symm, (List.append_nil _).symm⟩
  | leaves hsend =>
    simp only [after, hsend]
    cases (Sending.leaves_of_step hsend).2 with
    | refused _ hsame => exact ⟨[], by rw [hsame]; exact (List.append_nil _).symm, (List.append_nil _).symm⟩
  | sends hsend =>
    simp only [after, hsend]
    cases (Sending.leaves_of_step hsend).2 with
    | sent _ hqueue => exact ⟨[_], hqueue, rfl⟩

/-! ### What is kept of a listing -/

/-- How a listing stands of which something is known: what is known tells of some items of a page that are still
to be sent, and of the marker of the next request and the how manieth it is for its page, if there is one. -/
def Stands (S : List Item → Option (String × Nat) → Inquiry → Prop) (i : Inquiry) (l : Listing) : Prop :=
  i.path = l.path ∧ match l.stage with
    | .requesting attempt _ | .retrying attempt _ => S [] (some (l.marker, attempt)) i
    | .sending event rest isLast next _ => ∃ item, Survey.Brings l.path item event ∧
        S (item :: rest) (if isLast then none else some (next, 1)) i
    | .turning _ => S [] (some (l.marker, 1)) i
    | .done => S [] none i

/-- It is kept, as long as the listing gets pages of a kind. -/
structure Lasts (p : ItemPoller) (good : ListRequest → ListPage → Prop)
    (S : List Item → Option (String × Nat) → Inquiry → Prop) : Prop where
  begins : ∀ path ∈ p.settings.paths, S [] (some ("", 1)) (new path)
  /-- A request fails, and is made again, or the listing is given up. -/
  fails : ∀ {i marker attempt}, S [] (some (marker, attempt)) i →
    S [] (if attempt < Listing.pageAttempts then some (marker, attempt + 1) else none)
      (i.asks (p.request i.path p.query marker) false)
  /-- A page comes, and its items are still to be sent. -/
  answers : ∀ {i marker attempt page}, S [] (some (marker, attempt)) i → i.path ∈ p.settings.paths →
    good (p.request i.path p.query marker) page →
    S page.items (if page.isLast then none else some (page.nextMarker, 1))
      (i.asks (p.request i.path p.query marker) true)
  /-- An item is accepted. -/
  accepts : ∀ {i item rest ahead event}, S (item :: rest) ahead i → Survey.Brings i.path item event →
    S rest ahead (i.accepts event)

variable {S : List Item → Option (String × Nat) → Inquiry → Prop}

/-- After a request that failed. -/
theorem stands_afterFailure {marker : String} {attempt now delay : Nat} (hpath : i.path = path)
    (h : S [] (if attempt < Listing.pageAttempts then some (marker, attempt + 1) else none) i) :
    i.Stands S ⟨path, marker, Listing.afterFailure now delay attempt⟩ := by
  rw [Listing.afterFailure]
  split
  next hlt =>
    rw [if_pos hlt] at h
    exact ⟨hpath, h⟩
  next hlast =>
    rw [if_neg hlast] at h
    exact ⟨hpath, h⟩

/-- With some items of a page left to send. -/
theorem stands_sendItems {items : List Item} {isLast : Bool} {next : String} {delay : Nat}
    (hpath : i.path = l.path) (h : S items (if isLast then none else some (next, 1)) i)
    (hsend : Listing.sendItems items isLast next delay w l = (l', w')) : i.Stands S l' := by
  obtain rfl : (Listing.sendItems items isLast next delay w l).1 = l' := congrArg Prod.fst hsend
  cases items with
  | cons item rest => exact ⟨hpath, item, ⟨_, rfl⟩, h⟩
  | nil =>
    rw [Listing.sendItems]
    split
    next hlast =>
      rw [if_pos hlast] at h
      exact ⟨hpath, h⟩
    next hmore =>
      rw [if_neg hmore] at h
      split <;> exact ⟨hpath, h⟩

theorem Stands.known (h : i.Stands S l) : ∃ rest ahead, S rest ahead i := by
  obtain ⟨-, h⟩ := h
  split at h
  · exact ⟨_, _, h⟩
  · exact ⟨_, _, h⟩
  · obtain ⟨item, -, hrest⟩ := h
    exact ⟨_, _, hrest⟩
  · exact ⟨_, _, h⟩
  · exact ⟨_, _, h⟩

/-- **A move of a listing** keeps what lasts. -/
theorem stands_of_step {good : ListRequest → ListPage → Prop} (hlasts : Lasts p good S) (h : i.Stands S l)
    (hlisted : l.path ∈ p.settings.paths) (hopen : c.receiverGone = false)
    (hgood : ∀ marker ∈ l.ahead?, good (p.request l.path p.query marker)
      (w.clients.items.pageAt (p.request l.path p.query marker)))
    (hs : l.step p p.query w c = some (l', w', c')) : (i.after p p.query w c l).Stands S l' := by
  obtain ⟨hpath, h⟩ := h
  cases Listing.moves_of_step hs with
  | asks htrip =>
    simp only [after, htrip]
    exact ⟨hpath, h⟩
  | loses htrip =>
    obtain rfl : i.path = _ := hpath
    simp only [after, htrip]
    exact stands_afterFailure rfl (hlasts.fails h)
  | fails htrip hlist =>
    obtain rfl : i.path = _ := hpath
    simp only [after, htrip, hlist]
    exact stands_afterFailure rfl (hlasts.fails h)
  | brings htrip hlist hsend =>
    obtain rfl : i.path = _ := hpath
    simp only [after, htrip, hlist]
    obtain ⟨⟨routes, rfl⟩, -⟩ := World.stepTrip_routes htrip
    obtain rfl := ItemStore.eq_pageAt_of_list hlist
    exact stands_sendItems rfl (hlasts.answers h hlisted (hgood _ rfl)) hsend
  | retries | turns => exact ⟨hpath, h⟩
  | waits hsend =>
    simp only [after, hsend]
    exact ⟨hpath, h⟩
  | leaves hsend =>
    cases (Sending.leaves_of_step hsend).2 with
    | refused hgone _ => exact Bool.noConfusion (hopen.symm.trans hgone)
  | sends hsent hsend =>
    obtain ⟨item, hevent, hrest⟩ := h
    simp only [after, hsent]
    exact stands_sendItems hpath (hlasts.accepts hrest (hpath ▸ hevent)) hsend

end Inquiry

/-! ### Cycles with what their search has done -/

namespace Producer

/-- The listings of a search, from its beginning until all of them are over. -/
def listings (p : ItemPoller) : Producer → List Listing
  | .ready => p.settings.paths.map .new
  | .listing _ listings => listings
  | _ => []

/-- What the listings of a search have done after a move to this state. -/
def inquiries (p : ItemPoller) (w : World) (c : Channel) (before : List Inquiry) :
    Producer → Producer → List Inquiry
  | .listing query listings, .listing _ _ => Inquiry.afterFirst p query w c listings before
  | _, _ => before

end Producer

/-- A cycle of a poller, with what its search has done. -/
structure CycleListings where
  cycle : Cycling
  /-- What the listings have done, in the order of their paths. -/
  inquiries : List Inquiry
  /-- All messages that were sent, in order. -/
  sent : List PollMessage

namespace CycleListings

/-- A cycle that begins. -/
def opened (p : ItemPoller) (world : World) (source : PollSource) : CycleListings :=
  ⟨.opened world { source with driver := .items p }, p.settings.paths.map .new, []⟩

/-- One of the halves has moved. A search that has sent a message has laid it behind the others. -/
def noted (next : Cycling) (s : CycleListings) : CycleListings :=
  match next.turn, s.cycle.source.driver with
  | .searching, .items p =>
    { cycle := next
      inquiries := s.cycle.producer.inquiries p s.cycle.world s.cycle.channel s.inquiries next.producer
      sent := s.sent ++ next.channel.queue.drop s.cycle.channel.queue.length }
  | _, _ => { s with cycle := next }

/-- The task of the poller makes a move within the cycle, or something else happens to the source, but not to
its driver, or elsewhere. A run that was told to stop stays so. -/
inductive Step (signal : Signal) : CycleListings → CycleListings → Prop
  | moves {s : CycleListings} {next : Cycling} (hs : s.cycle.source.step signal s.cycle.task s.cycle.world =
      some (.goes next.task, next.world, next.source)) : Step signal s (s.noted next)
  | passes (s : CycleListings) (world : World) {source : PollSource}
      (hsettings : source.settings = s.cycle.source.settings)
      (hinfo : source.desk.info = s.cycle.source.desk.info) (hdriver : source.driver = s.cycle.source.driver)
      (hsignal : s.cycle.source.lifecycle.isTriggered signal = true → source.lifecycle.isTriggered signal = true) :
      Step signal s { s with cycle := { s.cycle with world, source } }

/-- The store. -/
def store (s : CycleListings) : ItemStore := s.cycle.world.clients.items

/-- The run was told to stop. -/
def isStopped (signal : Signal) (s : CycleListings) : Bool := s.cycle.source.lifecycle.isTriggered signal

/-- The pages that the listings have still to ask for are of a kind. -/
def Meets (p : ItemPoller) (good : ListRequest → ListPage → Prop) (s : CycleListings) : Prop :=
  ∀ l ∈ s.cycle.producer.listings p, ∀ marker ∈ l.ahead?,
    good (p.request l.path p.query marker) (s.store.pageAt (p.request l.path p.query marker))

/-- The events are those that were accepted, in whatever order the listings came forward. -/
structure Merges (inquiries : List Inquiry) (events : List Event) : Prop where
  perm : events.Perm (inquiries.flatMap Inquiry.accepted)
  order : ∀ i ∈ inquiries, i.accepted.Sublist events

theorem merges_new (paths : List String) : Merges (paths.map .new) [] := by
  refine ⟨?_, fun i hi => ?_⟩
  · rw [List.flatMap_map]
    simp [Inquiry.new]
  · obtain ⟨path, -, rfl⟩ := List.mem_map.mp hi
    exact List.Sublist.refl _

/-- One of the listings comes forward. -/
theorem Merges.append {pre post : List Inquiry} {i i' : Inquiry} {events more : List Event}
    (h : Merges (pre ++ i :: post) events) (hmore : i'.accepted = i.accepted ++ more) :
    Merges (pre ++ i' :: post) (events ++ more) := by
  obtain ⟨hperm, horder⟩ := h
  refine ⟨?_, fun j hj => ?_⟩
  · rw [List.flatMap_append, List.flatMap_cons] at hperm ⊢
    rw [hmore]
    refine (hperm.append_right more).trans ?_
    simp only [List.append_assoc]
    exact (List.perm_append_comm.append_left _).append_left _
  · have hold : ∀ j ∈ pre ++ i :: post, j.accepted.Sublist (events ++ more) := fun j hj =>
      (horder j hj).trans (List.sublist_append_left _ _)
    rcases List.mem_append.mp hj with hpre | hpost
    · exact hold j (List.mem_append_left _ hpre)
    · rcases List.mem_cons.mp hpost with rfl | hpost
      · rw [hmore]
        exact (horder i (by simp)).append_right _
      · exact hold j (List.mem_append_right _ (List.mem_cons_of_mem _ hpost))

end CycleListings

/-! ### The search -/

namespace Producer

/-- How a search stands of whose listings something is known, with the driver, the channel, and those who
receive. -/
def Stands (p : ItemPoller) (S : List Item → Option (String × Nat) → Inquiry → Prop) (inquiries : List Inquiry)
    (d : PollDriver) (c : Channel) (consumer : Consumer) : Producer → Prop
  | .ready => d = .items p ∧ Attends False c consumer ∧
      List.Forall₂ (Inquiry.Stands S) inquiries (p.settings.paths.map .new)
  | .listing query listings => d = .items p ∧ Attends False c consumer ∧ query = p.query ∧
      List.Forall₂ (Inquiry.Stands S) inquiries listings
  | .completing _ => d = .items p ∧ Attends False c consumer ∧ ∀ i ∈ inquiries, S [] none i
  | .done => ∀ i ∈ inquiries, S [] none i
  | _ => False

variable {p : ItemPoller} {good : ListRequest → ListPage → Prop}
  {S : List Item → Option (String × Nat) → Inquiry → Prop} {inquiries : List Inquiry} {d d' : PollDriver}
  {c c' : Channel} {consumer : Consumer} {producer producer' : Producer} {w w' : World}

/-- When all listings are over. -/
theorem stands_of_done {listings : List Listing} (h : List.Forall₂ (Inquiry.Stands S) inquiries listings)
    (hall : listings.all Listing.isDone = true) : ∀ i ∈ inquiries, S [] none i := by
  induction h with
  | nil => exact fun i hi => by (cases hi)
  | @cons i l inquiries listings hstands hrest ih =>
    rw [List.all_cons, Bool.and_eq_true] at hall
    refine List.forall_mem_cons.mpr ⟨?_, ih hall.2⟩
    rcases l with ⟨path, marker, stage⟩
    cases stage with
    | done => exact hstands.2
    | requesting attempt trip => cases hall.1
    | retrying attempt until_ => cases hall.1
    | sending event rest isLast next send => cases hall.1
    | turning until_ => cases hall.1

/-- **A move of the search** is one of a listing, whose events are sent as they are accepted; or the end of the
cycle is told, when all listings are over. -/
theorem stands_of_step (hlasts : Inquiry.Lasts p good S) (hpaths : inquiries.map Inquiry.path = p.settings.paths)
    (h : producer.Stands p S inquiries (.items p) c consumer)
    (hgood : ∀ l ∈ producer.listings p, ∀ marker ∈ l.ahead?, good (p.request l.path p.query marker)
      (w.clients.items.pageAt (p.request l.path p.query marker)))
    (hs : producer.step w (.items p) c = some (producer', w', d', c')) :
    producer'.Stands p S (producer.inquiries p w c inquiries producer') d' c' consumer ∧
      (producer.inquiries p w c inquiries producer').map Inquiry.path = inquiries.map Inquiry.path ∧
      ∃ events : List Event, c'.queue = c.queue ++ (events.map PollMessage.event ++
          if producer'.isDone then [.cycleComplete] else []) ∧
        ∀ old, CycleListings.Merges inquiries old →
          CycleListings.Merges (producer.inquiries p w c inquiries producer') (old ++ events) := by
  have hnothing : ∀ old, CycleListings.Merges inquiries old → CycleListings.Merges inquiries (old ++ []) := by
    intro old hold
    rw [List.append_nil]
    exact hold
  cases moves_of_step hs with
  | begins =>
    obtain ⟨hdriver, hattends, hstands⟩ := h
    exact ⟨⟨hdriver, hattends, rfl, hstands⟩, rfl, [], (List.append_nil _).symm, hnothing⟩
  | lists hfirst =>
    obtain ⟨hdriver, hattends, rfl, hstands⟩ := h
    obtain ⟨pre, i, post, before, l, later, l', rfl, rfl, hpre, hi, hpost, hstep, rfl, hafter⟩ :=
      Inquiry.afterFirst_cases hstands hfirst
    have hopen : c.receiverGone = false := Bool.eq_false_iff.mpr hattends.gone
    have hlisted : l.path ∈ p.settings.paths := by
      rw [← hpaths, ← hi.1]
      exact List.mem_map_of_mem (List.mem_append_right _ List.mem_cons_self)
    obtain ⟨events, hqueue, haccepted⟩ := Inquiry.sends_of_step hstep i
    have hmoved := Inquiry.stands_of_step hlasts hi hlisted hopen
      (hgood l (List.mem_append_right _ List.mem_cons_self)) hstep
    have hinquiries : inquiries p w c (pre ++ i :: post) (.listing p.query (before ++ l :: later))
        (.listing p.query (before ++ l' :: later)) = pre ++ i.after p p.query w c l :: post := hafter
    rw [hinquiries]
    refine ⟨⟨rfl, hattends.lists hstep, rfl, List.rel_append hpre (.cons hmoved hpost)⟩, ?_, events, ?_,
      fun old hold => hold.append haccepted⟩
    · rw [List.map_append, List.map_append, List.map_cons, List.map_cons, Inquiry.path_after]
    · rw [hqueue]
      exact congrArg (c.queue ++ ·) (List.append_nil _).symm
  | concludes hall =>
    obtain ⟨hdriver, hattends, -, hstands⟩ := h
    exact ⟨⟨hdriver, hattends, stands_of_done hstands hall⟩, rfl, [], (List.append_nil _).symm, hnothing⟩
  | lingers hsend =>
    obtain ⟨hdriver, hattends, hstands⟩ := h
    cases (Sending.leaves_of_step hsend).2 with
    | waits _ _ hqueue =>
      exact ⟨⟨hdriver, (hattends.sends hsend (.inr ⟨_, rfl⟩)).1, hstands⟩, rfl, [],
        hqueue.trans (List.append_nil _).symm, hnothing⟩
  | completes hsend hr =>
    obtain ⟨-, hattends, hstands⟩ := h
    cases (Sending.leaves_of_step hsend).2 with
    | sent _ hqueue => exact ⟨hstands, rfl, [], hqueue, hnothing⟩
    | waits send' => exact absurd rfl (hr send')
    | refused hgone => exact (hattends.gone hgone).elim
  | stops | pauses | goes | wakes | waits | sends | leaves => exact h.elim

/-- What those who receive do leaves the search where it is. -/
theorem Stands.consumes {signal : Signal} {s s' : PollSource} {next : Consumer}
    (h : producer.Stands p S inquiries s.driver c consumer) (hsignal : s.lifecycle.isTriggered signal = false)
    (hs : s.stepConsumer signal c w consumer = some (next, c', w', s')) :
    producer.Stands p S inquiries s'.driver c' next := by
  have hattends : Attends False c consumer → Attends False c' next := fun hold =>
    ((hold.mono False.elim).consumes hs).mono (Bool.eq_false_iff.mp hsignal)
  cases producer with
  | ready =>
    obtain ⟨hdriver, hold, hstands⟩ := h
    exact ⟨PollSource.driver_of_stepConsumer hdriver hs, hattends hold, hstands⟩
  | listing query listings =>
    obtain ⟨hdriver, hold, hstands⟩ := h
    exact ⟨PollSource.driver_of_stepConsumer hdriver hs, hattends hold, hstands⟩
  | completing send =>
    obtain ⟨hdriver, hold, hstands⟩ := h
    exact ⟨PollSource.driver_of_stepConsumer hdriver hs, hattends hold, hstands⟩
  | done => exact h
  | playing rest => exact h.elim
  | pausing message rest until_ => exact h.elim
  | sending message rest send => exact h.elim

theorem Stands.driver (h : producer.Stands p S inquiries d c consumer) : d = .items p ∨ producer = .done := by
  cases producer with
  | ready => exact .inl h.1
  | listing query listings => exact .inl h.1
  | completing send => exact .inl h.1
  | done => exact .inr rfl
  | playing rest => exact h.elim
  | pausing message rest until_ => exact h.elim
  | sending message rest send => exact h.elim

/-- What is known of every listing; when the search is over, so are they. -/
theorem Stands.known (h : producer.Stands p S inquiries d c consumer) : ∀ i ∈ inquiries,
    ∃ rest ahead, S rest ahead i ∧ (producer.isDone = true → rest = [] ∧ ahead = none) := by
  have hlisted : ∀ listings, List.Forall₂ (Inquiry.Stands S) inquiries listings →
      ∀ i ∈ inquiries, ∃ rest ahead, S rest ahead i := fun listings hstands =>
    ((List.forall₂_and_left _ _).mp (hstands.imp fun i l hi => ⟨hi.known, hi⟩)).1
  cases producer with
  | ready =>
    intro i hi
    obtain ⟨rest, ahead, hknown⟩ := hlisted _ h.2.2 i hi
    exact ⟨rest, ahead, hknown, fun hdone => by (cases hdone)⟩
  | listing query listings =>
    intro i hi
    obtain ⟨rest, ahead, hknown⟩ := hlisted _ h.2.2.2 i hi
    exact ⟨rest, ahead, hknown, fun hdone => by (cases hdone)⟩
  | completing send => exact fun i hi => ⟨_, _, h.2.2 i hi, fun _ => ⟨rfl, rfl⟩⟩
  | done => exact fun i hi => ⟨_, _, h i hi, fun _ => ⟨rfl, rfl⟩⟩
  | playing rest => exact h.elim
  | pausing message rest until_ => exact h.elim
  | sending message rest send => exact h.elim

end Producer

namespace CycleListings

variable {p : ItemPoller} {good : ListRequest → ListPage → Prop}
  {S : List Item → Option (String × Nat) → Inquiry → Prop} {signal : Signal} {s s' : CycleListings}

/-- Something is known of the listings of a cycle, and the messages are told as they come. -/
structure Sound (p : ItemPoller) (S : List Item → Option (String × Nat) → Inquiry → Prop) (s : CycleListings) :
    Prop where
  paths : s.inquiries.map Inquiry.path = p.settings.paths
  stands : s.cycle.producer.Stands p S s.inquiries s.cycle.source.driver s.cycle.channel s.cycle.consumer
  messages : ∃ events : List Event, s.sent = events.map PollMessage.event ++
      (if s.cycle.producer.isDone then [.cycleComplete] else []) ∧ Merges s.inquiries events

theorem sound_opened (hlasts : Inquiry.Lasts p good S) (world : World) (source : PollSource) :
    (opened p world source).Sound p S where
  paths := by
    rw [opened, List.map_map]
    exact List.map_id _
  stands := by
    refine ⟨rfl, Attends.new _, ?_⟩
    rw [opened, List.forall₂_map_left_iff, List.forall₂_map_right_iff, List.forall₂_same]
    exact fun path hpath => ⟨rfl, hlasts.begins path hpath⟩
  messages := ⟨[], rfl, merges_new _⟩

@[simp] theorem noted_cycle (next : Cycling) (s : CycleListings) : (s.noted next).cycle = next := by
  unfold noted
  split <;> rfl

theorem noted_searching {next : Cycling} (hturn : next.turn = .searching)
    (hdriver : s.cycle.source.driver = .items p) : s.noted next =
      ⟨next, s.cycle.producer.inquiries p s.cycle.world s.cycle.channel s.inquiries next.producer,
        s.sent ++ next.channel.queue.drop s.cycle.channel.queue.length⟩ := by
  rw [noted, hturn, hdriver]

theorem noted_receiving {next : Cycling} (hturn : next.turn = .receiving) :
    s.noted next = { s with cycle := next } := by
  rw [noted, hturn]

/-- **One move of anybody** in a run that goes on, whose listings get good pages. -/
theorem Sound.step (h : Sound p S s) (hlasts : Inquiry.Lasts p good S) (hgood : s.Meets p good)
    (hgoes : s.isStopped signal = false) (hs : Step signal s s') : Sound p S s' := by
  cases hs with
  | passes world hsettings hinfo hdriver hsignal => exact ⟨h.paths, hdriver ▸ h.stands, h.messages⟩
  | @moves next hs =>
    obtain ⟨⟨w, s₀, turn₀, c, producer, consumer⟩, inquiries, sent⟩ := s
    obtain ⟨w', s₁, turn₁, c', producer', consumer'⟩ := next
    dsimp only [Cycling.task] at hs
    obtain ⟨hpaths, hstands, events, hsent, hmerges⟩ := h
    dsimp only at hpaths hstands hsent hmerges
    cases PollSource.moves_of_step hs with
    | searches hsearch =>
      have hdriver : s₀.driver = .items p := hstands.driver.resolve_right fun hdone => by
        rw [hdone] at hsearch
        cases hsearch
      have hbusy : producer.isDone = false := by
        cases producer with
        | done => cases hsearch
        | _ => rfl
      rw [noted_searching rfl hdriver]
      rw [hdriver] at hsearch hstands
      obtain ⟨hstands', hpaths', more, hqueue, hmore⟩ :=
        Producer.stands_of_step hlasts hpaths hstands hgood hsearch
      refine ⟨hpaths'.trans hpaths, hstands', events ++ more, ?_, hmore events hmerges⟩
      rw [hbusy, if_neg Bool.false_ne_true, List.append_nil] at hsent
      dsimp only
      rw [hsent, hqueue, List.drop_left, List.map_append, List.append_assoc]
    | receives hreceive =>
      rw [noted_receiving rfl]
      exact ⟨hpaths, hstands.consumes hgoes hreceive, events, hsent, hmerges⟩

theorem isStopped_of_step (hs : Step signal s s') (hstopped : s.isStopped signal = true) :
    s'.isStopped signal = true := by
  cases hs with
  | passes world _ _ _ hsignal => exact hsignal hstopped
  | @moves next hs =>
    have hmove : PollSource.rules.step signal s.cycle.task s.cycle.world s.cycle.source =
        some (.goes next.task, next.world, next.source) := hs
    have hlifecycle : next.source.lifecycle = s.cycle.source.lifecycle := PollSource.rules_sealed.get_step hmove
    rw [isStopped, noted_cycle, hlifecycle]
    exact hstopped

/-- The cycle alone. -/
theorem cycle_step (hs : Step signal s s') : Cycling.Step signal s.cycle s'.cycle := by
  cases hs with
  | passes world hsettings hinfo hdriver hsignal => exact .passes _ world hsettings hinfo hdriver hsignal
  | @moves next hs =>
    rw [noted_cycle]
    exact .moves hs

/-! ### What a search tells -/

/-- One move of anybody, after which the listings still get good pages. -/
def Served (signal : Signal) (p : ItemPoller) (good : ListRequest → ListPage → Prop) (s s' : CycleListings) : Prop :=
  Step signal s s' ∧ s'.Meets p good

/-- **What lasts is kept in every run** that is not told to stop, as long as the listings get good pages. -/
theorem Sound.of_reachable (h : Sound p S s) (hlasts : Inquiry.Lasts p good S) (hgood : s.Meets p good)
    (hr : Relation.ReflTransGen (Served signal p good) s s') (hgoes : s'.isStopped signal = false) :
    Sound p S s' := by
  suffices hboth : s'.Meets p good ∧ (s'.isStopped signal = false → Sound p S s') from hboth.2 hgoes
  clear hgoes
  induction hr with
  | refl => exact ⟨hgood, fun _ => h⟩
  | @tail s₁ s₂ _ hs ih =>
    refine ⟨hs.2, fun hgoes => ?_⟩
    have hgoes₁ : s₁.isStopped signal = false := Bool.eq_false_iff.mpr fun hstopped =>
      Bool.noConfusion (hgoes.symm.trans (isStopped_of_step hs.1 hstopped))
    exact (ih.2 hgoes₁).step hlasts ih.1 hgoes₁ hs.1

/-- **What a search tells**, when something holds of each of its listings, be the search over or not. -/
structure Tells (signal : Signal) (p : ItemPoller) (holds : Bool → Inquiry → Prop) (s : CycleListings) : Prop where
  /-- There is one listing for each path. -/
  paths : s.inquiries.map Inquiry.path = p.settings.paths
  inquiries : ∀ i ∈ s.inquiries, holds s.cycle.producer.isDone i
  /-- The events are sent as they are accepted, those of a path in order; when the search is over, the end of the
  cycle was told, once, after all events. -/
  messages : ∃ events : List Event, s.sent = events.map PollMessage.event ++
      (if s.cycle.producer.isDone then [.cycleComplete] else []) ∧
    events.Perm (s.inquiries.flatMap Inquiry.accepted) ∧ ∀ i ∈ s.inquiries, i.accepted.Sublist events
  /-- Until both halves of the cycle are over, it goes on. -/
  lively : s.cycle.Lively signal

/-- **What lasts tells**: in a run that is not told to stop and whose listings get good pages. -/
theorem tells_of_reachable {holds : Bool → Inquiry → Prop} {world : World} {source : PollSource}
    (hlasts : Inquiry.Lasts p good S)
    (hholds : ∀ i rest ahead isOver, i.path ∈ p.settings.paths → S rest ahead i →
      (isOver = true → rest = [] ∧ ahead = none) → holds isOver i)
    (hgood : (opened p world source).Meets p good)
    (hr : Relation.ReflTransGen (Served signal p good) (opened p world source) s)
    (hgoes : s.isStopped signal = false) : s.Tells signal p holds := by
  have hcycle : Relation.ReflTransGen (Cycling.Step signal) (opened p world source).cycle s.cycle :=
    hr.lift cycle fun _ _ hs => cycle_step hs.1
  have hsound := (sound_opened hlasts world source).of_reachable hlasts hgood hr hgoes
  obtain ⟨events, hsent, hmerges⟩ := hsound.messages
  refine ⟨hsound.paths, fun i hi => ?_, ⟨events, hsent, hmerges.perm, hmerges.order⟩,
    ((Cycling.sound_opened _ _).of_reachable hcycle).lively (BatchedCycle.batchSize_ne_zero _)⟩
  obtain ⟨rest, ahead, hknown, hover⟩ := hsound.stands.known i hi
  exact hholds i rest ahead _ (hsound.paths ▸ List.mem_map_of_mem hi) hknown hover

/-- The cycle after some moves that its search makes one after the other, unless it has to wait before. -/
def searched : Nat → CycleListings → Option CycleListings
  | 0, s => some s
  | n + 1, s =>
    match s.cycle.turn, s.cycle.producer.step s.cycle.world s.cycle.source.driver s.cycle.channel with
    | .searching, some (producer, world, driver, channel) => searched n
        (s.noted ⟨world, { s.cycle.source with driver }, .searching, channel, producer, s.cycle.consumer⟩)
    | _, _ => none

theorem exists_of_searched {n : Nat} {holds : CycleListings → Prop} [DecidablePred holds]
    (h : (searched n s).any (fun s => holds s) = true) : ∃ s', searched n s = some s' ∧ holds s' := by
  obtain ⟨s', hs, hholds⟩ := Option.any_eq_true _ _ |>.mp h
  exact ⟨s', hs, of_decide_eq_true hholds⟩

/-- These are moves that leave the directories as they are. -/
theorem reachable_of_searched {n : Nat} {directories : Keyed (Keyed Json.Object)} (h : searched n s = some s')
    (hsame : s.store.directories = directories) :
    Relation.ReflTransGen (fun s s' => Step signal s s' ∧ s.store.directories = directories ∧
      s'.store.directories = directories) s s' := by
  induction n generalizing s with
  | zero =>
    cases h
    exact .refl
  | succ n ih =>
    rw [searched] at h
    split at h
    next producer world driver channel hturn hsearch =>
      have hnext : world.clients.items.directories = directories :=
        (Producer.consults_of_step hsearch).directories.trans hsame
      refine .head ⟨.moves ?_, hsame, ?_⟩ (ih h ?_)
      · rw [Cycling.task, hturn]
        simp only [PollSource.step, PollSource.stepHalf, hsearch, Option.map_some, Option.some_or]
        rfl
      · rw [store, noted_cycle]
        exact hnext
      · rw [store, noted_cycle]
        exact hnext
    · cases h

end CycleListings

end EventDispatch
