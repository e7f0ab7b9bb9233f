import EventDispatch.Proofs.TaskKinds

/-!
# The first poll of a poller

A poller asks for all items until its first poll is over, and from then on only for those that changed
after they were stamped. An item that no poll has brought has no stamps. So one expects the first poll to
be over only once a search has listed every path to its last page, with every item accepted.

It is over when the first search for events returns, whatever the search has brought. A search returns
when the listing of each path is over in one of three ways: it has come to its last page with all items
accepted, it was given up after three requests in a row had failed, or an item found nobody who receives.
The last happens only in a run that is told to stop. A search that is given up with its task does not
return, and leaves the first poll as it is.

## What is deliberately absent

Nothing is assumed of the world around the poller, which may change in any way between two moves: the
items of the store, the requests that fail, the workers and the function. Starts and stops come in any
order, by force or not, and several of them may be open at a time.

## Main definitions

* `Survey`: what the listing of a path has brought.
* `Survey.Full`: the path was listed to its last page, and every item accepted.
* `Survey.Tells`: how a survey and its listing stand.
* `Rounds`: a poller with the surveys of its searches, and the searches that have returned.
* `Rounds.Step`: one move of anybody.
* `Rounds.Told`: the law.

## Main results

* `Survey.tells_of_step`: what a move of a listing adds to its survey.
* `Rounds.Sound.step`: what one move of anybody keeps.
* `Rounds.told_of_reachable`: the law, for every run.
-/

namespace EventDispatch

/-! ### Surveys -/

/-- What the listing of a path has brought so far. -/
structure Survey where
  path : String
  /-- The pages that were returned, the newest first, each with the marker after which it starts. -/
  pages : List (String × ListPage)
  /-- The events that were accepted, in order. -/
  accepted : List Event
  /-- Requests that have failed since the newest page was returned. -/
  failures : Nat
  /-- An event found nobody who receives. -/
  refused : Bool

namespace Survey

/-- A listing that has not begun. -/
def new (path : String) : Survey := ⟨path, [], [], 0, false⟩

/-- The items of the pages, in order. -/
def items (s : Survey) : List Item := s.pages.reverse.flatMap fun page => page.2.items

/-- The marker after which the page starts that follows these. -/
def markerAfter : List (String × ListPage) → String
  | [] => ""
  | page :: _ => page.2.nextMarker

/-- The pages follow one another from the first one on. -/
def Linked : List (String × ListPage) → Prop
  | [] => True
  | page :: older => page.1 = markerAfter older ∧ (∀ p ∈ older, p.2.isLast = false) ∧ Linked older

/-- The event was made of the item. -/
def Brings (path : String) (item : Item) (event : Event) : Prop :=
  ∃ now, event = ItemPoller.event path item now

/-- The path was listed to its last page, and every item was accepted. -/
structure Full (s : Survey) : Prop where
  linked : Linked s.pages
  last : ∃ page ∈ s.pages.head?, page.2.isLast = true
  accepted : List.Forall₂ (Brings s.path) s.items s.accepted

/-- The listing was given up, since requests for one page failed too often. -/
def GivenUp (s : Survey) : Prop := Listing.pageAttempts ≤ s.failures

/-- The listing is over: it is full unless it was given up, or cut short by those who receive. -/
def Decided (s : Survey) : Prop := s.Full ↔ ¬s.GivenUp ∧ s.refused = false

/-- What the next move of a listing adds. -/
def after (p : ItemPoller) (query : String) (w : World) (c : Channel) (l : Listing) (s : Survey) : Survey :=
  match l.stage with
  | .requesting _ trip =>
    match w.stepTrip .getItems trip with
    | some (.ends none, w) =>
      match (w.clients.items.list (p.request l.path query l.marker)).1 with
      | .ok page => { s with pages := (l.marker, page) :: s.pages, failures := 0 }
      | .error _ => { s with failures := s.failures + 1 }
    | some (.ends (some _), _) => { s with failures := s.failures + 1 }
    | _ => s
  | .sending event _ _ _ send =>
    match send.step (.event event) c with
    | some (.sent, _) => { s with accepted := s.accepted ++ [event] }
    | some (.refused, _) => { s with refused := true }
    | _ => s
  | _ => s

/-- What the next move of the first listing that can move adds. -/
def afterFirst (p : ItemPoller) (query : String) (w : World) (c : Channel) :
    List Listing → List Survey → List Survey
  | l :: listings, s :: surveys =>
    if (l.step p query w c).isSome then s.after p query w c l :: surveys
    else s :: afterFirst p query w c listings surveys
  | _, surveys => surveys

/-! ### How a survey and its listing stand -/

/-- The pages so far were sent, and there are more to come. -/
structure Open (s : Survey) (path marker : String) : Prop where
  path : s.path = path
  linked : Linked s.pages
  more : ∀ page ∈ s.pages, page.2.isLast = false
  marker : marker = markerAfter s.pages
  accepted : List.Forall₂ (Brings s.path) s.items s.accepted
  received : s.refused = false

/-- Items of the newest page are still to be sent. -/
structure Sends (s : Survey) (path : String) (rest : List Item) (isLast : Bool) (next : String) : Prop where
  path : s.path = path
  linked : Linked s.pages
  newest : ∃ page older, s.pages = page :: older ∧ page.2.isLast = isLast ∧ page.2.nextMarker = next
  accepted : ∃ done, s.items = done ++ rest ∧ List.Forall₂ (Brings s.path) done s.accepted
  answered : s.failures = 0
  received : s.refused = false

/-- A survey tells how its listing stands. -/
def Tells (s : Survey) (l : Listing) : Prop :=
  match l.stage with
  | .requesting attempt _ | .retrying attempt _ =>
    s.Open l.path l.marker ∧ s.failures + 1 = attempt ∧ attempt ≤ Listing.pageAttempts
  | .sending event rest isLast next _ =>
    ∃ item, Brings l.path item event ∧ s.Sends l.path (item :: rest) isLast next
  | .turning _ => s.Open l.path l.marker ∧ s.failures = 0
  | .done => s.path = l.path ∧ s.Decided

variable {s : Survey} {l l' : Listing} {p : ItemPoller} {query : String} {w w' : World} {c c' : Channel}

theorem Tells.path (h : s.Tells l) : s.path = l.path := by
  unfold Tells at h
  split at h
  · exact h.1.path
  · exact h.1.path
  · obtain ⟨item, -, hsends⟩ := h
    exact hsends.path
  · exact h.1.path
  · exact h.1

theorem tells_new (path : String) : (new path).Tells (.new path) :=
  ⟨⟨rfl, trivial, fun _ hm => by (cases hm), rfl, .nil, rfl⟩, rfl, by decide⟩

/-- A survey without the last page is not full. -/
theorem Open.not_full {path marker : String} (h : s.Open path marker) : ¬s.Full := by
  rintro ⟨-, ⟨page, hpage, hlast⟩, -⟩
  rw [h.more page (List.mem_of_mem_head? hpage)] at hlast
  cases hlast

/-- After a request that failed, the page is requested again, or the listing is given up. -/
theorem Open.failed {path marker : String} {attempt now delay : Nat} (h : s.Open path marker)
    (hfailures : s.failures + 1 = attempt) (hattempt : attempt ≤ Listing.pageAttempts) :
    ({ s with failures := s.failures + 1 } : Survey).Tells
      ⟨path, marker, Listing.afterFailure now delay attempt⟩ := by
  have hopen : ({ s with failures := s.failures + 1 } : Survey).Open path marker :=
    ⟨h.path, h.linked, h.more, h.marker, h.accepted, h.received⟩
  rw [Listing.afterFailure]
  split
  next hlt => exact ⟨hopen, congrArg (· + 1) hfailures, hlt⟩
  next hnot =>
    refine ⟨h.path, fun hfull => absurd hfull hopen.not_full, fun hnot => absurd ?_ hnot.1⟩
    change Listing.pageAttempts ≤ s.failures + 1
    omega

/-- A page comes: its items are still to be sent. -/
theorem Open.page {path marker : String} (h : s.Open path marker) (page : ListPage) :
    ({ s with pages := (marker, page) :: s.pages, failures := 0 } : Survey).Sends path page.items
      page.isLast page.nextMarker := by
  refine ⟨h.path, ⟨h.marker, h.more, h.linked⟩, ⟨_, _, rfl, rfl, rfl⟩, ⟨s.items, ?_, h.accepted⟩, rfl,
    h.received⟩
  simp [items]

/-- With no item left to send, the page is over. -/
theorem Sends.over {path next : String} {isLast : Bool} (h : s.Sends path [] isLast next) :
    List.Forall₂ (Brings s.path) s.items s.accepted := by
  obtain ⟨done, hitems, haccepted⟩ := h.accepted
  rw [hitems, List.append_nil]
  exact haccepted

/-- A listing goes on with some items of a page left to send. -/
theorem Sends.goes {path next : String} {items : List Item} {isLast : Bool} {delay : Nat}
    (h : s.Sends path items isLast next) (hpath : l.path = path)
    (hsend : Listing.sendItems items isLast next delay w l = (l', w')) : s.Tells l' := by
  subst hpath
  obtain rfl : (Listing.sendItems items isLast next delay w l).1 = l' := congrArg Prod.fst hsend
  cases items with
  | cons item rest => exact ⟨item, ⟨_, rfl⟩, h⟩
  | nil =>
    obtain ⟨page, older, hpages, hlast, hnext⟩ := h.newest
    have hlinked := h.linked
    rw [hpages] at hlinked
    rw [Listing.sendItems]
    split
    next hisLast =>
      refine ⟨h.path, fun _ => ⟨fun hgiven => ?_, h.received⟩, fun _ => ⟨h.linked, ?_, h.over⟩⟩
      · rw [GivenUp, h.answered] at hgiven
        cases hgiven
      · rw [hpages]
        exact ⟨page, rfl, hlast.trans hisLast⟩
    next hnot =>
      have hopen : s.Open l.path next := by
        refine ⟨h.path, h.linked, ?_, ?_, h.over, h.received⟩
        · rw [hpages]
          refine List.forall_mem_cons.mpr ⟨?_, hlinked.2.1⟩
          rw [hlast]
          exact Bool.eq_false_iff.mpr hnot
        · rw [hpages]
          exact hnext.symm
      split
      · exact ⟨hopen, by rw [h.answered], by decide⟩
      · exact ⟨hopen, h.answered⟩

/-- An item is accepted. -/
theorem Sends.accept {path next : String} {item : Item} {rest : List Item} {isLast : Bool} {event : Event}
    (h : s.Sends path (item :: rest) isLast next) (hevent : Brings path item event) :
    ({ s with accepted := s.accepted ++ [event] } : Survey).Sends path rest isLast next := by
  obtain ⟨done, hitems, haccepted⟩ := h.accepted
  refine ⟨h.path, h.linked, h.newest, ⟨done ++ [item], ?_, ?_⟩, h.answered, h.received⟩
  · change s.items = _
    rw [hitems, List.append_assoc, List.singleton_append]
  · refine List.rel_append haccepted (.cons ?_ .nil)
    rw [h.path]
    exact hevent

/-- An item finds nobody who receives. -/
theorem Sends.refuse {path next : String} {item : Item} {rest : List Item} {isLast : Bool}
    (h : s.Sends path (item :: rest) isLast next) : ({ s with refused := true } : Survey).Decided := by
  refine ⟨fun hfull => ?_, fun hnot => by (cases hnot.2)⟩
  obtain ⟨done, hitems, haccepted⟩ := h.accepted
  have hlength := hfull.accepted.length_eq
  change s.items.length = s.accepted.length at hlength
  rw [hitems, List.length_append, List.length_cons, haccepted.length_eq] at hlength
  omega

/-- **A move of a listing** adds to its survey what it has brought. -/
theorem tells_of_step (h : s.Tells l) (hs : l.step p query w c = some (l', w', c')) :
    (s.after p query w c l).Tells l' := by
  cases Listing.moves_of_step hs with
  | asks htrip =>
    simp only [after, htrip]
    exact h
  | loses htrip =>
    obtain ⟨hopen, hfailures, hattempt⟩ := h
    simp only [after, htrip]
    exact hopen.failed hfailures hattempt
  | fails htrip hlist =>
    obtain ⟨hopen, hfailures, hattempt⟩ := h
    simp only [after, htrip, hlist]
    exact hopen.failed hfailures hattempt
  | brings htrip hlist hsend =>
    simp only [after, htrip, hlist]
    exact (h.1.page _).goes rfl hsend
  | retries => exact h
  | waits hsend =>
    simp only [after, hsend]
    exact h
  | leaves hsend =>
    obtain ⟨item, -, hsends⟩ := h
    simp only [after, hsend]
    exact ⟨hsends.path, hsends.refuse⟩
  | sends hsent hsend =>
    obtain ⟨item, hevent, hsends⟩ := h
    simp only [after, hsent]
    exact (hsends.accept hevent).goes rfl hsend
  | turns => exact ⟨h.1, congrArg (· + 1) h.2, by decide⟩

theorem path_after (s : Survey) : (s.after p query w c l).path = s.path := by
  unfold after
  split
  · split
    · split <;> rfl
    · rfl
    · rfl
  · split <;> rfl
  · rfl

end Survey

/-! ### Those who receive -/

/-- A search is going on: nobody has said that all was sent. -/
structure Channel.Going (c : Channel) : Prop where
  senders : c.sendersGone = false
  events : PollMessage.cycleComplete ∉ c.queue

/-- The messages of the search are still to come. -/
def Consumer.Awaits : Consumer → Prop
  | .receiving _ | .done => True
  | .submitting isLast _ | .wrapping isLast _ _ => isLast = false

/-- Those who receive wait for the search, unless the run was told to stop. -/
structure Attends (triggered : Prop) (c : Channel) (consumer : Consumer) : Prop where
  going : c.Going
  awaits : consumer.Awaits
  gone : c.receiverGone = true → triggered

namespace Attends

variable {triggered triggered' : Prop} {c c' : Channel} {consumer next : Consumer}

theorem new (capacity : Nat) : Attends triggered (.new capacity) (.receiving []) :=
  ⟨⟨rfl, List.not_mem_nil⟩, trivial, fun h => by (cases h)⟩

theorem mono (h : Attends triggered c consumer) (himp : triggered → triggered') :
    Attends triggered' c consumer :=
  ⟨h.going, h.awaits, fun hgone => himp (h.gone hgone)⟩

/-- A call that sends an event, or that only waits. -/
theorem sends (h : Attends triggered c consumer) {message : PollMessage} {send : Sending} {r : Sent}
    (hs : send.step message c = some (r, c')) (hr : message ≠ .cycleComplete ∨ ∃ send', r = .waits send') :
    Attends triggered c' consumer ∧ (r = .refused → triggered) := by
  obtain ⟨⟨hsenders, hevents⟩, hawaits, hgone⟩ := h
  have hqueue : r = .sent → .cycleComplete ∉ c.queue ++ [message] := by
    rintro rfl hm
    rcases hr with hne | ⟨send', hr⟩
    · exact (List.mem_append.mp hm).elim hevents fun hm => hne (List.mem_singleton.mp hm).symm
    · cases hr
  cases send with
  | ready =>
    rw [Sending.step] at hs
    split at hs
    next hg =>
      cases hs
      exact ⟨⟨⟨hsenders, hevents⟩, hawaits, hgone⟩, fun _ => hgone hg⟩
    · split at hs
      · cases hs
        exact ⟨⟨⟨hsenders, hqueue rfl⟩, hawaits, hgone⟩, fun hr => by (cases hr)⟩
      · cases hs
        exact ⟨⟨⟨hsenders, hevents⟩, hawaits, hgone⟩, fun hr => by (cases hr)⟩
  | waiting ticket =>
    rw [Sending.step] at hs
    split at hs
    next hg =>
      cases hs
      exact ⟨⟨⟨hsenders, hevents⟩, hawaits, hgone⟩, fun _ => hgone hg⟩
    · split at hs
      · cases hs
        exact ⟨⟨⟨hsenders, hqueue rfl⟩, hawaits, hgone⟩, fun hr => by (cases hr)⟩
      · cases hs

/-- What is received while a search is going on is an event. -/
theorem receives (h : c.Going) {r : Received} (hs : c.receive = (r, c')) (hr : r ≠ .pending) :
    (∃ event, r = .message (.event event)) ∧ c'.Going ∧ c'.receiverGone = c.receiverGone := by
  unfold Channel.receive at hs
  split at hs
  next message queue hqueue =>
    cases hs
    have hevents := h.events
    rw [hqueue] at hevents
    refine ⟨?_, ?_, ?_⟩
    · cases message with
      | event event => exact ⟨event, rfl⟩
      | cycleComplete => exact absurd List.mem_cons_self hevents
    · rw [Channel.addPlace]
      split <;> exact ⟨h.senders, fun hm => hevents (List.mem_cons_of_mem _ hm)⟩
    · rw [Channel.addPlace]
      split <;> rfl
  · rw [h.senders] at hs
    cases hs
    exact absurd rfl hr

/-- Those who receive close the channel only when the run was told to stop. -/
theorem consumes {signal : Signal} {w w' : World} {s s' : PollSource}
    (h : Attends (s.lifecycle.isTriggered signal = true) c consumer)
    (hs : s.stepConsumer signal c w consumer = some (next, c', w', s')) :
    Attends (s.lifecycle.isTriggered signal = true) c' next := by
  obtain ⟨hgoing, hawaits, hgone⟩ := h
  have hevent : ∀ {event c₁}, c.receive = (.message (.event event), c₁) →
      c₁.Going ∧ (c₁.receiverGone = true → s.lifecycle.isTriggered signal = true) := by
    intro event c₁ hreceive
    obtain ⟨-, hgoing', hsame⟩ := receives hgoing hreceive (by simp)
    exact ⟨hgoing', fun hm => hgone (hsame ▸ hm)⟩
  have hmore : ∀ {r c₁}, c.receive = (r, c₁) → ¬(r = .closed ∨ r = .message .cycleComplete) := by
    intro r c₁ hreceive hlast
    obtain ⟨⟨event, rfl⟩, -, -⟩ := receives hgoing hreceive (by rcases hlast with rfl | rfl <;> simp)
    simp at hlast
  cases Consumer.moves_of_step hs with
  | gathers hreceive => exact ⟨(hevent hreceive).1, trivial, (hevent hreceive).2⟩
  | fills hreceive => exact ⟨(hevent hreceive).1, rfl, (hevent hreceive).2⟩
  | leaves hreceive hfull hsignal =>
    exact ⟨⟨(hevent hreceive).1.senders, List.not_mem_nil⟩, trivial, fun _ => hsignal⟩
  | finishes hreceive hlast | closes hreceive hlast => exact absurd hlast (hmore hreceive)
  | submits | handles | wraps => exact ⟨hgoing, hawaits, hgone⟩
  | misses | returns =>
    cases hawaits
    exact ⟨hgoing, trivial, hgone⟩

end Attends

/-- What is done after a batch leaves a poller as it is. -/
theorem Wrapup.driver_of_step {p : ItemPoller} {w w' : World} {d' : PollDriver} {wrapup : Wrapup}
    {m : Move Wrapup Unit} (h : wrapup.step w (.items p) = some (m, w', d')) : d' = .items p := by
  cases moves_of_step h <;> rfl

/-- So does all else that is done with what a search brings. -/
theorem PollSource.driver_of_stepConsumer {signal : Signal} {c c' : Channel} {w w' : World}
    {s s' : PollSource} {consumer next : Consumer} {p : ItemPoller} (hdriver : s.driver = .items p)
    (h : s.stepConsumer signal c w consumer = some (next, c', w', s')) : s'.driver = .items p := by
  cases Consumer.moves_of_step h with
  | wraps hwrapup | returns hwrapup =>
    rw [hdriver] at hwrapup
    exact Wrapup.driver_of_step hwrapup
  | _ => exact hdriver

/-! ### Searches -/

/-- Surveys of these paths. An event finds nobody who receives only if the run was told to stop. -/
structure Surveys (paths : List String) (triggered : Prop) (surveys : List Survey) : Prop where
  paths : surveys.map Survey.path = paths
  refused : ∀ s ∈ surveys, s.refused = true → triggered

theorem Surveys.mono {paths : List String} {triggered triggered' : Prop} {surveys : List Survey}
    (h : Surveys paths triggered surveys) (himp : triggered → triggered') : Surveys paths triggered' surveys :=
  ⟨h.paths, fun s hs hrefused => himp (h.refused s hs hrefused)⟩

section Listings

variable {triggered : Prop} {p : ItemPoller} {query : String} {w w' : World} {c c' : Channel}
  {consumer : Consumer} {l l' : Listing}

/-- A listing sends nothing but events. -/
theorem Attends.lists (h : Attends triggered c consumer) (hs : l.step p query w c = some (l', w', c')) :
    Attends triggered c' consumer := by
  cases Listing.moves_of_step hs with
  | waits hsend | leaves hsend | sends hsend => exact (h.sends hsend (.inl (by simp))).1
  | _ => exact h

theorem Survey.refused_after (h : Attends triggered c consumer) {s : Survey}
    (hrefused : (s.after p query w c l).refused = true) : s.refused = true ∨ triggered := by
  unfold after at hrefused
  split at hrefused
  · split at hrefused
    · split at hrefused
      · exact .inl hrefused
      · exact .inl hrefused
    · exact .inl hrefused
    · exact .inl hrefused
  · split at hrefused
    · exact .inl hrefused
    next hsend => exact .inr ((h.sends hsend (.inl (by simp))).2 rfl)
    · exact .inl hrefused
  · exact .inl hrefused

/-- The surveys after a move of one of the listings. -/
theorem Survey.spec_afterFirst (h : Attends triggered c consumer) {listings listings' : List Listing}
    {surveys : List Survey} (htells : List.Forall₂ Survey.Tells surveys listings)
    (hs : Listing.stepFirst p query w c listings = some (listings', w', c')) :
    Attends triggered c' consumer ∧
      List.Forall₂ Survey.Tells (afterFirst p query w c listings surveys) listings' ∧
      (afterFirst p query w c listings surveys).map Survey.path = surveys.map Survey.path ∧
      ((∀ s ∈ surveys, s.refused = true → triggered) →
        ∀ s ∈ afterFirst p query w c listings surveys, s.refused = true → triggered) := by
  induction htells generalizing listings' with
  | nil => cases hs
  | @cons s l surveys listings htell htells ih =>
    rw [Listing.stepFirst] at hs
    rw [afterFirst]
    split at hs
    next l' w₁ c₁ hstep =>
      cases hs
      rw [if_pos (by rw [hstep]; rfl)]
      refine ⟨h.lists hstep, .cons (tells_of_step htell hstep) htells, ?_, fun hold => ?_⟩
      · rw [List.map_cons, List.map_cons, path_after]
      · obtain ⟨hfirst, hrest⟩ := List.forall_mem_cons.mp hold
        exact List.forall_mem_cons.mpr ⟨fun hr => (refused_after h hr).elim hfirst id, hrest⟩
    next hnone =>
      rw [if_neg (by rw [hnone]; exact Bool.false_ne_true)]
      obtain ⟨⟨rest, w₁, c₁⟩, hrest, heq⟩ := Option.map_eq_some_iff.mp hs
      cases heq
      obtain ⟨hattends, htells', hpaths, hrefused⟩ := ih hrest
      refine ⟨hattends, .cons htell htells', ?_, fun hold => ?_⟩
      · rw [List.map_cons, List.map_cons, hpaths]
      · obtain ⟨hfirst, hrest⟩ := List.forall_mem_cons.mp hold
        exact List.forall_mem_cons.mpr ⟨hfirst, hrefused hrest⟩

/-- When all listings are over, the surveys are decided. -/
theorem Survey.decided_of_done {listings : List Listing} {surveys : List Survey}
    (htells : List.Forall₂ Survey.Tells surveys listings) (hall : listings.all Listing.isDone = true) :
    ∀ s ∈ surveys, s.Decided := by
  induction htells with
  | nil => exact fun s hm => by (cases hm)
  | @cons s l surveys listings htell htells ih =>
    rw [List.all_cons, Bool.and_eq_true] at hall
    refine List.forall_mem_cons.mpr ⟨?_, ih hall.2⟩
    rcases l with ⟨path, marker, stage⟩
    cases stage with
    | done => exact htell.2
    | requesting attempt trip => cases hall.1
    | retrying attempt until_ => cases hall.1
    | sending event rest isLast next send => cases hall.1
    | turning until_ => cases hall.1

end Listings

namespace Producer

/-- What a search has brought after a move to this state. -/
def surveys (p : ItemPoller) (w : World) (c : Channel) (before : List Survey) :
    Producer → Producer → List Survey
  | .ready, _ => p.settings.paths.map .new
  | .listing query listings, .listing _ _ => Survey.afterFirst p query w c listings before
  | _, _ => before

/-- A move to this state is the end of the search. -/
def returns : Producer → Producer → Bool
  | .completing _, .done => true
  | _, _ => false

/-- The surveys tell how a search stands. -/
def Tracks (paths : List String) (triggered : Prop) (surveys : List Survey) (c : Channel)
    (consumer : Consumer) : Producer → Prop
  | .ready => Attends triggered c consumer
  | .listing _ listings => Attends triggered c consumer ∧ Surveys paths triggered surveys ∧
      List.Forall₂ Survey.Tells surveys listings
  | .completing _ => Attends triggered c consumer ∧ Surveys paths triggered surveys ∧
      ∀ s ∈ surveys, s.Decided
  | .done => True
  | _ => False

variable {paths : List String} {triggered triggered' : Prop} {before : List Survey} {c c' : Channel}
  {consumer : Consumer} {producer producer' : Producer} {p : ItemPoller} {w w' : World} {d' : PollDriver}

theorem Tracks.mono (h : producer.Tracks paths triggered before c consumer) (himp : triggered → triggered') :
    producer.Tracks paths triggered' before c consumer := by
  cases producer with
  | ready => exact Attends.mono h himp
  | listing query listings => exact ⟨h.1.mono himp, h.2.1.mono himp, h.2.2⟩
  | completing send => exact ⟨h.1.mono himp, h.2.1.mono himp, h.2.2⟩
  | done => trivial
  | playing rest => exact h.elim
  | pausing message rest until_ => exact h.elim
  | sending message rest send => exact h.elim

/-- What those who receive do leaves the search as it stands. -/
theorem Tracks.consumes {signal : Signal} {s s' : PollSource} {next : Consumer}
    (h : producer.Tracks paths (s.lifecycle.isTriggered signal = true) before c consumer)
    (hs : s.stepConsumer signal c w consumer = some (next, c', w', s')) :
    producer.Tracks paths (s.lifecycle.isTriggered signal = true) before c' next := by
  cases producer with
  | ready => exact Attends.consumes h hs
  | listing query listings => exact ⟨h.1.consumes hs, h.2⟩
  | completing send => exact ⟨h.1.consumes hs, h.2⟩
  | done => trivial
  | playing rest => exact h.elim
  | pausing message rest until_ => exact h.elim
  | sending message rest send => exact h.elim

/-- **A move of a search**: the surveys tell what it has brought, and its end is the end of the first
poll. -/
theorem tracks_of_step (h : producer.Tracks p.settings.paths triggered before c consumer)
    (hs : producer.step w (.items p) c = some (producer', w', d', c')) :
    producer'.Tracks p.settings.paths triggered (surveys p w c before producer producer') c' consumer ∧
      ((producer.returns producer' = false ∧ d' = .items p) ∨
        (producer.returns producer' = true ∧ d' = .items p.completeFirstPoll ∧
          Surveys p.settings.paths triggered before ∧ ∀ s ∈ before, s.Decided)) := by
  cases moves_of_step hs with
  | begins =>
    refine ⟨⟨h, ⟨?_, fun s hm hrefused => ?_⟩, ?_⟩, .inl ⟨rfl, rfl⟩⟩
    · rw [surveys, List.map_map]
      exact List.map_id _
    · obtain ⟨path, -, rfl⟩ := List.mem_map.mp hm
      cases hrefused
    · rw [surveys, List.forall₂_map_left_iff, List.forall₂_map_right_iff, List.forall₂_same]
      exact fun path _ => Survey.tells_new path
  | lists hfirst =>
    obtain ⟨hattends, hsurveys, htells⟩ := h
    obtain ⟨hattends', htells', hpaths, hrefused⟩ := Survey.spec_afterFirst hattends htells hfirst
    exact ⟨⟨hattends', ⟨hpaths.trans hsurveys.paths, hrefused hsurveys.refused⟩, htells'⟩, .inl ⟨rfl, rfl⟩⟩
  | concludes hall =>
    obtain ⟨hattends, hsurveys, htells⟩ := h
    exact ⟨⟨hattends, hsurveys, Survey.decided_of_done htells hall⟩, .inl ⟨rfl, rfl⟩⟩
  | lingers hsend =>
    obtain ⟨hattends, hsurveys, hdecided⟩ := h
    exact ⟨⟨(hattends.sends hsend (.inr ⟨_, rfl⟩)).1, hsurveys, hdecided⟩, .inl ⟨rfl, rfl⟩⟩
  | completes hsend => exact ⟨trivial, .inr ⟨rfl, rfl, h.2⟩⟩
  | stops | pauses | goes | wakes | waits | sends | leaves => exact h.elim

end Producer

/-! ### The moves -/

namespace PollTask

/-- What the search of a task has brought after a move to this state. -/
def surveys (p : ItemPoller) (w : World) (before : List Survey) : PollTask → PollTask → List Survey
  | .cycling _ c producer _, .cycling .searching _ producer' _ => producer.surveys p w c before producer'
  | _, _ => before

/-- A move to this state is the end of a search. -/
def returns : PollTask → PollTask → Bool
  | .cycling _ _ producer _, .cycling .searching _ producer' _ => producer.returns producer'
  | _, _ => false

/-- The surveys tell how the search of a task stands, if there is one. -/
def Tracks (paths : List String) (triggered : Prop) (surveys : List Survey) : PollTask → Prop
  | .cycling _ c producer consumer => producer.Tracks paths triggered surveys c consumer
  | _ => True

end PollTask

/-- A search that has returned: the signal of its run, and what it has brought. -/
structure Search where
  signal : Signal
  surveys : List Survey

/-- A poller, the world around it, and its searches. -/
structure Rounds where
  world : World
  source : PollSource
  /-- What the search of a task has brought so far, by the handle of the task. -/
  surveys : Nat → List Survey
  /-- The searches that have returned, in order. -/
  returned : List Search

namespace Rounds

/-- A poller that has not been started, in any world. -/
def fresh (world : World) (id : String) (settings : ItemPollSettings) (limit : Nat) (crew : Crew) : Rounds :=
  { world, source := .new ⟨id, "v3io-item-poller", .async⟩ (.items (.new id settings)) settings.poll limit crew,
    surveys := fun _ => [], returned := [] }

/-- A task has moved and goes on: what its search has brought is noted, and the end of the search. -/
def advanced (p : ItemPoller) (handle : Nat) (before after : Task PollTask) (world : World)
    (source : PollSource) (s : Rounds) : Rounds :=
  { world, source,
    surveys := fun h =>
      if h = handle then before.state.surveys p s.world (s.surveys handle) after.state else s.surveys h,
    returned := s.returned ++
      if before.state.returns after.state then [⟨before.signal, s.surveys handle⟩] else [] }

/-- A task has moved. -/
def noted (handle : Nat) (world : World) (source : PollSource) (s : Rounds) : Rounds :=
  match s.source.driver, s.source.lifecycle.task? handle, source.lifecycle.task? handle with
  | .items p, some before, some after => s.advanced p handle before after world source
  | _, _, _ => { s with world, source }

/-- One move of anybody. -/
inductive Step : Rounds → Rounds → Prop
  /-- Anything happens around the source, or at its desk. -/
  | passes (s : Rounds) (world : World) (desk : Desk) :
      Step s { s with world, source := { s.source with desk } }
  /-- Somebody starts the source; while it runs that fails. -/
  | starts (s : Rounds) : Step s { s with source := s.source.start.2 }
  /-- A stop moves, of anybody and at any point. -/
  | stops (s : Rounds) (stop : Stop) {m : Move Stop Unit} {world : World} {source : PollSource}
      (hs : PollSource.rules.stop stop s.world s.source = some (m, world, source)) :
      Step s { s with world, source }
  /-- A task moves or ends. -/
  | works (s : Rounds) (handle : Nat) {world : World} {source : PollSource}
      (hs : PollSource.rules.stepLive handle s.world s.source = some (world, source)) :
      Step s (s.noted handle world source)

/-- **The law.** The first poll is over when the first search has returned. -/
structure Told (id : String) (settings : ItemPollSettings) (s : Rounds) : Prop where
  /-- The poller asks for all items until its first poll is over, and that is when a search returns. -/
  query : ∃ p, s.source.driver = .items p ∧
    p.query = ItemPoller.queryText settings (Stamp.ofSource id) p.firstPoll ∧
    (p.firstPoll = true ↔ s.returned = [])
  /-- A search that has returned has a survey of every path. -/
  paths : ∀ search ∈ s.returned, search.surveys.map Survey.path = settings.paths
  /-- It has listed a path to the last page, with every item accepted, exactly if the listing was not given
  up and every event found somebody who receives. -/
  full_iff : ∀ search ∈ s.returned, ∀ survey ∈ search.surveys,
    survey.Full ↔ ¬survey.GivenUp ∧ survey.refused = false
  /-- An event finds nobody only in a run that was told to stop. -/
  refused : ∀ search ∈ s.returned, ∀ survey ∈ search.surveys, survey.refused = true →
    s.source.lifecycle.isTriggered search.signal = true

end Rounds

/-! ### What every move keeps -/

/-- The query of a poller is the one of its first poll, or of later ones. -/
structure ItemPoller.Asks (id : String) (settings : ItemPollSettings) (p : ItemPoller) : Prop where
  given : p.settings = settings
  stamp : p.stamp = Stamp.ofSource id
  query : p.query = queryText settings (Stamp.ofSource id) p.firstPoll

theorem ItemPoller.Asks.completeFirstPoll {id : String} {settings : ItemPollSettings} {p : ItemPoller}
    (h : p.Asks id settings) :
    p.completeFirstPoll.Asks id settings ∧ p.completeFirstPoll.firstPoll = false := by
  rw [ItemPoller.completeFirstPoll]
  split
  · refine ⟨⟨h.given, h.stamp, ?_⟩, rfl⟩
    rw [← h.given, ← h.stamp]
  next hlater => exact ⟨h, Bool.eq_false_iff.mpr hlater⟩

namespace Rounds

variable {id : String} {settings : ItemPollSettings} {s s' : Rounds}

/-- The state is in order. -/
structure Sound (id : String) (settings : ItemPollSettings) (s : Rounds) : Prop where
  driver : ∃ p, s.source.driver = .items p ∧ p.Asks id settings ∧ (p.firstPoll = true ↔ s.returned = [])
  tasks : ∀ t ∈ s.source.lifecycle.live, t.2.state.Tracks settings.paths
    (s.source.lifecycle.isTriggered t.2.signal = true) (s.surveys t.1)
  returned : ∀ search ∈ s.returned,
    Surveys settings.paths (s.source.lifecycle.isTriggered search.signal = true) search.surveys ∧
      ∀ survey ∈ search.surveys, survey.Decided

theorem sound_fresh (world : World) (id : String) (settings : ItemPollSettings) (limit : Nat) (crew : Crew) :
    Sound id settings (fresh world id settings limit crew) :=
  ⟨⟨_, rfl, ⟨rfl, rfl, rfl⟩, iff_of_true rfl rfl⟩, fun _ ht => by (cases ht), fun _ hm => by (cases hm)⟩

/-- What leaves the poller and the searches of its tasks as they are. -/
theorem Sound.frame (h : Sound id settings s) {world : World} {source : PollSource}
    (hdriver : source.driver = s.source.driver)
    (hlive : ∀ t ∈ source.lifecycle.live, t ∈ s.source.lifecycle.live ∨ t.2.state = .checking)
    (hsent : ∀ signal, s.source.lifecycle.isTriggered signal = true →
      source.lifecycle.isTriggered signal = true) : Sound id settings { s with world, source } := by
  refine ⟨hdriver ▸ h.driver, fun t ht => ?_, fun search hm => ?_⟩
  · rcases hlive t ht with hold | hnew
    · have htracks := h.tasks t hold
      cases hstate : t.2.state with
      | checking => trivial
      | pausing pause => trivial
      | cycling turn c producer consumer =>
        rw [hstate] at htracks
        exact Producer.Tracks.mono htracks (hsent t.2.signal)
    · rw [hnew]
      trivial
  · obtain ⟨hsurveys, hdecided⟩ := h.returned search hm
    exact ⟨hsurveys.mono (hsent search.signal), hdecided⟩

theorem Sound.starts (h : Sound id settings s) : Sound id settings { s with source := s.source.start.2 } := by
  obtain ⟨hdriver, hsent, hlive⟩ := s.source.start_frame
  refine h.frame hdriver hlive fun signal hsignal => ?_
  rw [Lifecycle.isTriggered, hsent]
  exact hsignal

theorem Sound.stops (h : Sound id settings s) {stop : Stop} {m : Move Stop Unit} {world : World}
    {source : PollSource} (hs : PollSource.rules.stop stop s.world s.source = some (m, world, source)) :
    Sound id settings { s with world, source } := by
  obtain ⟨hlive, hsent⟩ := PollSource.stop_tasks hs
  refine h.frame (PollSource.stop_frame hs).2 (fun t ht => .inl (hlive ht)) fun signal hsignal => ?_
  rw [Lifecycle.isTriggered, List.contains_iff_mem] at hsignal ⊢
  exact hsent hsignal

/-- **A move of a task** that is not the end of its search leaves the poller as it is, and the end of a
search is the end of the first poll. -/
theorem tracks_of_step {p : ItemPoller} {before : List Survey} {task : PollTask}
    {signal : Signal} {w w' : World} {source source' : PollSource} {m : Move PollTask Unit}
    (hdriver : source.driver = .items p)
    (h : task.Tracks p.settings.paths (source.lifecycle.isTriggered signal = true) before)
    (hs : PollSource.step signal task w source = some (m, w', source')) :
    (∀ next, m = .goes next → next.Tracks p.settings.paths (source.lifecycle.isTriggered signal = true)
        (task.surveys p w before next)) ∧
      (((∀ next, m = .goes next → task.returns next = false) ∧ source'.driver = .items p) ∨
        ((∃ next, m = .goes next ∧ task.returns next = true) ∧ source'.driver = .items p.completeFirstPoll ∧
          Surveys p.settings.paths (source.lifecycle.isTriggered signal = true) before ∧
          ∀ survey ∈ before, survey.Decided)) := by
  cases PollSource.moves_of_step hs with
  | stops | retires | breaks =>
    exact ⟨fun next hm => by (cases hm), .inl ⟨fun next hm => by (cases hm), hdriver⟩⟩
  | begins =>
    refine ⟨fun next hm => ?_, .inl ⟨fun next hm => by (cases hm; rfl), hdriver⟩⟩
    cases hm
    exact Attends.new _
  | rests | wakes =>
    refine ⟨fun next hm => ?_, .inl ⟨fun next hm => by (cases hm; rfl), hdriver⟩⟩
    cases hm
    trivial
  | searches hsearch =>
    rw [hdriver] at hsearch
    obtain ⟨htracks, hends⟩ := Producer.tracks_of_step h hsearch
    refine ⟨fun next hm => ?_, ?_⟩
    · cases hm
      exact htracks
    · rcases hends with ⟨hreturns, hd⟩ | ⟨hreturns, hd, hsurveys⟩
      · refine .inl ⟨fun next hm => ?_, hd⟩
        cases hm
        exact hreturns
      · exact .inr ⟨⟨_, rfl, hreturns⟩, hd, hsurveys⟩
  | receives hsubmit =>
    have hsame := PollSource.driver_of_stepConsumer hdriver hsubmit
    refine ⟨fun next hm => ?_, .inl ⟨fun next hm => by (cases hm; rfl), hsame⟩⟩
    cases hm
    exact Producer.Tracks.consumes h hsubmit

/-- The task behind a handle after its move. -/
theorem task?_moved {l : Lifecycle (Task PollTask)} {handle : Nat} (hm : handle ∈ l.alive) (signal : Signal)
    (m : Move PollTask Unit) :
    (l.moved handle signal m).task? handle = m.next?.map (⟨signal, ·⟩) := by
  cases m with
  | ends result => exact Lifecycle.task?_eq_none.mpr fun h => (Lifecycle.mem_alive_finish.mp h).2 rfl
  | goes next =>
    rw [Lifecycle.alive] at hm
    rw [Lifecycle.moved, Lifecycle.task?, Lifecycle.replace]
    dsimp only
    generalize l.live = live at hm ⊢
    induction live with
    | nil => cases hm
    | cons t live ih =>
      rw [List.map_cons] at hm ⊢
      rw [List.lookup_cons]
      by_cases heq : t.1 = handle
      · simp [heq, Move.next?]
      · have hrest := (List.mem_cons.mp hm).resolve_left (Ne.symm heq)
        simp only [beq_false_of_ne heq, Bool.false_eq_true, if_false, beq_false_of_ne (Ne.symm heq)]
        exact ih hrest

/-- A task moves and goes on. -/
theorem Sound.advances (h : Sound id settings s) {p : ItemPoller} (hasks : p.Asks id settings)
    (hfirst : p.firstPoll = true ↔ s.returned = []) {handle : Nat} {task : Task PollTask} {next : PollTask}
    {source : PollSource} (world : World)
    (hlifecycle : source.lifecycle = s.source.lifecycle.replace handle ⟨task.signal, next⟩)
    (hnext : next.Tracks p.settings.paths (s.source.lifecycle.isTriggered task.signal = true)
      (task.state.surveys p s.world (s.surveys handle) next))
    (hends : (task.state.returns next = false ∧ source.driver = .items p) ∨
      (task.state.returns next = true ∧ source.driver = .items p.completeFirstPoll ∧
        Surveys p.settings.paths (s.source.lifecycle.isTriggered task.signal = true) (s.surveys handle) ∧
        ∀ survey ∈ s.surveys handle, survey.Decided)) :
    Sound id settings (s.advanced p handle task ⟨task.signal, next⟩ world source) := by
  have hsent : ∀ signal, source.lifecycle.isTriggered signal = s.source.lifecycle.isTriggered signal := by
    rw [hlifecycle]
    exact fun _ => rfl
  refine ⟨?_, fun t ht => ?_, fun search hm => ?_⟩
  · rcases hends with ⟨hreturns, hdriver⟩ | ⟨hreturns, hdriver, -⟩
    · rw [advanced, hreturns, if_neg Bool.false_ne_true, List.append_nil]
      exact ⟨p, hdriver, hasks, hfirst⟩
    · obtain ⟨hasks', hlater⟩ := hasks.completeFirstPoll
      rw [advanced, hreturns, if_pos rfl]
      refine ⟨_, hdriver, hasks', iff_of_false ?_ (by simp)⟩
      rw [hlater]
      exact Bool.false_ne_true
  · change t ∈ source.lifecycle.live at ht
    change t.2.state.Tracks _ (source.lifecycle.isTriggered _ = true) (ite _ _ _)
    rw [hsent]
    rw [hlifecycle] at ht
    rcases Lifecycle.mem_live_replace.mp ht with ⟨hold, hne⟩ | ⟨rfl, -⟩
    · rw [if_neg hne]
      exact h.tasks t hold
    · rw [if_pos rfl, ← hasks.given]
      exact hnext
  · change Surveys _ (source.lifecycle.isTriggered _ = true) _ ∧ _
    rw [hsent]
    rcases List.mem_append.mp hm with hold | hnew
    · exact h.returned search hold
    · rcases hends with ⟨hreturns, -⟩ | ⟨hreturns, -, hsurveys⟩
      · rw [hreturns, if_neg Bool.false_ne_true] at hnew
        cases hnew
      · rw [hreturns, if_pos rfl] at hnew
        rw [List.mem_singleton.mp hnew, ← hasks.given]
        exact hsurveys

theorem Sound.works (h : Sound id settings s) {handle : Nat} {world : World} {source : PollSource}
    (hs : PollSource.rules.stepLive handle s.world s.source = some (world, source)) :
    Sound id settings (s.noted handle world source) := by
  obtain ⟨task, m, moved, htask, hstep, rfl⟩ := TaskRules.stepLive_cases hs
  change s.source.lifecycle.task? handle = some task at htask
  obtain ⟨p, hdriver, hasks, hfirst⟩ := h.driver
  have hsame : moved.lifecycle = s.source.lifecycle := PollSource.rules_sealed.get_step hstep
  have htracks := h.tasks _ (Lifecycle.mem_live_of_task? htask)
  rw [← hasks.given] at htracks
  obtain ⟨hnext, hends⟩ := tracks_of_step hdriver htracks hstep
  have hlifecycle : (PollSource.rules.setLifecycle
      ((PollSource.rules.lifecycle moved).moved handle task.signal m) moved).lifecycle =
      s.source.lifecycle.moved handle task.signal m := congrArg (Lifecycle.moved handle task.signal m) hsame
  have hafter := task?_moved (Lifecycle.mem_alive_of_task? htask) task.signal m
  rw [← hlifecycle] at hafter
  rw [noted, hdriver, htask, hafter]
  cases m with
  | goes next =>
    refine h.advances hasks hfirst world hlifecycle (hnext next rfl) ?_
    rcases hends with ⟨hreturns, hdriver'⟩ | ⟨⟨_, hm, hreturns⟩, hdriver', hsurveys⟩
    · exact .inl ⟨hreturns next rfl, hdriver'⟩
    · cases hm
      exact .inr ⟨hreturns, hdriver', hsurveys⟩
  | ends result =>
    obtain ⟨-, hdriver'⟩ := hends.resolve_right fun hend => by (obtain ⟨⟨next, hm, -⟩, -⟩ := hend; cases hm)
    refine h.frame (hdriver'.trans hdriver.symm) (fun t ht => .inl ?_) fun signal hsent => ?_
    · rw [hlifecycle] at ht
      exact (Lifecycle.mem_live_finish.mp ht).1
    · rw [hlifecycle]
      exact hsent

/-- **One move of anybody** keeps the state in order. -/
theorem Sound.step (h : Sound id settings s) (hs : Step s s') : Sound id settings s' := by
  cases hs with
  | passes world desk => exact h.frame rfl (fun t ht => .inl ht) fun _ hsent => hsent
  | starts => exact h.starts
  | stops stop hs => exact h.stops hs
  | works handle hs => exact h.works hs

theorem Sound.of_reachable (h : Sound id settings s) (hr : Relation.ReflTransGen Step s s') :
    Sound id settings s' := by
  induction hr with
  | refl => exact h
  | tail _ hs ih => exact ih.step hs

theorem Sound.told (h : Sound id settings s) : Told id settings s := by
  obtain ⟨p, hdriver, hasks, hfirst⟩ := h.driver
  exact ⟨⟨p, hdriver, hasks.query, hfirst⟩, fun search hm => (h.returned search hm).1.paths,
    fun search hm => (h.returned search hm).2, fun search hm => (h.returned search hm).1.refused⟩

/-- **When the first poll is over.** However a poller is started and stopped, and whatever happens in its
store, with its requests and to its events: it asks for all items until a search has returned and for
changed items from then on; and a search that has returned has listed each path to the last page, with
every item accepted, unless three requests in a row failed or the run was told to stop. -/
theorem told_of_reachable (world : World) (limit : Nat) (crew : Crew)
    (hr : Relation.ReflTransGen Step (fresh world id settings limit crew) s) : Told id settings s :=
  ((sound_fresh world id settings limit crew).of_reachable hr).told

/-- A store with one item: the first search lists it, and the item is accepted. -/
theorem told_one_item :
    ∃ s : Rounds, Relation.ReflTransGen Step
        (fresh { World.start ⟨0, 0⟩ .echo with clients :=
            { Clients.new with items := ItemStore.new.put "/d" "a" [] ⟨1, 0⟩ } } "p"
          { paths := ["/d"], poll := ⟨1000, 64⟩ } 10 (.ofIndices .exclusive [0])) s ∧
      (s.returned.map fun search => search.surveys.map fun survey => survey.accepted.map Event.path) =
        [[["/d/a"]]] ∧
      Told "p" { paths := ["/d"], poll := ⟨1000, 64⟩ } s := by
  have hstarted : Relation.ReflTransGen Step
      (fresh { World.start ⟨0, 0⟩ .echo with clients :=
          { Clients.new with items := ItemStore.new.put "/d" "a" [] ⟨1, 0⟩ } } "p"
        { paths := ["/d"], poll := ⟨1000, 64⟩ } 10 (.ofIndices .exclusive [0])) _ :=
    .single (.starts _)
  have hlisted := ((hstarted.tail (.works _ 0 rfl)).tail (.works _ 0 rfl)).tail (.works _ 0 rfl)
  have hsent := ((hlisted.tail (.works _ 0 rfl)).tail (.works _ 0 rfl)).tail (.works _ 0 rfl)
  exact ⟨_, hsent, rfl, told_of_reachable _ _ _ hsent⟩

/-- The first poll is over though its search has listed nothing. -/
theorem not_full_of_later :
    ¬ ∀ (world : World) (id : String) (settings : ItemPollSettings) (limit : Nat) (crew : Crew) (s : Rounds)
        (p : ItemPoller), Relation.ReflTransGen Step (fresh world id settings limit crew) s →
      s.source.driver = .items p → p.firstPoll = false →
        ∃ search ∈ s.returned, ∀ survey ∈ search.surveys, survey.Full := by
  intro hlaw
  have hstarted : Relation.ReflTransGen Step
      (fresh { World.start ⟨0, 0⟩ .echo with clients :=
          { Clients.new with items := { ItemStore.new with failing := 3 } } } "p"
        { paths := ["/d"], pageDelay := 0, poll := ⟨1000, 64⟩ } 10 (.ofIndices .exclusive [0])) _ :=
    .single (.starts _)
  have hlisting := (hstarted.tail (.works _ 0 rfl)).tail (.works _ 0 rfl)
  have hfailed := ((((hlisting.tail (.works _ 0 rfl)).tail (.works _ 0 rfl)).tail (.works _ 0 rfl)).tail
    (.works _ 0 rfl)).tail (.works _ 0 rfl)
  have hreturned := (hfailed.tail (.works _ 0 rfl)).tail (.works _ 0 rfl)
  obtain ⟨search, hsearch, hall⟩ := hlaw _ _ _ _ _ _ _ hreturned rfl rfl
  obtain rfl := List.mem_singleton.mp hsearch
  obtain ⟨page, hpage, -⟩ := (hall _ List.mem_cons_self).last
  cases hpage

end Rounds

end EventDispatch
