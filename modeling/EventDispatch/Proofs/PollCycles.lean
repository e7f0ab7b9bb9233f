import EventDispatch.Proofs.Listings
import EventDispatch.Proofs.PollMoves

/-!
# One cycle of a poller

A cycle lists all paths side by side and submits what comes in batches; after a batch it stamps the
items whose events were handled with success. Whatever the two halves do, and in whatever turns, they
keep the account of the versions on their way, of those handled and of those still to be stamped.

## What is deliberately absent

Nothing is said of workers, and nothing of time. A batch that finds no worker loses its events.

## Main definitions

* `Producer.pending`, `Batch.pending`, `Consumer.pending`: the versions on their way.
* `Producer.Seen`: the paths of the items that this cycle will not list any more.
* `Batch.run?`, `successes`: the run in progress, and what was handled when it is over.
* `Batch.owed`, `Consumer.Owes`: the events whose items are still to be stamped.

## Main results

* `Producer.ledger_of_step`, `Consumer.keeps_of_step`: what a move of either half keeps.
* `Consumer.entered_of_step`: a run begins when the function is entered.
-/

namespace EventDispatch

/-! ### Searching -/

/-- A poller of a source with these settings: its stamps and queries are the source's own. -/
structure ItemPoller.Serves (id : String) (settings : ItemPollSettings) (p : ItemPoller) : Prop where
  given : p.settings = settings
  stamp : p.stamp = Stamp.ofSource id
  attributes : p.attributes = requestedAttributes (Stamp.ofSource id) settings.attributes
  query : p.firstPoll = false → ItemStore.isIncremental p.query = true

namespace ItemPoller

variable {id : String} {settings : ItemPollSettings} {p : ItemPoller}

theorem serves_new (id : String) (settings : ItemPollSettings) :
    (ItemPoller.new id settings).Serves id settings :=
  ⟨rfl, rfl, rfl, fun hlater => by cases hlater⟩

theorem Serves.completeFirstPoll (h : p.Serves id settings) (hincremental : settings.incremental = true) :
    p.completeFirstPoll.Serves id settings ∧ p.completeFirstPoll.firstPoll = false := by
  rw [ItemPoller.completeFirstPoll]
  split
  · refine ⟨⟨h.given, h.stamp, h.attributes, fun _ => ?_⟩, rfl⟩
    rw [← h.given] at hincremental
    exact isIncremental_queryText hincremental p.stamp
  next hlater => exact ⟨h, Bool.eq_false_iff.mpr hlater⟩

end ItemPoller

namespace Producer

/-- The versions on their way in a search. -/
def pending : Producer → List Version
  | .listing _ listings => listings.flatMap Listing.pending
  | _ => []

/-- The item at a path will not be listed any more in this cycle. -/
def Seen (producer : Producer) (x : String) : Prop :=
  match producer with
  | .listing _ listings => ∃ l ∈ listings, ∃ name, ItemStore.IsName name ∧
      x = ItemPoller.itemPath l.path name ∧ l.Covers name
  | .completing _ | .done => True
  | _ => False

/-- A search of a poller that lists items. -/
def Fits (p : ItemPoller) : Producer → Prop
  | .ready | .completing _ => True
  | .listing query listings => query = p.query ∧ listings.map Listing.path = p.settings.paths ∧
      ∀ l ∈ listings, l.Dated
  | .done => p.firstPoll = false
  | _ => False

variable {id : String} {settings : ItemPollSettings} {p : ItemPoller} {producer producer' : Producer}
  {w w' : World} {d' : PollDriver} {c c' : Channel} {log others owed : List Version}

/-- The items of a page were not seen before: this listing has not passed them, and the others list
other paths. -/
theorem not_seen_of_not_covers {query : String} {pre post : List Listing} {l : Listing}
    (hpaths : ((pre ++ l :: post).map fun l => ItemStore.trimSlashes l.path).Nodup) {name : String}
    (hname : ItemStore.IsName name) (hnot : ¬l.Covers name) :
    ¬(listing query (pre ++ l :: post)).Seen (ItemPoller.itemPath l.path name) := by
  rintro ⟨other, hother, name', hname', hpath, hcovers⟩
  obtain ⟨htrim, rfl⟩ := ItemStore.itemPath_inj hname.2 hname'.2 hpath
  rw [List.map_append, List.map_cons, List.nodup_middle, List.nodup_cons, ← List.map_append] at hpaths
  have hsame : other = l := by
    by_contra hne
    refine hpaths.1 (List.mem_map.mpr ⟨other, ?_, htrim.symm⟩)
    simp only [List.mem_append, List.mem_cons] at hother ⊢
    exact hother.imp_right fun hor => hor.resolve_left hne
  exact hnot (hsame ▸ hcovers)

/-- All that is on its way besides one listing and the channel can be set aside. -/
theorem pending_listing_perm (query : String) (pre post : List Listing) (l : Listing) (c : Channel)
    (others : List Version) :
    ((listing query (pre ++ l :: post)).pending ++ c.pending ++ others).Perm
      ((l.pending ++ c.pending) ++
        (pre.flatMap Listing.pending ++ post.flatMap Listing.pending ++ others)) := by
  rw [List.perm_iff_count]
  intro v
  simp only [pending, List.flatMap_append, List.flatMap_cons, List.count_append]
  omega

/-- What was seen before a listing moved was seen after it. -/
theorem seen_of_moved {query : String} {pre post : List Listing} {l l' : Listing}
    (hpath : l'.path = l.path) (hcovers : ∀ name, l.Covers name → l'.Covers name) {x : String}
    (h : (listing query (pre ++ l :: post)).Seen x) : (listing query (pre ++ l' :: post)).Seen x := by
  obtain ⟨other, hother, name, hname, hx, hcovered⟩ := h
  rcases List.mem_cons.mp (List.perm_middle.mem_iff.mp hother) with rfl | hother
  · exact ⟨l', by simp, name, hname, hpath ▸ hx, hcovers name hcovered⟩
  · exact ⟨other, List.perm_middle.mem_iff.mpr (List.mem_cons_of_mem _ hother), name, hname, hx, hcovered⟩

/-- What follows when one of the listings of a search moves. -/
theorem ledger_of_listing (hid : ',' ∉ id.toList) (hpage : settings.pageSize ≠ 0)
    (hpaths : (settings.paths.map ItemStore.trimSlashes).Nodup) (hp : p.Serves id settings)
    {query : String} {listings listings' : List Listing} (hfits : (listing query listings).Fits p)
    (h : Ledger id p.firstPoll w.clients.items log ((listing query listings).pending ++ c.pending ++ others)
      owed (listing query listings).Seen)
    (hs : Listing.stepFirst p query w c listings = some (listings', w', c')) :
    (listing query listings').Fits p ∧ World.Calm w w' ∧ Ledger id p.firstPoll w'.clients.items log
      ((listing query listings').pending ++ c'.pending ++ others) owed (listing query listings').Seen := by
  obtain ⟨pre, l, post, l', rfl, hstep, rfl⟩ := Listing.stepFirst_cases hs
  obtain ⟨hquery, hlisted, hdated⟩ := hfits
  have hmem : l ∈ pre ++ l :: post := by simp
  have hmoved := Listing.moved_of_step h.tidy (by rw [hp.given]; exact hpage)
    (fun request item hitem => h.isSome_modifiedAt? hitem) (hdated l hmem) hstep
  have hseen : ∀ x, (listing query (pre ++ l :: post)).Seen x →
      (listing query (pre ++ l' :: post)).Seen x := fun x => seen_of_moved hmoved.path hmoved.covers
  have haside := pending_listing_perm query pre post l c others
  have haside' := pending_listing_perm query pre post l' c' others
  refine ⟨⟨hquery, ?_, fun x hx => ?_⟩, hmoved.calm, Ledger.of_directories ?_ hmoved.calm.directories⟩
  · rw [← hlisted]
    simp [hmoved.path]
  · rcases List.mem_cons.mp (List.perm_middle.mem_iff.mp hx) with rfl | hx
    · exact hmoved.dated
    · exact hdated x (List.perm_middle.mem_iff.mpr (List.mem_cons_of_mem _ hx))
  · rcases hmoved.pending with hsub | ⟨items, hitems, hchannel, hnone, hpending, hpassed⟩
    · refine h.moves ?_ hseen
      refine haside'.subperm.trans (List.Subperm.trans ?_ haside.symm.subperm)
      exact (List.subperm_append_right _).mpr hsub
    · have hdistinct : ((pre ++ l :: post).map fun l => ItemStore.trimSlashes l.path).Nodup := by
        have hmap : (pre ++ l :: post).map (fun l => ItemStore.trimSlashes l.path) =
            ((pre ++ l :: post).map Listing.path).map ItemStore.trimSlashes := by rw [List.map_map]; rfl
        rw [hmap, hlisted, hp.given]
        exact hpaths
      have hname : ∀ item ∈ items, ItemStore.IsName item.name := fun item hitem =>
        ((ItemStore.mem_matching h.tidy).mp (hitems.subset hitem)).1.1
      have hnext := h.lists hid hp.attributes
        (fun hlater => by rw [← hp.query hlater]; exact congrArg _ hquery) hitems
        (fun item hitem => not_seen_of_not_covers hdistinct (hname item hitem) (hpassed item hitem).1)
        hseen (fun item hitem => ⟨l', by simp, item.name, hname item hitem, by rw [hmoved.path]; rfl,
          (hpassed item hitem).2⟩)
      rw [hnone, List.nil_append] at haside
      refine hnext.moves (haside'.trans ?_).subperm fun _ hx => hx
      rw [hpending, hchannel, List.append_assoc]
      exact haside.symm.append_left _

/-- **A move of the search** keeps the account. -/
theorem ledger_of_step (hid : ',' ∉ id.toList) (hpage : settings.pageSize ≠ 0)
    (hpaths : (settings.paths.map ItemStore.trimSlashes).Nodup)
    (hincremental : settings.incremental = true) (hp : p.Serves id settings) (hfits : producer.Fits p)
    (h : Ledger id p.firstPoll w.clients.items log (producer.pending ++ c.pending ++ others) owed
      producer.Seen)
    (hs : producer.step w (.items p) c = some (producer', w', d', c')) :
    ∃ p', d' = .items p' ∧ p'.Serves id settings ∧ producer'.Fits p' ∧ World.Calm w w' ∧
      Ledger id p'.firstPoll w'.clients.items log (producer'.pending ++ c'.pending ++ others) owed
        producer'.Seen := by
  have hcalm := (consults_of_step hs).calm
  cases moves_of_step hs with
  | begins =>
    have hpending : (listing p.query (p.settings.paths.map .new)).pending = [] := by
      simp [pending, List.flatMap_map, Listing.new, Listing.pending]
    refine ⟨p, rfl, hp, ⟨rfl, ?_, fun l hl => ?_⟩, hcalm, ?_⟩
    · rw [List.map_map]
      exact List.map_id _
    · obtain ⟨path, -, rfl⟩ := List.mem_map.mp hl
      trivial
    · rw [hpending]
      exact h.moves (List.Subperm.refl _) fun x hx => hx.elim
  | lists hfirst => exact ⟨p, rfl, hp, ledger_of_listing hid hpage hpaths hp hfits h hfirst⟩
  | concludes hall =>
    refine ⟨p, rfl, hp, trivial, hcalm, h.moves ?_ fun _ _ => trivial⟩
    rw [List.append_assoc, List.append_assoc]
    exact (List.sublist_append_right _ _).subperm
  | lingers hsend =>
    refine ⟨p, rfl, hp, trivial, hcalm, ?_⟩
    rw [Sending.pending_of_step hsend]
    exact h
  | @completes _ send r c₁ hsend hr =>
    obtain ⟨hserves, hlater⟩ := hp.completeFirstPoll hincremental
    refine ⟨p.completeFirstPoll, rfl, hserves, hlater, hcalm, ?_⟩
    have hchannel : c₁.closeSenders.pending = c.pending := by
      rw [Channel.pending_closeSenders, Sending.pending_of_step hsend]
      cases r with
      | sent => simp [PollMessage.version?]
      | refused => rfl
      | waits send' => rfl
    rw [hchannel, hlater]
    exact h.later
  | stops | pauses | goes | wakes | waits | sends | leaves => exact hfits.elim

end Producer

/-! ### Batches -/

theorem Desk.version_prepare (d : Desk) (event : Event) (a : Ambient) :
    (d.prepare event a).1.version = event.version := by
  rw [Desk.prepare]
  dsimp only
  split <;> rfl

theorem Desk.map_version_prepareAll (d : Desk) (events : List Event) (a : Ambient) :
    (d.prepareAll events a).1.map Event.version = events.map Event.version := by
  induction events generalizing a with
  | nil => rfl
  | cons event events ih =>
    have hstep : (d.prepareAll (event :: events) a).1 =
        (d.prepare event a).1 :: (d.prepareAll events (d.prepare event a).2).1 := rfl
    rw [hstep, List.map_cons, List.map_cons, Desk.version_prepare, ih]

/-- What was handled when a run is over that was in progress before: its event's version, if the run
ended with success. -/
def successes (before after : Option (Event × Outcome)) : List Version :=
  match before, after with
  | some (event, outcome), none => if outcome.succeeded then [event.version] else []
  | _, _ => []

theorem successes_of_eq (run : Option (Event × Outcome)) : successes run run = [] := by
  cases run <;> rfl

namespace Batch

/-- The events that were handled with success. -/
def handled (events : List Event) (outcomes : List Outcome) : List Event :=
  ((events.zip outcomes).filter fun (_, outcome) => outcome.succeeded).map Prod.fst

/-- The events of a batch whose outcomes are still to come. -/
def pending : Batch → List Event
  | .ready events _ | .acquiring events _ => events
  | .between _ done events _ | .running _ done events _ _ => events.drop done.length

/-- The events of a batch that were handled with success, and whose items are still to be stamped. -/
def owed : Batch → List Event
  | .ready _ _ | .acquiring _ _ => []
  | .between _ done events _ | .running _ done events _ _ => handled events done

/-- The run that is in progress for a batch: its event, and what it will end with. -/
def run? : Batch → Option (Event × Outcome)
  | .running _ done events _ run => events[done.length]?.map (·, run.outcome)
  | _ => none

/-- The outcomes so far are those of the first events, and the rest is still to run. -/
def Paired : Batch → Prop
  | .ready _ _ | .acquiring _ _ => True
  | .between _ done events rest => rest = events.drop done.length
  | .running _ done events rest _ => rest = events.drop (done.length + 1)

theorem handled_concat (events : List Event) (done : List Outcome) (outcome : Outcome) :
    handled events (done ++ [outcome]) = handled events done ++
      (events[done.length]?.toList.filter fun _ => outcome.succeeded) := by
  induction done generalizing events with
  | nil =>
    cases events with
    | nil => rfl
    | cons event events =>
      cases hs : outcome.succeeded <;> simp [handled, hs]
  | cons first done ih =>
    cases events with
    | nil => simp [handled]
    | cons event events =>
      have hcons : ∀ rest : List Outcome, handled (event :: events) (first :: rest) =
          (if first.succeeded then [event] else []) ++ handled events rest := by
        intro rest
        cases hs : first.succeeded <;> simp [handled, hs]
      rw [List.cons_append, hcons, ih, hcons, List.append_assoc]
      rfl

variable {id : String} {first : Bool} {s : ItemStore} {log others : List Version} {seen : String → Prop}
  {b : Batch} {a a' : Ambient} {d d' : Desk} {m : Move Batch (BatchOutcome × List Event)}

/-- A run of a batch is over. -/
theorem ledger_of_conclusion {worker : Worker} {done : List Outcome} {events rest : List Event}
    {run : Running} (h : Ledger id first s log
      ((running worker done events rest run).pending.map Event.version ++ others)
      ((running worker done events rest run).owed.map Event.version) seen) :
    Ledger id first s (successes (running worker done events rest run).run? none ++ log)
      ((between worker (done ++ [run.outcome]) events rest).pending.map Event.version ++ others)
      ((between worker (done ++ [run.outcome]) events rest).owed.map Event.version) seen := by
  have howed : (between worker (done ++ [run.outcome]) events rest).owed = handled events done ++
      events[done.length]?.toList.filter fun _ => run.outcome.succeeded := handled_concat _ _ _
  have hpending : (between worker (done ++ [run.outcome]) events rest).pending =
      events.drop (done.length + 1) := by simp [pending]
  rw [howed, hpending]
  cases hevent : events[done.length]? with
  | none =>
    have hrun : (running worker done events rest run).run? = none := by simp [run?, hevent]
    have hend : events.length ≤ done.length := List.getElem?_eq_none_iff.mp hevent
    have hnone : (running worker done events rest run).pending = [] := List.drop_eq_nil_of_le hend
    rw [hnone] at h
    rw [hrun, List.drop_eq_nil_of_le (hend.trans (Nat.le_succ _)), Option.toList_none, List.filter_nil,
      List.append_nil]
    exact h
  | some event =>
    have hrun : (running worker done events rest run).run? = some (event, run.outcome) := by
      simp [run?, hevent]
    have hfirst : (running worker done events rest run).pending =
        event :: events.drop (done.length + 1) := by
      obtain ⟨hlt, hget⟩ := List.getElem?_eq_some_iff.mp hevent
      rw [pending, List.drop_eq_getElem_cons hlt, hget]
    rw [hfirst, List.map_cons, List.cons_append] at h
    rw [hrun]
    cases hsucceeded : run.outcome.succeeded with
    | true =>
      have hlog : successes (some (event, run.outcome)) none = [event.version] := by
        simp [successes, hsucceeded]
      rw [hlog, List.map_append]
      exact h.succeeds
    | false =>
      have hlog : successes (some (event, run.outcome)) none = [] := by simp [successes, hsucceeded]
      rw [hlog]
      simp only [List.filter_false, List.append_nil, List.nil_append]
      exact h.moves (List.sublist_cons_self _ _).subperm fun _ hx => hx

/-- **A move of a batch** keeps the account; at its end nothing is on its way any more, and the events
with success are those that were handled. -/
theorem ledger_of_step (h : Ledger id first s log (b.pending.map Event.version ++ others)
      (b.owed.map Event.version) seen) (hs : b.step a d = some (m, a', d')) :
    match m with
    | .goes next => Ledger id first s (successes b.run? next.run? ++ log)
        (next.pending.map Event.version ++ others) (next.owed.map Event.version) seen
    | .ends (.noWorker _, _) => b.run? = none ∧ b.owed = []
    | .ends (.processed outcomes, events) => b.run? = none ∧ b.owed = handled events outcomes := by
  cases b with
  | ready events limit =>
    rw [step] at hs
    cases hs
    have hversions := Desk.map_version_prepareAll d events a
    change Ledger id first s log (List.map Event.version (d.prepareAll events a).1 ++ others) _ _
    rw [hversions]
    exact h
  | acquiring events acquire =>
    rw [step] at hs
    split at hs
    · cases hs
    · cases hs
      exact h
    · cases hs
      exact ⟨rfl, rfl⟩
    next worker d₁ hworker =>
      cases hs
      have howed : (between worker [] events events).owed = [] := by simp [owed, handled]
      dsimp only
      rw [howed]
      exact h
  | between worker done events rest =>
    cases rest with
    | nil =>
      rw [step] at hs
      cases hs
      exact ⟨rfl, rfl⟩
    | cons event rest =>
      rw [step] at hs
      cases hs
      exact h
  | running worker done events rest run =>
    rw [step] at hs
    split at hs
    · cases hs
      exact ledger_of_conclusion h
    · cases hs

/-- When a run begins, the function is entered with its event, and the run ends with what the function
makes of it. -/
theorem paired_of_step (h : b.Paired) {next : Batch} (hs : b.step a d = some (.goes next, a', d')) :
    next.Paired ∧ ∀ event outcome, b.run? = none → next.run? = some (event, outcome) →
      ∃ entry : Entry, entry.event = event ∧ a'.entries = a.entries.push entry ∧
        outcome = (a.function a.entries entry).conclusion.outcome := by
  cases b with
  | ready events limit =>
    rw [step] at hs
    cases hs
    exact ⟨trivial, fun event outcome _ hrun => by cases hrun⟩
  | acquiring events acquire =>
    rw [step] at hs
    split at hs
    · cases hs
    · cases hs
      exact ⟨trivial, fun event outcome _ hrun => by cases hrun⟩
    · cases hs
    · cases hs
      exact ⟨rfl, fun event outcome _ hrun => by cases hrun⟩
  | between worker done events rest =>
    cases rest with
    | nil => cases hs
    | cons first rest =>
      rw [step] at hs
      cases hs
      have hrest : first :: rest = events.drop done.length := h
      refine ⟨?_, fun event outcome _ hrun => ?_⟩
      · rw [Paired, ← List.drop_drop, ← hrest]
        rfl
      · have hhead : events[done.length]? = some first := by
          rw [← List.head?_drop, ← hrest]
          rfl
        simp only [run?, hhead, Option.map_some, Option.some.injEq, Prod.mk.injEq] at hrun
        obtain ⟨rfl, rfl⟩ := hrun
        exact ⟨⟨worker.knownAs, first⟩, rfl, rfl, rfl⟩
  | running worker done events rest run =>
    rw [step] at hs
    split at hs
    · cases hs
      refine ⟨?_, fun event outcome _ hrun => by cases hrun⟩
      rw [Paired, List.length_append, List.length_singleton]
      exact h
    · cases hs

end Batch

/-! ### Submitting -/

namespace Consumer

/-- The versions on their way in the half of a cycle that submits. -/
def pending : Consumer → List Version
  | .receiving batch => batch.map Event.version
  | .submitting _ batch => batch.pending.map Event.version
  | _ => []

/-- The run that is in progress. -/
def run? : Consumer → Option (Event × Outcome)
  | .submitting _ batch => batch.run?
  | _ => none

/-- The events whose items a poller has still to stamp. -/
def Owes (p : ItemPoller) (owed : List Event) : Consumer → Prop
  | .receiving _ | .done => owed = []
  | .submitting _ batch => owed = batch.owed ∧ batch.Paired
  | .wrapping _ _ (.stamping rest _) => rest = owed.map fun event => (event.path, p.stampOf event)
  | .wrapping _ _ _ => False

variable {id : String} {p : ItemPoller} {first : Bool} {log front : List Version} {owed : List Event}
  {seen : String → Prop} {signal : Signal} {c c' : Channel} {w w' : World} {s s' : PollSource}
  {consumer consumer' : Consumer}

/-- Of a poller, only the stamps count. -/
theorem Owes.of_stamp {p' : ItemPoller} (h : consumer.Owes p owed) (hstamp : p'.stamp = p.stamp) :
    consumer.Owes p' owed := by
  have hsame : ∀ event, p'.stampOf event = p.stampOf event := by
    intro event
    rw [ItemPoller.stampOf, ItemPoller.stampOf, hstamp]
  cases consumer with
  | receiving batch => exact h
  | submitting isLast batch => exact h
  | wrapping isLast previous wrapup =>
    cases wrapup with
    | stamping rest trip =>
      simp only [Owes, hsame]
      exact h
    | pausing events until_ => exact h
    | noting events => exact h
  | done => exact h

/-- What a move of the half that submits keeps: only the items' stamps may change, and the driver and
the tasks stay as they are. -/
structure Keeps (id : String) (p : ItemPoller) (first : Bool) (log front : List Version)
    (seen : String → Prop) (w : World) (s : PollSource) (c' : Channel) (w' : World) (s' : PollSource)
    (consumer' : Consumer) : Prop where
  ledger : ∃ owed : List Event, consumer'.Owes p owed ∧ Ledger id first w'.clients.items log
    (front ++ c'.pending ++ consumer'.pending) (owed.map Event.version) seen
  driver : s'.driver = s.driver
  lifecycle : s'.lifecycle = s.lifecycle
  updates : w'.clients.route .updateItem = w.clients.route .updateItem

/-- Receiving. -/
theorem keeps_of_receiving {batch : List Event} (howes : (receiving batch).Owes p owed)
    (h : Ledger id first w.clients.items log (front ++ c.pending ++ (receiving batch).pending)
      (owed.map Event.version) seen)
    (hs : s.stepConsumer signal c w (.receiving batch) = some (consumer', c', w', s')) :
    consumer'.run? = none ∧ Keeps id p first log front seen w s c' w' s' consumer' := by
  obtain rfl : owed = [] := howes
  have hmoves : ∀ (next : Consumer) (c₁ : Channel), next.Owes p [] →
      (c₁.pending ++ next.pending).Subperm (c.pending ++ batch.map Event.version) →
      Keeps id p first log front seen w s c₁ w s next := by
    intro next c₁ hnext hsub
    refine ⟨⟨[], hnext, h.moves ?_ fun _ hx => hx⟩, rfl, rfl, rfl⟩
    rw [List.append_assoc, List.append_assoc]
    exact (List.subperm_append_left _).mpr hsub
  have hreceived : ∀ {event c₁}, c.receive = (.message (.event event), c₁) →
      (c₁.pending ++ (batch ++ [event]).map Event.version).Subperm (c.pending ++ batch.map Event.version) := by
    intro event c₁ hreceive
    have hperm : (c₁.pending ++ (batch ++ [event]).map Event.version).Perm
        (event.version :: (c₁.pending ++ batch.map Event.version)) := by
      rw [List.map_append, ← List.append_assoc]
      exact List.perm_append_singleton _ _
    rw [Channel.pending_receive hreceive]
    exact hperm.subperm
  cases Consumer.moves_of_step hs with
  | gathers hreceive => exact ⟨rfl, hmoves _ _ rfl (hreceived hreceive)⟩
  | fills hreceive => exact ⟨rfl, hmoves _ _ ⟨rfl, trivial⟩ (hreceived hreceive)⟩
  | leaves | closes => exact ⟨rfl, hmoves _ _ rfl List.nil_subperm⟩
  | finishes hreceive hlast =>
    have hsame : c.pending = c'.pending := by
      rcases hlast with rfl | rfl
      · rw [Channel.receive_closed hreceive]
      · exact Channel.pending_receive hreceive
    refine ⟨rfl, hmoves _ _ ⟨rfl, trivial⟩ ?_⟩
    rw [hsame]
    exact List.Subperm.refl _

@[simp] theorem run?_afterBatch (isLast : Bool) : (PollSource.afterBatch isLast).run? = none := by
  rw [PollSource.afterBatch]
  split <;> rfl

/-- After a batch that leaves nothing to be stamped. -/
theorem keeps_of_afterBatch (isLast : Bool) {more : List Version}
    (h : Ledger id first w.clients.items log (front ++ c.pending ++ more) [] seen)
    (hdriver : s'.driver = s.driver) (hlifecycle : s'.lifecycle = s.lifecycle)
    (hworld : w'.clients = w.clients) :
    Keeps id p first log front seen w s (if isLast then c.closeReceiver else c) w' s'
      (PollSource.afterBatch isLast) := by
  have hchannel : (if isLast then c.closeReceiver else c).pending.Subperm c.pending := by
    split
    · exact List.nil_subperm
    · exact List.Subperm.refl _
  have hafter : (PollSource.afterBatch isLast).Owes p [] ∧
      (PollSource.afterBatch isLast).pending = [] := by
    rw [PollSource.afterBatch]
    split <;> exact ⟨rfl, rfl⟩
  obtain ⟨howes, hpending⟩ := hafter
  refine ⟨⟨[], howes, ?_⟩, hdriver, hlifecycle, by rw [hworld]⟩
  rw [hpending, List.append_nil, hworld]
  refine h.moves (List.Subperm.trans ?_ (List.sublist_append_left _ more).subperm) fun _ hx => hx
  exact (List.subperm_append_left _).mpr hchannel

/-- Submitting a batch. -/
theorem keeps_of_submitting {isLast : Bool} {batch : Batch} (hdriver : s.driver = .items p)
    (howes : (submitting isLast batch).Owes p owed)
    (h : Ledger id first w.clients.items log (front ++ c.pending ++ (submitting isLast batch).pending)
      (owed.map Event.version) seen)
    (hs : s.stepConsumer signal c w (.submitting isLast batch) = some (consumer', c', w', s')) :
    Keeps id p first (successes batch.run? consumer'.run? ++ log) front seen w s c' w' s' consumer' := by
  obtain ⟨rfl, hpaired⟩ := howes
  have haside := h.moves (@List.perm_append_comm _ (front ++ c.pending) _).symm.subperm fun _ hx => hx
  cases Consumer.moves_of_step hs with
  | submits hbatch =>
    refine ⟨⟨_, ⟨rfl, (Batch.paired_of_step hpaired hbatch).1⟩, ?_⟩, rfl, rfl, rfl⟩
    exact (Batch.ledger_of_step haside hbatch).moves List.perm_append_comm.subperm fun _ hx => hx
  | @handles _ _ outcomes events ambient desk hbatch =>
    obtain ⟨hrun, howed⟩ := Batch.ledger_of_step haside hbatch
    rw [hrun, hdriver]
    refine ⟨⟨batch.owed, ?_, h.moves ?_ fun _ hx => hx⟩, hdriver.symm, rfl, rfl⟩
    · rw [howed]
      simp [Owes, Wrapup.ofBatch, Batch.handled]
    · have hnone : (wrapping isLast s.phase (Wrapup.ofBatch ambient.now (.items p) events outcomes)).pending =
          [] := rfl
      rw [hnone, List.append_nil]
      exact (List.sublist_append_left _ _).subperm
  | misses hbatch =>
    obtain ⟨hrun, howed⟩ := Batch.ledger_of_step haside hbatch
    rw [howed] at h
    rw [hrun, run?_afterBatch]
    exact keeps_of_afterBatch isLast h rfl rfl rfl

/-- Stamping. -/
theorem keeps_of_wrapping {isLast : Bool} {previous : PollPhase} {wrapup : Wrapup}
    (hp : p.stamp = Stamp.ofSource id) (hsure : (w.clients.route .updateItem).failing = 0)
    (howes : (wrapping isLast previous wrapup).Owes p owed)
    (h : Ledger id first w.clients.items log
      (front ++ c.pending ++ (wrapping isLast previous wrapup).pending) (owed.map Event.version) seen)
    (hs : s.stepConsumer signal c w (.wrapping isLast previous wrapup) = some (consumer', c', w', s')) :
    consumer'.run? = none ∧ Keeps id p first log front seen w s c' w' s' consumer' := by
  cases Consumer.moves_of_step hs with
  | wraps hwrapup =>
    generalize hdriver : s.driver = d at hwrapup
    cases Wrapup.moves_of_step hwrapup with
    | asks htrip =>
      obtain ⟨rfl, -⟩ := World.stepTrip_sure hsure htrip
      exact ⟨rfl, ⟨owed, howes, h⟩, hdriver.symm, rfl, rfl⟩
    | loses htrip => exact absurd rfl ((World.stepTrip_sure hsure htrip).2 _)
    | stamps htrip =>
      obtain ⟨rfl, -⟩ := World.stepTrip_sure hsure htrip
      cases owed with
      | nil => cases howes
      | cons event owed =>
        cases howes
        exact ⟨rfl, ⟨owed, rfl, h.stamps hp⟩, hdriver.symm, rfl, rfl⟩
    | wakes => exact howes.elim
  | returns hwrapup =>
    generalize hdriver : s.driver = d at hwrapup
    cases Wrapup.moves_of_step hwrapup with
    | ends =>
      obtain rfl : owed = [] := List.map_eq_nil_iff.mp howes.symm
      exact ⟨run?_afterBatch isLast, keeps_of_afterBatch isLast h hdriver.symm rfl rfl⟩
    | skips | notes => exact howes.elim

/-- **A move of the half that submits** keeps the account. -/
theorem keeps_of_step (hdriver : s.driver = .items p) (hp : p.stamp = Stamp.ofSource id)
    (hsure : (w.clients.route .updateItem).failing = 0) (howes : consumer.Owes p owed)
    (h : Ledger id first w.clients.items log (front ++ c.pending ++ consumer.pending)
      (owed.map Event.version) seen)
    (hs : s.stepConsumer signal c w consumer = some (consumer', c', w', s')) :
    Keeps id p first (successes consumer.run? consumer'.run? ++ log) front seen w s c' w' s' consumer' := by
  cases consumer with
  | receiving batch =>
    obtain ⟨hrun, hkeeps⟩ := keeps_of_receiving howes h hs
    rw [hrun]
    exact hkeeps
  | submitting isLast batch => exact keeps_of_submitting hdriver howes h hs
  | wrapping isLast previous wrapup =>
    obtain ⟨hrun, hkeeps⟩ := keeps_of_wrapping hp hsure howes h hs
    rw [hrun]
    exact hkeeps
  | done => simp [PollSource.stepConsumer] at hs

/-- A run begins when the function is entered with its event, and ends with what the function makes of
it. -/
theorem entered_of_step (howes : consumer.Owes p owed)
    (hs : s.stepConsumer signal c w consumer = some (consumer', c', w', s')) {event : Event}
    {outcome : Outcome} (hnone : consumer.run? = none) (hsome : consumer'.run? = some (event, outcome)) :
    ∃ entry : Entry, entry.event = event ∧ w'.ambient.entries = w.ambient.entries.push entry ∧
      outcome = (w.ambient.function w.ambient.entries entry).conclusion.outcome := by
  cases Consumer.moves_of_step hs with
  | submits hbatch => exact (Batch.paired_of_step howes.2 hbatch).2 event outcome hnone hsome
  | misses | returns =>
    rw [run?_afterBatch] at hsome
    cases hsome
  | _ => cases hsome

end Consumer

end EventDispatch
