import EventDispatch.Proofs.Batches

/-!
# No cycle stalls

The two halves of a poll cycle wait for each other. A search that finds no place in the channel waits until
messages are received; all its paths share the places, and the end of the cycle is sent only when the last
path is listed, so that one event without a place would hold up the rest. The other half receives nothing while
a batch is on its way, and it may leave before the search is over.

What can not move waits for an instant, or for the other half. For an instant wait a request that is underway, a
pause, a run of the function, and a batch without a worker, since it does not wait longer than its limit. For the
other half wait a ticket that has no place, and a half that receives from an empty channel. That both wait for
each other is ruled out by where the places are (`Channel.Places`): when no message is left, some ticket was
granted a place. And once one half is over, the other does not wait for it: who sends is refused then, and who
receives is told that nobody is left to send.

## What is deliberately absent

That a cycle ends is not said. With pages that hold nothing and are never the last it does not, but goes on
and on. Nothing is assumed of the world around the source either, which may change in any way between two
moves; only that the settings and the driver of the source are its own.

## Main definitions

* `Blocked`: who can not move waits for an instant that is still to come, or for a place.
* `Listing.tickets`, `Producer.tickets`: the tickets with which a listing, and a search, wait for a place.
* `Batch.Limited`: a batch does not wait for a worker for ever.
* `Cycling.Moves`: one of the halves moves.
* `Cycling.Lively`: the law.

## Main results

* `Producer.blocked_of_step`, `Consumer.blocked_of_step`: what each half waits for when it can not move.
* `Producer.places_of_step`, `Consumer.leaves_of_step`: what each half leaves of the channel.
* `Cycling.Sound.step`: what one move of the cycle keeps.
* `Cycling.lively_of_reachable`: the law, for every run.
-/

namespace EventDispatch

/-! ### Who waits, and for what -/

/-- Whoever waits does so for an instant that is still to come, or for a place that was not granted. -/
structure Blocked (now : Nat) (c : Channel) (deadline : Option Nat) (tickets : List Nat) : Prop where
  timer : ∀ t ∈ deadline, now < t
  line : ∀ ticket ∈ tickets, ticket ∉ c.granted ∧ c.receiverGone = false

theorem Blocked.of_timer {now t : Nat} (h : now < t) (c : Channel) : Blocked now c (some t) [] :=
  ⟨fun _ ht => Option.some_injective _ ht ▸ h, fun _ hm => (List.not_mem_nil hm).elim⟩

theorem Blocked.idle (now : Nat) (c : Channel) : Blocked now c none [] :=
  ⟨fun _ ht => (by cases ht), fun _ hm => (List.not_mem_nil hm).elim⟩

/-- A call that sends and can not move waits for a place. -/
theorem Sending.blocked {m : PollMessage} {c : Channel} {send : Sending} (hs : send.step m c = none) (now : Nat) :
    Blocked now c none send.tickets ∧ send.tickets ≠ [] := by
  obtain ⟨ticket, rfl, hnot, hopen⟩ := step_eq_none hs
  refine ⟨⟨fun _ ht => (by cases ht), fun t ht => ?_⟩, List.cons_ne_nil _ _⟩
  obtain rfl := List.mem_singleton.mp ht
  exact ⟨hnot, hopen⟩

/-- A call on its way can not move before it arrives. -/
theorem World.exists_of_stepTrip_eq_none {call : RemoteCall} {trip : Trip} {w : World}
    (hs : w.stepTrip call trip = none) : ∃ t, trip.deadline = some t ∧ w.now < t := by
  have htrip : trip.step call w.now w.clients = none := Option.map_eq_none_iff.mp hs
  cases trip with
  | leaving =>
    rw [Trip.step] at htrip
    split at htrip <;> cases htrip
  | underway until_ =>
    rw [Trip.step] at htrip
    split at htrip
    · cases htrip
    next hnot => exact ⟨until_, rfl, not_le.mp hnot⟩

namespace Listing

/-- The tickets with which a listing waits for a place. -/
def tickets (l : Listing) : List Nat :=
  match l.stage with
  | .sending _ _ _ _ send => send.tickets
  | _ => []

theorem tickets_of_isDone {l : Listing} (h : l.isDone = true) : l.tickets = [] := by
  obtain ⟨path, marker, stage⟩ := l
  cases stage with
  | done => rfl
  | _ => cases h

theorem tickets_sendItems (items : List Item) (isLast : Bool) (next : String) (delay : Nat) (w : World)
    (l : Listing) : (sendItems items isLast next delay w l).1.tickets = [] := by
  cases items with
  | cons item rest => rfl
  | nil =>
    rw [sendItems]
    split
    · rfl
    · split <;> rfl

theorem tickets_afterFailure (path marker : String) (now delay attempt : Nat) :
    tickets ⟨path, marker, afterFailure now delay attempt⟩ = [] := by
  rw [afterFailure]
  split <;> rfl

variable {p : ItemPoller} {query : String} {w w' : World} {c c' : Channel} {l l' : Listing}
  {capacity : Nat} {others : List Nat}

/-- **One move of a listing** keeps the places of the channel in order. -/
theorem places_of_step (h : c.Places capacity (l.tickets ++ others)) (hopen : c.receiverGone = false)
    (hs : l.step p query w c = some (l', w', c')) : c'.Places capacity (l'.tickets ++ others) := by
  cases moves_of_step hs with
  | asks | retries | turns => exact h
  | loses | fails =>
    rw [tickets_afterFailure]
    exact h
  | brings htrip hlist hsend =>
    obtain rfl := congrArg Prod.fst hsend
    rw [tickets_sendItems]
    exact h
  | waits hsend => exact Channel.Places.step h hopen hsend
  | leaves hsend =>
    obtain ⟨-, hleaves⟩ := Sending.leaves_of_step hsend
    cases hleaves with
    | refused hgone => exact Bool.noConfusion (hgone.symm.trans hopen)
  | sends hsent hsend =>
    obtain rfl := congrArg Prod.fst hsend
    rw [tickets_sendItems]
    exact Channel.Places.step h hopen hsent

/-- A listing makes no difference to the ends of the channel. -/
theorem sameEnds_of_step (hs : l.step p query w c = some (l', w', c')) : c.SameEnds c' := by
  cases moves_of_step hs with
  | waits hsend | leaves hsend | sends hsend => exact (Sending.leaves_of_step hsend).1
  | _ => exact ⟨rfl, rfl⟩

/-- A listing that can not move is over, or waits. -/
theorem blocked_of_step (hs : l.step p query w c = none) : Blocked w.now c l.deadline l.tickets ∧
    (l.isDone = true ∨ l.deadline ≠ none ∨ l.tickets ≠ []) := by
  obtain ⟨path, marker, stage⟩ := l
  cases stage with
  | requesting attempt trip =>
    simp only [step] at hs
    split at hs
    next htrip =>
      obtain ⟨t, ht, hlt⟩ := World.exists_of_stepTrip_eq_none htrip
      have hdeadline : deadline ⟨path, marker, .requesting attempt trip⟩ = some t := ht
      rw [hdeadline]
      exact ⟨.of_timer hlt c, .inr (.inl (Option.some_ne_none t))⟩
    · cases hs
    · cases hs
    · split at hs <;> cases hs
  | retrying attempt until_ | turning until_ =>
    simp only [step] at hs
    split at hs
    · cases hs
    next hnot => exact ⟨.of_timer (not_le.mp hnot) c, .inr (.inl (Option.some_ne_none _))⟩
  | sending event rest isLast next send =>
    simp only [step] at hs
    split at hs
    next hsend =>
      obtain ⟨hblocked, hne⟩ := Sending.blocked hsend w.now
      exact ⟨hblocked, .inr (.inr hne)⟩
    · cases hs
    · cases hs
    · cases hs
  | done => exact ⟨.idle w.now c, .inl rfl⟩

theorem stepFirst_eq_none {listings : List Listing} (hs : stepFirst p query w c listings = none) :
    ∀ l ∈ listings, l.step p query w c = none := by
  induction listings with
  | nil => exact fun _ hm => (List.not_mem_nil hm).elim
  | cons l rest ih =>
    rw [stepFirst] at hs
    split at hs
    · cases hs
    next hstep => exact List.forall_mem_cons.mpr ⟨hstep, ih (Option.map_eq_none_iff.mp hs)⟩

end Listing

/-! ### Searching -/

namespace Producer

/-- The tickets with which a search waits for a place. -/
def tickets : Producer → List Nat
  | .listing _ listings => listings.flatMap Listing.tickets
  | .completing send | .sending _ _ send => send.tickets
  | _ => []

/-- Paths are listed by a driver that lists items. -/
def Suits (d : PollDriver) : Producer → Prop
  | .listing _ _ => ∃ p, d = .items p
  | _ => True

theorem tickets_eq_nil {listings : List Listing} (hall : ∀ l ∈ listings, l.tickets = []) (query : String) :
    tickets (.listing query listings) = [] := List.flatMap_eq_nil_iff.mpr hall

variable {w w' : World} {d d' : PollDriver} {c c' : Channel} {producer producer' : Producer} {capacity : Nat}

theorem eq_done (h : producer.isDone = true) : producer = .done := by
  cases producer with
  | done => rfl
  | _ => cases h

/-- Only a driver that lists items begins to list them. -/
theorem suits_of_step (hs : producer.step w d c = some (producer', w', d', c')) : producer'.Suits d' := by
  cases moves_of_step hs with
  | begins | lists => exact ⟨_, rfl⟩
  | _ => exact trivial

/-- What is done after a batch makes no other driver of a driver that lists items. -/
theorem Suits.of_wrapup {wrapup : Wrapup} {m : Move Wrapup Unit} (h : producer.Suits d)
    (hs : wrapup.step w d = some (m, w', d')) : producer.Suits d' := by
  cases Wrapup.moves_of_step hs with
  | notes =>
    cases producer with
    | listing => cases h.choose_spec
    | _ => exact trivial
  | _ => exact h

/-- **One move of a search** keeps the places of the channel in order. -/
theorem places_of_step (h : c.Places capacity producer.tickets) (hopen : c.receiverGone = false)
    (hs : producer.step w d c = some (producer', w', d', c')) : c'.Places capacity producer'.tickets := by
  cases moves_of_step hs with
  | begins =>
    rw [tickets_eq_nil fun l hl => by obtain ⟨path, -, rfl⟩ := List.mem_map.mp hl; rfl]
    exact h
  | plays | pauses | goes | wakes => exact h
  | stops => exact h.closeSenders
  | @lists p query _ _ _ _ hfirst =>
    obtain ⟨pre, l, post, l', rfl, hstep, rfl⟩ := Listing.stepFirst_cases hfirst
    -- The listing that moves is brought to the front, and then back to its place.
    have hfront : ∀ l : Listing, (tickets (.listing query (pre ++ l :: post))).Perm
        (l.tickets ++ (pre.flatMap Listing.tickets ++ post.flatMap Listing.tickets)) := fun l => by
      rw [tickets, List.flatMap_append, List.flatMap_cons]
      exact List.perm_append_comm_assoc _ _ _
    exact (Listing.places_of_step (h.of_perm (hfront l)) hopen hstep).of_perm (hfront l').symm
  | concludes hall =>
    rw [tickets_eq_nil fun l hl => Listing.tickets_of_isDone (List.all_eq_true.mp hall l hl)] at h
    exact h
  | lingers hsend | waits hsend | sends hsend => exact h.step_alone hopen hsend
  | completes hsend hr | finishes hsend hr =>
    have hplaces := h.step_alone hopen hsend
    rw [Sent.tickets_of_ne_waits hr] at hplaces
    exact hplaces.closeSenders
  | leaves hsend | notes hsend => exact (h.step_alone hopen hsend).closeSenders

/-- A search leaves the end where messages are received as it is, and closes the other one when it is over. -/
theorem ends_of_step (hs : producer.step w d c = some (producer', w', d', c')) :
    c'.receiverGone = c.receiverGone ∧ (producer'.isDone = true → c'.sendersGone = true) := by
  cases moves_of_step hs with
  | begins | plays | pauses | goes | wakes | concludes => exact ⟨rfl, fun h => (by cases h)⟩
  | stops => exact ⟨rfl, fun _ => rfl⟩
  | lists hfirst =>
    obtain ⟨pre, l, post, l', -, hstep, -⟩ := Listing.stepFirst_cases hfirst
    exact ⟨(Listing.sameEnds_of_step hstep).receiver, fun h => (by cases h)⟩
  | lingers hsend | waits hsend | sends hsend =>
    exact ⟨(Sending.leaves_of_step hsend).1.receiver, fun h => (by cases h)⟩
  | completes hsend | finishes hsend | leaves hsend | notes hsend =>
    exact ⟨(Sending.leaves_of_step hsend).1.receiver, fun _ => rfl⟩

/-- A search that can not move is over, or waits. -/
theorem blocked_of_step (hsuits : producer.Suits d) (hs : producer.step w d c = none) :
    Blocked w.now c producer.deadline producer.tickets ∧
      (producer.isDone = true ∨ producer.deadline ≠ none ∨ producer.tickets ≠ []) := by
  cases producer with
  | ready => cases d <;> cases hs
  | listing query listings =>
    obtain ⟨p, rfl⟩ := hsuits
    simp only [step] at hs
    split at hs
    · cases hs
    next hall =>
      have hblocked := fun l hl =>
        Listing.blocked_of_step (Listing.stepFirst_eq_none (Option.map_eq_none_iff.mp hs) l hl)
      refine ⟨⟨fun t ht => ?_, fun ticket hticket => ?_⟩, .inr ?_⟩
      · obtain ⟨l, hl, hdeadline⟩ := List.mem_filterMap.mp (List.min?_mem ht)
        exact (hblocked l hl).1.timer t hdeadline
      · obtain ⟨l, hl, hmem⟩ := List.mem_flatMap.mp hticket
        exact (hblocked l hl).1.line ticket hmem
      · obtain ⟨l, hl, hbusy⟩ : ∃ l ∈ listings, ¬ l.isDone = true := by
          simpa only [List.all_eq_true, not_forall, exists_prop] using hall
        rcases (hblocked l hl).2.resolve_left hbusy with htimer | hline
        · exact .inl fun hnone => htimer (List.filterMap_eq_nil_iff.mp (List.min?_eq_none_iff.mp hnone) l hl)
        · exact .inr fun hnone => hline (List.flatMap_eq_nil_iff.mp hnone l hl)
  | completing send =>
    simp only [step] at hs
    split at hs
    next hsend =>
      obtain ⟨hblocked, hne⟩ := Sending.blocked hsend w.now
      exact ⟨hblocked, .inr (.inr hne)⟩
    · cases hs
    · cases hs
  | playing rest =>
    cases rest with
    | nil => cases hs
    | cons first rest =>
      simp only [step] at hs
      split at hs <;> cases hs
  | pausing message rest until_ =>
    simp only [step] at hs
    split at hs
    · cases hs
    next hnot => exact ⟨.of_timer (not_le.mp hnot) c, .inr (.inl (Option.some_ne_none _))⟩
  | sending message rest send =>
    simp only [step] at hs
    split at hs
    next hsend =>
      obtain ⟨hblocked, hne⟩ := Sending.blocked hsend w.now
      exact ⟨hblocked, .inr (.inr hne)⟩
    · cases hs
    · cases hs
    · cases hs
  | done => exact ⟨.idle w.now c, .inl rfl⟩

end Producer

/-! ### Submitting -/

namespace Acquire

/-- The call does not wait for ever. -/
def Limited : Acquire → Prop
  | .asking limit => limit ≠ none
  | .waiting _ limit => limit ≠ none

variable {α : Type} {now : Nat} {p p' : Pool α} {acquire next : Acquire}

theorem limited_of_step (h : acquire.Limited) (hs : acquire.step now p = some (.goes next, p')) :
    next.Limited := by
  cases acquire with
  | asking limit =>
    obtain ⟨t, rfl⟩ := Option.ne_none_iff_exists'.mp h
    cases t with
    | zero => cases hs
    | succ t =>
      cases hs
      exact Option.some_ne_none _
  | waiting ticket limit =>
    simp only [step] at hs
    split at hs
    · cases hs
    · split at hs
      · cases hs
      · split at hs <;> cases hs

/-- A call that can not move waits until its limit. -/
theorem exists_of_step_eq_none (h : acquire.Limited) (hs : acquire.step now p = none) :
    ∃ t, acquire.deadline = some t ∧ now < t := by
  cases acquire with
  | asking limit =>
    obtain ⟨t, rfl⟩ := Option.ne_none_iff_exists'.mp h
    cases t <;> cases hs
  | waiting ticket limit =>
    obtain ⟨⟨t, duration⟩, rfl⟩ := Option.ne_none_iff_exists'.mp h
    simp only [step] at hs
    split at hs
    · cases hs
    · split at hs
      · cases hs
      next hnot => exact ⟨t, rfl, not_le.mp hnot⟩

end Acquire

theorem Desk.exists_of_stepAcquire_eq_none {a : Ambient} {d : Desk} {acquire : Acquire} (h : acquire.Limited)
    (hs : d.stepAcquire a acquire = none) : ∃ t, acquire.deadline = some t ∧ a.now < t := by
  rw [stepAcquire] at hs
  split at hs
  next hstep => exact Acquire.exists_of_step_eq_none h hstep
  · cases hs
  · cases hs
  · cases hs

namespace Batch

/-- The batch does not wait for a worker for ever. -/
def Limited : Batch → Prop
  | .ready _ limit => limit ≠ none
  | .acquiring _ acquire => acquire.Limited
  | _ => True

variable {a a' : Ambient} {d d' : Desk} {batch next : Batch}

theorem limited_of_step (h : batch.Limited) (hs : batch.step a d = some (.goes next, a', d')) :
    next.Limited := by
  cases batch with
  | ready events limit =>
    cases hs
    exact h
  | acquiring events acquire =>
    rw [step] at hs
    split at hs
    · cases hs
    next hacquire =>
      cases hs
      exact Acquire.limited_of_step h (Desk.pool_of_stepAcquire hacquire)
    · cases hs
    · cases hs
      exact trivial
  | between worker done events rest =>
    cases rest with
    | nil => cases hs
    | cons event rest =>
      cases hs
      exact trivial
  | running worker done events rest run =>
    rw [step] at hs
    split at hs
    · cases hs
      exact trivial
    · cases hs

/-- A batch that can not move waits for a worker until its limit, or for the end of a run. -/
theorem exists_of_step_eq_none (h : batch.Limited) (hs : batch.step a d = none) :
    ∃ t, batch.deadline = some t ∧ a.now < t := by
  cases batch with
  | ready events limit => cases hs
  | acquiring events acquire =>
    rw [step] at hs
    split at hs
    next hacquire => exact Desk.exists_of_stepAcquire_eq_none h hacquire
    · cases hs
    · cases hs
    · cases hs
  | between worker done events rest => cases rest <;> cases hs
  | running worker done events rest run =>
    rw [step] at hs
    split at hs
    · cases hs
    next hnot => exact ⟨run.ends, rfl, not_le.mp hnot⟩

end Batch

/-- What is done after a batch can not move while an update is on its way, or during a pause. -/
theorem Wrapup.exists_of_step_eq_none {w : World} {d : PollDriver} {wrapup : Wrapup}
    (hs : wrapup.step w d = none) : ∃ t, wrapup.deadline = some t ∧ w.now < t := by
  cases wrapup with
  | stamping rest trip =>
    cases rest with
    | nil => cases hs
    | cons update rest =>
      simp only [step] at hs
      split at hs
      next htrip => exact World.exists_of_stepTrip_eq_none htrip
      · cases hs
      · cases hs
      · cases hs
  | pausing events until_ =>
    simp only [step] at hs
    split at hs
    · cases hs
    next hnot => exact ⟨until_, rfl, not_le.mp hnot⟩
  | noting events => cases d <;> cases hs

namespace Consumer

/-- The half that submits does not wait for a worker for ever. -/
def Limited : Consumer → Prop
  | .submitting _ batch => batch.Limited
  | _ => True

theorem limited_afterBatch (isLast : Bool) : (PollSource.afterBatch isLast).Limited := by
  cases isLast <;> exact trivial

variable {signal : Signal} {c c' : Channel} {w w' : World} {s s' : PollSource} {consumer consumer' : Consumer}

theorem limited_of_step (h : consumer.Limited)
    (hs : s.stepConsumer signal c w consumer = some (consumer', c', w', s')) : consumer'.Limited := by
  cases moves_of_step hs with
  | gathers | leaves | closes | handles | wraps => exact trivial
  | fills | finishes => exact Option.some_ne_none _
  | submits hstep => exact Batch.limited_of_step h hstep
  | misses | returns => exact limited_afterBatch _

theorem suits_of_step {producer : Producer} (h : producer.Suits s.driver)
    (hs : s.stepConsumer signal c w consumer = some (consumer', c', w', s')) : producer.Suits s'.driver := by
  cases moves_of_step hs with
  | wraps hstep | returns hstep => exact h.of_wrapup hstep
  | _ => exact h

/-- What the half that submits leaves of the channel, by what it goes on to. -/
inductive Leaves (c c' : Channel) : Consumer → Prop
  | goes {next : Consumer} (hbusy : next ≠ .done) (hends : c.SameEnds c')
      (hplaces : ∀ capacity held, c.Places capacity held → c'.Places capacity held) : Leaves c c' next
  | ends (hgone : c'.receiverGone = true) (hsenders : c'.sendersGone = c.sendersGone) : Leaves c c' .done

theorem leaves_afterBatch (c : Channel) (isLast : Bool) :
    (PollSource.afterBatch isLast).Leaves c (if isLast then c.closeReceiver else c) := by
  cases isLast with
  | false => exact .goes (fun h => (by cases h)) ⟨rfl, rfl⟩ fun _ _ => id
  | true => exact .ends rfl rfl

theorem leaves_of_step (hs : s.stepConsumer signal c w consumer = some (consumer', c', w', s')) :
    consumer ≠ .done ∧ consumer'.Leaves c c' := by
  have hreceives : ∀ {r c₁}, c.receive = (r, c₁) →
      c.SameEnds c₁ ∧ ∀ capacity held, c.Places capacity held → c₁.Places capacity held := fun hreceive =>
    ⟨(Channel.leaves_of_receive hreceive).1, fun _ _ h => h.receive hreceive⟩
  cases moves_of_step hs with
  | gathers hreceive | fills hreceive | finishes hreceive =>
    obtain ⟨hends, hplaces⟩ := hreceives hreceive
    exact ⟨fun h => (by cases h), .goes (fun h => (by cases h)) hends hplaces⟩
  | leaves hreceive | closes hreceive =>
    exact ⟨fun h => (by cases h), .ends rfl (hreceives hreceive).1.senders⟩
  | submits | handles | wraps =>
    exact ⟨fun h => (by cases h), .goes (fun h => (by cases h)) ⟨rfl, rfl⟩ fun _ _ => id⟩
  | misses | returns => exact ⟨fun h => (by cases h), leaves_afterBatch c _⟩

/-- The half that submits is over when it can not move, or it waits for an instant, or for a message while
somebody may still send one. -/
theorem blocked_of_step (h : consumer.Limited) (hs : s.stepConsumer signal c w consumer = none) :
    (∀ t ∈ PollSource.consumerDeadline consumer, w.now < t) ∧ (consumer = .done ∨
      PollSource.consumerDeadline consumer ≠ none ∨ c.queue = [] ∧ c.sendersGone = false) := by
  have htimed : (∃ t, PollSource.consumerDeadline consumer = some t ∧ w.now < t) →
      (∀ t ∈ PollSource.consumerDeadline consumer, w.now < t) ∧ PollSource.consumerDeadline consumer ≠ none := by
    rintro ⟨t, ht, hlt⟩
    rw [ht]
    exact ⟨fun _ hmem => Option.some_injective _ hmem ▸ hlt, Option.some_ne_none t⟩
  cases consumer with
  | receiving batch =>
    simp only [PollSource.stepConsumer] at hs
    split at hs
    next hreceive =>
      cases (Channel.leaves_of_receive hreceive).2 with
      | pending hpresent hempty => exact ⟨fun _ ht => (by cases ht), .inr (.inr ⟨hempty, hpresent⟩)⟩
    · cases hs
    · cases hs
    · split at hs
      · split at hs <;> cases hs
      · cases hs
  | submitting isLast batch =>
    simp only [PollSource.stepConsumer] at hs
    split at hs
    next hstep => exact (htimed (Batch.exists_of_step_eq_none h hstep)).imp_right fun hne => .inr (.inl hne)
    · cases hs
    · cases hs
    · cases hs
  | wrapping isLast previous wrapup =>
    simp only [PollSource.stepConsumer] at hs
    split at hs
    next hstep => exact (htimed (Wrapup.exists_of_step_eq_none hstep)).imp_right fun hne => .inr (.inl hne)
    · cases hs
    · cases hs
  | done => exact ⟨fun _ ht => (by cases ht), .inl rfl⟩

end Consumer

/-! ### The cycle -/

namespace Cycling

/-- One of the halves moves in a world. -/
def Moves (signal : Signal) (s : Cycling) (world : World) : Prop :=
  ∃ next : Cycling, s.source.step signal s.task world = some (.goes next.task, next.world, next.source)

/-- A cycle is over, or it can move, or it waits for an instant that is still to come. -/
structure Lively (signal : Signal) (s : Cycling) : Prop where
  /-- Until both halves are over, one of them can move, or the instant at which one of them moves is still to
  come; whatever happens to the world meanwhile. -/
  moves : ¬ (s.producer.isDone = true ∧ s.consumer = .done) → ∀ world, s.Moves signal world ∨
    ∃ t, PollSource.rules.deadline s.task = some t ∧ world.now < t
  /-- When both halves are over, so is the cycle. -/
  ends : s.producer.isDone = true → s.consumer = .done → ∀ world, ∃ m source,
    s.source.step signal s.task world = some (m, world, source) ∧ source.cycles = s.source.cycles + 1

/-- The halves of a cycle and the channel between them are in order. -/
structure Sound (capacity : Nat) (s : Cycling) : Prop where
  suits : s.producer.Suits s.source.driver
  limited : s.consumer.Limited
  receives : s.consumer = .done ↔ s.channel.receiverGone = true
  closed : s.producer.isDone = true → s.channel.sendersGone = true
  places : s.channel.receiverGone = false → s.channel.Places capacity s.producer.tickets

variable {signal : Signal} {capacity : Nat} {s s' : Cycling}

theorem sound_opened (world : World) (source : PollSource) : Sound source.batchSize (opened world source) where
  suits := trivial
  limited := trivial
  receives := ⟨fun h => (by cases h), fun h => (by cases h)⟩
  closed h := by cases h
  places _ := Channel.places_new _

/-- **One move of the cycle**, or anything else, keeps it in order. -/
theorem Sound.step (h : Sound capacity s) (hs : Step signal s s') : Sound capacity s' := by
  cases hs with
  | passes world _ _ hdriver _ =>
    exact ⟨hdriver.symm ▸ h.suits, h.limited, h.receives, h.closed, h.places⟩
  | moves hs =>
    obtain ⟨w, s₀, turn₀, c, producer₀, consumer₀⟩ := s
    obtain ⟨w', s₁, turn₁, c', producer₁, consumer₁⟩ := s'
    dsimp only [task] at hs
    cases PollSource.moves_of_step hs with
    | searches hsearch =>
      obtain ⟨hreceiver, hclosed⟩ := Producer.ends_of_step hsearch
      refine ⟨Producer.suits_of_step hsearch, h.limited, ?_, hclosed, fun hopen => ?_⟩
      · dsimp only
        rw [hreceiver]
        exact h.receives
      · have hopen : c.receiverGone = false := hreceiver.symm.trans hopen
        exact Producer.places_of_step (h.places hopen) hopen hsearch
    | receives hreceive =>
      obtain ⟨hbusy, hleaves⟩ := Consumer.leaves_of_step hreceive
      refine ⟨Consumer.suits_of_step h.suits hreceive, Consumer.limited_of_step h.limited hreceive, ?_, ?_, ?_⟩
      · cases hleaves with
        | goes hnext hends =>
          dsimp only
          rw [hends.receiver]
          exact ⟨fun hdone => absurd hdone hnext, fun hgone => absurd (h.receives.mpr hgone) hbusy⟩
        | ends hgone => exact ⟨fun _ => hgone, fun _ => rfl⟩
      · cases hleaves with
        | goes _ hends => exact fun hdone => hends.senders.trans (h.closed hdone)
        | ends _ hsenders => exact fun hdone => hsenders.trans (h.closed hdone)
      · cases hleaves with
        | goes _ hends hplaces => exact fun hopen => hplaces _ _ (h.places (hends.receiver.symm.trans hopen))
        | ends hgone => exact fun hopen => Bool.noConfusion (hgone.symm.trans hopen)

theorem Sound.of_reachable (h : Sound capacity s) (hr : Relation.ReflTransGen (Step signal) s s') :
    Sound capacity s' := by
  induction hr with
  | refl => exact h
  | tail _ hs ih => exact ih.step hs

/-- The task of the source can not move only when neither half can. -/
theorem moves_or_rests (signal : Signal) (s : Cycling) (world : World) : s.Moves signal world ∨
    s.producer.step world s.source.driver s.channel = none ∧
      s.source.stepConsumer signal s.channel world s.consumer = none := by
  obtain ⟨w, s₀, turn, c, producer, consumer⟩ := s
  cases hmoved : (s₀.stepHalf signal world c producer consumer turn).or
      (s₀.stepHalf signal world c producer consumer turn.other) with
  | none =>
    obtain ⟨hturn, hother⟩ := Option.or_eq_none_iff.mp hmoved
    cases turn with
    | searching => exact .inr ⟨Option.map_eq_none_iff.mp hturn, Option.map_eq_none_iff.mp hother⟩
    | receiving => exact .inr ⟨Option.map_eq_none_iff.mp hother, Option.map_eq_none_iff.mp hturn⟩
  | some moved =>
    obtain ⟨next, w', s'⟩ := moved
    have hstep : s₀.step signal (.cycling turn c producer consumer) world = some (.goes next, w', s') := by
      simp only [PollSource.step, hmoved]
    cases PollSource.moves_of_step hstep with
    | searches | receives => exact .inl ⟨⟨_, _, _, _, _, _⟩, hstep⟩
    | rests => cases turn <;> cases hmoved

/-- One of several instants that are still to come is the first one. -/
theorem exists_deadline {now : Nat} (hproducer : ∀ t ∈ s.producer.deadline, now < t)
    (hconsumer : ∀ t ∈ PollSource.consumerDeadline s.consumer, now < t)
    (hsome : s.producer.deadline ≠ none ∨ PollSource.consumerDeadline s.consumer ≠ none) :
    ∃ t, PollSource.rules.deadline s.task = some t ∧ now < t := by
  have hne : PollSource.rules.deadline s.task ≠ none := fun hnone => by
    obtain ⟨hnone, hnone'⟩ := List.append_eq_nil_iff.mp (List.min?_eq_none_iff.mp hnone)
    exact hsome.elim (absurd (Option.toList_eq_nil_iff.mp hnone)) (absurd (Option.toList_eq_nil_iff.mp hnone'))
  obtain ⟨t, ht⟩ := Option.ne_none_iff_exists'.mp hne
  refine ⟨t, ht, ?_⟩
  rcases List.mem_append.mp (List.min?_mem ht) with hmem | hmem
  · exact hproducer t (Option.mem_toList.mp hmem)
  · exact hconsumer t (Option.mem_toList.mp hmem)

/-- **A cycle that is in order** is over, or it can move, or waits for an instant. -/
theorem Sound.lively (h : Sound capacity s) (hcapacity : capacity ≠ 0) : Lively signal s where
  moves hbusy world := by
    refine (moves_or_rests signal s world).imp_right fun ⟨hproducer, hconsumer⟩ => ?_
    obtain ⟨hblocked, hsearch⟩ := Producer.blocked_of_step h.suits hproducer
    obtain ⟨htimer, hreceive⟩ := Consumer.blocked_of_step h.limited hconsumer
    refine exists_deadline hblocked.timer htimer ?_
    -- With no instant to wait for, the search would wait for a place, and the other half for a message.
    by_contra hnone
    obtain ⟨hsearches, hreceives⟩ := not_or.mp hnone
    have hreceive := hreceive.imp_right fun hrest => hrest.resolve_left hreceives
    rcases hsearch.imp_right fun hrest => hrest.resolve_left hsearches with hover | htickets
    · rcases hreceive with hdone | ⟨-, hpresent⟩
      · exact hbusy ⟨hover, hdone⟩
      · exact Bool.noConfusion (hpresent.symm.trans (h.closed hover))
    · obtain ⟨ticket, hticket⟩ := List.exists_mem_of_ne_nil _ htickets
      have hopen := (hblocked.line ticket hticket).2
      rcases hreceive with hdone | ⟨hempty, -⟩
      · exact Bool.noConfusion (hopen.symm.trans (h.receives.mp hdone))
      · obtain ⟨ticket, hheld, hgranted⟩ := (h.places hopen).exists_granted hcapacity hempty htickets
        exact (hblocked.line ticket hheld).1 hgranted
  ends hover hdone world := by
    obtain ⟨w, s₀, turn, c, producer, consumer⟩ := s
    obtain rfl : producer = .done := Producer.eq_done hover
    obtain rfl : consumer = .done := hdone
    have hrests : ∀ half, s₀.stepHalf signal world c .done .done half = none := fun half => by cases half <;> rfl
    cases hpause : Pause.begin? world.now s₀.settings.interval signal s₀.lifecycle with
    | none =>
      refine ⟨.ends (), { s₀ with cycles := s₀.cycles + 1, phase := .polling }, ?_, rfl⟩
      simp only [task, PollSource.step, hrests, Option.or_none, hpause]
    | some pause =>
      refine ⟨.goes (.pausing pause), { s₀ with cycles := s₀.cycles + 1, phase := .polling }, ?_, rfl⟩
      simp only [task, PollSource.step, hrests, Option.or_none, hpause]

/-- **No cycle stalls.** Whatever the driver is and whatever it finds, whatever the settings of the source, the
function and the other users of its crew, in whatever order all moves are made, and whenever the run is told to
stop: until both halves of a cycle are over, one of them can move, or some instant is still to come at which
one of them moves; and when both are over, so is the cycle. -/
theorem lively_of_reachable {world : World} {source : PollSource}
    (hr : Relation.ReflTransGen (Step signal) (opened world source) s) : Lively signal s :=
  ((sound_opened world source).of_reachable hr).lively (BatchedCycle.batchSize_ne_zero source)

/-- A path with three items, submitted one by one to a function that takes a while: in the end the third item
waits for a place, and nobody can move before the function has returned. -/
theorem lively_behind_running :
    let items : ItemStore := { ItemStore.new with directories := [("/d", [("a", []), ("b", []), ("c", [])])] }
    let world : World := { World.start ⟨0, 0⟩ (fun _ _ => ⟨5, .answers .empty⟩) with
      clients := { Clients.new with items } }
    let settings : ItemPollSettings := { paths := ["/d"], poll := ⟨1000, 1⟩ }
    let source : PollSource :=
      .new ⟨"p", "v3io-item-poller", .async⟩ (.items (.new "p" settings)) settings.poll 10 (.ofIndices .shared [0])
    ∃ s : Cycling, Relation.ReflTransGen (Step 0) (opened world source) s ∧
      s.producer.tickets ≠ [] ∧ (s.source.step 0 s.task s.world).isNone ∧
      PollSource.rules.deadline s.task = some 5 ∧ Lively 0 s := by
  intro items world settings source
  obtain ⟨s, hs, hstands⟩ := Option.any_eq_true _ _ |>.mp (show (after 0 11 (opened world source)).any (fun s =>
    s.producer.tickets ≠ [] ∧ (s.source.step 0 s.task s.world).isNone ∧
      PollSource.rules.deadline s.task = some 5) = true by decide +kernel)
  obtain ⟨htickets, hnone, hdeadline⟩ := of_decide_eq_true hstands
  exact ⟨s, reachable_of_after hs, htickets, hnone, hdeadline, lively_of_reachable (reachable_of_after hs)⟩

end Cycling

end EventDispatch
