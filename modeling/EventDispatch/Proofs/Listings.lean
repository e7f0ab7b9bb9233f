import EventDispatch.Proofs.Ledger
import EventDispatch.Proofs.PollMoves
import EventDispatch.Proofs.Tasks

/-!
# Listings and the channel of a cycle

The versions on their way from a listing to those who submit them: on a page, in a call that sends, or
in the channel. A move of a listing brings them further, loses them, or lists the next page; on that
page stands no item that the listing has passed before.

## Main definitions

* `Listing.pending`, `Channel.pending`: the versions on their way.
* `Listing.Covers`: the names that a listing has passed.
* `Listing.Asks`: the listing has nothing to send.
* `World.Calm`: nothing happened to the items.
* `World.Consults`: what a search may do to a world.
* `Listing.Moved`: what a move of a listing does.

## Main results

* `Listing.moved_of_step`: every move does just that.
* `Producer.consults_of_step`: a search does no more to the world.
-/

namespace EventDispatch

/-! ### Channels -/

/-- The version on its way in a message. -/
def PollMessage.version? : PollMessage → Option Version
  | .event e => some e.version
  | .cycleComplete => none

namespace Channel

/-- The versions on their way in a channel. -/
def pending (c : Channel) : List Version := c.queue.filterMap PollMessage.version?

@[simp] theorem pending_addPlace (c : Channel) : c.addPlace.pending = c.pending := by
  rw [addPlace]
  split <;> rfl

@[simp] theorem pending_closeReceiver (c : Channel) : c.closeReceiver.pending = [] := rfl

@[simp] theorem pending_closeSenders (c : Channel) : c.closeSenders.pending = c.pending := rfl

/-- What is received was first in the channel. -/
theorem pending_receive {c c' : Channel} {m : PollMessage} (h : c.receive = (.message m, c')) :
    c.pending = m.version?.toList ++ c'.pending := by
  unfold receive at h
  split at h
  next queue heq =>
    cases h
    rw [pending_addPlace, pending, pending, heq]
    cases m <;> rfl
  · split at h <;> cases h

theorem receive_closed {c c' : Channel} (h : c.receive = (.closed, c')) : c' = c := by
  unfold receive at h
  split at h
  · cases h
  · split at h
    · exact (Prod.mk.inj h).2.symm
    · cases h

end Channel

/-- What a move of a call that sends does to the channel. -/
theorem Sending.pending_of_step {m : PollMessage} {c c' : Channel} {send : Sending} {r : Sent}
    (h : send.step m c = some (r, c')) :
    c'.pending = match r with
      | .sent => c.pending ++ m.version?.toList
      | _ => c.pending := by
  have hsent : (c.queue ++ [m]).filterMap PollMessage.version? =
      c.queue.filterMap PollMessage.version? ++ m.version?.toList := by
    rw [List.filterMap_append]
    cases m <;> rfl
  cases send with
  | ready =>
    rw [step] at h
    split at h
    · cases h
      rfl
    · split at h
      · cases h
        exact hsent
      · cases h
        rfl
  | waiting ticket =>
    rw [step] at h
    split at h
    · cases h
      rfl
    · split at h
      · cases h
        exact hsent
      · cases h

/-! ### Items -/

/-- Nothing happened to the items of a world, and updates arrive as before. -/
structure World.Calm (w w' : World) : Prop where
  directories : w'.clients.items.directories = w.clients.items.directories
  updates : w'.clients.route .updateItem = w.clients.route .updateItem

namespace World.Calm

variable {w w' w₁ : World}

theorem refl (w : World) : Calm w w := ⟨rfl, rfl⟩

theorem trans (h : Calm w w₁) (h' : Calm w₁ w') : Calm w w' :=
  ⟨h'.directories.trans h.directories, h'.updates.trans h.updates⟩

end World.Calm

/-- What a search may do to a world: it requests pages and reads the clock. -/
structure World.Consults (w w' : World) : Prop where
  function : w'.ambient.function = w.ambient.function
  entries : w'.ambient.entries = w.ambient.entries
  broker : w'.clients.broker = w.clients.broker
  directories : w'.clients.items.directories = w.clients.items.directories
  updates : w'.clients.items.updates = w.clients.items.updates
  routes : ∀ call ≠ .getItems, w'.clients.route call = w.clients.route call

namespace World.Consults

variable {w w' w₁ : World}

theorem refl (w : World) : Consults w w := ⟨rfl, rfl, rfl, rfl, rfl, fun _ _ => rfl⟩

theorem trans (h : Consults w w₁) (h' : Consults w₁ w') : Consults w w' where
  function := h'.function.trans h.function
  entries := h'.entries.trans h.entries
  broker := h'.broker.trans h.broker
  directories := h'.directories.trans h.directories
  updates := h'.updates.trans h.updates
  routes call hcall := (h'.routes call hcall).trans (h.routes call hcall)

theorem of_stepTrip {trip : Trip} {m : Move Trip (Option Error)}
    (h : w.stepTrip .getItems trip = some (m, w')) : Consults w w' := by
  obtain ⟨⟨routes, rfl⟩, hothers⟩ := World.stepTrip_routes h
  exact ⟨rfl, rfl, rfl, rfl, rfl, hothers⟩

/-- A page is requested. -/
theorem of_list {request : ListRequest} {answer : Except Error ListPage} {items : ItemStore}
    (h : w.clients.items.list request = (answer, items)) :
    Consults w { w with clients := { w.clients with items } } := by
  obtain rfl : (w.clients.items.list request).2 = items := congrArg Prod.snd h
  exact ⟨rfl, rfl, rfl, ItemStore.directories_list _ _, ItemStore.updates_list _ _, fun _ _ => rfl⟩

theorem calm (h : Consults w w') : World.Calm w w' := ⟨h.directories, h.routes _ (by decide)⟩

end World.Consults

/-- The event made of an item is of the item's version. -/
theorem ItemPoller.version_event {path : String} {item : Item} (h : item.modifiedAt?.isSome = true)
    (now : Timestamp) : (ItemPoller.event path item now).version = item.version path := by
  obtain ⟨t, ht⟩ := Option.isSome_iff_exists.mp h
  simp [ItemPoller.event, Event.version, Item.version, Event.blank, ht]

namespace Listing

/-- The versions on their way in a listing. -/
def pending (l : Listing) : List Version :=
  match l.stage with
  | .sending event rest _ _ _ => event.version :: rest.map (Item.version l.path)
  | _ => []

/-- The listing has passed the name: it will not bring it any more. -/
def Covers (l : Listing) (name : String) : Prop :=
  match l.stage with
  | .sending _ _ _ next _ => name ≤ next
  | .done => True
  | _ => name ≤ l.marker

/-- The items that are still to be sent tell when they changed. -/
def Dated (l : Listing) : Prop :=
  match l.stage with
  | .sending _ rest _ _ _ => ∀ item ∈ rest, item.modifiedAt?.isSome = true
  | _ => True

/-- What a move of a listing does: nothing to the items; and what is on its way comes further or is
lost, or a page is listed whose items were not passed before. -/
structure Moved (p : ItemPoller) (query : String) (w : World) (l : Listing) (c : Channel) (w' : World)
    (l' : Listing) (c' : Channel) : Prop where
  calm : World.Calm w w'
  path : l'.path = l.path
  dated : l'.Dated
  covers : ∀ name, l.Covers name → l'.Covers name
  pending : (l'.pending ++ c'.pending).Subperm (l.pending ++ c.pending) ∨
    ∃ items : List Item, items.Sublist (w.clients.items.matching (p.request l.path query l.marker)) ∧
      c'.pending = c.pending ∧ l.pending = [] ∧ l'.pending = items.map (Item.version l.path) ∧
      ∀ item ∈ items, ¬l.Covers item.name ∧ l'.Covers item.name

variable {p : ItemPoller} {query : String} {w w' : World} {c c' : Channel} {l l' : Listing}

theorem consults_of_sendItems {items : List Item} {isLast : Bool} {next : String} {delay : Nat}
    (h : sendItems items isLast next delay w l = (l', w')) : w.Consults w' := by
  cases items with
  | nil =>
    rw [sendItems] at h
    split at h
    · cases h
      exact .refl w
    · split at h <;> · cases h; exact .refl w
  | cons item rest =>
    cases h
    exact ⟨rfl, rfl, rfl, rfl, rfl, fun _ _ => rfl⟩

/-- A listing only requests pages and reads the clock. -/
theorem consults_of_step (h : l.step p query w c = some (l', w', c')) : w.Consults w' := by
  cases moves_of_step h with
  | asks htrip | loses htrip => exact .of_stepTrip htrip
  | fails htrip hlist => exact (World.Consults.of_stepTrip htrip).trans (.of_list hlist)
  | brings htrip hlist hsend =>
    exact ((World.Consults.of_stepTrip htrip).trans (.of_list hlist)).trans (consults_of_sendItems hsend)
  | sends hsent hsend => exact consults_of_sendItems hsend
  | _ => exact .refl w

/-- A listing goes on with items left to send. -/
theorem sendItems_spec {items : List Item} {isLast : Bool} {next : String} {delay : Nat}
    (hdated : ∀ item ∈ items, item.modifiedAt?.isSome = true)
    (h : sendItems items isLast next delay w l = (l', w')) :
    l'.path = l.path ∧ l'.Dated ∧ l'.pending = items.map (Item.version l.path) ∧
      ∀ name, name ≤ next ∨ items = [] ∧ isLast = true → l'.Covers name := by
  cases items with
  | nil =>
    rw [sendItems] at h
    split at h
    · cases h
      exact ⟨rfl, trivial, rfl, fun _ _ => trivial⟩
    next hmore =>
      have hcovers : ∀ name, name ≤ next ∨ ([] : List Item) = [] ∧ isLast = true → name ≤ next :=
        fun name hname => hname.resolve_right fun hlast => hmore hlast.2
      split at h
      · cases h
        exact ⟨rfl, trivial, rfl, hcovers⟩
      · cases h
        exact ⟨rfl, trivial, rfl, hcovers⟩
  | cons item rest =>
    rw [sendItems] at h
    cases h
    refine ⟨rfl, fun x hx => hdated x (List.mem_cons_of_mem _ hx), ?_, fun name hname => ?_⟩
    · have hversion : ∀ now, (ItemPoller.event l.path item now).version = item.version l.path :=
        ItemPoller.version_event (hdated item List.mem_cons_self)
      simp [pending, hversion]
    · refine hname.resolve_right fun hnil => ?_
      cases hnil.1

/-- A listing that has nothing to send: it asks for a page, or waits until it may. -/
def Asks (l : Listing) : Prop :=
  match l.stage with
  | .sending _ _ _ _ _ | .done => False
  | _ => True

theorem pending_of_asks (h : l.Asks) : l.pending = [] := by
  rw [pending]
  split
  next hstage => simp [Asks, hstage] at h
  · rfl

theorem covers_iff_of_asks (h : l.Asks) {name : String} : l.Covers name ↔ name ≤ l.marker := by
  rw [Covers]
  split
  next hstage => simp [Asks, hstage] at h
  next hstage => simp [Asks, hstage] at h
  · rfl

theorem dated_of_asks (h : l.Asks) : l.Dated := by
  rw [Dated]
  split
  next hstage => simp [Asks, hstage] at h
  · trivial

/-- A listing that only waits for something else. -/
theorem Moved.of_asks {stage : ListingStage} (hcalm : World.Calm w w') (h : l.Asks)
    (hnext : Asks { l with stage }) : Moved p query w l c w' { l with stage } c := by
  refine ⟨hcalm, rfl, dated_of_asks hnext, fun name hname => ?_, .inl ?_⟩
  · rw [covers_iff_of_asks hnext]
    exact (covers_iff_of_asks h).mp hname
  · rw [pending_of_asks h, pending_of_asks hnext]

/-- After a request that failed. -/
theorem Moved.of_failure {now delay attempt : Nat} (hcalm : World.Calm w w') (h : l.Asks) :
    Moved p query w l c w' { l with stage := afterFailure now delay attempt } c := by
  rw [afterFailure]
  split
  · exact .of_asks hcalm h trivial
  · refine ⟨hcalm, rfl, trivial, fun _ _ => trivial, .inl ?_⟩
    rw [pending_of_asks h]
    exact List.Subperm.refl _

/-- A page arrives. -/
theorem Moved.of_page {request : ListRequest} (hrequest : request = p.request l.path query l.marker)
    (htidy : w.clients.items.Tidy) (hpage : p.settings.pageSize ≠ 0)
    (hdated : ∀ item ∈ w.clients.items.matching request, item.modifiedAt?.isSome = true)
    (hasks : l.Asks) {delay : Nat} {w₁ : World} (hcalm : World.Calm w w')
    (h : sendItems ((w.clients.items.matching request).take request.limit)
      (decide ((w.clients.items.matching request).length ≤ request.limit))
      ((((w.clients.items.matching request).take request.limit).getLast?.map Item.name).getD "") delay
      w₁ l = (l', w')) : Moved p query w l c w' l' c := by
  have hlimit : request.limit ≠ 0 := by
    rw [hrequest]
    exact hpage
  have hmarker : request.marker = l.marker := by rw [hrequest]; rfl
  have hcovers : ∀ name, l.Covers name ↔ name ≤ request.marker := by
    intro name
    rw [covers_iff_of_asks hasks, hmarker]
  have hsub := List.take_sublist request.limit (w.clients.items.matching request)
  obtain ⟨hpath, hdated', hpending, hpassed⟩ :=
    sendItems_spec (fun item hitem => hdated item (hsub.subset hitem)) h
  refine ⟨hcalm, hpath, hdated', fun name hname => hpassed name ?_, .inr ⟨_, ?_, rfl, ?_,
    hpending, fun item hitem => ⟨fun hold => ?_, hpassed _ (.inl ?_)⟩⟩⟩
  · rw [hcovers] at hname
    cases hlast : ((w.clients.items.matching request).take request.limit).getLast? with
    | none =>
      -- Nothing was asked for any more, so this is the last page.
      have hnil := List.getLast?_eq_none_iff.mp hlast
      refine .inr ⟨hnil, ?_⟩
      have hall := List.take_eq_nil_iff.mp hnil
      rw [hall.resolve_left hlimit]
      simp
    | some last =>
      have hmem := hsub.subset (List.mem_of_getLast? hlast)
      have hafter := ((ItemStore.mem_matching htidy).mp hmem).2.1
      refine .inl ?_
      rw [Option.map_some, Option.getD_some]
      rcases hafter with hempty | hlt
      · rw [hempty] at hname
        exact hname.trans (ItemStore.empty_le _)
      · exact hname.trans hlt.le
  · rw [← hrequest]
    exact hsub
  · exact pending_of_asks hasks
  · rw [hcovers] at hold
    obtain ⟨⟨hname, -⟩, hafter, -⟩ := (ItemStore.mem_matching htidy).mp (hsub.subset hitem)
    rcases hafter with hempty | hlt
    · rw [hempty] at hold
      exact hname.1 (le_antisymm hold (ItemStore.empty_le _))
    · exact absurd hlt (not_lt.mpr hold)
  · cases hlast : ((w.clients.items.matching request).take request.limit).getLast? with
    | none =>
      rw [List.getLast?_eq_none_iff.mp hlast] at hitem
      cases hitem
    | some last => exact ItemStore.name_le_last htidy hlast hitem

/-- An event is sent, and the rest of its page is still to be. -/
theorem Moved.of_sent {path marker : String} {event : Event} {rest : List Item} {isLast : Bool}
    {next : String} {send : Sending} {delay : Nat} (hcalm : World.Calm w w')
    (hrest : ∀ item ∈ rest, item.modifiedAt?.isSome = true)
    (hsent : send.step (.event event) c = some (.sent, c'))
    (h : sendItems rest isLast next delay w ⟨path, marker, .sending event rest isLast next send⟩ = (l', w')) :
    Moved p query w ⟨path, marker, .sending event rest isLast next send⟩ c w' l' c' := by
  obtain ⟨hpath, hdated', hpending, hpassed⟩ := sendItems_spec hrest h
  refine ⟨hcalm, hpath, hdated', fun name hname => hpassed name (.inl hname), .inl ?_⟩
  have hperm : (rest.map (Item.version path) ++ (c.pending ++ [event.version])).Perm
      (event.version :: rest.map (Item.version path) ++ c.pending) := by
    rw [← List.append_assoc]
    exact List.perm_append_singleton _ _
  rw [hpending, Sending.pending_of_step hsent]
  exact hperm.subperm

/-- **Every move of a listing** leaves the items alone, and brings what is on its way further, loses it,
or lists a page of items that were not passed before. -/
theorem moved_of_step (htidy : w.clients.items.Tidy) (hpage : p.settings.pageSize ≠ 0)
    (hdated : ∀ request, ∀ item ∈ w.clients.items.matching request, item.modifiedAt?.isSome = true)
    (hl : l.Dated) (h : l.step p query w c = some (l', w', c')) : Moved p query w l c w' l' c' := by
  have hcalm := (consults_of_step h).calm
  cases moves_of_step h with
  | asks | retries | turns => exact .of_asks hcalm trivial trivial
  | loses | fails => exact .of_failure hcalm trivial
  | @brings path marker attempt trip page w₁ items htrip hlist l' w' hsend =>
    obtain ⟨⟨routes, rfl⟩, -⟩ := World.stepTrip_routes htrip
    rw [ItemStore.list_eq (ItemStore.failing_of_list hlist)] at hlist
    cases hlist
    exact .of_page rfl htidy hpage (hdated _) trivial hcalm hsend
  | waits hsend =>
    refine ⟨hcalm, rfl, hl, fun _ hname => hname, .inl ?_⟩
    rw [Sending.pending_of_step hsend]
    exact List.Subperm.refl _
  | leaves hsend =>
    refine ⟨hcalm, rfl, trivial, fun _ _ => trivial, .inl ?_⟩
    rw [Sending.pending_of_step hsend]
    exact (List.sublist_append_right _ _).subperm
  | sends hsent hsend => exact .of_sent hcalm hl hsent hsend

/-- The first listing that can move does. -/
theorem stepFirst_cases {listings listings' : List Listing}
    (h : stepFirst p query w c listings = some (listings', w', c')) :
    ∃ pre l post l', listings = pre ++ l :: post ∧ l.step p query w c = some (l', w', c') ∧
      listings' = pre ++ l' :: post := by
  induction listings generalizing listings' with
  | nil => cases h
  | cons l rest ih =>
    rw [stepFirst] at h
    split at h
    next l' w₁ c₁ hstep =>
      cases h
      exact ⟨[], l, rest, l', rfl, hstep, rfl⟩
    · obtain ⟨⟨rest', w₁, c₁⟩, hrest, heq⟩ := Option.map_eq_some_iff.mp h
      cases heq
      obtain ⟨pre, l₁, post, l', rfl, hstep, rfl⟩ := ih hrest
      exact ⟨l :: pre, l₁, post, l', rfl, hstep, rfl⟩

theorem consults_of_stepFirst {listings listings' : List Listing}
    (h : stepFirst p query w c listings = some (listings', w', c')) : w.Consults w' := by
  obtain ⟨pre, l, post, l', -, hstep, -⟩ := stepFirst_cases h
  exact consults_of_step hstep

end Listing

/-- A search only requests pages and reads the clock. -/
theorem Producer.consults_of_step {producer producer' : Producer} {w w' : World} {d d' : PollDriver}
    {c c' : Channel} (h : producer.step w d c = some (producer', w', d', c')) : w.Consults w' := by
  cases moves_of_step h with
  | lists hfirst => exact Listing.consults_of_stepFirst hfirst
  | _ => exact .refl w

end EventDispatch
