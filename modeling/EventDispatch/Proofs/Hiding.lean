import EventDispatch.Proofs.FirstPoll
import EventDispatch.Proofs.ItemStore

/-!
# Hiding attributes of items

A poller and a store, with some attributes of all items hidden: struck out of the store, of the pages on
their way, and of the events made of them. A poller that neither judges items by hidden attributes nor
writes any moves in the same way whether they are hidden or not.

## What is deliberately absent

The texts that tell which attributes a listing asks for stay whole: hidden are the attributes of the items
alone. Of drivers, only the one that lists the items of a store is looked at.

## Main definitions

* `Keyed.without`: a table without the hidden entries; `without` likewise of whatever holds items.
* `ItemStore.judged?`: the stamps by which a store judges what was asked for.
* `PollSetup`: how a poller is set up.
* `PollSetup.Disregards`: the poller has nothing to do with hidden attributes.

## Main results

* `ItemStore.list_without`, `ItemStore.update_without`: the store with hidden attributes.
* `PollSource.step_without`: a task moves in the same way.
* `PollSource.stepLive_without`, `PollSource.stop_without`, `PollSource.start_without`: so does the source.
-/

namespace EventDispatch

/-! ### Tables -/

namespace Keyed

variable {α : Type} {hidden : String → Bool} {table : Keyed α} {key : String} {value : α}

/-- The table without the entries under hidden keys. -/
def without (hidden : String → Bool) (table : Keyed α) : Keyed α := table.filter fun e => !hidden e.1

theorem without_cons (entry : String × α) (table : Keyed α) : without hidden (entry :: table) =
    if hidden entry.1 then table.without hidden else entry :: table.without hidden := by
  cases hhidden : hidden entry.1 <;> simp [without, hhidden]

theorem get?_without (hkey : hidden key = false) (table : Keyed α) :
    (table.without hidden).get? key = table.get? key := by
  induction table with
  | nil => rfl
  | cons entry rest ih =>
    obtain ⟨k, v⟩ := entry
    rw [without_cons, get?]
    split
    next hhidden =>
      have hne : key ≠ k := by
        rintro rfl
        exact Bool.false_ne_true (hkey.symm.trans hhidden)
      rw [if_neg hne, ih]
    · rw [get?, ih]

theorem without_insert (h : table.Sorted) (key : String) (value : α) :
    (table.insert key value).without hidden =
      if hidden key then table.without hidden else (table.without hidden).insert key value := by
  induction table with
  | nil =>
    rw [insert, without_cons]
    rfl
  | cons entry rest ih =>
    obtain ⟨k, v⟩ := entry
    obtain ⟨hhead, htail⟩ := List.pairwise_cons.mp h
    rw [insert]
    split
    next heq =>
      subst heq
      rw [without_cons, without_cons]
      cases hidden key <;> simp [insert]
    next hne =>
      split
      next hlt =>
        have hall : ∀ e ∈ without hidden ((k, v) :: rest), key < e.1 := by
          intro e he
          rcases List.mem_cons.mp (List.mem_of_mem_filter he) with rfl | hm
          · exact hlt
          · exact hlt.trans (hhead e hm)
        rw [without_cons, insert_eq_cons hall]
      next hnlt =>
        rw [without_cons, without_cons, ih htail]
        cases hk : hidden k
        · cases hidden key <;> simp [insert, hne, hnlt]
        · rfl

theorem without_merge (h : table.Sorted) (upper : Keyed α) :
    (table.merge upper).without hidden = (table.without hidden).merge (upper.without hidden) := by
  induction upper generalizing table with
  | nil => rfl
  | cons entry upper ih =>
    have hstep : table.merge (entry :: upper) = (table.insert entry.1 entry.2).merge upper := rfl
    rw [hstep, ih (h.insert entry.1 entry.2), without_insert h, without_cons]
    split <;> rfl

end Keyed

/-! ### Items and events -/

section Items

variable (hidden : String → Bool)

def Item.without (item : Item) : Item := { item with attributes := item.attributes.without hidden }

def ListPage.without (page : ListPage) : ListPage := { page with items := page.items.map (.without hidden) }

def Event.without (event : Event) : Event := { event with attributes := event.attributes.without hidden }

def Entry.without (entry : Entry) : Entry := { entry with event := entry.event.without hidden }

def PollMessage.without : PollMessage → PollMessage
  | .event e => .event (e.without hidden)
  | .cycleComplete => .cycleComplete

/-- The function does not look at hidden attributes of events. -/
def Function.Disregards (f : Function) : Prop :=
  ∀ entries entry, f (entries.map (Entry.without hidden)) (entry.without hidden) = f entries entry

end Items

variable {hidden : String → Bool}

/-- Nothing that an item has by itself is hidden. -/
def Overt (hidden : String → Bool) : Prop := ∀ key ∈ builtinAttributes, hidden key = false

theorem Item.modifiedAt?_without (h : Overt hidden) (item : Item) :
    (item.without hidden).modifiedAt? = item.modifiedAt? := by
  have hsecs : hidden "__mtime_secs" = false := h _ (by decide)
  have hnsecs : hidden "__mtime_nsecs" = false := h _ (by decide)
  simp only [modifiedAt?, without, Keyed.get?_without hsecs, Keyed.get?_without hnsecs]

theorem ItemPoller.event_without (h : Overt hidden) (path : String) (item : Item) (now : Timestamp) :
    ItemPoller.event path (item.without hidden) now = (ItemPoller.event path item now).without hidden := by
  rw [event, Item.modifiedAt?_without h]
  rfl

/-! ### The store -/

namespace ItemStore

/-- The tables of the directories stand in order. -/
def Orderly (directories : Keyed (Keyed Json.Object)) : Prop :=
  directories.Sorted ∧ ∀ d ∈ directories, d.2.Sorted ∧ ∀ item ∈ d.2, Keyed.Sorted item.2

/-- The directories without the hidden attributes of their items. -/
def shown (hidden : String → Bool) (directories : Keyed (Keyed Json.Object)) :
    Keyed (Keyed Json.Object) :=
  directories.mapValues (·.mapValues (·.without hidden))

def without (hidden : String → Bool) (s : ItemStore) : ItemStore :=
  { s with directories := shown hidden s.directories }

/-- The stamps by which the store judges what was asked for. -/
def judged? (asked : String) : Option Stamp :=
  let stamp (ending : String) :=
    (commaParts asked).find? fun a => a.startsWith stampStart && a.endsWith ending
  (stamp "_secs").bind fun secs => (stamp "_nsecs").map fun nsecs => ⟨secs, nsecs⟩

theorem alreadyStamped_eq (request : ListRequest) (attributes : Json.Object) :
    alreadyStamped request attributes =
      match judged? request.attributes with
      | none => false
      | some stamp =>
        match pair? attributes "__mtime_secs" "__mtime_nsecs", pair? attributes stamp.secs stamp.nsecs with
        | some (s, n), some (s', n') => s < s' || s == s' && n ≤ n'
        | _, _ => false := by
  rw [alreadyStamped, judged?]
  dsimp only
  split
  next hsecs hnsecs =>
    rw [hsecs, hnsecs]
    rfl
  next hnone =>
    split
    · rfl
    next stamp hstamp =>
      obtain ⟨secs, hsecs, hrest⟩ := Option.bind_eq_some_iff.mp hstamp
      obtain ⟨nsecs, hnsecs, -⟩ := Option.map_eq_some_iff.mp hrest
      exact absurd hnsecs (hnone secs nsecs hsecs)

theorem pair?_without {secs nsecs : String} (hsecs : hidden secs = false) (hnsecs : hidden nsecs = false)
    (attributes : Json.Object) :
    pair? (attributes.without hidden) secs nsecs = pair? attributes secs nsecs := by
  simp only [pair?, Keyed.get?_without hsecs, Keyed.get?_without hnsecs]

/-- The request is not judged by hidden stamps. -/
def Disregards (hidden : String → Bool) (request : ListRequest) : Prop :=
  isIncremental request.query = true →
    ∀ stamp ∈ judged? request.attributes, hidden stamp.secs = false ∧ hidden stamp.nsecs = false

variable {s : ItemStore} {request : ListRequest}

theorem alreadyStamped_without (hovert : Overt hidden)
    (h : ∀ stamp ∈ judged? request.attributes, hidden stamp.secs = false ∧ hidden stamp.nsecs = false)
    (attributes : Json.Object) :
    alreadyStamped request (attributes.without hidden) = alreadyStamped request attributes := by
  rw [alreadyStamped_eq, alreadyStamped_eq]
  cases hjudged : judged? request.attributes with
  | none => rfl
  | some stamp =>
    obtain ⟨hsecs, hnsecs⟩ := h stamp hjudged
    have hmodified := pair?_without (hovert "__mtime_secs" (by decide)) (hovert "__mtime_nsecs" (by decide))
      attributes
    simp only [hmodified, pair?_without hsecs hnsecs attributes]

/-- What a request asks for is the same, whether attributes are hidden by which it is not judged or not. -/
theorem matching_without (hovert : Overt hidden) (h : Disregards hidden request) (s : ItemStore) :
    (s.without hidden).matching request = (s.matching request).map (Item.without hidden) := by
  have hitems : ((s.without hidden).directories.get? (normalize request.path)).getD [] =
      Keyed.mapValues (·.without hidden) ((s.directories.get? (normalize request.path)).getD []) := by
    rw [without, shown, Keyed.get?_mapValues]
    cases s.directories.get? (normalize request.path) <;> rfl
  have hjudge : ∀ attributes, (isIncremental request.query &&
      alreadyStamped request (Keyed.without hidden attributes)) =
        (isIncremental request.query && alreadyStamped request attributes) := by
    intro attributes
    cases hquery : isIncremental request.query with
    | false => rfl
    | true => rw [alreadyStamped_without hovert (h hquery)]
  rw [matching, matching, hitems, Keyed.mapValues, List.filter_map, List.map_map, List.map_map]
  have hkeep : ∀ entry : String × Json.Object,
      ((request.marker.isEmpty || decide (request.marker < entry.1)) &&
          !(isIncremental request.query && alreadyStamped request (Keyed.without hidden entry.2))) =
        ((request.marker.isEmpty || decide (request.marker < entry.1)) &&
          !(isIncremental request.query && alreadyStamped request entry.2)) := by
    intro entry
    rw [hjudge]
  simp only [Function.comp_def, hkeep]
  rfl

/-- A page is the same, whether attributes are hidden by which the request is not judged or not. -/
theorem pageAt_without (hovert : Overt hidden) (h : Disregards hidden request) (s : ItemStore) :
    (s.without hidden).pageAt request = (s.pageAt request).without hidden := by
  have hnext : ((((s.matching request).map (Item.without hidden)).take request.limit).getLast?.map
      Item.name) = ((s.matching request).take request.limit).getLast?.map Item.name := by
    rw [← List.map_take, List.getLast?_map, Option.map_map]
    rfl
  simp only [pageAt, matching_without hovert h, ListPage.without, List.length_map, List.map_take, hnext]

theorem list_without (hovert : Overt hidden) (h : Disregards hidden request) (s : ItemStore) :
    (s.without hidden).list request =
      Prod.map (Except.map (ListPage.without hidden)) (without hidden) (s.list request) := by
  cases hfailing : s.failing with
  | succ failing => simp [list, without, hfailing, Except.map]
  | zero =>
    have hsure : (s.without hidden).failing = 0 := hfailing
    rw [list_eq hfailing, list_eq hsure, pageAt_without hovert h]
    rfl

/-- What a store tells depends on the items that it shows. -/
theorem list_eq_of_shown (hovert : Overt hidden) (h : Disregards hidden request) {s s' : ItemStore}
    (hshown : shown hidden s.directories = shown hidden s'.directories) (hfailing : s.failing = s'.failing) :
    (s.list request).1.map (ListPage.without hidden) = (s'.list request).1.map (ListPage.without hidden) := by
  have hpage : ∀ s : ItemStore, (s.list request).1.map (ListPage.without hidden) =
      ((s.without hidden).list request).1 := fun s => (congrArg Prod.fst (list_without hovert h s)).symm
  have htold : ∀ s s' : ItemStore, s.directories = s'.directories → s.failing = s'.failing →
      (s.list request).1 = (s'.list request).1 := by
    rintro ⟨directories, requests, updates, failing⟩ ⟨_, requests', updates', _⟩ rfl rfl
    cases failing <;> rfl
  rw [hpage, hpage]
  exact htold _ _ hshown hfailing

/-- What an update does to the attributes that show depends on those alone. -/
theorem shown_update (hidden : String → Bool) (horderly : Orderly s.directories) (path : String)
    (attributes : Json.Object) :
    shown hidden (s.update path attributes).2.directories =
      ((s.without hidden).update path (attributes.without hidden)).2.directories := by
  rw [update, update]
  cases hsplit : splitPath? path with
  | none => rfl
  | some parts =>
    obtain ⟨directory, name⟩ := parts
    dsimp only
    have hfind : ((s.without hidden).directories.get? directory).bind (·.get? name) =
        ((s.directories.get? directory).bind (·.get? name)).map (Keyed.without hidden) := by
      rw [without, shown, Keyed.get?_mapValues]
      cases s.directories.get? directory with
      | none => rfl
      | some items => exact Keyed.get?_mapValues _ items name
    rw [hfind]
    cases hold : (s.directories.get? directory).bind (·.get? name) with
    | none => rfl
    | some old =>
      obtain ⟨items, hitems, hget⟩ := Option.bind_eq_some_iff.mp hold
      have hsorted : old.Sorted :=
        (horderly.2 _ (Keyed.mem_of_get? hitems)).2 _ (Keyed.mem_of_get? hget)
      refine Keyed.mapValues_modify (fun items => ?_) directory s.directories
      rw [Keyed.mapValues_insert, Keyed.without_merge hsorted]

/-- An update of nothing changes nothing. -/
theorem directories_update_nil (horderly : Orderly s.directories) (path : String) :
    (s.update path []).2.directories = s.directories := by
  rcases directories_update path [] s with ⟨hsame, -⟩ |
    ⟨directory, name, items, old, -, hitems, hold, hnew⟩
  · exact hsame
  · have hinsert : items.insert name (Keyed.merge old []) = items :=
      (horderly.2 _ (Keyed.mem_of_get? hitems)).1.insert_eq_self hold
    rw [hnew, Keyed.modify]
    refine (List.map_congr_left fun entry hm => ?_).trans (List.map_id _)
    obtain ⟨key, others⟩ := entry
    by_cases hkey : key = directory
    · -- Directories have one entry each, so this is the one that was updated.
      subst hkey
      have hget := horderly.1.get?_of_mem hm
      rw [hitems, Option.some.injEq] at hget
      subst hget
      simp [hinsert]
    · simp [hkey]

theorem Orderly.shown (h : Orderly s.directories) : Orderly (shown hidden s.directories) := by
  refine ⟨h.1.mapValues _, fun d hd => ?_⟩
  obtain ⟨⟨key, items⟩, hm, rfl⟩ := List.mem_map.mp hd
  obtain ⟨hsorted, hall⟩ := h.2 _ hm
  refine ⟨hsorted.mapValues _, fun item hitem => ?_⟩
  obtain ⟨⟨name, attributes⟩, hmem, rfl⟩ := List.mem_map.mp hitem
  exact (hall _ hmem).sublist List.filter_sublist

/-- An update of hidden attributes does not show. -/
theorem shown_update_of_hidden (horderly : Orderly s.directories) (path : String) {attributes : Json.Object}
    (hattributes : attributes.without hidden = []) :
    shown hidden (s.update path attributes).2.directories = shown hidden s.directories := by
  have hshown : Orderly (s.without hidden).directories := horderly.shown
  rw [shown_update hidden horderly, hattributes, directories_update_nil hshown]
  rfl

/-- An update of attributes that are not hidden is the same, whether others are hidden or not. -/
theorem update_without (horderly : Orderly s.directories) (path : String) {attributes : Json.Object}
    (hattributes : attributes.without hidden = attributes) :
    ((s.without hidden).update path attributes).2 = (s.update path attributes).2.without hidden := by
  have hrest : ∀ s : ItemStore, (s.update path attributes).2 =
      { s with
        directories := (s.update path attributes).2.directories
        updates := s.updates ++ [(path, attributes)] } := by
    intro s
    rw [update]
    dsimp only
    split
    · rfl
    · split <;> rfl
  have hshown := shown_update hidden horderly path attributes
  rw [hattributes] at hshown
  rw [hrest, hrest s, ← hshown]
  rfl

theorem Orderly.modify {directories : Keyed (Keyed Json.Object)} (h : Orderly directories)
    (directory name : String) {attributes : Json.Object} (hattributes : attributes.Sorted) :
    Orderly (directories.modify directory (·.insert name attributes)) := by
  refine ⟨h.1.modify _ _, fun d hd => ?_⟩
  obtain ⟨⟨key, items⟩, hm, rfl⟩ := List.mem_map.mp hd
  obtain ⟨hsorted, hall⟩ := h.2 _ hm
  dsimp only
  split
  · refine ⟨hsorted.insert _ _, fun item hitem => ?_⟩
    rcases Keyed.mem_of_mem_insert hitem with rfl | hold
    · exact hattributes
    · exact hall item hold
  · exact ⟨hsorted, hall⟩

theorem Orderly.update (h : Orderly s.directories) (path : String) (attributes : Json.Object) :
    Orderly (s.update path attributes).2.directories := by
  rcases directories_update path attributes s with ⟨hsame, -⟩ |
    ⟨directory, name, items, old, -, hitems, hold, hnew⟩
  · rw [hsame]
    exact h
  · have hsorted := (h.2 _ (Keyed.mem_of_get? hitems)).2 _ (Keyed.mem_of_get? hold)
    rw [hnew]
    exact h.modify directory name (hsorted.merge attributes)

theorem Orderly.put (h : Orderly s.directories) (directory name : String) {attributes : Json.Object}
    (hattributes : attributes.Sorted) (now : Timestamp) :
    Orderly (s.put directory name attributes now).directories := by
  refine ⟨h.1.insert _ _, fun d hd => ?_⟩
  have hput : (putAttributes name attributes now).Sorted := ((hattributes.insert _ _).insert _ _).insert _ _
  rcases Keyed.mem_of_mem_insert hd with rfl | hold
  · have hitems : Keyed.Sorted ((s.directories.get? (normalize directory)).getD []) ∧
        ∀ item ∈ (s.directories.get? (normalize directory)).getD [], Keyed.Sorted item.2 := by
      cases hget : s.directories.get? (normalize directory) with
      | none => exact ⟨Keyed.sorted_nil, fun item hm => by cases hm⟩
      | some items => exact h.2 _ (Keyed.mem_of_get? hget)
    refine ⟨hitems.1.insert _ _, fun item hm => ?_⟩
    rcases Keyed.mem_of_mem_insert hm with rfl | hold
    · exact hput
    · exact hitems.2 item hold
  · exact h.2 d hold

/-- What is put into a store is the same, whether attributes are hidden or not. -/
theorem shown_put (s s' : ItemStore) (h : shown hidden s.directories = shown hidden s'.directories)
    (directory name : String) (attributes : Json.Object) (now : Timestamp) :
    shown hidden (s.put directory name attributes now).directories =
      shown hidden (s'.put directory name attributes now).directories := by
  have hdirectories : ∀ s : ItemStore, shown hidden (s.put directory name attributes now).directories =
      (shown hidden s.directories).insert (normalize directory)
        ((((shown hidden s.directories).get? (normalize directory)).getD []).insert name
          ((putAttributes name attributes now).without hidden)) := by
    intro s
    have hitems : ((shown hidden s.directories).get? (normalize directory)).getD [] =
        Keyed.mapValues (·.without hidden) ((s.directories.get? (normalize directory)).getD []) := by
      rw [shown, Keyed.get?_mapValues]
      cases s.directories.get? (normalize directory) <;> rfl
    rw [hitems, ← Keyed.mapValues_insert, shown]
    exact Keyed.mapValues_insert _ _ _ _
  rw [hdirectories, hdirectories, h]

end ItemStore

/-! ### The world -/

def Ambient.without (hidden : String → Bool) (a : Ambient) : Ambient :=
  { a with entries := a.entries.map (Entry.without hidden) }

def World.without (hidden : String → Bool) (w : World) : World :=
  { w with
    ambient := w.ambient.without hidden
    clients := { w.clients with items := w.clients.items.without hidden } }

/-- The world with these directories in its item store. -/
def World.stocked (directories : Keyed (Keyed Json.Object)) (w : World) : World :=
  { w with clients := { w.clients with items := { w.clients.items with directories } } }

theorem Ambient.enter_without {a : Ambient} (h : a.function.Disregards hidden) (worker : Nat)
    (event : Event) :
    (a.without hidden).enter worker (event.without hidden) =
      Prod.map id (without hidden) (a.enter worker event) := by
  have hrun := h a.entries ⟨worker, event⟩
  simp only [enter, without, Prod.map, id, Array.map_push]
  simp only [Entry.without] at hrun
  rw [hrun]
  rfl

theorem World.stepTrip_without (call : RemoteCall) (trip : Trip) (w : World) :
    (w.without hidden).stepTrip call trip = (w.stepTrip call trip).map (Prod.map id (without hidden)) := by
  have harrive : Trip.arrive call (w.without hidden).clients =
      Prod.map id (fun c => { c with items := c.items.without hidden }) (Trip.arrive call w.clients) := by
    have hroute : (w.without hidden).clients.route call = w.clients.route call := rfl
    rw [Trip.arrive, Trip.arrive, hroute]
    split <;> rfl
  have hnow : (w.without hidden).now = w.now := rfl
  have hlatency : ((w.without hidden).clients.route call).latency = (w.clients.route call).latency := rfl
  rw [stepTrip, stepTrip, hnow]
  cases trip with
  | leaving =>
    rw [Trip.step, Trip.step, hlatency, harrive]
    split <;> rfl
  | underway until_ =>
    rw [Trip.step, Trip.step, harrive]
    split <;> rfl

/-! ### Channels and listings -/

def Channel.without (hidden : String → Bool) (c : Channel) : Channel :=
  { c with queue := c.queue.map (PollMessage.without hidden) }

def Received.without (hidden : String → Bool) : Received → Received
  | .message m => .message (m.without hidden)
  | received => received

theorem Channel.receive_without (c : Channel) :
    (c.without hidden).receive = Prod.map (Received.without hidden) (Channel.without hidden) c.receive := by
  have hplace : ∀ c : Channel, (c.without hidden).addPlace = c.addPlace.without hidden := by
    intro c
    have hwaiting : (c.without hidden).waiting = c.waiting := rfl
    rw [addPlace, addPlace, hwaiting]
    cases c.waiting <;> rfl
  rcases hqueue : c.queue with - | ⟨m, queue⟩
  · have hnil : (c.without hidden).queue = [] := by rw [without, hqueue, List.map_nil]
    have hgone : (c.without hidden).sendersGone = c.sendersGone := rfl
    rw [receive, receive, hnil, hqueue]
    dsimp only
    rw [hgone]
    split <;> rfl
  · have hcons : (c.without hidden).queue = m.without hidden :: queue.map (PollMessage.without hidden) := by
      rw [without, hqueue, List.map_cons]
    rw [receive, receive, hcons, hqueue]
    exact congrArg (Prod.mk _) (hplace { c with queue })

def ListingStage.without (hidden : String → Bool) : ListingStage → ListingStage
  | .sending event rest isLast next send =>
    .sending (event.without hidden) (rest.map (Item.without hidden)) isLast next send
  | stage => stage

def Listing.without (hidden : String → Bool) (l : Listing) : Listing :=
  { l with stage := l.stage.without hidden }

theorem Sending.step_without (hidden : String → Bool) (m : PollMessage) (c : Channel) (send : Sending) :
    send.step (m.without hidden) (c.without hidden) =
      (send.step m c).map (Prod.map id (Channel.without hidden)) := by
  have hqueue : (c.without hidden).queue ++ [m.without hidden] =
      (c.queue ++ [m]).map (PollMessage.without hidden) := by simp [Channel.without]
  cases send with
  | ready =>
    have hfree : (c.without hidden).free = c.free := rfl
    have hgone : (c.without hidden).receiverGone = c.receiverGone := rfl
    rw [step, step, hqueue, hfree, hgone]
    split
    · rfl
    · split <;> rfl
  | waiting ticket =>
    have hgranted : (c.without hidden).granted = c.granted := rfl
    have hgone : (c.without hidden).receiverGone = c.receiverGone := rfl
    rw [step, step, hqueue, hgranted, hgone]
    split
    · rfl
    · split <;> rfl

namespace Listing

theorem sendItems_without (hovert : Overt hidden) (items : List Item) (isLast : Bool) (next : String)
    (delay : Nat) (w : World) (l : Listing) :
    sendItems (items.map (Item.without hidden)) isLast next delay (w.without hidden) (l.without hidden) =
      Prod.map (without hidden) (World.without hidden) (sendItems items isLast next delay w l) := by
  cases items with
  | nil =>
    rw [List.map_nil, sendItems, sendItems]
    split
    · rfl
    · split <;> rfl
  | cons item rest =>
    have hevent := fun now => ItemPoller.event_without hovert l.path item now
    have hpath : (l.without hidden).path = l.path := rfl
    rw [List.map_cons, sendItems, sendItems]
    simp only [hpath, hevent]
    rfl

theorem afterFailure_without (now delay attempt : Nat) :
    (afterFailure now delay attempt).without hidden = afterFailure now delay attempt := by
  rw [afterFailure]
  split <;> rfl

theorem isDone_without (l : Listing) : (l.without hidden).isDone = l.isDone := by
  obtain ⟨path, marker, stage⟩ := l
  cases stage <;> rfl

end Listing

/-! ### How a poller is set up -/

/-- How a poller is set up: its source and settings, how long a batch waits for a worker, and the workers. -/
structure PollSetup where
  id : String
  settings : ItemPollSettings
  /-- In milliseconds. -/
  limit : Nat
  crew : Crew

namespace PollSetup

/-- The query of the first poll, or of later ones. -/
def query (a : PollSetup) (first : Bool) : String := ItemPoller.queryText a.settings (.ofSource a.id) first

/-- The poller before its first poll is over, or after. -/
def poller (a : PollSetup) (first : Bool) : ItemPoller :=
  { ItemPoller.new a.id a.settings with firstPoll := first, query := a.query first }

/-- The source that polls, before it was ever started. -/
def source (a : PollSetup) : PollSource :=
  .new ⟨a.id, "v3io-item-poller", .async⟩ (.items (.new a.id a.settings)) a.settings.poll a.limit a.crew

theorem driver_source (a : PollSetup) : a.source.driver = .items (a.poller true) := rfl

theorem completeFirstPoll_poller (a : PollSetup) (first : Bool) :
    (a.poller first).completeFirstPoll = a.poller false := by
  cases first <;> rfl

/-- The poller has nothing to do with hidden attributes: it neither judges items by them nor writes
them. -/
structure Disregards (hidden : String → Bool) (a : PollSetup) : Prop where
  overt : Overt hidden
  secs : hidden (Stamp.ofSource a.id).secs = false
  nsecs : hidden (Stamp.ofSource a.id).nsecs = false
  judged : ∀ first, ItemStore.isIncremental (a.query first) = true →
    ∀ stamp ∈ ItemStore.judged? (requestedAttributes (.ofSource a.id) a.settings.attributes),
      hidden stamp.secs = false ∧ hidden stamp.nsecs = false

variable {a : PollSetup} {hidden : String → Bool}

theorem Disregards.request (h : a.Disregards hidden) (first first' : Bool) (path marker : String) :
    ItemStore.Disregards hidden ((a.poller first).request path (a.query first') marker) :=
  h.judged first'

theorem Disregards.stampOf (h : a.Disregards hidden) (first : Bool) (event : Event) :
    ((a.poller first).stampOf event).without hidden = (a.poller first).stampOf event := by
  refine List.filter_eq_self.mpr fun entry hm => ?_
  have hget := (ItemPoller.sorted_stampOf event).get?_of_mem hm
  rw [ItemPoller.get?_stampOf] at hget
  split at hget
  next hkey =>
    rw [hkey]
    exact congrArg not h.nsecs
  · split at hget
    next hkey =>
      rw [hkey]
      exact congrArg not h.secs
    · cases hget

end PollSetup

section Moves

variable {a : PollSetup} {hidden : String → Bool} {first : Bool}

/-- **A move of a listing** is the same, whether attributes are hidden with which the poller has nothing to
do or not. -/
theorem Listing.step_without (h : a.Disregards hidden) (first' : Bool) (w : World) (c : Channel)
    (l : Listing) :
    (l.without hidden).step (a.poller first) (a.query first') (w.without hidden) (c.without hidden) =
      (l.step (a.poller first) (a.query first') w c).map
        (Prod.map (without hidden) (Prod.map (World.without hidden) (Channel.without hidden))) := by
  obtain ⟨path, marker, stage⟩ := l
  cases stage with
  | requesting attempt trip =>
    simp only [without, ListingStage.without, step, World.stepTrip_without]
    cases w.stepTrip .getItems trip with
    | none => rfl
    | some moved =>
      obtain ⟨m, w₁⟩ := moved
      rcases m with trip' | (_ | e)
      · rfl
      · have hlist := ItemStore.list_without h.overt (h.request first first' path marker) w₁.clients.items
        have hitems : (w₁.without hidden).clients.items = w₁.clients.items.without hidden := rfl
        simp only [Option.map_some, Prod.map, id, hitems, hlist]
        rcases w₁.clients.items.list ((a.poller first).request path (a.query first') marker) with
          ⟨e | page, items⟩
        · simp only [Except.map, Option.map_some, Prod.map, without, afterFailure_without]
          rfl
        · have hsend := sendItems_without h.overt page.items page.isLast page.nextMarker
            (a.poller first).settings.pageDelay { w₁ with clients := { w₁.clients with items } }
            ⟨path, marker, .requesting attempt trip⟩
          exact congrArg (fun x => some (x.1, x.2, c.without hidden)) hsend
      · simp only [Option.map_some, Prod.map, without, afterFailure_without]
        rfl
  | retrying attempt until_ =>
    simp only [without, ListingStage.without, step]
    have hnow : (w.without hidden).now = w.now := rfl
    rw [hnow]
    split <;> rfl
  | sending event rest isLast next send =>
    have hsend := Sending.step_without hidden (.event event) c send
    simp only [without, ListingStage.without, step]
    simp only [PollMessage.without] at hsend
    rw [hsend]
    cases send.step (.event event) c with
    | none => rfl
    | some sent =>
      obtain ⟨r, c₁⟩ := sent
      cases r with
      | sent =>
        have hitems := sendItems_without h.overt rest isLast next (a.poller first).settings.pageDelay w
          ⟨path, marker, .sending event rest isLast next send⟩
        exact congrArg (fun x => some (x.1, x.2, c₁.without hidden)) hitems
      | refused => rfl
      | waits send' => rfl
  | turning until_ =>
    simp only [without, ListingStage.without, step]
    have hnow : (w.without hidden).now = w.now := rfl
    rw [hnow]
    split <;> rfl
  | done => rfl

theorem Listing.stepFirst_without (h : a.Disregards hidden) (first' : Bool) (w : World) (c : Channel)
    (listings : List Listing) :
    stepFirst (a.poller first) (a.query first') (w.without hidden) (c.without hidden)
        (listings.map (without hidden)) =
      (stepFirst (a.poller first) (a.query first') w c listings).map
        (Prod.map (List.map (without hidden))
          (Prod.map (World.without hidden) (Channel.without hidden))) := by
  induction listings with
  | nil => rfl
  | cons l rest ih =>
    rw [List.map_cons, stepFirst, stepFirst, step_without h, ih]
    cases l.step (a.poller first) (a.query first') w c with
    | some moved => rfl
    | none =>
      rw [Option.map_none, Option.map_map, Option.map_map]
      rfl

/-! ### Searches -/

namespace Producer

def without (hidden : String → Bool) : Producer → Producer
  | .listing query listings => .listing query (listings.map (Listing.without hidden))
  | producer => producer

/-- A search of a poller asks what the poller asks. -/
def Usual (a : PollSetup) : Producer → Prop
  | .listing query _ => ∃ first, query = a.query first
  | .ready | .completing _ | .done => True
  | _ => False

/-- A move of a search is the same, whether attributes are hidden or not. -/
theorem step_without (h : a.Disregards hidden) {producer : Producer} (husual : producer.Usual a) (w : World)
    (c : Channel) :
    (producer.without hidden).step (w.without hidden) (.items (a.poller first)) (c.without hidden) =
      (producer.step w (.items (a.poller first)) c).map
        (Prod.map (without hidden)
          (Prod.map (World.without hidden) (Prod.map id (Channel.without hidden)))) := by
  cases producer with
  | ready =>
    have hnew : ∀ path, (Listing.new path).without hidden = .new path := fun _ => rfl
    simp only [without, step, Option.map_some, Prod.map, id, List.map_map, Function.comp_def, hnew]
  | listing query listings =>
    obtain ⟨first', rfl⟩ := husual
    have hdone : (listings.map (Listing.without hidden)).all Listing.isDone = listings.all Listing.isDone := by
      rw [List.all_map]
      exact congrArg listings.all (funext Listing.isDone_without)
    simp only [without, step, hdone, Listing.stepFirst_without h]
    split
    · rfl
    · rw [Option.map_map, Option.map_map]
      rfl
  | completing send =>
    have hsend := Sending.step_without hidden .cycleComplete c send
    simp only [PollMessage.without] at hsend
    simp only [without, step, hsend]
    rcases send.step .cycleComplete c with - | ⟨r, c₁⟩
    · rfl
    · cases r <;> rfl
  | done => rfl
  | playing rest => exact husual.elim
  | pausing message rest until_ => exact husual.elim
  | sending message rest send => exact husual.elim

end Producer

/-! ### Batches -/

namespace Desk

theorem prepare_without (d : Desk) (event : Event) (amb : Ambient) :
    d.prepare (event.without hidden) (amb.without hidden) =
      Prod.map (Event.without hidden) (Ambient.without hidden) (d.prepare event amb) := by
  have hid : (event.without hidden).id = event.id := rfl
  rw [prepare, prepare]
  dsimp only
  rw [hid]
  split <;> rfl

theorem prepareAll_without (d : Desk) (events : List Event) (amb : Ambient) :
    d.prepareAll (events.map (Event.without hidden)) (amb.without hidden) =
      Prod.map (List.map (Event.without hidden)) (Ambient.without hidden) (d.prepareAll events amb) := by
  induction events generalizing amb with
  | nil => rfl
  | cons event rest ih =>
    have hstep : ∀ (event : Event) (rest : List Event) (amb : Ambient), d.prepareAll (event :: rest) amb =
        ((d.prepare event amb).1 :: (d.prepareAll rest (d.prepare event amb).2).1,
          (d.prepareAll rest (d.prepare event amb).2).2) := fun _ _ _ => rfl
    rw [List.map_cons, hstep, hstep, prepare_without, Prod.map_snd, ih]
    rfl

end Desk

namespace Batch

def without (hidden : String → Bool) : Batch → Batch
  | .ready events limit => .ready (events.map (Event.without hidden)) limit
  | .acquiring events acquire => .acquiring (events.map (Event.without hidden)) acquire
  | .between worker done events rest =>
    .between worker done (events.map (Event.without hidden)) (rest.map (Event.without hidden))
  | .running worker done events rest run =>
    .running worker done (events.map (Event.without hidden)) (rest.map (Event.without hidden)) run

theorem drop_without (hidden : String → Bool) (b : Batch) (d : Desk) :
    (b.without hidden).drop d = b.drop d := by
  cases b <;> rfl

theorem run?_without (b : Batch) :
    (b.without hidden).run? = b.run?.map (Prod.map (Event.without hidden) id) := by
  cases b with
  | running worker done events rest run =>
    simp only [without, run?, List.getElem?_map, Option.map_map]
    rfl
  | _ => rfl

/-- A move of a batch is the same, whether attributes are hidden at which the function does not look or
not. -/
theorem step_without {amb : Ambient} (h : amb.function.Disregards hidden) (d : Desk) (b : Batch) :
    (b.without hidden).step (amb.without hidden) d =
      (b.step amb d).map (Prod.map (Move.map (without hidden) (Prod.map id (List.map (Event.without hidden))))
        (Prod.map (Ambient.without hidden) id)) := by
  have hnow : (amb.without hidden).now = amb.now := rfl
  cases b with
  | ready events limit =>
    simp only [without, step, Desk.prepareAll_without]
    rfl
  | acquiring events acquire =>
    have hacquire : d.stepAcquire (amb.without hidden) acquire = d.stepAcquire amb acquire := rfl
    simp only [without, step, hacquire]
    rcases d.stepAcquire amb acquire with - | ⟨next | (e | worker), d'⟩ <;> rfl
  | between worker done events rest =>
    cases rest with
    | nil => rfl
    | cons event rest =>
      simp only [without, step, List.map_cons, Ambient.enter_without h]
      rfl
  | running worker done events rest run =>
    simp only [without, step, hnow]
    split <;> rfl

end Batch

/-! ### After a batch -/

namespace Wrapup

/-- What a poller writes are its own stamps. -/
def Usual (a : PollSetup) : Wrapup → Prop
  | .stamping rest _ => ∀ entry ∈ rest, ∃ event, entry.2 = (a.poller true).stampOf event
  | _ => False

theorem ofBatch_without (now : Nat) (events : List Event) (outcomes : List Outcome) :
    ofBatch now (.items (a.poller first)) (events.map (Event.without hidden)) outcomes =
      ofBatch now (.items (a.poller first)) events outcomes := by
  rw [ofBatch, ofBatch]
  simp only [List.zip_map_left, List.filter_map, List.map_map]
  rfl

theorem usual_ofBatch (now : Nat) (events : List Event) (outcomes : List Outcome) :
    (ofBatch now (.items (a.poller first)) events outcomes).Usual a := by
  intro entry hm
  obtain ⟨⟨event, outcome⟩, -, rfl⟩ := List.mem_map.mp hm
  exact ⟨event, rfl⟩

/-- A move after a batch is the same, whether attributes are hidden or not. -/
theorem step_without (h : a.Disregards hidden) (first : Bool) {w : World}
    (horderly : ItemStore.Orderly w.clients.items.directories) {wrapup : Wrapup} (husual : wrapup.Usual a) :
    wrapup.step (w.without hidden) (.items (a.poller first)) =
      (wrapup.step w (.items (a.poller first))).map (Prod.map id (Prod.map (World.without hidden) id)) := by
  cases wrapup with
  | pausing events until_ => exact husual.elim
  | noting events => exact husual.elim
  | stamping rest trip =>
    cases rest with
    | nil => rfl
    | cons entry rest =>
      obtain ⟨path, attributes⟩ := entry
      obtain ⟨event, rfl⟩ := husual _ List.mem_cons_self
      simp only [step, World.stepTrip_without]
      cases htrip : w.stepTrip .updateItem trip with
      | none => rfl
      | some moved =>
        obtain ⟨m, w₁⟩ := moved
        obtain ⟨⟨routes, rfl⟩, -⟩ := World.stepTrip_routes htrip
        rcases m with trip' | (_ | e)
        · rfl
        · have hitems := ItemStore.update_without horderly path (h.stampOf true event)
          simp only [Option.map_some, Prod.map, id, World.without]
          rw [hitems]
        · rfl

end Wrapup

/-! ### Lifecycles -/

namespace Lifecycle

variable {τ υ : Type}

/-- The lifecycle with every task changed. -/
def mapTasks (f : τ → υ) (l : Lifecycle τ) : Lifecycle υ :=
  { running := l.running, signal := l.signal, sent := l.sent, live := l.live.map fun t => (t.1, f t.2),
    handles := l.handles, nextHandle := l.nextHandle }

theorem task?_mapTasks (f : τ → υ) (handle : Nat) (l : Lifecycle τ) :
    (l.mapTasks f).task? handle = (l.task? handle).map f := by
  rw [task?, task?, mapTasks]
  dsimp only
  induction l.live with
  | nil => rfl
  | cons t live ih =>
    rw [List.map_cons, List.lookup_cons, List.lookup_cons, ih]
    split <;> rfl

theorem mapTasks_replace (f : τ → υ) (handle : Nat) (task : τ) (l : Lifecycle τ) :
    (l.replace handle task).mapTasks f = (l.mapTasks f).replace handle (f task) := by
  simp only [mapTasks, replace, List.map_map, mk.injEq, true_and, and_true]
  refine List.map_congr_left fun t _ => ?_
  dsimp only [Function.comp]
  split <;> rfl

theorem mapTasks_finish (f : τ → υ) (handle : Nat) (l : Lifecycle τ) :
    (l.finish handle).mapTasks f = (l.mapTasks f).finish handle := by
  simp only [mapTasks, finish, List.filter_map]
  rfl

theorem mapTasks_spawn (f : τ → υ) (task : τ) (l : Lifecycle τ) :
    (l.spawn task).mapTasks f = (l.mapTasks f).spawn (f task) := by
  simp [mapTasks, spawn]

theorem mapTasks_halt (f : τ → υ) (l : Lifecycle τ) :
    (l.mapTasks f).halt = Prod.map id (mapTasks f) l.halt := by
  rw [halt, halt]
  change (if l.running = true then _ else _) = _
  split <;> rfl

theorem allEnded_mapTasks (f : τ → υ) (handles : List Nat) (l : Lifecycle τ) :
    (l.mapTasks f).allEnded handles = l.allEnded handles := by
  simp only [allEnded, task?_mapTasks, Option.isNone_map]

end Lifecycle

namespace Stop

variable {σ σ' τ τ' : Type} {get : σ → Lifecycle τ} {get' : σ' → Lifecycle τ'}
  {set : Lifecycle τ → σ → σ} {set' : Lifecycle τ' → σ' → σ'} {giveUp : τ → σ → σ}
  {giveUp' : τ' → σ' → σ'}

/-- A move of a stop is the same for two states, one of which is the other with every task changed. -/
theorem step_mapTasks (F : σ → σ') (f : τ → τ') (hget : ∀ s, get' (F s) = (get s).mapTasks f)
    (hset : ∀ l s, set' (l.mapTasks f) (F s) = F (set l s))
    (hgive : ∀ task s, giveUp' (f task) (F s) = F (giveUp task s)) (stop : Stop) (s : σ) :
    stop.step get' set' giveUp' (F s) = (stop.step get set giveUp s).map (Prod.map id F) := by
  cases stop with
  | joining handles =>
    rw [step, step, hget, Lifecycle.allEnded_mapTasks]
    split <;> rfl
  | ready force =>
    rw [step, step, hget, Lifecycle.mapTasks_halt]
    rcases (get s).halt with ⟨- | handles, l⟩
    · rfl
    · simp only [Prod.map, id, Option.map_some, hset]
      cases force with
      | false => rfl
      | true =>
        refine congrArg (fun s => some (Move.goes (joining handles), s)) ?_
        refine List.foldl_hom F fun s handle => ?_
        rw [hget, Lifecycle.task?_mapTasks, ← Lifecycle.mapTasks_finish, hset]
        cases (get s).task? handle with
        | none => rfl
        | some task => exact hgive task _

end Stop

/-! ### The source -/

namespace Consumer

def without (hidden : String → Bool) : Consumer → Consumer
  | .receiving batch => .receiving (batch.map (Event.without hidden))
  | .submitting isLast batch => .submitting isLast (batch.without hidden)
  | consumer => consumer

/-- What the half that submits will write are the poller's own stamps. -/
def Usual (a : PollSetup) : Consumer → Prop
  | .wrapping _ _ wrapup => wrapup.Usual a
  | _ => True

end Consumer

namespace PollTask

def without (hidden : String → Bool) : PollTask → PollTask
  | .cycling turn c producer consumer =>
    .cycling turn (c.without hidden) (producer.without hidden) (consumer.without hidden)
  | task => task

/-- A task of a poller asks what the poller asks, and writes what it writes. -/
def Usual (a : PollSetup) : PollTask → Prop
  | .cycling _ _ producer consumer => producer.Usual a ∧ consumer.Usual a
  | _ => True

theorem run?_without (task : PollTask) :
    (task.without hidden).run? = task.run?.map (Prod.map (Event.without hidden) id) := by
  cases task with
  | cycling turn c producer consumer =>
    cases consumer with
    | submitting isLast batch => exact Batch.run?_without batch
    | _ => rfl
  | _ => rfl

end PollTask

def Task.without (hidden : String → Bool) (task : Task PollTask) : Task PollTask :=
  ⟨task.signal, task.state.without hidden⟩

namespace PollSource

def without (hidden : String → Bool) (s : PollSource) : PollSource :=
  { s with lifecycle := s.lifecycle.mapTasks (Task.without hidden) }

/-- A move of the half that submits is the same, whether attributes are hidden or not. -/
theorem stepConsumer_without (h : a.Disregards hidden) {w : World} {s : PollSource}
    (hdriver : s.driver = .items (a.poller first)) (hfunction : w.ambient.function.Disregards hidden)
    (horderly : ItemStore.Orderly w.clients.items.directories) {consumer : Consumer}
    (husual : consumer.Usual a) (signal : Signal) (c : Channel) :
    (s.without hidden).stepConsumer signal (c.without hidden) (w.without hidden) (consumer.without hidden) =
      (s.stepConsumer signal c w consumer).map
        (Prod.map (Consumer.without hidden) (Prod.map (Channel.without hidden)
          (Prod.map (World.without hidden) (without hidden)))) := by
  cases consumer with
  | receiving batch =>
    have hempty : (batch.map (Event.without hidden)).isEmpty = batch.isEmpty := List.isEmpty_map
    have hsignal : (s.without hidden).lifecycle.isTriggered signal = s.lifecycle.isTriggered signal := rfl
    simp only [Consumer.without, stepConsumer, Channel.receive_without, hempty, hsignal]
    rcases c.receive with ⟨⟨event | -⟩ | - | -, c₁⟩
    · have hsize : (s.without hidden).batchSize = s.batchSize := rfl
      have hlength : (batch.map (Event.without hidden) ++ [event.without hidden]) =
          (batch ++ [event]).map (Event.without hidden) := by simp
      simp only [Prod.map, Received.without, PollMessage.without, hsize, hlength, List.length_map]
      split
      · split <;> rfl
      · rfl
    · simp only [Prod.map, Received.without, PollMessage.without]
      split <;> rfl
    · simp only [Prod.map, Received.without]
      split <;> rfl
    · rfl
  | submitting isLast batch =>
    simp only [Consumer.without, stepConsumer]
    have hbatch := Batch.step_without hfunction s.desk batch
    have hambient : (w.without hidden).ambient = w.ambient.without hidden := rfl
    have hdesk : (s.without hidden).desk = s.desk := rfl
    rw [hambient, hdesk, hbatch]
    rcases batch.step w.ambient s.desk with - | ⟨next | ⟨outcomes | e, events⟩, amb, desk⟩
    · rfl
    · rfl
    · have hdriver' : (s.without hidden).driver = .items (a.poller first) := hdriver
      simp only [Option.map_some, Prod.map, Move.map, id, hdriver, hdriver', Wrapup.ofBatch_without]
      rfl
    · cases isLast <;> rfl
  | wrapping isLast previous wrapup =>
    simp only [Consumer.without, stepConsumer]
    have hwrapup := Wrapup.step_without h first horderly husual
    have hdriver' : (s.without hidden).driver = .items (a.poller first) := hdriver
    rw [hdriver, hdriver', hwrapup]
    rcases wrapup.step w (.items (a.poller first)) with - | ⟨next | ⟨⟩, w₁, d⟩
    · rfl
    · rfl
    · cases isLast <;> rfl
  | done => rfl

theorem stepHalf_without (h : a.Disregards hidden) {w : World} {s : PollSource}
    (hdriver : s.driver = .items (a.poller first)) (hfunction : w.ambient.function.Disregards hidden)
    (horderly : ItemStore.Orderly w.clients.items.directories) {producer : Producer} {consumer : Consumer}
    (hproducer : producer.Usual a) (hconsumer : consumer.Usual a) (signal : Signal) (c : Channel)
    (half : CycleHalf) :
    stepHalf signal (w.without hidden) (s.without hidden) (c.without hidden) (producer.without hidden)
        (consumer.without hidden) half =
      (stepHalf signal w s c producer consumer half).map
        (Prod.map (PollTask.without hidden) (Prod.map (World.without hidden) (without hidden))) := by
  have hdriver' : (s.without hidden).driver = .items (a.poller first) := hdriver
  cases half with
  | searching =>
    rw [stepHalf, stepHalf, hdriver, hdriver', Producer.step_without h hproducer, Option.map_map,
      Option.map_map]
    rfl
  | receiving =>
    rw [stepHalf, stepHalf, stepConsumer_without h hdriver hfunction horderly hconsumer, Option.map_map,
      Option.map_map]
    rfl

/-- **A move of the task** of a poller is the same, whether attributes are hidden with which the poller
has nothing to do or not. -/
theorem step_without (h : a.Disregards hidden) {w : World} {s : PollSource}
    (hdriver : s.driver = .items (a.poller first)) (hfunction : w.ambient.function.Disregards hidden)
    (horderly : ItemStore.Orderly w.clients.items.directories) {task : PollTask} (husual : task.Usual a)
    (signal : Signal) :
    step signal (task.without hidden) (w.without hidden) (s.without hidden) =
      (step signal task w s).map
        (Prod.map (Move.map (PollTask.without hidden) id)
          (Prod.map (World.without hidden) (without hidden))) := by
  have hnow : (w.without hidden).now = w.now := rfl
  cases task with
  | checking =>
    have hsignal : (s.without hidden).lifecycle.isTriggered signal = s.lifecycle.isTriggered signal := rfl
    simp only [PollTask.without, step, hsignal]
    split <;> rfl
  | pausing pause =>
    have hends : pause.ends? w.now signal (s.without hidden).lifecycle = pause.ends? w.now signal s.lifecycle :=
      rfl
    simp only [PollTask.without, step, hnow, hends]
    split <;> rfl
  | cycling turn c producer consumer =>
    obtain ⟨hproducer, hconsumer⟩ := husual
    simp only [PollTask.without, step,
      stepHalf_without h hdriver hfunction horderly hproducer hconsumer signal c]
    rcases stepHalf signal w s c producer consumer turn with - | moved
    · rcases stepHalf signal w s c producer consumer turn.other with - | moved
      · -- Neither half can move: the cycle is over, or waits.
        cases producer with
        | done =>
          cases consumer with
          | done =>
            by_cases htriggered : s.lifecycle.isTriggered signal = true
            · have htriggered' : (s.without hidden).lifecycle.isTriggered signal = true := htriggered
              simp only [Option.map_none, Option.or_none, Producer.without, Consumer.without, Pause.begin?,
                htriggered, htriggered', if_true]
              rfl
            · have htriggered' : ¬(s.without hidden).lifecycle.isTriggered signal = true := htriggered
              simp only [Option.map_none, Option.or_none, Producer.without, Consumer.without, Pause.begin?,
                htriggered, htriggered']
              rfl
          | _ => rfl
        | _ => rfl
      · rfl
    · rfl

theorem stepLive_without (h : a.Disregards hidden) {w : World} {s : PollSource}
    (hdriver : s.driver = .items (a.poller first)) (hfunction : w.ambient.function.Disregards hidden)
    (horderly : ItemStore.Orderly w.clients.items.directories)
    (husual : ∀ t ∈ s.lifecycle.live, t.2.state.Usual a) (handle : Nat) :
    rules.stepLive handle (w.without hidden) (s.without hidden) =
      (rules.stepLive handle w s).map (Prod.map (World.without hidden) (without hidden)) := by
  have htask : (rules.lifecycle (s.without hidden)).task? handle =
      ((rules.lifecycle s).task? handle).map (Task.without hidden) :=
    Lifecycle.task?_mapTasks _ handle s.lifecycle
  rw [TaskRules.stepLive, TaskRules.stepLive, htask]
  cases hlive : (rules.lifecycle s).task? handle with
  | none => rfl
  | some task =>
    have hstep : rules.step (task.without hidden).signal (task.without hidden).state (w.without hidden)
        (s.without hidden) = _ :=
      step_without h hdriver hfunction horderly (husual _ (Lifecycle.mem_live_of_task? hlive)) task.signal
    have hsame : rules.step task.signal task.state w s = step task.signal task.state w s := rfl
    simp only [Option.map_some, hstep, hsame]
    rcases step task.signal task.state w s with - | ⟨next | ⟨⟩, w₁, s₁⟩
    · rfl
    · have hreplace := Lifecycle.mapTasks_replace (Task.without hidden) handle ⟨task.signal, next⟩ s₁.lifecycle
      exact congrArg (fun l => some (w₁.without hidden, { s₁ with lifecycle := l })) hreplace.symm
    · have hfinish := Lifecycle.mapTasks_finish (Task.without hidden) handle s₁.lifecycle
      exact congrArg (fun l => some (w₁.without hidden, { s₁ with lifecycle := l })) hfinish.symm

theorem start_without (s : PollSource) : (s.without hidden).start.2 = s.start.2.without hidden := by
  cases hrun : s.lifecycle.running with
  | true =>
    have hrun' : (rules.lifecycle (s.without hidden)).running = true := hrun
    rw [start, start, TaskRules.start_running hrun', TaskRules.start_running (r := rules) (s := s) hrun]
  | false =>
    have hrun' : (rules.lifecycle (s.without hidden)).running = false := hrun
    rw [start, start, TaskRules.start_eq hrun', TaskRules.start_eq (r := rules) (s := s) hrun]
    have hspawn := Lifecycle.mapTasks_spawn (Task.without hidden) ⟨s.lifecycle.signal + 1, .checking⟩
      { s.lifecycle with running := true, signal := s.lifecycle.signal + 1 }
    exact congrArg (fun l => { s with lifecycle := l }) hspawn.symm

theorem stop_without (stop : Stop) (w : World) (s : PollSource) :
    rules.stop stop (w.without hidden) (s.without hidden) =
      (rules.stop stop w s).map (Prod.map id (Prod.map (World.without hidden) (without hidden))) := by
  have hdrop : ∀ (task : Task PollTask) (x : World × PollSource),
      rules.drop (task.without hidden).state (x.1.without hidden) (x.2.without hidden) =
        Prod.map (World.without hidden) (without hidden) (rules.drop task.state x.1 x.2) := by
    intro task x
    obtain ⟨signal, state⟩ := task
    cases state with
    | cycling turn c producer consumer =>
      cases consumer with
      | submitting isLast batch =>
        have hbatch := Batch.drop_without hidden batch x.2.desk
        exact congrArg (fun desk => (x.1.without hidden, { x.2.without hidden with desk })) hbatch
      | _ => rfl
    | _ => rfl
  have hstep : stop.step (fun x : World × PollSource => rules.lifecycle x.2)
        (fun l x => (x.1, rules.setLifecycle l x.2)) (fun task x => rules.drop task.state x.1 x.2)
        (w.without hidden, s.without hidden) =
      (stop.step (fun x : World × PollSource => rules.lifecycle x.2)
        (fun l x => (x.1, rules.setLifecycle l x.2)) (fun task x => rules.drop task.state x.1 x.2)
        (w, s)).map (Prod.map id (Prod.map (World.without hidden) (without hidden))) :=
    Stop.step_mapTasks (Prod.map (World.without hidden) (without hidden)) (Task.without hidden)
      (fun _ => rfl) (fun _ _ => rfl) hdrop stop (w, s)
  rw [TaskRules.stop, TaskRules.stop, hstep, Option.map_map, Option.map_map]
  rfl

end PollSource

end Moves

end EventDispatch
