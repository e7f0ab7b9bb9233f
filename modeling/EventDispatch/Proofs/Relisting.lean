import EventDispatch.Proofs.Apartness
import EventDispatch.Proofs.Fidelity
import EventDispatch.Proofs.PagedListings

/-!
# Listing all items anew

A poller that does not ask for changed items only brings all items in each of its cycles, those too that it
has stamped before. What it asks for is a text, made of the suffixes and queries of its settings; and a store
takes a text for a query for changed items if a certain piece occurs in it, wherever that comes from. So it
depends on the settings whether all items come. As long as none of their texts holds that piece, the query does
not, and whatever is stored and stamped during a cycle, an event of each item comes that was there at first.

## What is deliberately absent

Requests may fail and be made again, and the law tells which items were stored as they are brought; that all of
them come is told of paths of which no request fails. How long a cycle takes is not part of it; but a path
has no more pages than there are names, and one.

## Main definitions

* `ItemStore.Change`, `ItemStore.Later`: what may happen to the items of a store.
* `PollSetup.TakesAll`: nothing in the settings keeps items from a poller.
* `Inquiry.Peruses`: a listing of a cycle is one of a store that changes.
* `Inquiry.Relists`: the law for one path.

## Main results

* `PollSource.later_of_step`: what the task of a poller does to the items.
* `PollSetup.takesAll_iff`: when a store leaves nothing out.
* `CycleListings.relists_of_reachable`: the law, for every run.
* `CycleListings.silent_of_stamped`: what a text in the settings keeps from the poller.
-/

namespace EventDispatch

/-! ### A store in use -/

namespace ItemStore

/-- An item of that name is in the directory. -/
def Holds (path name : String) (s : ItemStore) : Prop :=
  ∃ attributes, (s.entries path).get? name = some attributes

/-- What happens to the items of a store. -/
inductive Change (names : String → Prop) : ItemStore → ItemStore → Prop
  /-- Pages are asked for, or requests are made to fail. -/
  | rests {s s' : ItemStore} (hsame : s'.directories = s.directories) : Change names s s'
  /-- An item is stored. -/
  | puts (s : ItemStore) (directory : String) {name : String} (attributes : Json.Object) (now : Timestamp)
      (hname : names name) : Change names s (s.put directory name attributes now)
  /-- Attributes are laid over those of an item. -/
  | updates (s : ItemStore) (path : String) (attributes : Json.Object) :
      Change names s (s.update path attributes).2

/-- A store as it is later. -/
def Later (names : String → Prop) (s s' : ItemStore) : Prop := Relation.ReflTransGen (Change names) s s'

variable {names : String → Prop} {s s' : ItemStore} {path name : String}

theorem Holds.put (h : s.Holds path name) (directory other : String) (attributes : Json.Object)
    (now : Timestamp) : (s.put directory other attributes now).Holds path name := by
  obtain ⟨old, hold⟩ := h
  have hentries : (s.put directory other attributes now).entries path =
      if normalize path = normalize directory then
        (s.entries directory).insert other (putAttributes other attributes now) else s.entries path := by
    rw [entries, ItemStore.put]
    dsimp only
    rw [Keyed.get?_insert]
    split <;> rfl
  rw [Holds, hentries]
  split
  next heq =>
    rw [Keyed.get?_insert]
    split
    · exact ⟨_, rfl⟩
    · exact ⟨old, by rw [entries, ← heq]; exact hold⟩
  · exact ⟨old, hold⟩

theorem Holds.update (h : s.Holds path name) (x : String) (attributes : Json.Object) :
    (s.update x attributes).2.Holds path name := by
  obtain ⟨old, hold⟩ := h
  rcases directories_update x attributes s with ⟨hsame, -⟩ | ⟨directory, other, items, before, -, -, -, hnew⟩
  · exact ⟨old, by rw [entries, hsame]; exact hold⟩
  · rw [Holds, entries, hnew, Keyed.get?_modify]
    rw [entries] at hold
    split
    · cases hitems : s.directories.get? (normalize path) with
      | none =>
        rw [hitems] at hold
        cases hold
      | some held =>
        rw [hitems] at hold
        rw [Option.map_some, Option.getD_some, Keyed.get?_insert]
        split
        · exact ⟨_, rfl⟩
        · exact ⟨old, hold⟩
    · exact ⟨old, hold⟩

/-- Names stay of their kind, and none is lost. -/
theorem Later.named (h : s.Later names s') (hnamed : s.Named names) : s'.Named names := by
  induction h with
  | refl => exact hnamed
  | tail _ hs ih =>
    cases hs with
    | rests hsame => exact ih.of_directories hsame
    | puts directory attributes now hname => exact ih.put hname directory attributes now
    | updates path attributes => exact ih.update path attributes

theorem Later.holds (h : s.Later names s') (hholds : s.Holds path name) : s'.Holds path name := by
  induction h with
  | refl => exact hholds
  | tail _ hs ih =>
    cases hs with
    | rests hsame =>
      rw [Holds, entries, hsame]
      exact ih
    | puts directory attributes now _ => exact ih.put directory _ attributes now
    | updates path attributes => exact ih.update path attributes

end ItemStore

section Stamping

variable (names : String → Prop) {w w' : World}

theorem Wrapup.later_of_step {wrapup : Wrapup} {m : Move Wrapup Unit} {d d' : PollDriver}
    (hs : wrapup.step w d = some (m, w', d')) : w.clients.items.Later names w'.clients.items := by
  cases moves_of_step hs with
  | asks htrip | loses htrip =>
    obtain ⟨⟨routes, rfl⟩, -⟩ := World.stepTrip_routes htrip
    exact .refl
  | stamps htrip =>
    obtain ⟨⟨routes, rfl⟩, -⟩ := World.stepTrip_routes htrip
    exact .single (.updates _ _ _)
  | ends | wakes | skips | notes => exact .refl

/-- **What the task of a poller does to the items**: it stamps them. -/
theorem PollSource.later_of_step {signal : Signal} {task : PollTask} {m : Move PollTask Unit} {s s' : PollSource}
    (hs : step signal task w s = some (m, w', s')) : w.clients.items.Later names w'.clients.items := by
  cases moves_of_step hs with
  | searches hsearch => exact .single (.rests (Producer.consults_of_step hsearch).directories)
  | receives hsubmit =>
    cases Consumer.moves_of_step hsubmit with
    | wraps hmove | returns hmove => exact Wrapup.later_of_step names hmove
    | _ => exact .refl
  | _ => exact .refl

end Stamping

/-! ### What a store leaves out -/

namespace ItemStore

variable {request : ListRequest} {s : ItemStore} {stamp : Stamp}

/-- Where all items were handled since they changed, a request for changed items brings nothing. -/
theorem matching_eq_nil (hquery : isIncremental request.query = true)
    (hstamped : ∀ entry ∈ s.entries request.path, alreadyStamped request entry.2 = true) :
    s.matching request = [] := by
  refine List.map_eq_nil_iff.mpr (List.filter_eq_nil_iff.mpr ?_)
  rintro ⟨name, attributes⟩ hentry hkept
  have hjudged : alreadyStamped request attributes = true := hstamped _ hentry
  dsimp only at hkept
  rw [hjudged, hquery, Bool.and_self, Bool.not_true, Bool.and_false] at hkept
  cases hkept

/-- The attributes of an item that was stamped after it changed. -/
def handled (stamp : Stamp) : Json.Object := (changed stamp).insert stamp.nsecs (.ofInt 1)

theorem alreadyStamped_handled (h : judged? request.attributes = some stamp) :
    alreadyStamped request (handled stamp) = true := by
  obtain ⟨⟨-, hends⟩, ⟨hstart, hends'⟩⟩ := endings_of_judged? h
  have hbuiltin := Stamp.notMem_builtin hstart
  have hkeep : ∀ key ∈ builtinAttributes, (handled stamp).get? key = (changed stamp).get? key := by
    intro key hkey
    have hne : key ≠ stamp.nsecs := by
      rintro rfl
      exact hbuiltin hkey
    rw [handled, Keyed.get?_insert, if_neg hne]
  have hne : stamp.secs ≠ stamp.nsecs := fun heq => by
    have hboth := not_endsWith_nsecs hends
    rw [heq, hends'] at hboth
    cases hboth
  have hmodified : pair? (handled stamp) "__mtime_secs" "__mtime_nsecs" = some (0, 1) :=
    pair?_eq_some ((hkeep _ (by decide)).trans (get?_putAttributes_secs "x"))
      ((hkeep _ (by decide)).trans (get?_putAttributes_nsecs "x")) rfl rfl
  have hsecs : (handled stamp).get? stamp.secs = some (.ofInt 0) := by
    rw [handled, Keyed.get?_insert, if_neg hne, get?_changed_secs h]
  have hmark : pair? (handled stamp) stamp.secs stamp.nsecs = some (0, 1) :=
    pair?_eq_some hsecs (Keyed.get?_insert_self _ _ _) rfl rfl
  simp only [alreadyStamped_eq, h, hmodified, hmark]
  rfl

end ItemStore

namespace PollSetup

variable {a : PollSetup}

/-- Nothing in the settings keeps items from the poller: none of their texts is a query for changed items, or
there are no stamps by which a store could judge an item. -/
def TakesAll (a : PollSetup) : Prop :=
  (∀ text ∈ a.settings.suffixes ++ a.settings.queries, ItemStore.isIncremental text = false) ∨
    ItemStore.judged? (requestedAttributes (.ofSource a.id) a.settings.attributes) = none

/-- **When a store leaves nothing out** for a poller that asks for all items: exactly if nothing in the settings
keeps items from it. -/
theorem takesAll_iff (h : a.settings.incremental = false) : a.TakesAll ↔
    ∀ (first : Bool) (path marker : String) (attributes : Json.Object),
      ¬(ItemStore.isIncremental (a.request first path marker).query = true ∧
        ItemStore.alreadyStamped (a.request first path marker) attributes = true) := by
  have hquery : ∀ first, ItemStore.isIncremental (a.query first) =
      (a.settings.suffixes ++ a.settings.queries).any ItemStore.isIncremental :=
    ItemPoller.isIncremental_queryText_eq_any h _
  refine ⟨fun htakes first path marker attributes ⟨hincremental, hstamped⟩ => ?_, fun hall => ?_⟩
  · rcases htakes with hplain | hnone
    · obtain ⟨text, htext, hclause⟩ := List.any_eq_true.mp ((hquery first).symm.trans hincremental)
      exact Bool.false_ne_true ((hplain text htext).symm.trans hclause)
    · have hjudged : ItemStore.judged? (a.request first path marker).attributes = none := hnone
      rw [ItemStore.alreadyStamped_eq, hjudged] at hstamped
      cases hstamped
  · by_contra hnot
    obtain ⟨htexts, hjudged⟩ := not_or.mp hnot
    obtain ⟨stamp, hstamp⟩ := Option.ne_none_iff_exists'.mp hjudged
    have hincremental : ItemStore.isIncremental (a.query false) = true := by
      rw [hquery, List.any_eq_true]
      simpa using htexts
    exact hall false "" "" (ItemStore.handled stamp) ⟨hincremental, ItemStore.alreadyStamped_handled hstamp⟩

end PollSetup

/-! ### The listing of a path -/

namespace Inquiry

variable {names : String → Prop} {p : ItemPoller} {first : ItemStore} {i : Inquiry} {s : PagedListing}
  {done rest : List Item} {ahead : Option (String × Nat)}

/-- The listing of a path is one of a store that changes, and some items of its last page are still to be sent. -/
structure Peruses (names : String → Prop) (p : ItemPoller) (first : ItemStore) (i : Inquiry) (s : PagedListing)
    (done rest : List Item) (ahead : Option (String × Nat)) : Prop where
  sound : s.Sound names (p.request i.path p.query "")
  steady : p.settings.pageSize ≠ 0 → (∀ name, names name → name ≠ "") → s.Steady
  pages : ∀ x ∈ s.pages, first.Later names x.1 ∧ ∃ marker, x.2 = x.1.pageAt (p.request i.path p.query marker)
  items : s.pages.flatMap (fun x => x.2.items) = done ++ rest
  /-- Each request that was answered brought a page. -/
  answered : s.pages.length = (i.asked.filter Prod.snd).length
  goes : ∀ x ∈ ahead, s.finished = false ∧ s.marker = x.1
  /-- It is over with the last page, or given up. -/
  ends : ahead = none → s.finished = true ∨ ∃ x ∈ i.asked, x.2 = false
  accepted : List.Forall₂ (Survey.Brings i.path) done i.accepted

theorem peruses_new (hnamed : first.Named names) (p : ItemPoller) (path : String) :
    Peruses names p first (new path) (.opened first) [] [] (some ("", 1)) where
  sound := PagedListing.sound_opened hnamed _
  steady _ _ := PagedListing.steady_opened first
  pages _ hx := by cases hx
  items := rfl
  answered := rfl
  goes _ hx := by
    cases hx
    exact ⟨rfl, rfl⟩
  ends hnone := by cases hnone
  accepted := .nil

variable {marker : String} {attempt : Nat}

/-- A request that fails brings no page. -/
theorem Peruses.fails (h : Peruses names p first i s done [] (some (marker, attempt))) (request : ListRequest) :
    Peruses names p first (i.asks request false) s done []
      (if attempt < Listing.pageAttempts then some (marker, attempt + 1) else none) where
  sound := h.sound
  steady := h.steady
  pages := h.pages
  items := h.items
  answered := by
    rw [h.answered, asks, List.filter_append]
    exact congrArg List.length (List.append_nil _).symm
  goes x hx := by
    obtain ⟨hopen, hmarker⟩ := h.goes _ rfl
    split at hx
    · cases hx
      exact ⟨hopen, hmarker⟩
    · cases hx
  ends _ := .inr ⟨_, List.mem_append_right _ (List.mem_singleton_self _), rfl⟩
  accepted := h.accepted

/-- A page is one of the store as it is by then. -/
theorem Peruses.answers (h : Peruses names p first i s done [] (some (marker, attempt)))
    (hnamed : first.Named names) {store : ItemStore} (hlater : first.Later names store) {page : ListPage}
    (hpage : page = store.pageAt (p.request i.path p.query marker)) :
    Peruses names p first (i.asks (p.request i.path p.query marker) true)
      ⟨store, page.nextMarker, page.isLast, s.pages ++ [(store, page)]⟩ done page.items
      (if page.isLast then none else some (page.nextMarker, 1)) := by
  obtain ⟨hopen, rfl⟩ := h.goes _ rfl
  have hstore := hlater.named hnamed
  have hbrings : page.Brings (p.request i.path p.query "") store s.marker :=
    hpage ▸ ItemStore.brings_pageAt hstore _ _
  constructor
  case sound => exact (h.sound.of_store hstore).turns hstore hbrings
  case steady =>
    intro hlimit hne
    have hfilled : store.Named (· ≠ "") := fun directory items hitems =>
      ⟨(hstore directory items hitems).1, fun item hitem => hne _ ((hstore directory items hitems).2 item hitem)⟩
    have hleads : page.Leads :=
      hpage ▸ @ItemStore.leads_pageAt store (p.request i.path p.query "") hfilled hlimit s.marker
    exact ((h.steady hlimit hne).of_store store).turns hopen hbrings hleads store
  case pages => exact List.forall_mem_append.mpr ⟨h.pages, List.forall_mem_singleton.mpr ⟨hlater, _, hpage⟩⟩
  case items => rw [List.flatMap_append, h.items, List.append_nil, List.flatMap_singleton]
  case answered =>
    rw [List.length_append, h.answered, asks, List.filter_append, List.length_append]
    rfl
  case goes =>
    intro x hx
    split at hx
    · cases hx
    next hmore =>
      cases hx
      exact ⟨Bool.eq_false_iff.mpr hmore, rfl⟩
  case ends =>
    intro hlast
    split at hlast
    next hdone => exact .inl hdone
    · cases hlast
  case accepted => exact h.accepted

theorem Peruses.accepts {item : Item} {event : Event} (h : Peruses names p first i s done (item :: rest) ahead)
    (hevent : Survey.Brings i.path item event) :
    Peruses names p first (i.accepts event) s (done ++ [item]) rest ahead where
  sound := h.sound
  steady := h.steady
  pages := h.pages
  items := by
    rw [List.append_assoc, List.singleton_append]
    exact h.items
  answered := h.answered
  goes := h.goes
  ends := h.ends
  accepted := List.rel_append h.accepted (.cons hevent .nil)

/-- **Whatever a listing does**, it is one of the store as it changes. -/
theorem lasts_peruses (hnamed : first.Named names) (p : ItemPoller) :
    Lasts p (fun request page => ∃ store, first.Later names store ∧ page = store.pageAt request)
      (fun rest ahead i => ∃ s done, Peruses names p first i s done rest ahead) where
  begins path _ := ⟨_, _, peruses_new hnamed p path⟩
  fails h := by
    obtain ⟨s, done, h⟩ := h
    exact ⟨s, done, h.fails _⟩
  answers h _ hpage := by
    obtain ⟨s, done, h⟩ := h
    obtain ⟨store, hlater, heq⟩ := hpage
    exact ⟨_, done, h.answers hnamed hlater heq⟩
  accepts h hevent := by
    obtain ⟨s, done, h⟩ := h
    exact ⟨s, _, h.accepts hevent⟩

/-- **What the listing of a path brings** that asks for all items. -/
structure Relists (names : String → Prop) (p : ItemPoller) (first : ItemStore) (isOver : Bool) (i : Inquiry) :
    Prop where
  /-- The events that were accepted are of items as they were stored since the cycle began. When the search is
  over and none of the requests failed, an event of each item that was there at first is among them. -/
  brings : ∃ items, List.Forall₂ (Survey.Brings i.path) items i.accepted ∧
    (∀ item ∈ items, ∃ store, first.Later names store ∧
      (store.entries i.path).get? item.name = some item.attributes) ∧
    (isOver = true → (∀ x ∈ i.asked, x.2 = true) →
      ∀ name, first.Holds i.path name → name ∈ items.map Item.name)
  /-- There are no more pages than names, and one, unless pages or names are empty. -/
  finite : p.settings.pageSize ≠ 0 → ∀ held : List String, (∀ name, names name → name ∈ held) → "" ∉ held →
    (i.asked.filter Prod.snd).length ≤ held.length + 1

/-- The items of the pages were stored. -/
theorem Peruses.stored (h : Peruses names p first i s done rest ahead) (hnamed : first.Named names) :
    ∀ item ∈ done ++ rest, ∃ store, first.Later names store ∧
      (store.entries i.path).get? item.name = some item.attributes := by
  rw [← h.items]
  intro item hitem
  obtain ⟨x, hx, hpage⟩ := List.mem_flatMap.mp hitem
  obtain ⟨hlater, marker, heq⟩ := h.pages x hx
  rw [heq] at hpage
  exact ⟨x.1, hlater, ((ItemStore.mem_matching_iff (hlater.named hnamed)).mp (List.mem_of_mem_take hpage)).1⟩

theorem Peruses.names_eq (h : Peruses names p first i s done rest ahead) :
    s.names = (done ++ rest).map Item.name := by
  rw [← h.items, List.map_flatMap]
  rfl

/-- As long as there are so many names, there are not more pages, and one. -/
theorem Peruses.length_pages_le (h : Peruses names p first i s done rest ahead) (hnamed : first.Named names)
    (hsteady : s.Steady) {held : List String} (hheld : ∀ name, names name → name ∈ held) :
    s.pages.length ≤ held.length + 1 := by
  have hsub : s.names ⊆ held := by
    rw [h.names_eq]
    intro name hname
    obtain ⟨item, hitem, rfl⟩ := List.mem_map.mp hname
    obtain ⟨store, hlater, hget⟩ := h.stored hnamed item hitem
    exact hheld _ (((hlater.named hnamed).sorted_entries _).2 _ (Keyed.mem_of_get? hget))
  have hnames := hsteady.length_le_of_subset hsub
  have hlast := hsteady.last
  omega

variable {a : PollSetup} {isFirst : Bool}

theorem Peruses.relists (h : Peruses names (a.poller isFirst) first i s done rest ahead)
    (hincremental : a.settings.incremental = false) (htakes : a.TakesAll) (hnamed : first.Named names)
    {isOver : Bool} (hover : isOver = true → rest = [] ∧ ahead = none) :
    i.Relists names (a.poller isFirst) first isOver where
  brings := by
    refine ⟨done, h.accepted, fun item hitem => h.stored hnamed item (List.mem_append_left _ hitem),
      fun hdone hanswered name hholds => ?_⟩
    obtain ⟨rfl, rfl⟩ := hover hdone
    have hfinished : s.finished = true := (h.ends rfl).resolve_right fun ⟨x, hx, hfailed⟩ =>
      Bool.false_ne_true (hfailed.symm.trans (hanswered x hx))
    -- Whatever was stored and stamped since, the item was there for each of the requests, and none left it out.
    have hoffers : ∀ x ∈ s.pages, x.1.Offers (a.request isFirst i.path "") name := by
      intro x hx
      obtain ⟨attributes, hget⟩ := (h.pages x hx).1.holds hholds
      exact ⟨attributes, hget, (PollSetup.takesAll_iff hincremental).mp htakes isFirst i.path "" attributes⟩
    have hname := (h.sound.ahead name hoffers).resolve_right fun hmore =>
      Bool.false_ne_true (hmore.1.symm.trans hfinished)
    rwa [h.names_eq, List.append_nil] at hname
  finite hlimit held hheld hempty := by
    have hne : ∀ name, names name → name ≠ "" := by
      rintro name hname rfl
      exact hempty (hheld "" hname)
    rw [← h.answered]
    exact h.length_pages_le hnamed (h.steady hlimit hne) hheld

end Inquiry

/-! ### The law -/

namespace CycleListings

variable {names : String → Prop} {a : PollSetup} {isFirst : Bool} {signal : Signal} {world : World}
  {source : PollSource} {s s' : CycleListings}

/-- One move of anybody, in which the store is used as stores are; the moves of the task itself are such, by
`PollSource.later_of_step`. -/
def Shared (signal : Signal) (names : String → Prop) (s s' : CycleListings) : Prop :=
  Step signal s s' ∧ s.store.Later names s'.store

/-- Whatever the listings ask for, they are told of the store as it is by then. -/
theorem served_of_shared {p : ItemPoller}
    (hr : Relation.ReflTransGen (Shared signal names) (opened p world source) s) :
    world.clients.items.Later names s.store ∧ Relation.ReflTransGen (Served signal p fun request page =>
      ∃ store, world.clients.items.Later names store ∧ page = store.pageAt request) (opened p world source) s := by
  induction hr with
  | refl => exact ⟨.refl, .refl⟩
  | tail _ hs ih =>
    have hlater := ih.1.trans hs.2
    exact ⟨hlater, ih.2.tail ⟨hs.1, fun l _ marker _ => ⟨_, hlater, rfl⟩⟩⟩

/-- **What a cycle brings of a poller that asks for all items**, if nothing in its settings keeps items from it:
with whatever suffixes, queries and attributes, in the first cycle or a later one, whatever is stored and stamped
meanwhile, whichever requests fail, and in whatever order all moves are made, if the run is not told to stop.
When the search is over, an event of each item was sent that a path held at first, stamped or not, unless a
request for the path failed; each event is of an item as it was stored since, and the end of the cycle is told
once, after all events. -/
theorem relists_of_reachable (hincremental : a.settings.incremental = false) (htakes : a.TakesAll)
    (hnamed : world.clients.items.Named names)
    (hr : Relation.ReflTransGen (Shared signal names) (opened (a.poller isFirst) world source) s)
    (hgoes : s.isStopped signal = false) :
    s.Tells signal (a.poller isFirst) (Inquiry.Relists names (a.poller isFirst) world.clients.items) := by
  have hholds : ∀ i rest ahead isOver, i.path ∈ (a.poller isFirst).settings.paths →
      (∃ s done, Inquiry.Peruses names (a.poller isFirst) world.clients.items i s done rest ahead) →
        (isOver = true → rest = [] ∧ ahead = none) →
          i.Relists names (a.poller isFirst) world.clients.items isOver := by
    rintro i rest ahead isOver - ⟨s, done, h⟩ hover
    exact h.relists hincremental htakes hnamed hover
  exact tells_of_reachable (Inquiry.lasts_peruses hnamed _) hholds
    (fun l _ marker _ => ⟨_, .refl, rfl⟩) (served_of_shared hr).2 hgoes

/-- **What a text in the settings keeps from the poller**: if one of them makes the query one for changed items, a
cycle sends no event as long as the stamps of all items under its paths are up to date. -/
theorem silent_of_stamped (hincremental : a.settings.incremental = false)
    (hclause : ∃ text ∈ a.settings.suffixes ++ a.settings.queries, ItemStore.isIncremental text = true)
    (hstamped : ∀ path ∈ a.settings.paths, ∀ entry ∈ world.clients.items.entries path,
      ItemStore.alreadyStamped (a.request isFirst path "") entry.2 = true)
    (hr : Relation.ReflTransGen (Quiet signal (a.poller isFirst) world.clients.items)
      (opened (a.poller isFirst) world source) s)
    (hgoes : s.isStopped signal = false) : ∀ message ∈ s.sent, message = .cycleComplete := by
  have hquery : ItemStore.isIncremental (a.query isFirst) = true := by
    rw [PollSetup.query, ItemPoller.isIncremental_queryText_eq_any hincremental, List.any_eq_true]
    exact hclause
  have hlasts : Inquiry.Lasts (a.poller isFirst) (fun request page => page = world.clients.items.pageAt request)
      (fun rest _ i => rest = [] ∧ i.accepted = []) := by
    constructor
    case begins => exact fun path _ => ⟨rfl, rfl⟩
    case fails => exact fun h => h
    case answers =>
      intro i marker attempt page h hpath hpage
      have hnothing := @ItemStore.matching_eq_nil (a.request isFirst i.path marker) _ hquery (hstamped i.path hpath)
      have hitems : page.items = [] := by
        rw [hpage]
        exact (congrArg (List.take _) hnothing).trans List.take_nil
      exact ⟨hitems, h.2⟩
    case accepts => exact fun h _ => absurd h.1 (List.cons_ne_nil _ _)
  have htells : s.Tells signal (a.poller isFirst) fun _ i => i.accepted = [] :=
    tells_of_reachable hlasts (fun _ _ _ _ _ h _ => h.2) (undisturbed_of_directories rfl _) hr hgoes
  obtain ⟨events, hsent, hperm, -⟩ := htells.messages
  have hnone : events = [] := by
    have hall : s.inquiries.flatMap Inquiry.accepted = [] := List.flatMap_eq_nil_iff.mpr htells.inquiries
    rw [hall] at hperm
    exact hperm.eq_nil
  rw [hsent, hnone]
  split
  · exact fun message hmessage => List.mem_singleton.mp hmessage
  · exact fun message hmessage => absurd hmessage (List.not_mem_nil)

/-- A search uses the store as stores are used. -/
theorem shared_of_searched {n : Nat} (h : searched n s = some s') :
    Relation.ReflTransGen (Shared signal names) s s' :=
  (reachable_of_searched h rfl).lift id fun _ _ hs => ⟨hs.1, .single (.rests (hs.2.2.trans hs.2.1.symm))⟩

/-- A poller that asks for all items, with one suffix and one query. -/
def asksForAll (query : String) : PollSetup where
  id := "p"
  settings := { paths := ["/d"], queries := [query], suffixes := [".jpg"], incremental := false, pageSize := 2,
                poll := ⟨1000, 64⟩ }
  limit := 10
  crew := .ofIndices .shared [0]

/-- Two items, of which the poller `p` has stamped the first. -/
def halfStamped : ItemStore :=
  (((ItemStore.new.put "/d" "a.jpg" [] ⟨5, 0⟩).put "/d" "b.jpg" [] ⟨5, 0⟩).update "/d/a.jpg"
    ((ItemPoller.new "p" default).stampOf (.blank ⟨5, 0⟩))).2

theorem named_halfStamped {names : String → Prop} (ha : names "a.jpg") (hb : names "b.jpg") :
    halfStamped.Named names := (((ItemStore.named_new _).put ha _ _ _).put hb _ _ _).update _ _

/-- The world of a store, before anything else happened. -/
def worldOf (items : ItemStore) : World :=
  { World.start ⟨0, 0⟩ .echo with clients := { Clients.new with items } }

/-- A later cycle brings both items, and there is no second page. -/
theorem relists_both :
    ∃ s : CycleListings, Relation.ReflTransGen (Shared 0 (· ∈ ["a.jpg", "b.jpg"]))
        (opened ((asksForAll "__size > 0").poller false) (worldOf halfStamped) (asksForAll "__size > 0").source) s ∧
      (s.inquiries.map fun i => (i.asked.map Prod.snd, i.accepted.map Event.path)) =
        [([true], ["/d/a.jpg", "/d/b.jpg"])] ∧
      s.cycle.producer.isDone = true ∧
      s.Tells 0 ((asksForAll "__size > 0").poller false)
        (Inquiry.Relists (· ∈ ["a.jpg", "b.jpg"]) ((asksForAll "__size > 0").poller false) halfStamped) := by
  have htakes : (asksForAll "__size > 0").TakesAll := .inl (by decide +kernel)
  have hnamed : (worldOf halfStamped).clients.items.Named (· ∈ ["a.jpg", "b.jpg"]) :=
    named_halfStamped (by decide) (by decide)
  obtain ⟨s, hs, hinquiries, hdone, hgoes⟩ := exists_of_searched (show (searched 6 (opened
      ((asksForAll "__size > 0").poller false) (worldOf halfStamped) (asksForAll "__size > 0").source)).any (fun s =>
    (s.inquiries.map fun i => (i.asked.map Prod.snd, i.accepted.map Event.path)) =
        [([true], ["/d/a.jpg", "/d/b.jpg"])] ∧
      s.cycle.producer.isDone = true ∧ s.isStopped 0 = false) = true by decide +kernel)
  have hr : Relation.ReflTransGen (Shared 0 (· ∈ ["a.jpg", "b.jpg"])) _ s := shared_of_searched hs
  exact ⟨s, hr, hinquiries, hdone, relists_of_reachable rfl htakes hnamed hr hgoes⟩

/-- With a query of its own on the time of items, the poller is not told again of an item that it has stamped. -/
theorem not_relists_of_query :
    ¬ ∀ (a : PollSetup) (isFirst : Bool) (names : String → Prop) (world : World) (source : PollSource)
      (signal : Signal) (s : CycleListings), a.settings.incremental = false → world.clients.items.Named names →
      Relation.ReflTransGen (Shared signal names) (opened (a.poller isFirst) world source) s →
        s.isStopped signal = false →
          s.Tells signal (a.poller isFirst) (Inquiry.Relists names (a.poller isFirst) world.clients.items) := by
  intro hlaw
  obtain ⟨s, hs, hinquiries, hdone, hgoes⟩ := exists_of_searched (show (searched 5 (opened
      ((asksForAll "__mtime_secs > 0").poller false) (worldOf halfStamped)
      (asksForAll "__mtime_secs > 0").source)).any (fun s =>
    (s.inquiries.map fun i => (i.path, i.asked.map Prod.snd, i.accepted.map Event.path)) =
        [("/d", [true], ["/d/b.jpg"])] ∧
      s.cycle.producer.isDone = true ∧ s.isStopped 0 = false) = true by decide +kernel)
  have hr : Relation.ReflTransGen (Shared 0 fun _ => True) _ s := shared_of_searched hs
  have htells := hlaw (asksForAll "__mtime_secs > 0") false _ (worldOf halfStamped) _ 0 s rfl
    (named_halfStamped trivial trivial) hr hgoes
  obtain ⟨i, hi, heq⟩ := List.map_eq_singleton_iff.mp hinquiries
  obtain ⟨hpath, heq⟩ := Prod.mk.inj heq
  obtain ⟨hanswered, haccepted⟩ := Prod.mk.inj heq
  obtain ⟨items, hbrings, -, hwhole⟩ := (htells.inquiries i (hi ▸ List.mem_singleton_self i)).brings
  have hall : ∀ x ∈ i.asked, x.2 = true := by
    intro x hx
    have hmem := List.mem_map_of_mem (f := Prod.snd) hx
    rw [hanswered] at hmem
    exact List.mem_singleton.mp hmem
  have hholds : halfStamped.Holds "/d" "a.jpg" := Option.isSome_iff_exists.mp (by decide +kernel)
  have hname := hwhole hdone hall "a.jpg" (hpath ▸ hholds)
  have hevents := Survey.paths_of_brings hbrings
  rw [haccepted, hpath] at hevents
  have hmem : ItemPoller.itemPath "/d" "a.jpg" ∈ ["/d/b.jpg"] := hevents ▸ List.mem_map_of_mem hname
  revert hmem
  decide +kernel

end CycleListings

end EventDispatch
