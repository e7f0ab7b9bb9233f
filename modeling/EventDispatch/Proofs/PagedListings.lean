import EventDispatch.Proofs.ItemStore
import Mathlib.Data.List.Nodup
import Mathlib.Data.List.Perm.Subperm
import Mathlib.Logic.Relation

/-!
# Listings while the store changes

A listing asks for one page after another, each from the last name of the page before, until a page holds
the last item. Meanwhile items are stored and stamped, so that what a request asks for is not the same from
one page to the next. The names come in order nevertheless, none of them twice, and an item that every
request asked for is on one of the pages. As long as no name is new, there are no more requests than items,
and one.

## What is deliberately absent

Names need not be such that a path can be made of them; they are not empty, and that is all. An item that
is not asked for at one of the requests may be missing or not, according to when that was.

## Main definitions

* `ItemStore.Offers`: an item is there, and a request does not leave it out.
* `ListPage.Brings`, `ListPage.Leads`: what one page brings of what a request asks for, and where it leads.
* `PagedListing`: a listing on its way, with the store before each of its requests; `PagedListing.Step` is one move of
  anybody.
* `PagedListing.Complete`: the law.

## Main results

* `ItemStore.brings_pageAt`: a page brings what is asked for, in order, and leaves nothing out.
* `PagedListing.Sound.turns`, `PagedListing.Steady.turns`: what one more page does.
* `PagedListing.complete_of_reachable`: the law, for every run.
-/

namespace EventDispatch

/-- An item of that name is in the directory, and the request does not leave it out for its stamps. -/
def ItemStore.Offers (request : ListRequest) (name : String) (s : ItemStore) : Prop :=
  ∃ attributes, (s.entries request.path).get? name = some attributes ∧
    ¬(isIncremental request.query = true ∧ alreadyStamped request attributes = true)

/-- **What one page brings** that starts after a marker: names in order, of items that are asked for; and what
is asked for and not on the page comes after the next marker, if that is not empty; so that the page is not the
last. -/
structure ListPage.Brings (request : ListRequest) (store : ItemStore) (marker : String) (page : ListPage) :
    Prop where
  increasing : (page.items.map Item.name).Pairwise (· < ·)
  offered : ∀ item ∈ page.items, store.Offers request item.name
  after : ∀ item ∈ page.items, marker = "" ∨ marker < item.name
  ahead : ∀ name, store.Offers request name → marker = "" ∨ marker < name →
    name ∈ page.items.map Item.name ∨ page.isLast = false ∧ (page.nextMarker = "" ∨ page.nextMarker < name)

/-- A page that is not the last ends with the next marker, and that is not empty. -/
def ListPage.Leads (page : ListPage) : Prop :=
  page.isLast = false → page.nextMarker ≠ "" ∧ ∃ item ∈ page.items, item.name = page.nextMarker ∧
    ∀ other ∈ page.items, other.name ≤ page.nextMarker

namespace ItemStore

variable {store store' : ItemStore} {request : ListRequest} {marker name : String} {item : Item}
  {names : String → Prop}

/-- What is asked for is there, is not left out, and comes after the marker. -/
theorem offers_of_mem_matching (h : store.Named names) (hitem : item ∈ store.matching { request with marker }) :
    store.Offers request item.name ∧ (marker = "" ∨ marker < item.name) ∧ names item.name := by
  obtain ⟨hget, hmarker, hstamp⟩ := (mem_matching_iff h).mp hitem
  exact ⟨⟨item.attributes, hget, hstamp⟩, hmarker, (h.sorted_entries _).2 _ (Keyed.mem_of_get? hget)⟩

theorem exists_of_offers (h : store.Named names) (hoffers : store.Offers request name)
    (hmarker : marker = "" ∨ marker < name) :
    ∃ item ∈ store.matching { request with marker }, item.name = name := by
  obtain ⟨attributes, hget, hstamp⟩ := hoffers
  exact ⟨⟨name, attributes⟩, (mem_matching_iff h).mpr ⟨hget, hmarker, hstamp⟩, rfl⟩

/-- What is asked for and not on a page comes after it, so that the page is not the last. -/
theorem mem_page_or_ahead (h : store.Named names) (hoffers : store.Offers request name)
    (hmarker : marker = "" ∨ marker < name) :
    name ∈ (store.pageAt { request with marker }).items.map Item.name ∨
      (store.pageAt { request with marker }).isLast = false ∧
        ((store.pageAt { request with marker }).nextMarker = "" ∨
          (store.pageAt { request with marker }).nextMarker < name) := by
  obtain ⟨item, hitem, rfl⟩ := exists_of_offers h hoffers hmarker
  have hsorted := sorted_matching h { request with marker }
  rw [← List.take_append_drop request.limit (store.matching { request with marker })] at hitem hsorted
  rcases List.mem_append.mp hitem with hitem | hitem
  · exact .inl (List.mem_map_of_mem hitem)
  · have hlong : request.limit < (store.matching { request with marker }).length := by
      have hpos := List.length_pos_of_mem hitem
      rw [List.length_drop] at hpos
      omega
    have hmore : (store.pageAt { request with marker }).isLast = false := decide_eq_false (not_le.mpr hlong)
    refine .inr ⟨hmore, ?_⟩
    by_cases hlimit : request.limit = 0
    · refine .inl ?_
      rw [pageAt, hlimit, List.take_zero]
      rfl
    · obtain ⟨last, hlast, heq⟩ := @exists_last_of_more store { request with marker } hlimit hmore
      rw [heq]
      exact .inr ((List.pairwise_append.mp hsorted).2.2 last (List.mem_of_getLast? hlast) item hitem)

/-- **A page** brings what is asked for, in order, and leaves nothing out up to the next marker. -/
theorem brings_pageAt (h : store.Named names) (request : ListRequest) (marker : String) :
    (store.pageAt { request with marker }).Brings request store marker := by
  have hsub := List.take_sublist request.limit (store.matching { request with marker })
  have hmem := fun item hitem => @offers_of_mem_matching store request marker item names h (hsub.subset hitem)
  exact ⟨List.pairwise_map.mpr ((sorted_matching h _).sublist hsub), fun item hitem => (hmem item hitem).1,
    fun item hitem => (hmem item hitem).2.1, fun name hoffers hmarker => mem_page_or_ahead h hoffers hmarker⟩

theorem leads_pageAt (h : store.Named (· ≠ "")) (hlimit : request.limit ≠ 0) (marker : String) :
    (store.pageAt { request with marker }).Leads := by
  intro hmore
  obtain ⟨last, hlast, heq⟩ := @exists_last_of_more store { request with marker } hlimit hmore
  have hmem : last ∈ (store.pageAt { request with marker }).items := List.mem_of_getLast? hlast
  have hne : last.name ≠ "" :=
    (@offers_of_mem_matching store request marker last _ h (List.mem_of_mem_take hmem)).2.2
  exact ⟨heq ▸ hne, last, hmem, heq.symm, fun other hother => (name_le_last h hlast hother).trans heq.ge⟩

end ItemStore

/-- A listing on its way. -/
structure PagedListing where
  store : ItemStore
  /-- The name after which the next page starts. -/
  marker : String
  /-- A page held the last item. -/
  finished : Bool
  /-- The pages so far, each with the store as it was asked for. -/
  pages : List (ItemStore × ListPage)

namespace PagedListing

/-- A listing that has not asked for a page. -/
def opened (store : ItemStore) : PagedListing := ⟨store, "", false, []⟩

/-- The names on all pages so far. -/
def names (s : PagedListing) : List String := s.pages.flatMap fun x => x.2.items.map Item.name

/-- One move of anybody. -/
inductive Step (request : ListRequest) : PagedListing → PagedListing → Prop
  /-- The listing asks for the next page. -/
  | turns {s : PagedListing} {page : ListPage} {store : ItemStore} (hopen : s.finished = false)
      (hs : s.store.list { request with marker := s.marker } = (.ok page, store)) :
      Step request s ⟨store, page.nextMarker, page.isLast, s.pages ++ [(s.store, page)]⟩
  /-- Somebody asks for another page, or a request fails. -/
  | lists (s : PagedListing) (other : ListRequest) : Step request s { s with store := (s.store.list other).2 }
  /-- Requests are made to fail. -/
  | fails (s : PagedListing) (failing : Nat) : Step request s { s with store := { s.store with failing } }
  /-- An item is stored. -/
  | puts (s : PagedListing) (directory : String) {name : String} (attributes : Json.Object) (now : Timestamp)
      (hname : name ≠ "") : Step request s { s with store := s.store.put directory name attributes now }
  /-- Attributes are laid over those of an item. -/
  | updates (s : PagedListing) (path : String) (attributes : Json.Object) :
      Step request s { s with store := (s.store.update path attributes).2 }

/-- What a listing brings that began with a store. -/
structure Complete (request : ListRequest) (first : ItemStore) (s : PagedListing) : Prop where
  /-- The names increase from page to page. -/
  increasing : s.names.Pairwise (· < ·)
  /-- What is on a page was asked for. -/
  offered : ∀ x ∈ s.pages, ∀ item ∈ x.2.items, x.1.Offers request item.name
  /-- What every request asked for comes once. -/
  once : s.finished = true → ∀ name, (∀ x ∈ s.pages, x.1.Offers request name) → s.names.count name = 1
  /-- A listing that is not finished can go on, unless requests are made to fail. -/
  goesOn : s.finished = false → s.store.failing = 0 → ∃ s', Step request s s' ∧
    s'.pages.length = s.pages.length + 1
  /-- As long as no name is new there, it is finished after so many requests as there are items, and one. -/
  ends : (∀ x ∈ s.pages, ∀ name, (x.1.entries request.path).get? name ≠ none →
      (first.entries request.path).get? name ≠ none) →
    s.pages.length ≤ (first.entries request.path).length + 1 ∧
      (s.pages.length = (first.entries request.path).length + 1 → s.finished = true)

/-! ### What every move keeps -/

/-- What is on the pages was asked for, and what every request asked for and did not bring comes after the
marker. -/
structure Sound (names : String → Prop) (request : ListRequest) (s : PagedListing) : Prop where
  named : s.store.Named names
  offered : ∀ x ∈ s.pages, ∀ item ∈ x.2.items, x.1.Offers request item.name
  ahead : ∀ name, (∀ x ∈ s.pages, x.1.Offers request name) →
    name ∈ s.names ∨ s.finished = false ∧ (s.marker = "" ∨ s.marker < name)

/-- The names so far increase up to the marker, and no page but the last is empty. -/
structure Steady (s : PagedListing) : Prop where
  increasing : s.names.Pairwise (· < ·)
  passed : s.finished = false → ∀ name ∈ s.names, s.marker ≠ "" ∧ name ≤ s.marker
  filled : s.finished = false → s.pages.length ≤ s.names.length
  last : s.pages.length ≤ s.names.length + 1

variable {names : String → Prop} {request : ListRequest} {s s' : PagedListing} {page : ListPage} {store : ItemStore}

theorem sound_opened (h : store.Named names) (request : ListRequest) : Sound names request (opened store) where
  named := h
  offered _ hm := by cases hm
  ahead _ _ := .inr ⟨rfl, .inl rfl⟩

theorem steady_opened (store : ItemStore) : Steady (opened store) where
  increasing := List.Pairwise.nil
  passed _ _ hm := by cases hm
  filled _ := Nat.le_refl _
  last := Nat.zero_le _

/-- Whatever else happens to the store, the listing stays where it is. -/
theorem Sound.of_store (h : Sound names request s) (ho : store.Named names) :
    Sound names request { s with store } :=
  ⟨ho, h.offered, h.ahead⟩

theorem Steady.of_store (h : Steady s) (store : ItemStore) : Steady { s with store } :=
  ⟨h.increasing, h.passed, h.filled, h.last⟩

theorem names_append (s : PagedListing) (store before : ItemStore) (marker : String) (finished : Bool)
    (page : ListPage) : PagedListing.names ⟨store, marker, finished, s.pages ++ [(before, page)]⟩ =
      s.names ++ page.items.map Item.name := by
  simp [PagedListing.names]

/-- **One more page**: what it leaves out is still ahead. -/
theorem Sound.turns (h : Sound names request s) (hnamed : store.Named names)
    (hpage : page.Brings request s.store s.marker) :
    Sound names request ⟨store, page.nextMarker, page.isLast, s.pages ++ [(s.store, page)]⟩ := by
  refine ⟨hnamed, List.forall_mem_append.mpr ⟨h.offered, List.forall_mem_singleton.mpr hpage.offered⟩,
    fun name hoffers => ?_⟩
  obtain ⟨hbefore, hnow⟩ := List.forall_mem_append.mp hoffers
  rw [names_append, List.mem_append, or_assoc]
  rcases h.ahead name hbefore with hname | ⟨-, hmarker⟩
  · exact .inl hname
  · exact .inr (hpage.ahead name (hnow (s.store, page) (List.mem_singleton_self _)) hmarker)

/-- It begins after all names so far. -/
theorem Steady.turns (h : Steady s) (hopen : s.finished = false) (hpage : page.Brings request s.store s.marker)
    (hleads : page.Leads) (store : ItemStore) :
    Steady ⟨store, page.nextMarker, page.isLast, s.pages ++ [(s.store, page)]⟩ := by
  have hafter : ∀ name ∈ s.names, ∀ item ∈ page.items, name < item.name := by
    intro name hname item hitem
    obtain ⟨hmarker, hle⟩ := h.passed hopen name hname
    exact hle.trans_lt ((hpage.after item hitem).resolve_left hmarker)
  have hfilled := h.filled hopen
  refine ⟨?_, fun hmore name hname => ?_, fun hmore => ?_, ?_⟩
  · rw [names_append, List.pairwise_append]
    refine ⟨h.increasing, hpage.increasing, fun name hname other hother => ?_⟩
    obtain ⟨item, hitem, rfl⟩ := List.mem_map.mp hother
    exact hafter name hname item hitem
  · obtain ⟨hmarker, last, hlast, heq, hle⟩ := hleads hmore
    refine ⟨hmarker, ?_⟩
    rw [names_append] at hname
    rcases List.mem_append.mp hname with hname | hname
    · exact (hafter name hname last hlast).le.trans heq.le
    · obtain ⟨item, hitem, rfl⟩ := List.mem_map.mp hname
      exact hle item hitem
  · obtain ⟨-, last, hlast, -⟩ := hleads hmore
    have hpos := List.length_pos_of_mem hlast
    rw [names_append, List.length_append, List.length_append, List.length_map, List.length_singleton]
    omega
  · rw [names_append, List.length_append, List.length_append, List.length_singleton]
    omega

/-- **What one move of anybody keeps.** -/
theorem Sound.step (h : Sound (· ≠ "") request s) (hs : Step request s s') : Sound (· ≠ "") request s' := by
  cases hs with
  | turns hopen hlist =>
    have hsame := ItemStore.directories_list { request with marker := s.marker } s.store
    rw [hlist] at hsame
    obtain rfl := ItemStore.eq_pageAt_of_list hlist
    exact h.turns (h.named.of_directories hsame) (ItemStore.brings_pageAt h.named request s.marker)
  | lists other => exact h.of_store (h.named.of_directories (ItemStore.directories_list other s.store))
  | fails failing => exact h.of_store (h.named.of_directories rfl)
  | puts directory attributes now hname => exact h.of_store (h.named.put hname directory attributes now)
  | updates path attributes => exact h.of_store (h.named.update path attributes)

theorem Steady.step (h : Steady s) (hnamed : s.store.Named (· ≠ "")) (hlimit : request.limit ≠ 0)
    (hs : Step request s s') : Steady s' := by
  cases hs with
  | turns hopen hlist =>
    obtain rfl := ItemStore.eq_pageAt_of_list hlist
    exact h.turns hopen (ItemStore.brings_pageAt hnamed request s.marker)
      (ItemStore.leads_pageAt hnamed hlimit s.marker) _
  | lists | fails | puts | updates => exact h.of_store _

theorem Sound.of_reachable (h : Sound (· ≠ "") request s) (hsteady : s.Steady) (hlimit : request.limit ≠ 0)
    (hr : Relation.ReflTransGen (Step request) s s') : Sound (· ≠ "") request s' ∧ s'.Steady := by
  induction hr with
  | refl => exact ⟨h, hsteady⟩
  | tail _ hs ih =>
    obtain ⟨hsound, hsteady⟩ := ih
    exact ⟨hsound.step hs, hsteady.step hsound.named hlimit hs⟩

/-! ### The law -/

theorem Steady.nodup (h : s.Steady) : s.names.Nodup := List.Pairwise.imp (fun hlt => hlt.ne) h.increasing

theorem Steady.length_le_of_subset (h : s.Steady) {held : List String} (hsub : s.names ⊆ held) :
    s.names.length ≤ held.length :=
  (List.subperm_of_subset h.nodup hsub).length_le

/-- As long as no name is new, all names that come were there at first. -/
theorem Steady.length_names_le (hsteady : s.Steady) (h : Sound names request s) {first : ItemStore}
    (hold : ∀ x ∈ s.pages, ∀ name, (x.1.entries request.path).get? name ≠ none →
      (first.entries request.path).get? name ≠ none) :
    s.names.length ≤ (first.entries request.path).length := by
  have hsub : s.names ⊆ (first.entries request.path).map Prod.fst := by
    intro name hname
    obtain ⟨x, hx, hpage⟩ := List.mem_flatMap.mp hname
    obtain ⟨item, hitem, rfl⟩ := List.mem_map.mp hpage
    obtain ⟨attributes, hget, -⟩ := h.offered x hx item hitem
    obtain ⟨value, hvalue⟩ := Option.ne_none_iff_exists'.mp (hold x hx item.name (by simp [hget]))
    exact List.mem_map_of_mem (Keyed.mem_of_get? hvalue)
  rw [← List.length_map Prod.fst]
  exact hsteady.length_le_of_subset hsub

theorem Sound.complete (h : Sound names request s) (hsteady : s.Steady) (first : ItemStore) :
    Complete request first s where
  increasing := hsteady.increasing
  offered := h.offered
  once hfinished name hoffers := by
    refine List.count_eq_one_of_mem hsteady.nodup ((h.ahead name hoffers).resolve_right fun hmore => ?_)
    rw [hfinished] at hmore
    exact Bool.noConfusion hmore.1
  goesOn hopen hfailing := by
    refine ⟨_, .turns hopen (ItemStore.list_eq hfailing _), ?_⟩
    rw [List.length_append, List.length_singleton]
  ends hold := by
    have hnames := hsteady.length_names_le h hold
    refine ⟨hsteady.last.trans (Nat.succ_le_succ hnames), fun hall => ?_⟩
    by_contra hopen
    have := hsteady.filled (Bool.not_eq_true _ ▸ hopen)
    omega

/-- **A listing is complete**, whatever is stored and stamped between its pages: its names increase, so that
none comes twice; when it is finished, each item that every request asked for came once; and as long as no
name is new, it needs one request more than there are items at most. -/
theorem complete_of_reachable {store : ItemStore} (hnamed : store.Named (· ≠ ""))
    (hlimit : request.limit ≠ 0) (hr : Relation.ReflTransGen (Step request) (opened store) s) :
    Complete request store s := by
  obtain ⟨hsound, hsteady⟩ := (sound_opened hnamed request).of_reachable (steady_opened store) hlimit hr
  exact hsound.complete hsteady store

/-- Two of three items come on the first page; then one of them is stamped and the other stored again, and the
second page holds the third item, once. -/
theorem complete_stamped_between :
    let store := (((ItemStore.new.put "/in" "a" [] ⟨1, 0⟩).put "/in" "b" [] ⟨1, 0⟩).put "/in" "c" [] ⟨1, 0⟩)
    let request : ListRequest := ⟨"/in", "__eventsource_vip_in_secs,__eventsource_vip_in_nsecs",
      "__mtime_secs > 0", 0, 1, 2, ""⟩
    store.Named (· ≠ "") ∧ request.limit ≠ 0 ∧
      ∃ s : PagedListing, Relation.ReflTransGen (Step request) (opened store) s ∧ s.finished = true ∧
        s.names = ["a", "b", "c"] ∧ Complete request store s := by
  intro store request
  have hnamed : store.Named (· ≠ "") :=
    (((ItemStore.named_new _).put (by decide) _ _ _).put (by decide) _ _ _).put (by decide) _ _ _
  have hlisted : Relation.ReflTransGen (Step request) (opened store) _ :=
    .tail .refl (.turns rfl (ItemStore.list_eq (show store.failing = 0 from rfl) _))
  have hstamped := hlisted.tail
    (Step.updates _ "/in/a" [("__eventsource_vip_in_secs", .ofInt 1), ("__eventsource_vip_in_nsecs", .ofNat 0)])
  have hstored := hstamped.tail (Step.puts _ "/in" [] ⟨2, 0⟩ (show "b" ≠ "" by decide))
  have hdone := hstored.tail (Step.turns (by decide +kernel) (ItemStore.list_eq (by decide +kernel) _))
  exact ⟨hnamed, by decide, _, hdone, by decide +kernel, by decide +kernel,
    complete_of_reachable hnamed (by decide) hdone⟩

end PagedListing

end EventDispatch
