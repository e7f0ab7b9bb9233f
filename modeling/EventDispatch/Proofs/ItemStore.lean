import EventDispatch.Proofs.ItemStanding

/-!
# What an item store holds and lists

Every item of a store has a path of its own, and only a put or an update at this path changes what the
store tells of it. A listing brings all that was asked for, page after page.

## Main definitions

* `ItemStore.Tidy`, `ItemStore.Named`: directories are in order and hold names only, of one kind or another.
* `ItemStore.Shows`: what a store tells of the item at a path.
* `ItemStore.pages`: a listing, page after page.

## Main results

* `ItemStore.item?_put`, `ItemStore.item?_update`: what is at a path after a put and an update.
* `ItemStore.mem_matching`: what a request asks for.
* `ItemStore.mem_pages`: it comes on one of the pages.
-/

namespace EventDispatch

namespace ItemStore

/-! ### Directories -/

/-- The items of a directory stand in order, under names. -/
def Tidy (s : ItemStore) : Prop := ∀ directory items, s.directories.get? directory = some items →
  items.Sorted ∧ ∀ item ∈ items, IsName item.1

variable {s : ItemStore} {id directory name path x : String} {attributes : Json.Object}
  {t t' now : Timestamp} {mark mark' : Option Timestamp} {stamp : Stamp}

/-- The items of a directory stand in order, under names of one kind. -/
def Named (names : String → Prop) (s : ItemStore) : Prop := ∀ directory items,
  s.directories.get? directory = some items → items.Sorted ∧ ∀ item ∈ items, names item.1

theorem named_new (names : String → Prop) : new.Named names := fun _ _ h => by cases h

theorem Named.of_directories {names : String → Prop} {s' : ItemStore} (h : s.Named names)
    (hsame : s'.directories = s.directories) : s'.Named names := by
  rw [Named, hsame]
  exact h

theorem Named.put {names : String → Prop} (h : s.Named names) (hname : names name) (directory : String)
    (attributes : Json.Object) (now : Timestamp) : (s.put directory name attributes now).Named names := by
  intro other items hitems
  have hnames : ∀ old : Keyed Json.Object, (∀ item ∈ old, names item.1) →
      ∀ item ∈ old.insert name (putAttributes name attributes now), names item.1 := by
    intro old hold item hm
    rcases Keyed.key_of_mem_insert hm with heq | ⟨item', hm', heq⟩
    · rw [heq]
      exact hname
    · rw [← heq]
      exact hold item' hm'
  have hput : (s.directories.insert (normalize directory)
      (((s.directories.get? (normalize directory)).getD []).insert name
        (putAttributes name attributes now))).get? other = some items := hitems
  rw [Keyed.get?_insert] at hput
  split at hput
  · cases hput
    cases hold : s.directories.get? (normalize directory) with
    | none => exact ⟨Keyed.sorted_nil.insert _ _, hnames [] (by simp)⟩
    | some old => exact ⟨(h _ old hold).1.insert _ _, hnames old (h _ old hold).2⟩
  · exact h other items hput

theorem tidy_new : Tidy new := named_new IsName

theorem Tidy.put (h : s.Tidy) (hname : IsName name) (directory : String) (attributes : Json.Object)
    (now : Timestamp) : (s.put directory name attributes now).Tidy :=
  Named.put h hname directory attributes now

theorem item?_eq (s : ItemStore) (x : String) : s.item? x = (splitPath? x).bind fun parts =>
    (s.directories.get? parts.1).bind fun items => items.get? parts.2 := rfl

/-- What an update does to the directories. -/
theorem directories_update (path : String) (attributes : Json.Object) (s : ItemStore) :
    (s.update path attributes).2.directories = s.directories ∧ s.item? path = none ∨
    ∃ directory name items old, splitPath? path = some (directory, name) ∧
      s.directories.get? directory = some items ∧ items.get? name = some old ∧
      (s.update path attributes).2.directories =
        Keyed.modify directory (·.insert name (old.merge attributes)) s.directories := by
  rw [update]
  rw [item?_eq]
  dsimp only
  cases hsplit : splitPath? path with
  | none => exact .inl ⟨rfl, rfl⟩
  | some parts =>
    obtain ⟨directory, name⟩ := parts
    rw [Option.bind_some]
    cases hitems : s.directories.get? directory with
    | none => simp [hitems]
    | some items =>
      cases hold : items.get? name with
      | none => simp [hitems, hold]
      | some old => exact .inr ⟨directory, name, items, old, rfl, hitems, hold, by simp [hitems, hold]⟩

theorem directories_list (request : ListRequest) (s : ItemStore) :
    (s.list request).2.directories = s.directories := by
  rw [list]
  dsimp only
  split <;> rfl

theorem updates_list (request : ListRequest) (s : ItemStore) : (s.list request).2.updates = s.updates := by
  rw [list]
  dsimp only
  split <;> rfl

theorem failing_of_list {request : ListRequest} {page : ListPage} {s' : ItemStore}
    (h : s.list request = (.ok page, s')) : s.failing = 0 := by
  rw [list] at h
  dsimp only at h
  split at h
  · cases h
  next hfailing => exact hfailing

theorem failing_update (path : String) (attributes : Json.Object) (s : ItemStore) :
    (s.update path attributes).2.failing = s.failing := by
  rw [update]
  dsimp only
  split
  · rfl
  · split <;> rfl

theorem Named.update {names : String → Prop} (h : s.Named names) (path : String)
    (attributes : Json.Object) : (s.update path attributes).2.Named names := by
  intro other items hitems
  rcases directories_update path attributes s with ⟨hsame, -⟩ |
    ⟨directory, name, before, old, -, hbefore, hold, hnew⟩
  · rw [hsame] at hitems
    exact h other items hitems
  · rw [hnew, Keyed.get?_modify] at hitems
    obtain ⟨hsorted, hnames⟩ := h directory before hbefore
    split at hitems
    next heq =>
      rw [heq, hbefore, Option.map_some, Option.some.injEq] at hitems
      subst hitems
      refine ⟨hsorted.insert _ _, fun item hm => ?_⟩
      rcases Keyed.key_of_mem_insert hm with hkey | ⟨item', hm', hkey⟩
      · rw [hkey]
        exact hnames _ (Keyed.mem_of_get? hold)
      · rw [← hkey]
        exact hnames item' hm'
    · exact h other items hitems

theorem Tidy.update (h : s.Tidy) (path : String) (attributes : Json.Object) :
    (s.update path attributes).2.Tidy := Named.update h path attributes

theorem item?_itemPath (hname : IsName name) (s : ItemStore) (directory : String) :
    s.item? (ItemPoller.itemPath directory name) =
      (s.directories.get? (normalize directory)).bind fun items => items.get? name := by
  rw [item?_eq, splitPath?_itemPath hname.2]
  rfl

/-- What is at a path after a put. -/
theorem item?_put (hx : IsItemPath x) (hname : IsName name) (directory : String)
    (attributes : Json.Object) (now : Timestamp) (s : ItemStore) :
    (s.put directory name attributes now).item? x =
      if x = ItemPoller.itemPath directory name then some (putAttributes name attributes now)
      else s.item? x := by
  have hdirs : (s.put directory name attributes now).directories =
      s.directories.insert (normalize directory)
        (((s.directories.get? (normalize directory)).getD []).insert name
          (putAttributes name attributes now)) := rfl
  split
  next heq =>
    rw [heq, item?_itemPath hname, hdirs, Keyed.get?_insert_self, Option.bind_some,
      Keyed.get?_insert_self]
  next hne =>
    obtain ⟨other, name', hname', rfl⟩ := hx
    rw [item?_itemPath hname', item?_itemPath hname', hdirs, Keyed.get?_insert]
    split
    next hdir =>
      -- The same directory, so another name.
      have hnames : name' ≠ name := by
        rintro rfl
        rw [← itemPath_normalize other, hdir, itemPath_normalize] at hne
        exact hne rfl
      rw [hdir, Option.bind_some, Keyed.get?_insert, if_neg hnames]
      cases s.directories.get? (normalize directory) <;> rfl
    · rfl

/-- What is at a path after an update. -/
theorem item?_update (hx : IsItemPath x) (hpath : IsItemPath path) (attributes : Json.Object)
    (s : ItemStore) : (s.update path attributes).2.item? x =
      if x = path then (s.item? x).map (·.merge attributes) else s.item? x := by
  rcases directories_update path attributes s with ⟨hsame, hnone⟩ |
    ⟨directory, name, items, old, hsplit, hitems, hold, hnew⟩
  · have hitem : (s.update path attributes).2.item? x = s.item? x := by
      rw [item?_eq, hsame, item?_eq]
    rw [hitem]
    split
    next heq => rw [heq, hnone, Option.map_none]
    · rfl
  · have hitem : s.item? path = some old := by
      rw [item?_eq, hsplit, Option.bind_some, hitems, Option.bind_some, hold]
    split
    next heq =>
      rw [heq, hitem, item?_eq, hsplit, Option.bind_some, hnew, Keyed.get?_modify, if_pos rfl, hitems,
        Option.map_some, Option.bind_some, Keyed.get?_insert_self, Option.map_some]
    next hne =>
      obtain ⟨other, name', hname', rfl⟩ := hx
      have hcut : splitPath? (ItemPoller.itemPath other name') ≠ splitPath? path := fun heq =>
        hne (IsItemPath.eq_of_splitPath? ⟨other, name', hname', rfl⟩ hpath heq)
      rw [hsplit, splitPath?_itemPath hname'.2] at hcut
      rw [item?_itemPath hname', item?_itemPath hname', hnew, Keyed.get?_modify]
      split
      next hdir =>
        -- The same directory, so another name.
        have hnames : name' ≠ name := by
          rintro rfl
          exact hcut (by rw [hdir])
        rw [hdir, hitems, Option.map_some, Option.bind_some, Option.bind_some, Keyed.get?_insert,
          if_neg hnames]
      · rfl

/-! ### What a store tells -/

/-- What the store tells of the item at a path. -/
def Shows (stamp : Stamp) (s : ItemStore) (x : String) (t : Timestamp) (mark : Option Timestamp) : Prop :=
  ∃ attributes, s.item? x = some attributes ∧ Standing stamp attributes t mark

theorem Shows.unique (h : s.Shows stamp x t mark) (h' : s.Shows stamp x t' mark') :
    t = t' ∧ mark = mark' := by
  obtain ⟨attributes, hitem, hs⟩ := h
  obtain ⟨attributes', hitem', hs'⟩ := h'
  rw [hitem, Option.some.injEq] at hitem'
  subst hitem'
  exact hs.unique hs'

theorem shows_congr {s' : ItemStore} (h : s'.item? x = s.item? x) :
    s'.Shows stamp x t mark ↔ s.Shows stamp x t mark := by
  rw [Shows, Shows, h]

theorem shows_put_self (hname : IsName name) (hnone : attributes.get? (Stamp.ofSource id).secs = none)
    (hnow : now.IsKnown) (directory : String) (s : ItemStore) :
    (s.put directory name attributes now).Shows (Stamp.ofSource id)
      (ItemPoller.itemPath directory name) now none := by
  refine ⟨putAttributes name attributes now, ?_, standing_put hnone hnow name⟩
  rw [item?_put ⟨directory, name, hname, rfl⟩ hname, if_pos rfl]

theorem shows_put_of_ne (hx : IsItemPath x) (hname : IsName name)
    (hne : x ≠ ItemPoller.itemPath directory name) :
    (s.put directory name attributes now).Shows stamp x t mark ↔ s.Shows stamp x t mark :=
  shows_congr (by rw [item?_put hx hname, if_neg hne])

theorem Shows.update_self (h : s.Shows (Stamp.ofSource id) x t mark) (hx : IsItemPath x) {p : ItemPoller}
    (hp : p.stamp = Stamp.ofSource id) {event : Event} (hevent : event.timestamp.IsKnown) :
    (s.update x (p.stampOf event)).2.Shows (Stamp.ofSource id) x t (some event.timestamp) := by
  obtain ⟨attributes, hitem, hs⟩ := h
  refine ⟨attributes.merge (p.stampOf event), ?_, standing_merge hs hp hevent⟩
  rw [item?_update hx hx, if_pos rfl, hitem, Option.map_some]

theorem shows_update_of_ne (hx : IsItemPath x) (hpath : IsItemPath path) (hne : x ≠ path)
    {stamps : Json.Object} :
    (s.update path stamps).2.Shows stamp x t mark ↔ s.Shows stamp x t mark :=
  shows_congr (by rw [item?_update hx hpath, if_neg hne])

/-! ### Listings -/

variable {request : ListRequest} {item : Item}

/-- What a directory holds. -/
def entries (path : String) (s : ItemStore) : Keyed Json.Object :=
  (s.directories.get? (normalize path)).getD []

theorem Named.sorted_entries {names : String → Prop} (h : s.Named names) (path : String) :
    (s.entries path).Sorted ∧ ∀ item ∈ s.entries path, names item.1 := by
  rw [entries]
  cases hitems : s.directories.get? (normalize path) with
  | none => exact ⟨Keyed.sorted_nil, by simp⟩
  | some items => exact h _ items hitems

/-- What a request asks for, of what its directory holds. -/
theorem mem_matching_iff {names : String → Prop} (h : s.Named names) : item ∈ s.matching request ↔
    (s.entries request.path).get? item.name = some item.attributes ∧
    (request.marker = "" ∨ request.marker < item.name) ∧
    ¬(isIncremental request.query = true ∧ alreadyStamped request item.attributes = true) := by
  obtain ⟨name, attributes⟩ := item
  have htable : (name, attributes) ∈ s.entries request.path ↔
      (s.entries request.path).get? name = some attributes :=
    ⟨(h.sorted_entries _).1.get?_of_mem, Keyed.mem_of_get?⟩
  have hmatching : s.matching request = ((s.entries request.path).filter fun x =>
      (request.marker.isEmpty || request.marker < x.1) &&
        !(isIncremental request.query && alreadyStamped request x.2)).map fun x => ⟨x.1, x.2⟩ := rfl
  rw [← htable, hmatching]
  simp only [List.mem_map, List.mem_filter, Prod.exists, Item.mk.injEq, Bool.and_eq_true,
    Bool.or_eq_true, String.isEmpty_iff, decide_eq_true_eq, Bool.not_eq_true', Bool.and_eq_false_iff]
  constructor
  · rintro ⟨_, _, ⟨hm, hmarker, hstamp⟩, rfl, rfl⟩
    refine ⟨hm, hmarker, fun hboth => ?_⟩
    rw [hboth.1, hboth.2] at hstamp
    simp at hstamp
  · rintro ⟨hm, hmarker, hstamp⟩
    refine ⟨name, attributes, ⟨hm, hmarker, ?_⟩, rfl, rfl⟩
    rwa [not_and_or, Bool.not_eq_true, Bool.not_eq_true] at hstamp

/-- What a request asks for. -/
theorem mem_matching (h : s.Tidy) : item ∈ s.matching request ↔
    (IsName item.name ∧ s.item? (ItemPoller.itemPath request.path item.name) = some item.attributes) ∧
    (request.marker = "" ∨ request.marker < item.name) ∧
    ¬(isIncremental request.query = true ∧ alreadyStamped request item.attributes = true) := by
  rw [mem_matching_iff (show s.Named IsName from h)]
  refine and_congr_left fun _ => ?_
  rw [entries]
  cases hitems : s.directories.get? (normalize request.path) with
  | none =>
    refine iff_of_false (by simp) fun hin => ?_
    have hitem := hin.2
    rw [item?_itemPath hin.1, hitems] at hitem
    cases hitem
  | some items =>
    have hitem (hname : IsName item.name) : s.item? (ItemPoller.itemPath request.path item.name) =
        items.get? item.name := by
      rw [item?_itemPath hname, hitems]
      rfl
    constructor
    · intro hget
      have hname : IsName item.name := (h _ items hitems).2 _ (Keyed.mem_of_get? hget)
      exact ⟨hname, (hitem hname).trans hget⟩
    · rintro ⟨hname, hget⟩
      exact (hitem hname).symm.trans hget

theorem sorted_matching {names : String → Prop} (h : s.Named names) (request : ListRequest) :
    (s.matching request).Pairwise fun a b => a.name < b.name := by
  rw [matching, List.pairwise_map]
  exact List.Pairwise.filter _ (h.sorted_entries request.path).1

theorem empty_le (name : String) : "" ≤ name := by
  rw [← not_lt]
  intro hlt
  have hlist := String.lt_iff_toList_lt.mp hlt
  exact List.not_lt_nil _ hlist

/-- The page that answers a request. -/
def pageAt (request : ListRequest) (s : ItemStore) : ListPage :=
  { items := (s.matching request).take request.limit
    isLast := (s.matching request).length ≤ request.limit
    nextMarker := (((s.matching request).take request.limit).getLast?.map Item.name).getD "" }

/-- The page that is listed. -/
theorem list_eq (hfailing : s.failing = 0) (request : ListRequest) :
    s.list request = (.ok (s.pageAt request), { s with requests := s.requests ++ [request] }) := by
  rw [list]
  dsimp only
  split
  next failing heq =>
    rw [heq] at hfailing
    cases hfailing
  · rfl

theorem eq_pageAt_of_list {page : ListPage} {s' : ItemStore} (h : s.list request = (.ok page, s')) :
    page = s.pageAt request := by
  rw [list_eq (failing_of_list h)] at h
  cases h
  rfl

theorem pageAt_congr {s' : ItemStore} (h : s'.matching request = s.matching request) :
    s'.pageAt request = s.pageAt request := by
  rw [pageAt, h, pageAt]

/-- A page that is not the last ends with the next marker. -/
theorem exists_last_of_more (hlimit : request.limit ≠ 0) (hmore : (s.pageAt request).isLast = false) :
    ∃ last, ((s.matching request).take request.limit).getLast? = some last ∧
      (s.pageAt request).nextMarker = last.name := by
  have hlong := not_le.mp (of_decide_eq_false hmore)
  have hne : (s.matching request).take request.limit ≠ [] := by
    rw [← List.length_pos_iff, List.length_take]
    omega
  have hlast := List.getLast?_eq_some_getLast hne
  refine ⟨_, hlast, ?_⟩
  rw [pageAt, hlast]
  rfl

/-- No name on a page comes after the last one. -/
theorem name_le_last {names : String → Prop} (h : s.Named names) {last : Item}
    (hlast : ((s.matching request).take request.limit).getLast? = some last)
    (hitem : item ∈ (s.matching request).take request.limit) : item.name ≤ last.name := by
  have hsorted := (sorted_matching h request).sublist (List.take_sublist request.limit _)
  obtain ⟨front, hfront⟩ := List.getLast?_eq_some_iff.mp hlast
  rw [hfront] at hsorted hitem
  rcases List.mem_append.mp hitem with hm | hm
  · exact ((List.pairwise_append.mp hsorted).2.2 item hm last List.mem_cons_self).le
  · rw [List.mem_singleton.mp hm]

/-- What was asked for and does not fit a page follows after its last item. -/
theorem matching_next {names : String → Prop} (h : s.Named names) {last : Item}
    (hlast : ((s.matching request).take request.limit).getLast? = some last) (hname : last.name ≠ "") :
    s.matching { request with marker := last.name } = (s.matching request).drop request.limit := by
  have hsorted := sorted_matching h request
  have hmem : last ∈ s.matching request :=
    List.mem_of_mem_take (List.mem_of_getLast? hlast)
  obtain ⟨-, hmarker, -⟩ := (mem_matching_iff h).mp hmem
  have hnext : s.matching { request with marker := last.name } =
      (s.matching request).filter fun item => last.name < item.name := by
    rw [matching, matching, List.filter_map, List.filter_filter]
    congr 1
    refine List.filter_congr fun entry _ => ?_
    obtain ⟨name, attributes⟩ := entry
    have hstamp : alreadyStamped { request with marker := last.name } attributes =
        alreadyStamped request attributes := rfl
    rw [Bool.eq_iff_iff]
    simp only [hstamp, Function.comp_apply, Bool.and_eq_true, Bool.or_eq_true, String.isEmpty_iff,
      decide_eq_true_eq]
    constructor
    · rintro ⟨hlow, hrest⟩
      have hlt : last.name < name := hlow.resolve_left hname
      exact ⟨hlt, hmarker.imp_right fun hlow => hlow.trans hlt, hrest⟩
    · rintro ⟨hlt, -, hrest⟩
      exact ⟨.inr hlt, hrest⟩
  rw [hnext]
  conv_lhs => rw [← List.take_append_drop request.limit (s.matching request)]
  rw [List.filter_append]
  rw [← List.take_append_drop request.limit (s.matching request), List.pairwise_append] at hsorted
  obtain ⟨-, -, hacross⟩ := hsorted
  have hnone : ((s.matching request).take request.limit).filter (fun item => last.name < item.name) =
      [] := by
    rw [List.filter_eq_nil_iff]
    intro item hm
    rw [decide_eq_true_eq, not_lt]
    exact name_le_last h hlast hm
  have hall : ((s.matching request).drop request.limit).filter (fun item => last.name < item.name) =
      (s.matching request).drop request.limit := by
    rw [List.filter_eq_self]
    intro item hm
    rw [decide_eq_true_eq]
    exact hacross last (List.mem_of_getLast? hlast) item hm
  rw [hnone, hall, List.nil_append]

/-- The items of so many pages, requested one after another. -/
def pages (s : ItemStore) : Nat → ListRequest → List Item
  | 0, _ => []
  | n + 1, request =>
    match s.list request with
    | (.error _, _) => []
    | (.ok page, s) =>
      page.items ++ if page.isLast then [] else s.pages n { request with marker := page.nextMarker }

/-- **Whatever a request asks for** comes on one of the pages that follow. -/
theorem mem_pages (h : s.Tidy) (hlimit : request.limit ≠ 0) (hfailing : s.failing = 0)
    (hitem : item ∈ s.matching request) : ∃ n, item ∈ s.pages n request := by
  induction hlength : (s.matching request).length using Nat.strongRecOn generalizing s request with
  | _ length ih =>
    subst hlength
    by_cases hpage : item ∈ (s.matching request).take request.limit
    · refine ⟨1, ?_⟩
      rw [pages, list_eq hfailing]
      exact List.mem_append_left _ hpage
    · have hmore : item ∈ (s.matching request).drop request.limit := by
        rw [← List.take_append_drop request.limit (s.matching request)] at hitem
        exact (List.mem_append.mp hitem).resolve_left hpage
      have hlong : request.limit < (s.matching request).length := by
        have hpos := List.length_pos_of_mem hmore
        rw [List.length_drop] at hpos
        omega
      have hnotLast : (s.pageAt request).isLast = false := decide_eq_false (not_le.mpr hlong)
      obtain ⟨last, hlast, hmarker⟩ := exists_last_of_more hlimit hnotLast
      have hname : IsName last.name :=
        ((mem_matching h).mp (List.mem_of_mem_take (List.mem_of_getLast? hlast))).1.1
      have hnext := matching_next h hlast hname.1
      have htidy : Tidy { s with requests := s.requests ++ [request] } := h
      have hrest : item ∈ s.matching { request with marker := last.name } := by
        rw [hnext]
        exact hmore
      have hshort : (s.matching { request with marker := last.name }).length <
          (s.matching request).length := by
        rw [hnext, List.length_drop]
        omega
      obtain ⟨n, hn⟩ := @ih _ hshort { s with requests := s.requests ++ [request] }
        { request with marker := last.name } htidy hlimit hfailing hrest rfl
      refine ⟨n + 1, ?_⟩
      rw [pages, list_eq hfailing]
      refine List.mem_append_right _ ?_
      rw [if_neg (by rw [hnotLast]; exact Bool.false_ne_true), hmarker]
      exact hn

end ItemStore

end EventDispatch
