import EventDispatch.Proofs.ItemStore
import Mathlib.Data.List.Nodup
import Mathlib.Data.List.Perm.Subperm

/-!
# What was handled and what is on its way

A poller hands versions of items to a function, and stamps the items whose versions were handled with
success. Between the listing of an item and its stamp the item may change at any moment. The ledger
keeps account of it: which versions were handled, which are on their way to the function, which still
have to be stamped, and which items this cycle will not list again.

## What is deliberately absent

Nothing is said here of where a version is while it is on its way. Listings, channels and batches are
the matter of a cycle.

## Main definitions

* `Version`: an item's path and the time of a change.
* `ItemStore.Has`, `ItemStore.Settles`: the item is at least as new, and will not be listed as changed.
* `Ledger`: the account.

## Main results

* `Ledger.mem_matching`: an item whose version was not handled is listed.
* `Ledger.put`, `Ledger.lists`, `Ledger.succeeds`, `Ledger.stamps`: what happens keeps the account.
-/

namespace EventDispatch

/-- A version of an item: its path, and when it changed. -/
abbrev Version := String × Timestamp

/-- The version that an event was made of. -/
def Event.version (e : Event) : Version := (e.path, e.timestamp)

/-- The version of an item below a path. -/
def Item.version (path : String) (item : Item) : Version :=
  (ItemPoller.itemPath path item.name, item.modifiedAt?.getD default)

namespace ItemStore

variable {id directory name x : String} {attributes : Json.Object} {now : Timestamp} {s : ItemStore}
  {v : Version}

/-- The item of a version is there, and at least as new. -/
def Has (id : String) (s : ItemStore) (v : Version) : Prop :=
  IsItemPath v.1 ∧ ∃ t mark, s.Shows (Stamp.ofSource id) v.1 t mark ∧ v.2 ≤ t

/-- The item of a version has changed since, or is stamped. -/
def Settles (id : String) (s : ItemStore) (v : Version) : Prop :=
  ∃ t mark, s.Shows (Stamp.ofSource id) v.1 t mark ∧ (v.2 < t ∨ ∃ u ∈ mark, v.2 ≤ u)

/-- A put of an item without stamps, under a name, and at a later time than that of the version before,
if there is one. -/
structure Renews (id : String) (s : ItemStore) (directory name : String) (attributes : Json.Object)
    (now : Timestamp) : Prop where
  named : IsName name
  unstamped : attributes.get? (Stamp.ofSource id).secs = none
  known : now.IsKnown
  newer : ∀ old t, s.item? (ItemPoller.itemPath directory name) = some old →
    Item.modifiedAt? ⟨name, old⟩ = some t → t < now

theorem Renews.lt (h : s.Renews id directory name attributes now) {t : Timestamp}
    {mark : Option Timestamp}
    (hshows : s.Shows (Stamp.ofSource id) (ItemPoller.itemPath directory name) t mark) : t < now := by
  obtain ⟨old, hold, hstanding⟩ := hshows
  exact h.newer old t hold (hstanding.modifiedAt name)

theorem Has.put (h : s.Has id v) (hput : s.Renews id directory name attributes now) :
    (s.put directory name attributes now).Has id v := by
  obtain ⟨hpath, t, mark, hshows, hle⟩ := h
  refine ⟨hpath, ?_⟩
  by_cases heq : v.1 = ItemPoller.itemPath directory name
  · rw [heq] at hshows ⊢
    exact ⟨now, none, shows_put_self hput.named hput.unstamped hput.known directory s,
      hle.trans (hput.lt hshows).le⟩
  · exact ⟨t, mark, (shows_put_of_ne hpath hput.named heq).mpr hshows, hle⟩

theorem Settles.put (h : s.Settles id v) (hhas : s.Has id v)
    (hput : s.Renews id directory name attributes now) :
    (s.put directory name attributes now).Settles id v := by
  obtain ⟨hpath, t, mark, hshows, hle⟩ := hhas
  by_cases heq : v.1 = ItemPoller.itemPath directory name
  · rw [heq] at hshows
    refine ⟨now, none, ?_, .inl (hle.trans_lt (hput.lt hshows))⟩
    rw [heq]
    exact shows_put_self hput.named hput.unstamped hput.known directory s
  · obtain ⟨t', mark', hshows', hsettled⟩ := h
    exact ⟨t', mark', (shows_put_of_ne hpath hput.named heq).mpr hshows', hsettled⟩

variable {p : ItemPoller} {event : Event}

theorem Has.update (h : s.Has id v) (hx : IsItemPath event.path) (hp : p.stamp = Stamp.ofSource id)
    (hknown : event.timestamp.IsKnown) : (s.update event.path (p.stampOf event)).2.Has id v := by
  obtain ⟨hpath, t, mark, hshows, hle⟩ := h
  refine ⟨hpath, ?_⟩
  by_cases heq : v.1 = event.path
  · rw [heq] at hshows ⊢
    exact ⟨t, _, hshows.update_self hx hp hknown, hle⟩
  · exact ⟨t, mark, (shows_update_of_ne hpath hx heq).mpr hshows, hle⟩

/-- A version that is not newer than the stamps is settled by them. -/
theorem Has.settles_update (h : s.Has id v) (heq : v.1 = event.path) (hp : p.stamp = Stamp.ofSource id)
    (hknown : event.timestamp.IsKnown) (hle : v.2 ≤ event.timestamp) :
    (s.update event.path (p.stampOf event)).2.Settles id v := by
  obtain ⟨hpath, t, mark, hshows, -⟩ := h
  rw [heq] at hpath hshows
  refine ⟨t, some event.timestamp, ?_, .inr ⟨_, rfl, hle⟩⟩
  rw [heq]
  exact hshows.update_self hpath hp hknown

theorem Settles.update_of_ne (h : s.Settles id v) (hpath : IsItemPath v.1) (hx : IsItemPath event.path)
    (hne : v.1 ≠ event.path) : (s.update event.path (p.stampOf event)).2.Settles id v := by
  obtain ⟨t, mark, hshows, hsettled⟩ := h
  exact ⟨t, mark, (shows_update_of_ne hpath hx hne).mpr hshows, hsettled⟩

end ItemStore

/-- The account of a poller: the versions that the function has handled with success, those on their way
to it, those that are still to be stamped, and the paths that were seen in this cycle. -/
structure Ledger (id : String) (first : Bool) (s : ItemStore) (log pending owed : List Version)
    (seen : String → Prop) : Prop where
  tidy : s.Tidy
  /-- Every item has a version, and stamps tell of versions that were handled. -/
  tells : ∀ x attributes, ItemStore.IsItemPath x → s.item? x = some attributes →
    ∃ t mark, Standing (Stamp.ofSource id) attributes t mark ∧ ∀ u ∈ mark, (x, u) ∈ log
  has : ∀ v ∈ log, s.Has id v
  once : log.Nodup
  /-- In a cycle every item is on its way once at most. -/
  distinct : ((pending ++ owed).map Prod.fst).Nodup
  /-- What is on its way is newer than all that was handled. -/
  fresh : ∀ v ∈ pending, s.Has id v ∧ v.2.IsKnown ∧ seen v.1 ∧ ∀ u, (v.1, u) ∈ log → u < v.2
  /-- What is to be stamped was handled last. -/
  owes : ∀ v ∈ owed, v ∈ log ∧ v.2.IsKnown ∧ seen v.1 ∧ ∀ u, (v.1, u) ∈ log → u ≤ v.2
  settled : ∀ v ∈ log, s.Settles id v ∨ v ∈ owed
  /-- The first cycle is the first to handle anything. -/
  first : first = true → ∀ v ∈ log, seen v.1

namespace Ledger

variable {id : String} {first : Bool} {s s' : ItemStore} {log pending pending' owed owed' : List Version}
  {seen seen' : String → Prop}

theorem new (id : String) (first : Bool) : Ledger id first .new [] [] [] fun _ => False where
  tidy := ItemStore.tidy_new
  tells x attributes hx hitem := by
    obtain ⟨directory, name, hname, rfl⟩ := hx
    rw [ItemStore.item?_itemPath hname] at hitem
    cases hitem
  has := by simp
  once := List.nodup_nil
  distinct := List.nodup_nil
  fresh := by simp
  owes := by simp
  settled := by simp
  first := by simp

/-- **An item whose version was not handled** is what a listing for changed items brings. -/
theorem mem_matching (h : Ledger id first s log pending owed seen) (hid : ',' ∉ id.toList)
    {request : ListRequest} {others : List String}
    (hasked : request.attributes = requestedAttributes (Stamp.ofSource id) others)
    (hmarker : request.marker = "") {items : Keyed Json.Object}
    (hitems : s.directories.get? (ItemStore.normalize request.path) = some items) {name : String}
    {attributes : Json.Object} (hitem : items.get? name = some attributes) :
    ∃ t, Item.modifiedAt? ⟨name, attributes⟩ = some t ∧
      ((ItemPoller.itemPath request.path name, t) ∈ log ∨ ⟨name, attributes⟩ ∈ s.matching request) := by
  have hname : ItemStore.IsName name := (h.tidy _ items hitems).2 _ (Keyed.mem_of_get? hitem)
  have hat : s.item? (ItemPoller.itemPath request.path name) = some attributes := by
    rw [ItemStore.item?_itemPath hname, hitems, Option.bind_some, hitem]
  obtain ⟨t, mark, hstanding, hmarks⟩ := h.tells _ attributes ⟨_, name, hname, rfl⟩ hat
  refine ⟨t, hstanding.modifiedAt name, ?_⟩
  by_cases hlog : (ItemPoller.itemPath request.path name, t) ∈ log
  · exact .inl hlog
  · refine .inr ((ItemStore.mem_matching h.tidy).mpr ⟨⟨hname, hat⟩, .inl hmarker, fun hleft => hlog ?_⟩)
    -- Stamps are not newer than the item, so these tell of its version.
    obtain ⟨u, hu, hle⟩ := (hstanding.alreadyStamped_iff hid hasked).mp hleft.2
    obtain ⟨-, t', mark', ⟨attributes', hat', hstanding'⟩, hle'⟩ := h.has _ (hmarks u hu)
    rw [hat, Option.some.injEq] at hat'
    subst hat'
    obtain ⟨rfl, -⟩ := hstanding.unique hstanding'
    obtain rfl : t = u := le_antisymm hle hle'
    exact hmarks t hu

/-- Every item of a listing tells when it changed. -/
theorem isSome_modifiedAt? (h : Ledger id first s log pending owed seen) {request : ListRequest}
    {item : Item} (hitem : item ∈ s.matching request) : item.modifiedAt?.isSome = true := by
  obtain ⟨⟨hname, hat⟩, -⟩ := (ItemStore.mem_matching h.tidy).mp hitem
  obtain ⟨t, mark, hstanding, -⟩ := h.tells _ item.attributes ⟨_, item.name, hname, rfl⟩ hat
  exact Option.isSome_iff_exists.mpr ⟨t, hstanding.modifiedAt item.name⟩

/-- Something on its way moves on or is lost, and more is seen. -/
theorem moves (h : Ledger id first s log pending owed seen) (hsub : pending'.Subperm pending)
    (hseen : ∀ x, seen x → seen' x) : Ledger id first s log pending' owed seen' where
  tidy := h.tidy
  tells := h.tells
  has := h.has
  once := h.once
  distinct := by
    obtain ⟨middle, hperm, hsublist⟩ := hsub
    have hmap : ((middle ++ owed).map Prod.fst).Nodup :=
      h.distinct.sublist ((hsublist.append (List.Sublist.refl owed)).map Prod.fst)
    exact ((hperm.append_right owed).map Prod.fst).nodup_iff.mp hmap
  fresh v hv := by
    obtain ⟨hhas, hknown, hpath, hnewer⟩ := h.fresh v (hsub.subset hv)
    exact ⟨hhas, hknown, hseen _ hpath, hnewer⟩
  owes v hv := by
    obtain ⟨hlog, hknown, hpath, hnewest⟩ := h.owes v hv
    exact ⟨hlog, hknown, hseen _ hpath, hnewest⟩
  settled := h.settled
  first hfirst v hv := hseen _ (h.first hfirst v hv)

/-- Only the directories count. -/
theorem of_directories (h : Ledger id first s log pending owed seen)
    (hdirs : s'.directories = s.directories) : Ledger id first s' log pending owed seen := by
  cases s
  cases s'
  cases hdirs
  exact ⟨h.tidy, h.tells, h.has, h.once, h.distinct, h.fresh, h.owes, h.settled, h.first⟩

/-- Somebody puts a newer version of an item, or a new item. -/
theorem put (h : Ledger id first s log pending owed seen) {directory name : String}
    {attributes : Json.Object} {now : Timestamp} (hput : s.Renews id directory name attributes now) :
    Ledger id first (s.put directory name attributes now) log pending owed seen where
  tidy := h.tidy.put hput.named directory attributes now
  tells x stored hx hitem := by
    rw [ItemStore.item?_put hx hput.named] at hitem
    split at hitem
    · cases hitem
      exact ⟨now, none, ItemStore.standing_put hput.unstamped hput.known name, by simp⟩
    · exact h.tells x stored hx hitem
  has v hv := (h.has v hv).put hput
  once := h.once
  distinct := h.distinct
  fresh v hv := by
    obtain ⟨hhas, hrest⟩ := h.fresh v hv
    exact ⟨hhas.put hput, hrest⟩
  owes := h.owes
  settled v hv := (h.settled v hv).imp_left fun hsettled => hsettled.put (h.has v hv) hput
  first := h.first

/-- A version that a listing brings is newer than all that was handled, unless its item was seen before
in this cycle. -/
theorem lt_of_mem_matching (h : Ledger id first s log pending owed seen) (hid : ',' ∉ id.toList)
    {request : ListRequest} {others : List String}
    (hasked : request.attributes = requestedAttributes (Stamp.ofSource id) others)
    (hquery : first = false → ItemStore.isIncremental request.query = true) {item : Item}
    (hitem : item ∈ s.matching request) (hnew : ¬seen (ItemPoller.itemPath request.path item.name)) :
    s.Has id (item.version request.path) ∧ (item.version request.path).2.IsKnown ∧
      ∀ u, (ItemPoller.itemPath request.path item.name, u) ∈ log → u < (item.version request.path).2 := by
  obtain ⟨⟨hname, hat⟩, -, hkept⟩ := (ItemStore.mem_matching h.tidy).mp hitem
  have hpath : ItemStore.IsItemPath (ItemPoller.itemPath request.path item.name) :=
    ⟨_, item.name, hname, rfl⟩
  obtain ⟨t, mark, hstanding, hmarks⟩ := h.tells _ item.attributes hpath hat
  have hversion : item.version request.path = (ItemPoller.itemPath request.path item.name, t) := by
    rw [Item.version, hstanding.modifiedAt item.name, Option.getD_some]
  rw [hversion]
  refine ⟨⟨hpath, t, mark, ⟨_, hat, hstanding⟩, le_refl t⟩, hstanding.isKnown, fun u hu => ?_⟩
  have hlater : first = false := by
    cases hfirst : first with
    | true => exact absurd (h.first hfirst _ hu) hnew
    | false => rfl
  rcases h.settled _ hu with ⟨t', mark', ⟨attributes', hat', hstanding'⟩, hsettled⟩ | howed
  · rw [hat, Option.some.injEq] at hat'
    subst hat'
    obtain ⟨rfl, rfl⟩ := hstanding.unique hstanding'
    rcases hsettled with hlt | ⟨w, hw, hle⟩
    · exact hlt
    · -- The stamps are older than the version, or it would have been left out.
      have hstamp : ¬t ≤ w := fun hold =>
        hkept ⟨hquery hlater, (hstanding.alreadyStamped_iff hid hasked).mpr ⟨w, hw, hold⟩⟩
      exact hle.trans_lt (not_le.mp hstamp)
  · exact absurd (h.owes _ howed).2.2.1 hnew

/-- A page of a listing is on its way: the items on it were not seen before in this cycle. -/
theorem lists (h : Ledger id first s log pending owed seen) (hid : ',' ∉ id.toList)
    {request : ListRequest} {others : List String}
    (hasked : request.attributes = requestedAttributes (Stamp.ofSource id) others)
    (hquery : first = false → ItemStore.isIncremental request.query = true) {items : List Item}
    (hsub : items.Sublist (s.matching request))
    (hnew : ∀ item ∈ items, ¬seen (ItemPoller.itemPath request.path item.name))
    (hseen : ∀ x, seen x → seen' x)
    (hcovers : ∀ item ∈ items, seen' (ItemPoller.itemPath request.path item.name)) :
    Ledger id first s log (items.map (Item.version request.path) ++ pending) owed seen' where
  tidy := h.tidy
  tells := h.tells
  has := h.has
  once := h.once
  distinct := by
    have hpaths : ((items.map (Item.version request.path) ++ pending ++ owed).map Prod.fst) =
        items.map (fun item => ItemPoller.itemPath request.path item.name) ++
          (pending ++ owed).map Prod.fst := by
      rw [List.append_assoc, List.map_append, List.map_map]
      rfl
    rw [hpaths]
    refine List.Nodup.append ?_ h.distinct fun x hx hold => ?_
    · rw [List.nodup_iff_pairwise_ne, List.pairwise_map]
      have hsorted := (ItemStore.sorted_matching h.tidy request).sublist hsub
      refine hsorted.imp_of_mem fun {a b} ha hb hlt heq => ?_
      have hname := ((ItemStore.mem_matching h.tidy).mp (hsub.subset ha)).1.1
      have hname' := ((ItemStore.mem_matching h.tidy).mp (hsub.subset hb)).1.1
      exact hlt.ne (ItemStore.itemPath_inj hname.2 hname'.2 heq).2
    · obtain ⟨item, hitem, rfl⟩ := List.mem_map.mp hx
      obtain ⟨v, hv, hpath⟩ := List.mem_map.mp hold
      have hbefore : seen v.1 := by
        rcases List.mem_append.mp hv with hv | hv
        · exact (h.fresh v hv).2.2.1
        · exact (h.owes v hv).2.2.1
      rw [hpath] at hbefore
      exact hnew item hitem hbefore
  fresh v hv := by
    rcases List.mem_append.mp hv with hv | hv
    · obtain ⟨item, hitem, rfl⟩ := List.mem_map.mp hv
      obtain ⟨hhas, hknown, hnewer⟩ :=
        h.lt_of_mem_matching hid hasked hquery (hsub.subset hitem) (hnew item hitem)
      exact ⟨hhas, hknown, hcovers item hitem, hnewer⟩
    · obtain ⟨hhas, hknown, hpath, hnewer⟩ := h.fresh v hv
      exact ⟨hhas, hknown, hseen _ hpath, hnewer⟩
  owes v hv := by
    obtain ⟨hlog, hknown, hpath, hnewest⟩ := h.owes v hv
    exact ⟨hlog, hknown, hseen _ hpath, hnewest⟩
  settled := h.settled
  first hfirst v hv := hseen _ (h.first hfirst v hv)

/-- No two versions on their way, or still to be stamped, are of one item. -/
theorem ne_head {v w : Version} (h : Ledger id first s log (v :: pending) owed seen)
    (hw : w ∈ pending ++ owed) : w.1 ≠ v.1 := by
  have hdistinct := h.distinct
  rw [List.cons_append, List.map_cons, List.nodup_cons] at hdistinct
  intro heq
  rw [← heq] at hdistinct
  exact hdistinct.1 (List.mem_map_of_mem hw)

/-- The function has handled a version with success, and its item is to be stamped. -/
theorem succeeds {v : Version} (h : Ledger id first s log (v :: pending) owed seen) :
    Ledger id first s (v :: log) pending (owed ++ [v]) seen where
  tidy := h.tidy
  tells x attributes hx hitem := by
    obtain ⟨t, mark, hstanding, hmarks⟩ := h.tells x attributes hx hitem
    exact ⟨t, mark, hstanding, fun u hu => List.mem_cons_of_mem _ (hmarks u hu)⟩
  has u hu := by
    rcases List.mem_cons.mp hu with rfl | hu
    · exact (h.fresh u List.mem_cons_self).1
    · exact h.has u hu
  once := by
    refine List.nodup_cons.mpr ⟨fun hv => ?_, h.once⟩
    exact lt_irrefl _ ((h.fresh v List.mem_cons_self).2.2.2 v.2 hv)
  distinct := by
    have hperm : (pending ++ (owed ++ [v])).Perm (v :: pending ++ owed) := by
      rw [← List.append_assoc]
      exact List.perm_append_singleton v (pending ++ owed)
    exact (hperm.map Prod.fst).nodup_iff.mpr h.distinct
  fresh w hw := by
    obtain ⟨hhas, hknown, hpath, hnewer⟩ := h.fresh w (List.mem_cons_of_mem _ hw)
    refine ⟨hhas, hknown, hpath, fun u hu => ?_⟩
    rcases List.mem_cons.mp hu with heq | hu
    · exact absurd (congrArg Prod.fst heq) (h.ne_head (w := w) (List.mem_append_left owed hw))
    · exact hnewer u hu
  owes w hw := by
    obtain ⟨-, hknown, hpath, hnewer⟩ := h.fresh v List.mem_cons_self
    rcases List.mem_append.mp hw with hw | hw
    · obtain ⟨hlog, hknown', hpath', hnewest⟩ := h.owes w hw
      refine ⟨List.mem_cons_of_mem _ hlog, hknown', hpath', fun u hu => ?_⟩
      rcases List.mem_cons.mp hu with heq | hu
      · exact absurd (congrArg Prod.fst heq) (h.ne_head (w := w) (List.mem_append_right pending hw))
      · exact hnewest u hu
    · obtain rfl := List.mem_singleton.mp hw
      refine ⟨List.mem_cons_self, hknown, hpath, fun u hu => ?_⟩
      rcases List.mem_cons.mp hu with heq | hu
      · rw [← heq]
      · exact (hnewer u hu).le
  settled w hw := by
    rcases List.mem_cons.mp hw with rfl | hw
    · exact .inr (List.mem_append_right _ List.mem_cons_self)
    · exact (h.settled w hw).imp_right fun hw => List.mem_append_left _ hw
  first hfirst w hw := by
    rcases List.mem_cons.mp hw with rfl | hw
    · exact (h.fresh w List.mem_cons_self).2.2.1
    · exact h.first hfirst w hw

/-- The item of a version that was handled is stamped. -/
theorem stamps {p : ItemPoller} (hp : p.stamp = Stamp.ofSource id) {event : Event}
    (h : Ledger id first s log pending (event.version :: owed) seen) :
    Ledger id first (s.update event.path (p.stampOf event)).2 log pending owed seen := by
  obtain ⟨hlog, hknown, -, hnewest⟩ := h.owes _ List.mem_cons_self
  have hpath : ItemStore.IsItemPath event.path := (h.has _ hlog).1
  refine ⟨h.tidy.update _ _, fun x attributes hx hitem => ?_, fun v hv => ?_, h.once, ?_, fun v hv => ?_,
    fun v hv => h.owes v (List.mem_cons_of_mem _ hv), fun v hv => ?_, h.first⟩
  · rw [ItemStore.item?_update hx hpath] at hitem
    split at hitem
    next heq =>
      subst heq
      obtain ⟨old, hold, rfl⟩ := Option.map_eq_some_iff.mp hitem
      obtain ⟨t, mark, hstanding, -⟩ := h.tells _ old hx hold
      refine ⟨t, _, ItemStore.standing_merge hstanding hp hknown, fun u hu => ?_⟩
      obtain rfl := Option.some.inj hu
      exact hlog
    · exact h.tells x attributes hx hitem
  · exact (h.has v hv).update hpath hp hknown
  · exact h.distinct.sublist ((List.Sublist.append_left (List.sublist_cons_self _ _) _).map Prod.fst)
  · obtain ⟨hhas, hrest⟩ := h.fresh v hv
    exact ⟨hhas.update hpath hp hknown, hrest⟩
  · by_cases heq : v.1 = event.path
    · refine .inl ((h.has v hv).settles_update heq hp hknown (hnewest v.2 ?_))
      have hsame : (event.version.1, v.2) = v := Prod.ext heq.symm rfl
      rw [hsame]
      exact hv
    · rcases h.settled v hv with hsettled | howed
      · exact .inl (hsettled.update_of_ne (h.has v hv).1 hpath heq)
      · rcases List.mem_cons.mp howed with rfl | howed
        · exact absurd rfl heq
        · exact .inr howed

/-- A cycle is over: what was on its way is lost, and nothing is left to be stamped. -/
theorem rests (h : Ledger id false s log pending [] seen) : Ledger id false s log [] [] fun _ => False where
  tidy := h.tidy
  tells := h.tells
  has := h.has
  once := h.once
  distinct := List.nodup_nil
  fresh := by simp
  owes := by simp
  settled := h.settled
  first hfirst := by cases hfirst

/-- After the first cycle, only stamps count. -/
theorem later (h : Ledger id first s log pending owed seen) : Ledger id false s log pending owed seen :=
  ⟨h.tidy, h.tells, h.has, h.once, h.distinct, h.fresh, h.owes, h.settled, fun hfirst => by cases hfirst⟩

end Ledger

end EventDispatch
