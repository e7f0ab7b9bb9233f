import EventDispatch.Proofs.Neighbours

/-!
# When a poller is independent of another

A poller is independent of another one over the same store if the stamps of the other change nothing that
it lists or hands on. What a store judges a request by decides it: a poller that is judged by a stamp of
the other is not told of an item that only the other has handled, and any other poller behaves as if the
other did nothing.

## Main definitions

* `Neighbours.Apart`: a poller is independent of the other.
* `ItemStore.oneItem`, `ItemStore.changed`: a store with one item, and an item that changed.

## Main results

* `PollSetup.Reads.exists_missed`: what a poller that is judged by another one's stamps is not told of.
* `Neighbours.apart_iff`: when a poller is independent of the other.
-/

namespace EventDispatch

/-! ### A store with one item -/

namespace ItemStore

/-- A store with one item. -/
def oneItem (attributes : Json.Object) : ItemStore := { new with directories := [("/", [("x", attributes)])] }

variable {request : ListRequest} {stamp : Stamp} {attributes : Json.Object}

theorem orderly_oneItem (h : attributes.Sorted) : Orderly (oneItem attributes).directories := by
  refine ⟨List.pairwise_singleton _ _, fun d hd => ?_⟩
  obtain rfl := List.mem_singleton.mp hd
  refine ⟨List.pairwise_singleton _ _, fun item hitem => ?_⟩
  obtain rfl := List.mem_singleton.mp hitem
  exact h

theorem update_oneItem (attributes upper : Json.Object) :
    ((oneItem attributes).update "/x" upper).2 =
      { oneItem (attributes.merge upper) with updates := [("/x", upper)] } := by
  have hsplit : splitPath? "/x" = some ("/", "x") := by decide
  simp [update, hsplit, oneItem, new, Keyed.get?, Keyed.modify, Keyed.insert]

/-- The one item is told of, unless its stamps say that it was handled since it changed. -/
theorem matching_oneItem (hquery : isIncremental request.query = true) (hpath : request.path = "/")
    (hmarker : request.marker = "") (attributes : Json.Object) (updates : List (String × Json.Object)) :
    ({ oneItem attributes with updates } : ItemStore).matching request =
      if alreadyStamped request attributes then [] else [⟨"x", attributes⟩] := by
  have hroot : normalize "/" = "/" := by decide
  cases hstamped : alreadyStamped request attributes <;>
    simp [matching, oneItem, hpath, hroot, hmarker, hquery, hstamped, Keyed.get?]

/-- The attributes of an item that changed a nanosecond after the version that its stamps tell of. -/
def changed (stamp : Stamp) : Json.Object :=
  putAttributes "x" (Keyed.insert stamp.nsecs (.ofInt 0) (Keyed.insert stamp.secs (.ofInt 0) [])) ⟨0, 1⟩

theorem sorted_changed (stamp : Stamp) : (changed stamp).Sorted :=
  ((((Keyed.sorted_nil.insert _ _).insert _ _).insert _ _).insert _ _).insert _ _

theorem get?_changed_secs (h : judged? request.attributes = some stamp) :
    (changed stamp).get? stamp.secs = some (.ofInt 0) := by
  obtain ⟨⟨hstart, hends⟩, -⟩ := endings_of_judged? h
  have hne : stamp.secs ≠ stamp.nsecs := by
    intro heq
    have hnsecs := (endings_of_judged? h).2.2
    rw [← heq, not_endsWith_nsecs hends] at hnsecs
    cases hnsecs
  rw [changed, get?_putAttributes_of_notMem (Stamp.notMem_builtin hstart), Keyed.get?_insert, if_neg hne,
    Keyed.get?_insert_self]

theorem get?_changed_nsecs (h : judged? request.attributes = some stamp) :
    (changed stamp).get? stamp.nsecs = some (.ofInt 0) := by
  obtain ⟨-, ⟨hstart, -⟩⟩ := endings_of_judged? h
  rw [changed, get?_putAttributes_of_notMem (Stamp.notMem_builtin hstart), Keyed.get?_insert_self]

/-- The item is told of: its stamps are older than its version. -/
theorem alreadyStamped_changed (h : judged? request.attributes = some stamp) :
    alreadyStamped request (changed stamp) = false := by
  have hmodified : pair? (changed stamp) "__mtime_secs" "__mtime_nsecs" = some (0, 1) :=
    pair?_eq_some (get?_putAttributes_secs "x") (get?_putAttributes_nsecs "x") rfl rfl
  have hmark : pair? (changed stamp) stamp.secs stamp.nsecs = some (0, 0) :=
    pair?_eq_some (get?_changed_secs h) (get?_changed_nsecs h) rfl rfl
  simp only [alreadyStamped_eq, h, hmodified, hmark]
  rfl

/-- With one of its stamps overwritten the item is left out. -/
theorem alreadyStamped_merge (h : judged? request.attributes = some stamp) {id : String}
    (hsame : stamp.secs = (Stamp.ofSource id).secs ∨ stamp.nsecs = (Stamp.ofSource id).nsecs)
    {p : ItemPoller} (hp : p.stamp = .ofSource id) {event : Event} (hevent : event.timestamp = ⟨1, 1⟩) :
    alreadyStamped request ((changed stamp).merge (p.stampOf event)) = true := by
  obtain ⟨⟨-, hends⟩, ⟨-, hends'⟩⟩ := endings_of_judged? h
  have hkeep : ∀ key ∈ builtinAttributes,
      ((changed stamp).merge (p.stampOf event)).get? key = (changed stamp).get? key := fun key hkey =>
    ItemPoller.get?_merge_stampOf_builtin hp hkey (changed stamp) event
  have hmodified : pair? ((changed stamp).merge (p.stampOf event)) "__mtime_secs" "__mtime_nsecs" =
      some (0, 1) :=
    pair?_eq_some ((hkeep _ (by decide)).trans (get?_putAttributes_secs "x"))
      ((hkeep _ (by decide)).trans (get?_putAttributes_nsecs "x")) rfl rfl
  -- Either stamp is the other source's, and one at the version of the event, or left at zero.
  have hsecs : ((changed stamp).merge (p.stampOf event)).get? stamp.secs =
      some (.ofInt (if stamp.secs = (Stamp.ofSource id).secs then 1 else 0)) := by
    rw [ItemPoller.get?_merge_stampOf, hp, if_neg (Stamp.ne_nsecs_of_endsWith hends id), hevent,
      get?_changed_secs h]
    split <;> rfl
  have hnsecs : ((changed stamp).merge (p.stampOf event)).get? stamp.nsecs =
      some (.ofInt (if stamp.nsecs = (Stamp.ofSource id).nsecs then 1 else 0)) := by
    rw [ItemPoller.get?_merge_stampOf, hp, if_neg (Stamp.ne_secs_of_endsWith hends' id), hevent,
      get?_changed_nsecs h]
    split <;> rfl
  have hmark := pair?_eq_some hsecs hnsecs (Json.asInt?_ofInt (by split <;> decide) (by split <;> decide))
    (Json.asInt?_ofInt (by split <;> decide) (by split <;> decide))
  simp only [alreadyStamped_eq, h, hmodified, hmark]
  rcases hsame with heq | heq
  · simp [heq]
  · by_cases hsecs : stamp.secs = (Stamp.ofSource id).secs <;> simp [heq, hsecs]

end ItemStore

namespace PollSetup

variable {a b : PollSetup}

/-- A request for a page of a directory. -/
def request (a : PollSetup) (first : Bool) (path marker : String) : ListRequest :=
  (a.poller first).request path (a.query first) marker

/-- **A poller that is judged by a stamp of another one** is not told of an item that only the other one has
handled. -/
theorem Reads.exists_missed (h : a.Reads b) :
    ∃ (s : ItemStore) (path : String) (event : Event) (first : Bool), ItemStore.Orderly s.directories ∧ s.failing = 0 ∧
      (s.matching (a.request first "/" "")).length = 1 ∧
      (s.update path ((b.poller true).stampOf event)).2.matching (a.request first "/" "") = [] := by
  obtain ⟨⟨first, hquery⟩, stamp, hstamp, hsame⟩ := h
  have hjudged : ItemStore.judged? (a.request first "/" "").attributes = some stamp := hstamp
  have hrequest : ItemStore.isIncremental (a.request first "/" "").query = true := hquery
  have hevent : (Event.blank ⟨1, 1⟩).timestamp = ⟨1, 1⟩ := rfl
  have htold := ItemStore.alreadyStamped_changed hjudged
  have hleft := ItemStore.alreadyStamped_merge hjudged hsame (p := b.poller true) rfl hevent
  refine ⟨.oneItem (ItemStore.changed stamp), "/x", .blank ⟨1, 1⟩, first,
    ItemStore.orderly_oneItem (ItemStore.sorted_changed stamp), rfl, ?_, ?_⟩
  · have hone := ItemStore.matching_oneItem hrequest rfl rfl (ItemStore.changed stamp) []
    rw [htold] at hone
    exact congrArg List.length hone
  · rw [ItemStore.update_oneItem, ItemStore.matching_oneItem hrequest rfl rfl, hleft]
    rfl

end PollSetup

/-! ### Independence -/

namespace Neighbours

/-- The poller on one side is independent of the other. -/
structure Apart (setups : Side → PollSetup) (side : Side) : Prop where
  /-- Stamps of the other poller, laid over any item, do not change which items a request brings, nor the
  page on which it brings them. -/
  listings : ∀ (s : ItemStore) (path : String) (event : Event) (first : Bool) (folder marker : String),
    ItemStore.Orderly s.directories →
      ((s.update path (((setups side.other).poller true).stampOf event)).2.list
          ((setups side).request first folder marker)).1.map
            (ListPage.without (Stamp.ofSource (setups side.other).id).names) =
        (s.list ((setups side).request first folder marker)).1.map
            (ListPage.without (Stamp.ofSource (setups side.other).id).names)
  /-- Whatever anybody does, the poller hands the same versions of items to the function, with the same
  outcomes, as if the other poller did nothing. -/
  runs : ∀ (directories : Keyed (Keyed Json.Object)) (acts : List Act), ItemStore.Orderly directories →
    (∀ act ∈ acts, act.Fits (Stamp.ofSource (setups side.other).id).names) →
      (((start directories setups).run acts).seats side).runs =
        (((start directories setups).run (acts.filter fun act => act.side? ≠ some side.other)).seats side).runs
  /-- And it is in the same state, but for the stamps of the other poller on items on their way. -/
  sources : ∀ (directories : Keyed (Keyed Json.Object)) (acts : List Act), ItemStore.Orderly directories →
    (∀ act ∈ acts, act.Fits (Stamp.ofSource (setups side.other).id).names) →
      (((start directories setups).run acts).seats side).source.without
          (Stamp.ofSource (setups side.other).id).names =
        (((start directories setups).run
          (acts.filter fun act => act.side? ≠ some side.other)).seats side).source.without
            (Stamp.ofSource (setups side.other).id).names

variable {setups : Side → PollSetup} {side : Side}

theorem apart_of_disregards
    (h : (setups side).Disregards (Stamp.ofSource (setups side.other).id).names) : Apart setups side := by
  have hhidden := fun event => (setups side.other).without_stampOf true event
  have hrun : ∀ directories acts, ItemStore.Orderly directories →
      (∀ act ∈ acts, act.Fits (Stamp.ofSource (setups side.other).id).names) →
        Like (Stamp.ofSource (setups side.other).id).names side ((start directories setups).run acts)
          ((start directories setups).run (acts.filter fun act => act.side? ≠ some side.other)) := by
    intro directories acts horderly hacts
    have hsound := sound_start horderly setups
    exact Like.run h hhidden hacts ⟨rfl, rfl⟩ hsound hsound
  refine ⟨fun s path event first folder marker horderly => ?_, fun directories acts horderly hacts => ?_,
    fun directories acts horderly hacts => ?_⟩
  · have hshown := ItemStore.shown_update_of_hidden horderly path (hhidden event)
    exact ItemStore.list_eq_of_shown h.overt (h.request first first folder marker) hshown
      (ItemStore.failing_update path _ s)
  · have hruns := congrArg Seat.runs (hrun directories acts horderly hacts).seat
    exact hruns
  · have hsources := congrArg Seat.source (hrun directories acts horderly hacts).seat
    exact hsources

theorem Apart.not_reads (h : Apart setups side) : ¬(setups side).Reads (setups side.other) := by
  intro hreads
  obtain ⟨s, path, event, first, horderly, hfailing, hone, hnone⟩ := hreads.exists_missed
  have hsame := h.listings s path event first "/" "" horderly
  have hfailing' := (ItemStore.failing_update path (((setups side.other).poller true).stampOf event) s).trans
    hfailing
  rw [ItemStore.list_eq hfailing, ItemStore.list_eq hfailing'] at hsame
  simp only [ItemStore.pageAt, hnone, Except.map, ListPage.without, Except.ok.injEq, ListPage.mk.injEq] at hsame
  obtain ⟨hitems, hlast, -⟩ := hsame
  have hlength := congrArg List.length hitems
  simp [hone] at hlength hlast
  omega

/-- **When a poller is independent of another one** over the same store: exactly if it is not judged by the
stamps of the other. If its id is without commas, it is not. -/
theorem apart_iff (setups : Side → PollSetup) (side : Side)
    (hne : (setups side).id ≠ (setups side.other).id) :
    (Apart setups side ↔ ¬(setups side).Reads (setups side.other)) ∧
      (',' ∉ (setups side).id.toList → Apart setups side) := by
  have hapart : ¬(setups side).Reads (setups side.other) → Apart setups side := fun hnot =>
    apart_of_disregards (PollSetup.disregards_of_not_reads hne hnot)
  exact ⟨⟨Apart.not_reads, hapart⟩, fun hid => hapart (PollSetup.not_reads_of_comma hid hne)⟩

/-- A poller of one directory. -/
def plain (id : String) : PollSetup where
  id := id
  settings := { paths := ["/d"], poll := ⟨1000, 64⟩ }
  limit := 10
  crew := .ofIndices .exclusive [0]

/-- Two of them, which differ in their ids. -/
def pair (left right : String) : Side → PollSetup
  | .left => plain left
  | .right => plain right

/-- A poller starts, and its first task moves so often. -/
def begins (side : Side) (moves : Nat) : List Act :=
  .prompts side .starts (.start ⟨0, 0⟩ .echo) ::
    List.replicate moves (.prompts side (.works 0) (.start ⟨0, 0⟩ .echo))

/-- Two pollers whose ids are without commas: one handles an item, though the other has stamped it. -/
theorem apart_plain_ids :
    (pair "p" "q" .left).id ≠ (pair "p" "q" Side.left.other).id ∧
      Apart (pair "p" "q") .left ∧
      ∀ side ∈ [Side.left, .right], (((start [] (pair "p" "q")).run
        (.puts "/d" "a" [] ⟨1, 0⟩ :: (begins .right 15 ++ begins .left 12))).seats side).runs.map Prod.fst =
          [("/d/a", ⟨1, 0⟩)] := by
  have hne : (pair "p" "q" .left).id ≠ (pair "p" "q" Side.left.other).id := by decide
  exact ⟨hne, (apart_iff (pair "p" "q") .left hne).2 (by decide), by decide +kernel⟩

/-- The first of these pollers is judged by the stamps of the second: its id holds their names. -/
theorem not_apart_of_ne : ¬ ∀ (setups : Side → PollSetup) (side : Side),
    (setups side).id ≠ (setups side.other).id → Apart setups side := by
  intro hlaw
  have hasked : requestedAttributes (.ofSource "b_secs,__eventsource_vip_b_nsecs,p") [] =
      requestedAttributes (.ofSource "b")
        ["p_secs", "__eventsource_vip_b_secs", "__eventsource_vip_b_nsecs", "p_nsecs"] := by decide +kernel
  have hreads : (plain "b_secs,__eventsource_vip_b_nsecs,p").Reads (plain "b") := by
    refine ⟨⟨false, ItemPoller.isIncremental_queryText rfl _⟩, .ofSource "b", ?_, .inl rfl⟩
    change ItemStore.judged? (requestedAttributes (.ofSource "b_secs,__eventsource_vip_b_nsecs,p") []) = _
    rw [hasked]
    exact ItemStore.judged?_of_comma (by decide) _
  have hapart := hlaw (pair "b_secs,__eventsource_vip_b_nsecs,p" "b") .left (by decide)
  exact hapart.not_reads hreads

end Neighbours

end EventDispatch
