import EventDispatch.Proofs.Courses
import EventDispatch.Proofs.CycleListings

/-!
# What a cycle brings from a store that stays as it is

Whatever happens to the requests of other paths, the listing of a path takes the course that its own answers
give it. So the events of a path are those of the first items that there are to list, in the order of their
names, and in the end all of them unless a request failed three times in a row.

## What is deliberately absent

The items may change in any way during the cycle, and so may all else; the law is about runs in which what is
still to be asked for is as it was at first. How long a request, a function or a pause takes is not part of it.

## Main definitions

* `Inquiry.OnCourse`: a listing has kept to its course.
* `CycleListings.Undisturbed`: what is still to be asked for is as it was at first.
* `Inquiry.Faithful`: the law for one path.

## Main results

* `Inquiry.lasts_onCourse`: whatever a listing does, it keeps to its course.
* `CycleListings.faithful_of_reachable`: the law, for every run.
-/

namespace EventDispatch

/-! ### The course of a listing -/

namespace Inquiry

/-- The course that a listing takes with the answers that it has got. -/
def course (p : ItemPoller) (first : ItemStore) (i : Inquiry) : Listing.Course :=
  .ofAnswers (p.request i.path p.query "") first (i.asked.map Prod.snd)

/-- A listing has kept to its course, with some items of a page still to be sent, and a request still to be
made. -/
structure OnCourse (p : ItemPoller) (first : ItemStore) (rest : List Item) (ahead : Option (String × Nat))
    (i : Inquiry) : Prop where
  asked : (i.course p first).asked = i.asked
  ahead : (i.course p first).ahead = ahead
  accepted : ∃ done, (i.course p first).items = done ++ rest ∧ List.Forall₂ (Survey.Brings i.path) done i.accepted

variable {p : ItemPoller} {first : ItemStore} {i : Inquiry}

/-- With one more answer, the course goes on. -/
theorem course_asks (p : ItemPoller) (first : ItemStore) (i : Inquiry) (request : ListRequest) (answered : Bool) :
    (i.asks request answered).course p first =
      (i.course p first).next (p.request i.path p.query "") first answered := by
  rw [course, asks, List.map_append, List.map_singleton, Listing.Course.ofAnswers_append]
  rfl

/-- **Whatever a listing does**, it keeps to its course. -/
theorem lasts_onCourse (p : ItemPoller) (first : ItemStore) :
    Lasts p (fun request page => page = first.pageAt request) (OnCourse p first) where
  begins path _ := ⟨rfl, rfl, [], rfl, .nil⟩
  fails {i marker attempt} h := by
    have hcourse := (course_asks p first i (p.request i.path p.query marker) false).trans
      (Listing.Course.next_of_failed h.ahead)
    refine ⟨?_, by rw [hcourse], ?_⟩
    · rw [hcourse, h.asked]
      rfl
    · rw [hcourse]
      exact h.accepted
  answers {i marker attempt page} h _ hpage := by
    subst hpage
    have hcourse := (course_asks p first i (p.request i.path p.query marker) true).trans
      (Listing.Course.next_of_answered h.ahead)
    obtain ⟨done, hitems, haccepted⟩ := h.accepted
    refine ⟨?_, by rw [hcourse]; rfl, done, ?_, haccepted⟩
    · rw [hcourse, h.asked]
      rfl
    · rw [hcourse, hitems, List.append_nil]
      rfl
  accepts {i item rest ahead event} h hevent := by
    obtain ⟨done, hitems, haccepted⟩ := h.accepted
    refine ⟨h.asked, h.ahead, done ++ [item], ?_, List.rel_append haccepted (.cons hevent .nil)⟩
    rw [List.append_assoc, List.singleton_append]
    exact hitems

/-- What the listing of a path does that keeps to its course. -/
structure Faithful (p : ItemPoller) (first : ItemStore) (isOver : Bool) (i : Inquiry) : Prop where
  /-- Its requests are those of its course: what happens to those of other listings does not matter. -/
  own : i.asked = (i.course p first).asked
  /-- A request that follows one that failed is the same. -/
  repeats : Listing.Course.Repeats i.asked
  /-- The items that a request for the path asks for stand in the order of their names. -/
  increasing : (first.matching (p.request i.path p.query "")).Pairwise fun a b => a.name < b.name
  /-- The events that were accepted are those of the first of these items. When the search is over they are
  those of its course, and all of them unless a request failed as often in a row as is allowed. -/
  brings : ∃ items, items <+: first.matching (p.request i.path p.query "") ∧
    List.Forall₂ (Survey.Brings i.path) items i.accepted ∧
    (isOver = true → items = (i.course p first).items ∧
      (items = first.matching (p.request i.path p.query "") ∨ Listing.Course.Exhausted i.asked))
  /-- There are three requests for a page at most. -/
  finite : i.asked.length ≤ Listing.pageAttempts * ((first.matching (p.request i.path p.query "")).length + 1)

variable {names : String → Prop} {rest : List Item} {ahead : Option (String × Nat)}

theorem OnCourse.faithful (h : i.OnCourse p first rest ahead) (hnamed : first.Named names)
    (hstart : ¬first.Restarts (p.request i.path p.query "")) {isOver : Bool}
    (hover : isOver = true → rest = [] ∧ ahead = none) : i.Faithful p first isOver := by
  have hsound : (i.course p first).Sound _ _ := Listing.Course.sound_ofAnswers hnamed hstart _
  obtain ⟨done, hitems, haccepted⟩ := h.accepted
  have hprefix := hsound.items_prefix
  refine ⟨h.asked.symm, h.asked ▸ hsound.repeats, ItemStore.sorted_matching hnamed _, ⟨done, ?_, haccepted,
    fun hdone => ?_⟩, h.asked ▸ hsound.length_asked_le⟩
  · rw [hitems] at hprefix
    exact (List.prefix_append done rest).trans hprefix
  · obtain ⟨rfl, rfl⟩ := hover hdone
    rw [List.append_nil] at hitems
    have hwhole := (hsound.closed h.ahead).whole
    rw [h.asked] at hwhole
    exact ⟨hitems.symm, hitems ▸ hwhole⟩

end Inquiry

namespace CycleListings

variable {p : ItemPoller} {first : ItemStore} {signal : Signal} {s s' : CycleListings}

/-- What the listings have still to ask for is as it was at first. So it is as long as the directories are;
stamps on items that were sent already do not matter. -/
def Undisturbed (p : ItemPoller) (first : ItemStore) (s : CycleListings) : Prop :=
  s.Meets p fun request page => page = first.pageAt request

theorem undisturbed_of_directories (h : s.store.directories = first.directories) (p : ItemPoller) :
    s.Undisturbed p first := by
  intro l _ marker _
  refine ItemStore.pageAt_congr ?_
  rw [ItemStore.matching, h, ItemStore.matching]

/-- One move of anybody that does not disturb the listings. -/
def Quiet (signal : Signal) (p : ItemPoller) (first : ItemStore) (s s' : CycleListings) : Prop :=
  Step signal s s' ∧ s'.Undisturbed p first

/-- **What the search of a cycle brings.** Whatever paths are listed, with whatever settings, whichever requests
fail, and in whatever order all moves are made: if the run is not told to stop, what the listings still ask for
stays as it was, and none of them begins anew after its first page, then the events that are accepted for a path
are those of the first items that there are to list, in order, and in the end all of them unless a request failed
three times in a row. A listing makes the requests that its own answers call for, one that failed again, and the
end of the cycle is told once, after all events. -/
theorem faithful_of_reachable {names : String → Prop} {world : World} {source : PollSource}
    (hnamed : world.clients.items.Named names)
    (hstart : ∀ path ∈ p.settings.paths, ¬world.clients.items.Restarts (p.request path p.query ""))
    (hr : Relation.ReflTransGen (Quiet signal p world.clients.items) (opened p world source) s)
    (hgoes : s.isStopped signal = false) :
    s.Tells signal p (Inquiry.Faithful p world.clients.items) := by
  have hopened : (opened p world source).Undisturbed p world.clients.items := undisturbed_of_directories rfl p
  exact tells_of_reachable (Inquiry.lasts_onCourse p world.clients.items)
    (fun i rest ahead isOver hlisted h hover => h.faithful hnamed (hstart i.path hlisted) hover) hopened hr hgoes

/-- A search does not disturb its own listings. -/
theorem quiet_of_searched {n : Nat} (h : searched n s = some s') (hsame : s.store.directories = first.directories) :
    Relation.ReflTransGen (Quiet signal p first) s s' :=
  (reachable_of_searched h hsame).lift id fun _ _ hs => ⟨hs.1, undisturbed_of_directories hs.2.2 p⟩

/-- Two paths, and four requests fail: the first listing is given up, and the second brings all its items. -/
theorem faithful_beside_exhausted :
    let stored := ((ItemStore.new.put "/d" "a" [] ⟨1, 0⟩).put "/e" "a" [] ⟨1, 0⟩).put "/e" "b" [] ⟨1, 0⟩
    let items : ItemStore := { stored with failing := 4 }
    let world : World := { World.start ⟨0, 0⟩ .echo with clients := { Clients.new with items } }
    let p : ItemPoller := .new "p" { paths := ["/d", "/e"], pageSize := 1, pageDelay := 0, poll := ⟨1000, 64⟩ }
    let source : PollSource :=
      .new ⟨"p", "v3io-item-poller", .async⟩ (.items p) ⟨1000, 64⟩ 10 (.ofIndices .shared [0])
    ∃ s : CycleListings, Relation.ReflTransGen (Quiet 0 p items) (opened p world source) s ∧
      (s.inquiries.map fun i => (i.asked.map Prod.snd, i.accepted.map Event.path)) =
        [([false, false, false], []), ([false, true, true], ["/e/a", "/e/b"])] ∧
      s.cycle.producer.isDone = true ∧ s.Tells 0 p (Inquiry.Faithful p items) := by
  intro stored items world p source
  have hstored : stored.Named fun _ => True :=
    (((ItemStore.named_new _).put trivial _ _ _).put trivial _ _ _).put trivial _ _ _
  have hnamed : items.Named fun _ => True := hstored.of_directories rfl
  have hstart : ∀ path ∈ p.settings.paths, ¬items.Restarts (p.request path p.query "") := by
    decide +kernel
  obtain ⟨s, hs, hinquiries, hdone, hgoes⟩ := exists_of_searched (show
    (searched 14 (opened p world source)).any (fun s =>
      (s.inquiries.map fun i => (i.asked.map Prod.snd, i.accepted.map Event.path)) =
        [([false, false, false], []), ([false, true, true], ["/e/a", "/e/b"])] ∧
      s.cycle.producer.isDone = true ∧ s.isStopped 0 = false) = true by decide +kernel)
  have hr : Relation.ReflTransGen (Quiet 0 p items) (opened p world source) s := quiet_of_searched hs rfl
  exact ⟨s, hr, hinquiries, hdone, @faithful_of_reachable p 0 s _ world source hnamed hstart hr hgoes⟩

/-- By pages of one item, a listing whose first item has an empty name brings it again and again. -/
theorem not_faithful_of_restarts :
    ¬ ∀ (p : ItemPoller) (world : World) (source : PollSource) (signal : Signal) (s : CycleListings),
      world.clients.items.Named (fun _ => True) →
      Relation.ReflTransGen (Quiet signal p world.clients.items) (opened p world source) s →
        s.isStopped signal = false → s.Tells signal p (Inquiry.Faithful p world.clients.items) := by
  intro hlaw
  let items : ItemStore := (ItemStore.new.put "/d" "" [] ⟨5, 0⟩).put "/d" "a" [] ⟨5, 0⟩
  let world : World := { World.start ⟨0, 0⟩ .echo with clients := { Clients.new with items } }
  let p : ItemPoller := .new "p" { paths := ["/d"], pageSize := 1, pageDelay := 0, poll := ⟨1000, 64⟩ }
  let source : PollSource :=
    .new ⟨"p", "v3io-item-poller", .async⟩ (.items p) ⟨1000, 64⟩ 10 (.ofIndices .shared [0])
  have hnamed : items.Named fun _ => True := ((ItemStore.named_new _).put trivial _ _ _).put trivial _ _ _
  obtain ⟨s, hs, hinquiries, hgoes⟩ := exists_of_searched (show (searched 5 (opened p world source)).any (fun s =>
    (s.inquiries.map fun i => (i.path, i.accepted.map Event.path)) = [("/d", ["/d/", "/d/"])] ∧
      s.isStopped 0 = false) = true by decide +kernel)
  have hr : Relation.ReflTransGen (Quiet 0 p items) (opened p world source) s := quiet_of_searched hs rfl
  have hfaithful := hlaw p world source 0 s hnamed hr hgoes
  obtain ⟨i, hi, heq⟩ := List.map_eq_singleton_iff.mp hinquiries
  obtain ⟨hpath, haccepted⟩ := Prod.mk.inj heq
  obtain ⟨listed, hprefix, hbrings, -⟩ := (hfaithful.inquiries i (hi ▸ List.mem_singleton_self i)).brings
  rw [hpath] at hprefix hbrings
  have hnames : (world.clients.items.matching (p.request "/d" p.query "")).map Item.name = ["", "a"] := by
    decide +kernel
  have hshort := hprefix.map Item.name
  rw [hnames] at hshort
  have hlisted : listed.map Item.name = ["", "a"] := by
    refine hshort.eq_of_length ?_
    rw [List.length_map, hbrings.length_eq, ← List.length_map Event.path, haccepted]
    rfl
  have hevents := Survey.paths_of_brings hbrings
  rw [haccepted, hlisted] at hevents
  revert hevents
  decide +kernel

end CycleListings

end EventDispatch
