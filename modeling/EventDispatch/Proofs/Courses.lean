import EventDispatch.Poll.Driver
import EventDispatch.Proofs.ItemStore
import Mathlib.Data.List.Chain

/-!
# The course of a listing, given its answers

The listing of a path asks for one page after another. A request that is not answered is made again, and
after three failures in a row the listing is given up. When the store stays as it is, all that a listing asks
for and brings is thus a matter of which of its requests are answered: its course is a function of the answers.

What has come and what is still to come are then all that there is to list. So a listing brings the first
items, in order, and all of them unless it was given up; and it makes three requests for a page at most.

There is one exception. The last name of a page is the marker of the next one, but the empty marker asks for
the first page. After a first page that ends with an empty name the listing begins anew, and never ends.

## What is deliberately absent

The answers come from nowhere: that a listing takes this course is shown where its moves are, and here nothing
is said of time, channels or other listings.

## Main definitions

* `ItemStore.pageAt`: the page that answers a request.
* `ItemStore.Restarts`: a listing begins anew after its first page.
* `Listing.Course`, `Listing.Course.ofAnswers`: how far a listing has come with these answers.

## Main results

* `ItemStore.restarts_iff`: which listings begin anew.
* `Listing.Course.sound_ofAnswers`: what has come and what is still to come.
-/

namespace EventDispatch

/-! ### Pages -/

namespace ItemStore

variable {s s' : ItemStore} {names : String → Prop} {request : ListRequest} {marker : String}

/-- The first page is not the last, and yet there is no name from which the next would start. -/
def Restarts (request : ListRequest) (s : ItemStore) : Prop :=
  (s.pageAt { request with marker := "" }).isLast = false ∧
    (s.pageAt { request with marker := "" }).nextMarker = ""

instance (request : ListRequest) (s : ItemStore) : Decidable (s.Restarts request) :=
  inferInstanceAs (Decidable (_ ∧ _))

/-- **Which listings begin anew**: those by pages without items, and those by pages of one item whose first
item has an empty name. -/
theorem restarts_iff (h : s.Named names) : s.Restarts request ↔
    request.limit < (s.matching { request with marker := "" }).length ∧ (request.limit = 0 ∨
      request.limit = 1 ∧ ((s.matching { request with marker := "" }).head?.map Item.name) = some "") := by
  have hsorted := sorted_matching h { request with marker := "" }
  have hlimit : ({ request with marker := "" } : ListRequest).limit = request.limit := rfl
  rw [Restarts, pageAt, hlimit, decide_eq_false_iff_not, not_le]
  dsimp only
  generalize s.matching { request with marker := "" } = all at hsorted
  generalize request.limit = limit
  refine and_congr_right fun hlong => ?_
  cases limit with
  | zero => simp
  | succ n =>
    cases all with
    | nil => simp at hlong
    | cons first rest =>
      rw [List.take_succ_cons, List.getLast?_cons, List.head?_cons]
      cases n with
      | zero => simp
      | succ n =>
        -- The last name of a longer page comes after the first, and is not empty.
        have hne : rest.take (n + 1) ≠ [] := by
          rw [List.length_cons] at hlong
          rw [← List.length_pos_iff, List.length_take]
          omega
        obtain ⟨last, hlast⟩ : ∃ last, (rest.take (n + 1)).getLast? = some last :=
          ⟨_, List.getLast?_eq_some_getLast hne⟩
        have hlt : first.name < last.name :=
          (List.pairwise_cons.mp hsorted).1 last (List.mem_of_mem_take (List.mem_of_getLast? hlast))
        have hname : last.name ≠ "" := fun hempty => not_lt.mpr (empty_le first.name) (hempty ▸ hlt)
        simp [hlast, hname]

/-- A page and what follows it are all that was asked for. -/
theorem page_append_rest (h : s.Named names) (hmore : (s.pageAt request).isLast = false)
    (hnext : (s.pageAt request).nextMarker ≠ "") : (s.pageAt request).items ≠ [] ∧
      (s.pageAt request).items ++ s.matching { request with marker := (s.pageAt request).nextMarker } =
        s.matching request := by
  have hlimit : request.limit ≠ 0 := by
    intro hzero
    refine hnext ?_
    rw [pageAt, hzero, List.take_zero]
    rfl
  obtain ⟨last, hlast, heq⟩ := exists_last_of_more hlimit hmore
  rw [heq] at hnext ⊢
  rw [matching_next h hlast hnext]
  exact ⟨List.ne_nil_of_mem (List.mem_of_getLast? hlast), List.take_append_drop _ _⟩

/-- The last page holds all that was asked for. -/
theorem page_eq_of_last (hlast : (s.pageAt request).isLast = true) :
    (s.pageAt request).items = s.matching request :=
  List.take_of_length_le (of_decide_eq_true hlast)

/-- A listing that does not begin anew finds the next marker at the end of every page. -/
theorem next_ne_of_more (h : s.Named names) (hstart : ¬s.Restarts request)
    (hmore : (s.pageAt { request with marker }).isLast = false) :
    (s.pageAt { request with marker }).nextMarker ≠ "" := by
  by_cases hmarker : marker = ""
  · subst hmarker
    exact fun hnext => hstart ⟨hmore, hnext⟩
  · have hlater : ∀ item ∈ s.matching { request with marker },
        marker < item.name ∧ item ∈ s.matching { request with marker := "" } := by
      intro item hitem
      obtain ⟨hget, hafter, hstamp⟩ := (mem_matching_iff h).mp hitem
      exact ⟨hafter.resolve_left hmarker, (mem_matching_iff h).mpr ⟨hget, .inl rfl, hstamp⟩⟩
    have hlong := not_le.mp (of_decide_eq_false hmore)
    by_cases hlimit : request.limit = 0
    · -- Pages without items: the first one was not the last either.
      obtain ⟨item, hitem⟩ := List.exists_mem_of_length_pos (Nat.zero_lt_of_lt hlong)
      refine absurd ((restarts_iff h).mpr ⟨?_, .inl hlimit⟩) hstart
      rw [hlimit]
      exact List.length_pos_of_mem (hlater item hitem).2
    · obtain ⟨last, hlast, heq⟩ := @exists_last_of_more s { request with marker } hlimit hmore
      obtain ⟨hlt, -⟩ := hlater last (List.mem_of_mem_take (List.mem_of_getLast? hlast))
      rw [heq]
      exact fun hempty => not_lt.mpr (empty_le marker) (hempty ▸ hlt)

end ItemStore

/-! ### Courses -/

/-- How far the listing of a path has come. -/
structure Listing.Course where
  /-- The requests, each with whether it was answered. -/
  asked : List (ListRequest × Bool)
  /-- The items of all pages. -/
  items : List Item
  /-- The marker of the next request, and the how manieth for this page it is; nothing when the listing is
  over. -/
  ahead : Option (String × Nat)

namespace Listing.Course

/-- A listing that has not asked for a page. -/
def start : Course := ⟨[], [], some ("", 1)⟩

/-- The next request is answered, or fails. -/
def next (request : ListRequest) (store : ItemStore) (c : Course) (answered : Bool) : Course :=
  match c.ahead with
  | none => c
  | some (marker, attempt) =>
    let asked := c.asked ++ [({ request with marker }, answered)]
    if answered then
      let page := store.pageAt { request with marker }
      { asked, items := c.items ++ page.items,
        ahead := if page.isLast then none else some (page.nextMarker, 1) }
    else { c with asked, ahead := if attempt < pageAttempts then some (marker, attempt + 1) else none }

/-- The listing after these answers. -/
def ofAnswers (request : ListRequest) (store : ItemStore) (answers : List Bool) : Course :=
  answers.foldl (next request store) start

variable {request : ListRequest} {store : ItemStore} {c : Course} {marker : String} {attempt : Nat}

theorem ofAnswers_append (request : ListRequest) (store : ItemStore) (answers : List Bool) (answered : Bool) :
    ofAnswers request store (answers ++ [answered]) =
      (ofAnswers request store answers).next request store answered := by
  rw [ofAnswers, List.foldl_append]
  rfl

theorem next_of_failed (h : c.ahead = some (marker, attempt)) : c.next request store false =
    ⟨c.asked ++ [({ request with marker }, false)], c.items,
      if attempt < pageAttempts then some (marker, attempt + 1) else none⟩ := by
  rw [next, h]
  rfl

theorem next_of_answered (h : c.ahead = some (marker, attempt)) : c.next request store true =
    ⟨c.asked ++ [({ request with marker }, true)],
      c.items ++ (store.pageAt { request with marker }).items,
      if (store.pageAt { request with marker }).isLast then none
      else some ((store.pageAt { request with marker }).nextMarker, 1)⟩ := by
  rw [next, h]
  rfl

/-- A request failed as often in a row as is allowed. -/
def Exhausted (asked : List (ListRequest × Bool)) : Prop :=
  ∃ request, List.replicate pageAttempts (request, false) <:+: asked

/-- A request that follows one that failed is the same. -/
def Repeats (asked : List (ListRequest × Bool)) : Prop := asked.IsChain fun x y => x.2 = false → y.1 = x.1

/-- A page is still to come: with what has come, all that follows it is all that there is. -/
structure Open (request : ListRequest) (store : ItemStore) (c : Course) (marker : String) (attempt : Nat) :
    Prop where
  rest : c.items ++ store.matching { request with marker } = store.matching { request with marker := "" }
  allowed : attempt ≤ pageAttempts
  /-- If the next request fails, it is one of so many in a row. -/
  failures : List.replicate attempt ({ request with marker }, false) <:+
    c.asked ++ [({ request with marker }, false)]
  again : ∀ x ∈ c.asked.getLast?, x.2 = false → { request with marker } = x.1
  room : c.asked.length < pageAttempts * c.items.length + attempt

/-- The listing is over. -/
structure Closed (request : ListRequest) (store : ItemStore) (c : Course) : Prop where
  ordered : c.items <+: store.matching { request with marker := "" }
  whole : c.items = store.matching { request with marker := "" } ∨ Exhausted c.asked
  room : c.asked.length ≤ pageAttempts * (c.items.length + 1)

/-- What has come and what is still to come are all that there is. -/
structure Sound (request : ListRequest) (store : ItemStore) (c : Course) : Prop where
  repeats : Repeats c.asked
  ahead : ∀ marker attempt, c.ahead = some (marker, attempt) → c.Open request store marker attempt
  closed : c.ahead = none → c.Closed request store

theorem sound_start (request : ListRequest) (store : ItemStore) : start.Sound request store where
  repeats := .nil
  ahead marker attempt h := by
    cases h
    exact ⟨rfl, by decide, List.suffix_refl _, fun x hx => (by cases hx), Nat.one_pos⟩
  closed h := by cases h

/-- A request that repeats the last one, if that failed, may follow. -/
theorem Repeats.append (h : Repeats c.asked) (hagain : ∀ x ∈ c.asked.getLast?, x.2 = false → request = x.1)
    (answered : Bool) : Repeats (c.asked ++ [(request, answered)]) := by
  refine List.isChain_append.mpr ⟨h, .singleton _, fun x hx y hy => ?_⟩
  cases hy
  exact hagain x hx

/-- **A request fails**, and is made again, or it was the last one allowed. -/
theorem Sound.fails (h : c.Sound request store) (hahead : c.ahead = some (marker, attempt)) :
    (c.next request store false).Sound request store := by
  obtain ⟨hrest, hallowed, hfailures, hagain, hroom⟩ := h.ahead marker attempt hahead
  have hrepeats := h.repeats.append hagain false
  rw [next_of_failed hahead]
  split
  next hlt =>
    refine ⟨hrepeats, fun marker' attempt' hnext => ?_, fun hnone => by (cases hnone)⟩
    cases hnext
    refine ⟨hrest, hlt, ?_, fun x hx _ => ?_, ?_⟩
    · rw [List.replicate_succ']
      obtain ⟨before, hbefore⟩ := hfailures
      exact ⟨before, by rw [← List.append_assoc, hbefore]⟩
    · rw [List.getLast?_concat] at hx
      cases hx
      rfl
    · rw [List.length_append, List.length_singleton]
      dsimp only
      omega
  next hlast =>
    obtain rfl : attempt = pageAttempts := le_antisymm hallowed (not_lt.mp hlast)
    refine ⟨hrepeats, fun marker' attempt' hnext => by (cases hnext), fun _ => ⟨⟨_, hrest⟩, .inr ⟨_,
      hfailures.isInfix⟩, ?_⟩⟩
    rw [List.length_append, List.length_singleton, Nat.mul_succ]
    exact hroom

/-- **A page comes**, and what follows it is still to come, or it is the last. -/
theorem Sound.answers {names : String → Prop} (h : c.Sound request store) (hnamed : store.Named names)
    (hstart : ¬store.Restarts request) (hahead : c.ahead = some (marker, attempt)) :
    (c.next request store true).Sound request store := by
  obtain ⟨hrest, hallowed, -, hagain, hroom⟩ := h.ahead marker attempt hahead
  have hrepeats := h.repeats.append hagain true
  rw [next_of_answered hahead]
  cases hlast : (store.pageAt { request with marker }).isLast with
  | true =>
    refine ⟨hrepeats, fun marker' attempt' hnext => by (cases hnext), fun _ => ?_⟩
    have hall : c.items ++ (store.pageAt { request with marker }).items =
        store.matching { request with marker := "" } := by
      rw [ItemStore.page_eq_of_last hlast, hrest]
    refine ⟨⟨[], (List.append_nil _).trans hall⟩, .inl hall, ?_⟩
    rw [List.length_append, List.length_append, List.length_singleton, Nat.mul_succ, Nat.mul_add]
    omega
  | false =>
    refine ⟨hrepeats, fun marker' attempt' hnext => ?_, fun hnone => by (cases hnone)⟩
    cases hnext
    obtain ⟨hne, hpage⟩ := ItemStore.page_append_rest hnamed hlast
      (ItemStore.next_ne_of_more hnamed hstart hlast)
    have hpos := Nat.mul_le_mul_left pageAttempts (List.length_pos_iff.mpr hne)
    refine ⟨?_, by decide, List.suffix_append _ _, fun x hx hfailed => ?_, ?_⟩
    · rw [← hrest, ← hpage, List.append_assoc]
    · rw [List.getLast?_concat] at hx
      cases hx
      cases hfailed
    · rw [List.length_append, List.length_append, List.length_singleton, Nat.mul_add]
      omega

/-- **The course of a listing**, for all answers. -/
theorem sound_ofAnswers {names : String → Prop} (hnamed : store.Named names) (hstart : ¬store.Restarts request)
    (answers : List Bool) : (ofAnswers request store answers).Sound request store := by
  induction answers using List.reverseRecOn with
  | nil => exact sound_start request store
  | append_singleton answers answered ih =>
    rw [ofAnswers_append]
    cases hahead : (ofAnswers request store answers).ahead with
    | none =>
      rw [next, hahead]
      exact ih
    | some next =>
      cases answered with
      | false => exact ih.fails hahead
      | true => exact ih.answers hnamed hstart hahead

/-- What has come is the beginning of what there is. -/
theorem Sound.items_prefix (h : c.Sound request store) :
    c.items <+: store.matching { request with marker := "" } := by
  cases hahead : c.ahead with
  | none => exact (h.closed hahead).ordered
  | some next => exact ⟨_, (h.ahead next.1 next.2 hahead).rest⟩

/-- There are three requests for a page at most. -/
theorem Sound.length_asked_le (h : c.Sound request store) :
    c.asked.length ≤ pageAttempts * ((store.matching { request with marker := "" }).length + 1) := by
  have hroom : c.asked.length ≤ pageAttempts * (c.items.length + 1) := by
    cases hahead : c.ahead with
    | none => exact (h.closed hahead).room
    | some next =>
      obtain ⟨-, hallowed, -, -, hroom⟩ := h.ahead next.1 next.2 hahead
      rw [Nat.mul_succ]
      omega
  exact hroom.trans (Nat.mul_le_mul_left _ (Nat.succ_le_succ h.items_prefix.length_le))

end Listing.Course

end EventDispatch
