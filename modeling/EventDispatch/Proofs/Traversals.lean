import EventDispatch.Proofs.Relisting
import EventDispatch.Proofs.Stalls
import Mathlib.Order.WellFounded

/-!
# Whether a listing ends

A path is listed page by page, and each event is put into a channel. Somebody takes the events out again, time
goes on, and no request fails. Then a listing comes to its end, since what is left to do becomes less with each
move, or it asks for one page after another and never comes to an end. Nothing else can happen: a listing that can
not move waits for an instant, which comes, or for a place in the channel, which is granted when messages are
taken out.

It is told from the items alone which of the two happens. The marker of the next page is the last name of a
page, and names increase; but an empty marker asks for the first page. So a listing never ends exactly if it
begins anew after its first page (`ItemStore.restarts_iff`): by pages of one item, of which the first has an empty
name and is not the only one, or by pages of no items, if there is an item.

## What is deliberately absent

The other paths of a cycle do not matter to a listing, and are left out. How long calls and pauses take is not
part of the law, but only that each of them is over at some instant.

## Main definitions

* `ItemStore.pageCount`: how many pages there are to list.
* `Traversal`: the listing of a path, the channel of its events, and what it has done.
* `Traversal.Runs`: a run in which nobody who can move is held up for ever.
* `Traversal.schedule`: such a run.

## Main results

* `Listing.Course.Paged.next`: what a page brings a listing of which no request fails.
* `Traversal.Moves.measure_lt`: with each move less is left to do, for so many requests.
* `Traversal.Runs.exists_isDone`: a listing that makes no more than so many requests ends.
* `Traversal.isDone_iff`: which listings end, after how many requests, with what.
-/

namespace EventDispatch

/-! ### The course of a listing without failures -/

namespace ItemStore

/-- How many pages there are to list: one for every so many items, and one where there is none. -/
def pageCount (request : ListRequest) (s : ItemStore) : Nat :=
  max 1 (((s.matching { request with marker := "" }).length + request.limit - 1) / request.limit)

theorem pageCount_eq {request : ListRequest} {s : ItemStore} {n : Nat} (hpos : 0 < n)
    (henough : (s.matching { request with marker := "" }).length ≤ n * request.limit)
    (hneeded : n = 1 ∨ (n - 1) * request.limit < (s.matching { request with marker := "" }).length) :
    s.pageCount request = n := by
  rw [pageCount]
  generalize (s.matching { request with marker := "" }).length = count at henough hneeded
  generalize request.limit = limit at henough hneeded
  obtain ⟨n, rfl⟩ := Nat.exists_eq_add_of_lt hpos
  rw [Nat.zero_add, Nat.succ_mul] at henough
  rw [Nat.zero_add] at hneeded ⊢
  cases limit with
  | zero =>
    rcases hneeded with hone | hmore
    · rw [Nat.div_zero, hone]
      rfl
    · rw [Nat.mul_zero] at henough hmore
      omega
  | succ limit =>
    rcases hneeded with hone | hmore
    · obtain rfl : n = 0 := Nat.succ.inj hone
      rw [Nat.zero_mul] at henough
      have hlt : (count + (limit + 1) - 1) / (limit + 1) < 2 := Nat.div_lt_of_lt_mul (by omega)
      exact max_eq_left (Nat.le_of_lt_succ hlt)
    · have hdiv : (count + (limit + 1) - 1) / (limit + 1) = n + 1 := by
        refine Nat.div_eq_of_lt_le ?_ ?_
        · rw [Nat.succ_mul]
          rw [Nat.add_sub_cancel] at hmore
          omega
        · rw [Nat.succ_mul, Nat.succ_mul]
          omega
      rw [hdiv]
      exact max_eq_right (Nat.succ_le_succ (Nat.zero_le n))

end ItemStore

namespace Listing.Course

variable {request : ListRequest} {store : ItemStore} {c : Course}

/-- A course without failures: each page but the last is full. -/
structure Paged (request : ListRequest) (store : ItemStore) (c : Course) : Prop where
  ahead : ∀ marker attempt, c.ahead = some (marker, attempt) → c.items.length = c.asked.length * request.limit ∧
    (c.asked = [] ∨ c.items.length < (store.matching { request with marker := "" }).length)
  closed : c.ahead = none → c.items = store.matching { request with marker := "" } ∧
    c.asked.length = store.pageCount request

theorem paged_start (request : ListRequest) (store : ItemStore) : start.Paged request store where
  ahead _ _ _ := ⟨(Nat.zero_mul _).symm, .inl rfl⟩
  closed h := by cases h

/-- **One more page**: it is full, or the last. -/
theorem Paged.next (h : c.Paged request store) (hsound : c.Sound request store) :
    (c.next request store true).Paged request store := by
  cases hahead : c.ahead with
  | none =>
    rw [Course.next, hahead]
    exact h
  | some ahead =>
    obtain ⟨marker, attempt⟩ := ahead
    obtain ⟨hfull, hmore⟩ := h.ahead marker attempt hahead
    have hrest := (hsound.ahead marker attempt hahead).rest
    have hcount := congrArg List.length hrest
    rw [List.length_append] at hcount
    have hpage : (store.pageAt { request with marker }).items.length =
        min request.limit (store.matching { request with marker }).length := List.length_take
    rw [next_of_answered hahead]
    cases hlast : (store.pageAt { request with marker }).isLast with
    | true =>
      have hfits : (store.matching { request with marker }).length ≤ request.limit := of_decide_eq_true hlast
      refine ⟨fun _ _ hnext => by (cases hnext), fun _ => ⟨?_, ?_⟩⟩
      · rw [ItemStore.page_eq_of_last hlast, hrest]
      · rw [List.length_append, List.length_singleton]
        refine (ItemStore.pageCount_eq (Nat.succ_pos _) ?_ ?_).symm
        · rw [Nat.succ_mul, ← hfull, ← hcount]
          omega
        · rcases hmore with hnone | hlt
          · exact .inl (by rw [hnone]; rfl)
          · exact .inr (by rw [Nat.succ_sub_one, ← hfull]; exact hlt)
    | false =>
      have hlong : request.limit < (store.matching { request with marker }).length :=
        not_le.mp (of_decide_eq_false hlast)
      refine ⟨fun _ _ _ => ?_, fun hnone => by (cases hnone)⟩
      rw [List.length_append, List.length_append, List.length_singleton, Nat.succ_mul, hpage, ← hfull]
      exact ⟨by omega, .inr (by omega)⟩

theorem paged_ofAnswers {names : String → Prop} (hnamed : store.Named names) (hstart : ¬store.Restarts request)
    (n : Nat) : (ofAnswers request store (List.replicate n true)).Paged request store := by
  induction n with
  | zero => exact paged_start request store
  | succ n ih =>
    rw [List.replicate_succ', ofAnswers_append]
    exact ih.next (sound_ofAnswers hnamed hstart _)

/-- **A listing that begins anew** does so after each page. -/
theorem ahead_of_restarts (hrestarts : store.Restarts request) (n : Nat) :
    (ofAnswers request store (List.replicate n true)).ahead = some ("", 1) := by
  obtain ⟨hmore, hnext⟩ := hrestarts
  induction n with
  | zero => rfl
  | succ n ih =>
    rw [List.replicate_succ', ofAnswers_append, next_of_answered ih, hmore, hnext]
    rfl

end Listing.Course

/-! ### Traversals -/

/-- How many moves of its own a call makes at most. -/
def Trip.weight : Trip → Nat
  | .leaving => 2
  | .underway _ => 1

theorem Trip.weight_of_goes {call : RemoteCall} {now : Nat} {c c' : Clients} {trip trip' : Trip}
    (h : trip.step call now c = some (.goes trip', c')) : trip'.weight < trip.weight := by
  cases trip with
  | leaving =>
    rw [step] at h
    split at h
    · cases h
      exact Nat.lt_succ_self 1
    · cases h
  | underway until_ =>
    rw [step] at h
    split at h <;> cases h

/-- How many moves a call that sends makes at most. -/
def Sending.weight : Sending → Nat
  | .ready => 2
  | .waiting _ => 1

theorem Sending.weight_of_waits {m : PollMessage} {send send' : Sending} {c c' : Channel}
    (h : send.step m c = some (.waits send', c')) : send'.weight < send.weight := by
  cases send with
  | ready =>
    rw [step] at h
    split at h
    · cases h
    · split at h
      · cases h
      · cases h
        exact Nat.lt_succ_self 1
  | waiting ticket =>
    rw [step] at h
    split at h
    · cases h
    · split at h <;> cases h

/-- No request for a page is to fail. -/
structure World.Answers (w : World) : Prop where
  items : w.clients.items.failing = 0
  route : (w.clients.route .getItems).failing = 0

/-- The listing of a path, the channel of its events, and what the listing has done. -/
structure Traversal where
  world : World
  channel : Channel
  listing : Listing
  inquiry : Inquiry

namespace Listing

/-- How many moves a listing makes at most until a request is answered, or an event is sent. -/
def weight (l : Listing) : Nat :=
  match l.stage with
  | .requesting _ trip => trip.weight
  | .retrying _ _ | .turning _ => 3
  | .sending _ _ _ _ send => send.weight
  | .done => 0

/-- With some items left to send, there is little else to do before. -/
theorem weight_le_of_sendItems {items : List Item} {isLast : Bool} {next : String} {delay : Nat} {w w' : World}
    {l l' : Listing} (h : sendItems items isLast next delay w l = (l', w')) :
    5 * l'.pending.length + l'.weight ≤ 5 * items.length + 3 := by
  obtain rfl := congrArg Prod.fst h
  cases items with
  | nil =>
    rw [sendItems]
    split
    · exact Nat.zero_le 3
    · split
      · exact Nat.le_succ 2
      · exact Nat.le_refl 3
  | cons item rest =>
    rw [List.length_cons, ← List.length_map (Item.version l.path)]
    exact Nat.le_succ _

theorem deadline_of_isDone {l : Listing} (h : l.isDone = true) : l.deadline = none := by
  obtain ⟨path, marker, stage⟩ := l
  cases stage with
  | done => rfl
  | _ => cases h

theorem world_of_sendItems {items : List Item} {isLast : Bool} {next : String} {delay : Nat} {w w' : World}
    {l l' : Listing} (h : sendItems items isLast next delay w l = (l', w')) :
    w'.clients = w.clients ∧ w'.now = w.now := by
  obtain rfl := congrArg Prod.snd h
  cases items with
  | nil =>
    rw [sendItems]
    split
    · exact ⟨rfl, rfl⟩
    · split <;> exact ⟨rfl, rfl⟩
  | cons item rest => exact ⟨rfl, rfl⟩

/-- A listing takes no time. -/
theorem now_of_step {p : ItemPoller} {query : String} {w w' : World} {c c' : Channel} {l l' : Listing}
    (hs : l.step p query w c = some (l', w', c')) : w'.now = w.now := by
  cases moves_of_step hs with
  | asks htrip | loses htrip | fails htrip =>
    obtain ⟨⟨routes, rfl⟩, -⟩ := World.stepTrip_routes htrip
    rfl
  | brings htrip _ hsend =>
    obtain ⟨⟨routes, rfl⟩, -⟩ := World.stepTrip_routes htrip
    exact (world_of_sendItems hsend).2
  | sends _ hsend => exact (world_of_sendItems hsend).2
  | retries | turns | waits | leaves => rfl

/-- As long as no request is to fail, none does. -/
theorem answered_of_step {p : ItemPoller} {query : String} {w w' : World} {c c' : Channel} {l l' : Listing}
    (h : w.Answers) (hs : l.step p query w c = some (l', w', c')) (i : Inquiry) :
    w'.Answers ∧ ∀ x ∈ (i.after p query w c l).asked, x ∈ i.asked ∨ x.2 = true := by
  cases moves_of_step hs with
  | asks htrip =>
    obtain ⟨rfl, -⟩ := World.stepTrip_sure h.route htrip
    simp only [Inquiry.after, htrip]
    exact ⟨h, fun x hx => .inl hx⟩
  | loses htrip => exact absurd rfl ((World.stepTrip_sure h.route htrip).2 _)
  | fails htrip hlist =>
    obtain ⟨rfl, -⟩ := World.stepTrip_sure h.route htrip
    rw [ItemStore.list_eq h.items] at hlist
    cases hlist
  | brings htrip hlist hsend =>
    obtain ⟨rfl, -⟩ := World.stepTrip_sure h.route htrip
    obtain ⟨hclients, -⟩ := world_of_sendItems hsend
    simp only [Inquiry.after, htrip]
    rw [ItemStore.list_eq h.items] at hlist ⊢
    cases hlist
    refine ⟨⟨by rw [hclients]; exact h.items, by rw [hclients]; exact h.route⟩, fun x hx => ?_⟩
    exact (List.mem_append.mp hx).imp_right fun hnew => by rw [List.mem_singleton.mp hnew]; rfl
  | retries | turns => exact ⟨h, fun x hx => .inl hx⟩
  | waits hsend | leaves hsend =>
    simp only [Inquiry.after, hsend]
    exact ⟨h, fun x hx => .inl hx⟩
  | sends hsent hsend =>
    obtain ⟨hclients, -⟩ := world_of_sendItems hsend
    simp only [Inquiry.after, hsent]
    exact ⟨⟨by rw [hclients]; exact h.items, by rw [hclients]; exact h.route⟩, fun x hx => .inl hx⟩

theorem pending_sending (path marker : String) (event : Event) (rest : List Item) (isLast : Bool) (next : String)
    (send : Sending) : (pending ⟨path, marker, .sending event rest isLast next send⟩).length = rest.length + 1 := by
  rw [← List.length_map (Item.version path)]
  rfl

end Listing

namespace Traversal

variable {p : ItemPoller} {first : ItemStore} {path : String} {world : World} {capacity limit : Nat}
  {t t' : Traversal}

/-- A listing that has not begun, with an empty channel. -/
def opened (path : String) (world : World) (capacity : Nat) : Traversal :=
  ⟨world, .new capacity, .new path, .new path⟩

/-- The listing makes a move, or a message is taken out of the channel. -/
inductive Moves (p : ItemPoller) : Traversal → Traversal → Prop
  | lists {t : Traversal} {listing : Listing} {world : World} {channel : Channel}
      (hs : t.listing.step p p.query t.world t.channel = some (listing, world, channel)) :
      Moves p t ⟨world, channel, listing, t.inquiry.after p p.query t.world t.channel t.listing⟩
  | receives {t : Traversal} {message : PollMessage} {channel : Channel}
      (hreceive : t.channel.receive = (.message message, channel)) : Moves p t { t with channel }

/-- One move of anybody. Whatever else happens, the items stay as they are and requests are answered. -/
inductive Step (p : ItemPoller) : Traversal → Traversal → Prop
  | moves {t t' : Traversal} (hs : Moves p t t') : Step p t t'
  | passes (t : Traversal) {world : World} (hnow : t.world.now ≤ world.now)
      (hsame : world.clients.items.directories = t.world.clients.items.directories) (hanswers : world.Answers) :
      Step p t { t with world }

/-- Somebody can move. -/
def CanMove (p : ItemPoller) (t : Traversal) : Prop := ∃ t', Moves p t t'

/-- A run in which it does not happen that somebody could move all the time and nobody does, and every instant
comes. -/
structure Runs (p : ItemPoller) (run : Nat → Traversal) : Prop where
  step : ∀ n, Step p (run n) (run (n + 1))
  fair : ∀ n, (∀ m ≥ n, CanMove p (run m)) → ∃ m ≥ n, Moves p (run m) (run (m + 1))
  time : ∀ n instant, ∃ m ≥ n, instant ≤ (run m).world.now

/-- How far a listing has come, with what was there at first. -/
structure Sound (p : ItemPoller) (first : ItemStore) (path : String) (capacity : Nat) (t : Traversal) : Prop where
  names : t.inquiry.path = path
  listed : path ∈ p.settings.paths
  same : t.world.clients.items.directories = first.directories
  answers : t.world.Answers
  receives : t.channel.receiverGone = false
  places : t.channel.Places capacity t.listing.tickets
  stands : t.inquiry.Stands (Inquiry.OnCourse p first) t.listing
  answered : ∀ x ∈ t.inquiry.asked, x.2 = true

/-- With requests for so many pages still to come, so much is left to do. -/
def measure (limit requests : Nat) (t : Traversal) : Nat :=
  (requests - t.inquiry.asked.length) * (5 * limit + 4) + 5 * t.listing.pending.length + t.listing.weight +
    t.channel.queue.length

theorem sound_opened (hanswers : world.Answers) (hlisted : path ∈ p.settings.paths) (capacity : Nat) :
    (opened path world capacity).Sound p world.clients.items path capacity where
  names := rfl
  listed := hlisted
  same := rfl
  answers := hanswers
  receives := rfl
  places := Channel.places_new capacity
  stands := ⟨rfl, (Inquiry.lasts_onCourse p world.clients.items).begins path hlisted⟩
  answered _ hx := absurd hx List.not_mem_nil

/-- **With each move less is left to do**, for so many requests. -/
theorem Moves.measure_lt {requests : Nat} (hs : Moves p t t') (h : t.Sound p first path capacity)
    (hroom : t'.inquiry.asked.length ≤ requests) :
    t'.measure p.settings.pageSize requests < t.measure p.settings.pageSize requests := by
  cases hs with
  | receives hreceive =>
    cases (Channel.leaves_of_receive hreceive).2 with
    | message _ hqueue =>
      rw [measure, measure, hqueue, List.length_cons]
      exact Nat.lt_succ_self _
  | @lists listing _ _ hs =>
    obtain ⟨world, c, l, i⟩ := t
    have hsure := h.answers.route
    have hopen : c.receiverGone = false := h.receives
    dsimp only at hs hsure hroom
    cases Listing.moves_of_step hs with
    | asks htrip =>
      obtain ⟨⟨trip', clients⟩, hstep, heq⟩ := Option.map_eq_some_iff.mp htrip
      cases heq
      simp only [measure, Inquiry.after, htrip]
      exact Nat.add_lt_add_right (Nat.add_lt_add_left (Trip.weight_of_goes hstep) _) _
    | loses htrip => exact absurd rfl ((World.stepTrip_sure hsure htrip).2 _)
    | fails htrip hlist =>
      obtain ⟨rfl, -⟩ := World.stepTrip_sure hsure htrip
      rw [ItemStore.list_eq h.answers.items] at hlist
      cases hlist
    | brings htrip hlist hsend =>
      obtain ⟨rfl, -⟩ := World.stepTrip_sure hsure htrip
      rw [ItemStore.list_eq h.answers.items] at hlist
      cases hlist
      have hleft : 5 * listing.pending.length + listing.weight ≤ 5 * p.settings.pageSize + 3 :=
        (Listing.weight_le_of_sendItems hsend).trans
          (Nat.add_le_add_right (Nat.mul_le_mul_left 5 (List.length_take_le _ _)) 3)
      simp only [measure, Inquiry.after, htrip, Inquiry.asks, List.length_append, List.length_singleton] at hroom ⊢
      have hone : requests - i.asked.length = requests - (i.asked.length + 1) + 1 := by omega
      rw [hone, Nat.add_one_mul (requests - (i.asked.length + 1))]
      omega
    | retries =>
      exact Nat.add_lt_add_right (Nat.lt_succ_self _) _
    | turns => exact Nat.add_lt_add_right (Nat.lt_succ_self _) _
    | waits hsend =>
      have hless := Sending.weight_of_waits hsend
      cases (Sending.leaves_of_step hsend).2 with
      | waits _ _ hqueue =>
        simp only [measure, Inquiry.after, hsend, hqueue]
        exact Nat.add_lt_add_right (Nat.add_lt_add_left hless _) _
    | leaves hsend =>
      cases (Sending.leaves_of_step hsend).2 with
      | refused hgone => exact Bool.noConfusion (hgone.symm.trans hopen)
    | sends hsent hsend =>
      have hleft := Listing.weight_le_of_sendItems hsend
      cases (Sending.leaves_of_step hsent).2 with
      | sent _ hqueue =>
        simp only [measure, Inquiry.after, hsent, hqueue, Inquiry.accepts, Listing.pending_sending,
          List.length_append, List.length_singleton]
        omega

/-- A listing asks for no fewer pages as it goes on, and loses nothing. -/
theorem Moves.asked_prefix (hs : Moves p t t') : t.inquiry.asked <+: t'.inquiry.asked := by
  cases hs with
  | receives => exact List.prefix_refl _
  | lists hs =>
    obtain ⟨world, c, l, i⟩ := t
    dsimp only at hs
    cases Listing.moves_of_step hs with
    | asks htrip =>
      simp only [Inquiry.after, htrip]
      exact List.prefix_refl _
    | loses htrip | fails htrip | brings htrip =>
      simp only [Inquiry.after, htrip]
      exact List.prefix_append _ _
    | retries | turns => exact List.prefix_refl _
    | waits hsend | leaves hsend | sends hsend =>
      simp only [Inquiry.after, hsend]
      exact List.prefix_refl _

/-- **A move** of the listing, or of who receives. -/
theorem Sound.moves (h : t.Sound p first path capacity) (hs : Moves p t t') : t'.Sound p first path capacity := by
  cases hs with
  | receives hreceive =>
    exact ⟨h.names, h.listed, h.same, h.answers, (Channel.leaves_of_receive hreceive).1.receiver.trans h.receives,
      h.places.receive hreceive, h.stands, h.answered⟩
  | lists hs =>
    have hpage : ∀ request, t.world.clients.items.pageAt request = first.pageAt request := fun request => by
      refine ItemStore.pageAt_congr ?_
      rw [ItemStore.matching, h.same, ItemStore.matching]
    have hplaces : t.channel.Places capacity (t.listing.tickets ++ []) := by
      rw [List.append_nil]
      exact h.places
    obtain ⟨hanswers, hasked⟩ := Listing.answered_of_step h.answers hs t.inquiry
    constructor
    case same => exact (Listing.consults_of_step hs).directories.trans h.same
    case answers => exact hanswers
    case names =>
      dsimp only
      rw [Inquiry.path_after]
      exact h.names
    case listed => exact h.listed
    case receives => exact (Listing.sameEnds_of_step hs).receiver.trans h.receives
    case places =>
      rw [← List.append_nil (Listing.tickets _)]
      exact Listing.places_of_step hplaces h.receives hs
    case stands =>
      exact Inquiry.stands_of_step (Inquiry.lasts_onCourse p first) h.stands (h.stands.1 ▸ h.names ▸ h.listed)
        h.receives (fun marker _ => hpage _) hs
    case answered => exact fun x hx => (hasked x hx).elim (h.answered x) id

/-- **One move of anybody.** -/
theorem Sound.step (h : t.Sound p first path capacity) (hs : Step p t t') : t'.Sound p first path capacity := by
  cases hs with
  | moves hs => exact h.moves hs
  | passes _ hsame hanswers =>
    exact ⟨h.names, h.listed, hsame.trans h.same, hanswers, h.receives, h.places, h.stands, h.answered⟩

theorem Moves.isDone (hs : Moves p t t') (hdone : t.listing.isDone = true) : t'.listing.isDone = true := by
  cases hs with
  | receives => exact hdone
  | lists hs =>
    obtain ⟨world, channel, ⟨path, marker, stage⟩, inquiry⟩ := t
    cases stage with
    | done => cases hs
    | _ => cases hdone

theorem Step.now_le (hs : Step p t t') : t.world.now ≤ t'.world.now := by
  cases hs with
  | passes hnow => exact hnow
  | moves hs =>
    cases hs with
    | lists hs => exact (Listing.now_of_step hs).ge
    | receives => exact le_rfl

theorem Step.moves_or_passes (hs : Step p t t') : Moves p t t' ∨ ∃ world, t' = { t with world } := by
  cases hs with
  | moves hs => exact .inl hs
  | passes => exact .inr ⟨_, rfl⟩

/-- **A listing that can not move** is over, or waits for an instant, as long as messages are taken out. -/
theorem Sound.deadline_of_rests (h : t.Sound p first path capacity) (hcapacity : capacity ≠ 0)
    (hrests : ¬CanMove p t) :
    t.listing.isDone = true ∨ ∃ instant, t.listing.deadline = some instant ∧ t.world.now < instant := by
  have hnone : t.listing.step p p.query t.world t.channel = none := by
    by_contra hsome
    obtain ⟨⟨listing, world, channel⟩, hs⟩ := Option.ne_none_iff_exists'.mp hsome
    exact hrests ⟨_, .lists hs⟩
  have hempty : t.channel.queue = [] := by
    by_contra hne
    obtain ⟨message, queue, hqueue⟩ := List.exists_cons_of_ne_nil hne
    have hreceive : t.channel.receive = (.message message, { t.channel with queue }.addPlace) := by
      rw [Channel.receive, hqueue]
    exact hrests ⟨_, .receives hreceive⟩
  obtain ⟨hblocked, hdone | htimer | htickets⟩ := Listing.blocked_of_step hnone
  · exact .inl hdone
  · obtain ⟨instant, hdeadline⟩ := Option.ne_none_iff_exists'.mp htimer
    exact .inr ⟨instant, hdeadline, hblocked.timer instant hdeadline⟩
  · -- With no message left, a ticket was granted a place.
    obtain ⟨ticket, hheld, hgranted⟩ := h.places.exists_granted hcapacity hempty htickets
    exact absurd hgranted (hblocked.line ticket hheld).1

/-! ### Runs -/

namespace Runs

variable {run : Nat → Traversal}

theorem sound (hr : Runs p run) (h : (run 0).Sound p first path capacity) (n : Nat) :
    (run n).Sound p first path capacity := by
  induction n with
  | zero => exact h
  | succ n ih => exact ih.step (hr.step n)

/-- The clock does not go back. -/
theorem now_mono (hr : Runs p run) : Monotone fun n => (run n).world.now :=
  monotone_nat_of_le_succ fun n => (hr.step n).now_le

/-- No request is forgotten. -/
theorem asked_mono (hr : Runs p run) : Monotone fun n => (run n).inquiry.asked.length := by
  refine monotone_nat_of_le_succ fun n => ?_
  rcases (hr.step n).moves_or_passes with hs | ⟨world, heq⟩
  · exact hs.asked_prefix.length_le
  · rw [heq]

/-- A listing that is over does nothing. -/
theorem isDone_mono (hr : Runs p run) {n m : Nat} (hle : n ≤ m) (hdone : (run n).listing.isDone = true) :
    (run m).listing.isDone = true := by
  induction m, hle using Nat.le_induction with
  | base => exact hdone
  | succ m hm ih =>
    rcases (hr.step m).moves_or_passes with hs | ⟨world, heq⟩
    · exact hs.isDone ih
    · rw [heq]
      exact ih

/-- What is left to do becomes no more. -/
theorem measure_antitone (hr : Runs p run) (h : (run 0).Sound p first path capacity) {requests : Nat}
    (hbounded : ∀ n, (run n).inquiry.asked.length ≤ requests) :
    Antitone fun n => (run n).measure p.settings.pageSize requests := by
  refine antitone_nat_of_succ_le fun n => ?_
  rcases (hr.step n).moves_or_passes with hs | ⟨world, heq⟩
  · exact (hs.measure_lt (hr.sound h n) (hbounded (n + 1))).le
  · rw [heq]
    exact le_rfl

/-- With no more than so many requests, nobody moves from some time on: then as little is left to do as ever
will be. -/
theorem exists_still (hr : Runs p run) (h : (run 0).Sound p first path capacity) {requests : Nat}
    (hbounded : ∀ n, (run n).inquiry.asked.length ≤ requests) :
    ∃ n, ∀ m ≥ n, ¬Moves p (run m) (run (m + 1)) := by
  obtain ⟨n, hleast⟩ : ∃ n, ∀ m, (run n).measure p.settings.pageSize requests ≤
      (run m).measure p.settings.pageSize requests :=
    ⟨_, fun m => Function.argmin_le (fun m => (run m).measure p.settings.pageSize requests) m⟩
  refine ⟨n, fun m hm hs => ?_⟩
  have hless := hs.measure_lt (hr.sound h m) (hbounded (m + 1))
  exact absurd (hless.trans_le (hr.measure_antitone h hbounded hm)) (not_lt.mpr (hleast (m + 1)))

/-- While nobody moves the listing stays as it is. -/
theorem listing_of_still (hr : Runs p run) {n : Nat} (hstill : ∀ m ≥ n, ¬Moves p (run m) (run (m + 1))) {m : Nat}
    (hm : n ≤ m) : (run m).listing = (run n).listing := by
  induction m, hm using Nat.le_induction with
  | base => rfl
  | succ m hm ih =>
    rcases (hr.step m).moves_or_passes with hs | ⟨world, heq⟩
    · exact absurd hs (hstill m hm)
    · rw [heq]
      exact ih

/-- When nobody moves any more, then again and again nobody can. -/
theorem exists_rest (hr : Runs p run) {n : Nat} (hstill : ∀ m ≥ n, ¬Moves p (run m) (run (m + 1))) {m : Nat}
    (hm : n ≤ m) : ∃ later ≥ m, ¬CanMove p (run later) := by
  by_contra hnot
  obtain ⟨later, hlater, hs⟩ := hr.fair m fun later hlater => by
    by_contra hrest
    exact hnot ⟨later, hlater, hrest⟩
  exact hstill later (hm.trans hlater) hs

/-- **A listing that makes no more than so many requests ends.** -/
theorem exists_isDone (hr : Runs p run) (h : (run 0).Sound p first path capacity) (hcapacity : capacity ≠ 0)
    {requests : Nat} (hbounded : ∀ n, (run n).inquiry.asked.length ≤ requests) :
    ∃ n, (run n).listing.isDone = true := by
  obtain ⟨n, hstill⟩ := hr.exists_still h hbounded
  obtain ⟨m, hm, hrest⟩ := hr.exists_rest hstill le_rfl
  refine ⟨m, ((hr.sound h m).deadline_of_rests hcapacity hrest).resolve_right ?_⟩
  rintro ⟨instant, hdeadline, -⟩
  -- The instant comes, and then the listing could move.
  obtain ⟨past, hpast, hcomes⟩ := hr.time m instant
  obtain ⟨later, hlater, hrest⟩ := hr.exists_rest hstill (hm.trans hpast)
  rw [hr.listing_of_still hstill hm, ← hr.listing_of_still hstill (hm.trans (hpast.trans hlater))] at hdeadline
  rcases (hr.sound h later).deadline_of_rests hcapacity hrest with hdone | ⟨instant', hdeadline', hlt⟩
  · rw [Listing.deadline_of_isDone hdone] at hdeadline
    cases hdeadline
  · rw [hdeadline] at hdeadline'
    cases hdeadline'
    exact absurd hlt (not_lt.mpr (hcomes.trans (hr.now_mono hlater)))

end Runs

/-! ### A run -/

/-- Whoever can move does. -/
def turn (p : ItemPoller) (t : Traversal) : Traversal :=
  match t.listing.step p p.query t.world t.channel with
  | some (listing, world, channel) =>
    ⟨world, channel, listing, t.inquiry.after p p.query t.world t.channel t.listing⟩
  | none =>
    match t.channel.receive with
    | (.message _, channel) => { t with channel }
    | _ => t

/-- An instant passes. -/
def wait (t : Traversal) : Traversal :=
  { t with world := { t.world with ambient := { t.world.ambient with now := t.world.now + 1 } } }

/-- Moves and instants take turns. -/
def schedule (p : ItemPoller) (t : Traversal) : Nat → Traversal
  | 0 => t
  | n + 1 => if n % 2 = 0 then (schedule p t n).turn p else (schedule p t n).wait

theorem turn_cases (p : ItemPoller) (t : Traversal) : Moves p t (t.turn p) ∨ t.turn p = t ∧ ¬CanMove p t := by
  rw [turn]
  split
  next hs => exact .inl (.lists hs)
  next hnone =>
    split
    next hreceive => exact .inl (.receives hreceive)
    next hnot =>
      refine .inr ⟨rfl, fun ⟨t', hs⟩ => ?_⟩
      cases hs with
      | lists hs =>
        rw [hnone] at hs
        cases hs
      | receives hreceive => exact hnot _ _ hreceive

theorem Moves.answers (hs : Moves p t t') (h : t.world.Answers) : t'.world.Answers := by
  cases hs with
  | lists hs => exact (Listing.answered_of_step h hs t.inquiry).1
  | receives => exact h

theorem Step.answers (hs : Step p t t') (h : t.world.Answers) : t'.world.Answers := by
  cases hs with
  | moves hs => exact hs.answers h
  | passes _ _ hanswers => exact hanswers

theorem step_turn (p : ItemPoller) (h : t.world.Answers) : Step p t (t.turn p) := by
  rcases turn_cases p t with hs | ⟨heq, -⟩
  · exact .moves hs
  · rw [heq]
    exact .passes t le_rfl rfl h

theorem step_wait (p : ItemPoller) (h : t.world.Answers) : Step p t t.wait :=
  .passes t (Nat.le_succ _) rfl ⟨h.items, h.route⟩

theorem schedule_even (p : ItemPoller) (t : Traversal) (n : Nat) :
    t.schedule p (2 * n + 1) = (t.schedule p (2 * n)).turn p := by
  rw [schedule, if_pos (Nat.mul_mod_right 2 n)]

theorem schedule_odd (p : ItemPoller) (t : Traversal) (n : Nat) :
    t.schedule p (2 * (n + 1)) = (t.schedule p (2 * n + 1)).wait := by
  rw [Nat.mul_succ, schedule, if_neg (by omega)]

theorem answers_schedule (p : ItemPoller) (h : t.world.Answers) (n : Nat) : (t.schedule p n).world.Answers := by
  induction n with
  | zero => exact h
  | succ n ih =>
    rw [schedule]
    split
    · exact (step_turn p ih).answers ih
    · exact (step_wait p ih).answers ih

theorem le_now_schedule (p : ItemPoller) (h : t.world.Answers) (n : Nat) : n ≤ (t.schedule p (2 * n)).world.now := by
  induction n with
  | zero => exact Nat.zero_le _
  | succ n ih =>
    rw [schedule_odd, schedule_even]
    exact Nat.succ_le_succ (ih.trans (step_turn p (answers_schedule p h _)).now_le)

/-- **There is a run** from wherever a listing stands. -/
theorem runs_schedule (p : ItemPoller) (h : t.world.Answers) : Runs p (t.schedule p) where
  step n := by
    rw [schedule]
    split
    · exact step_turn p (answers_schedule p h n)
    · exact step_wait p (answers_schedule p h n)
  fair n hcan := by
    have hlater : 2 * n ≥ n := by omega
    refine ⟨2 * n, hlater, ?_⟩
    rw [schedule_even]
    exact (turn_cases p _).resolve_right fun hrests => hrests.2 (hcan _ hlater)
  time n instant := by
    refine ⟨2 * max n instant, by omega, ?_⟩
    exact (Nat.le_max_right n instant).trans (le_now_schedule p h _)

/-! ### The law -/

theorem Sound.course_eq (h : t.Sound p first path capacity) : ∃ n, t.inquiry.course p first =
    .ofAnswers (p.request path p.query "") first (List.replicate n true) := by
  refine ⟨t.inquiry.asked.length, ?_⟩
  have hall : t.inquiry.asked.map Prod.snd = List.replicate t.inquiry.asked.length true := by
    rw [List.eq_replicate_iff, List.length_map]
    exact ⟨rfl, fun b hb => by obtain ⟨x, hx, rfl⟩ := List.mem_map.mp hb; exact h.answered x hx⟩
  rw [Inquiry.course, hall, h.names]

/-- A listing that does not begin anew makes no more requests than any listing may. -/
theorem Sound.length_asked_le {names : String → Prop} (h : t.Sound p first path capacity) (hnamed : first.Named names)
    (hstart : ¬first.Restarts (p.request path p.query "")) : t.inquiry.asked.length ≤
      Listing.pageAttempts * ((first.matching (p.request path p.query "")).length + 1) := by
  obtain ⟨rest, ahead, hcourse⟩ := h.stands.known
  obtain ⟨n, heq⟩ := h.course_eq
  rw [← hcourse.asked, heq]
  exact (Listing.Course.sound_ofAnswers hnamed hstart _).length_asked_le

theorem Sound.over (h : t.Sound p first path capacity) (hdone : t.listing.isDone = true) :
    t.inquiry.OnCourse p first [] none := by
  obtain ⟨world, channel, ⟨path, marker, stage⟩, inquiry⟩ := t
  cases stage with
  | done => exact h.stands.2
  | _ => cases hdone

/-- A listing that begins anew is never over. -/
theorem Sound.not_isDone (h : t.Sound p first path capacity)
    (hrestarts : first.Restarts (p.request path p.query "")) : t.listing.isDone = false := by
  refine Bool.eq_false_iff.mpr fun hdone => ?_
  obtain ⟨n, hcourse⟩ := h.course_eq
  have hnone := (h.over hdone).ahead
  rw [hcourse, Listing.Course.ahead_of_restarts hrestarts] at hnone
  cases hnone

/-- **A listing that is over** has made one request for each page, and brought all items. -/
theorem Sound.whole_of_isDone {names : String → Prop} (h : t.Sound p first path capacity) (hnamed : first.Named names)
    (hdone : t.listing.isDone = true) :
    t.inquiry.asked.length = first.pageCount (p.request path p.query "") ∧
      List.Forall₂ (Survey.Brings path) (first.matching (p.request path p.query ""))
        t.inquiry.accepted := by
  have hstart : ¬first.Restarts (p.request path p.query "") := fun hrestarts =>
    Bool.false_ne_true ((h.not_isDone hrestarts).symm.trans hdone)
  obtain ⟨n, hcourse⟩ := h.course_eq
  obtain ⟨hasked, hahead, done, hitems, hbrings⟩ := h.over hdone
  have hpaged : (t.inquiry.course p first).Paged _ first := hcourse ▸ Listing.Course.paged_ofAnswers hnamed hstart n
  obtain ⟨hall, hcount⟩ := hpaged.closed hahead
  rw [hasked] at hcount
  rw [List.append_nil] at hitems
  rw [hitems.symm.trans hall, h.names] at hbrings
  exact ⟨hcount, hbrings⟩

/-- **Which listings end.** Whatever items were stored, with whatever names, whatever path is listed with whatever
settings, whatever the capacity of the channel, however long calls and pauses take, and in whatever order the
listing and who receives its events move: if the items stay as they are, no request fails, and nobody is held up
for ever, then the listing ends, unless it is one by pages of one item, of which the first has an empty name and
is not the only one, or one by pages of no items, although there are some. A listing that ends makes one request
for each page, and its events are those of all items, in order; one that does not end makes more requests than
any number. -/
theorem isDone_iff {run : Nat → Traversal} (hbuilt : ItemStore.new.Later (fun _ => True) world.clients.items)
    (hanswers : world.Answers) (hlisted : path ∈ p.settings.paths) (hcapacity : capacity ≠ 0)
    (hstart : run 0 = opened path world capacity) (hr : Runs p run) :
    let request := p.request path p.query ""
    let items := world.clients.items.matching request
    let endless := p.settings.pageSize < items.length ∧
      (p.settings.pageSize = 0 ∨ p.settings.pageSize = 1 ∧ items.head?.map Item.name = some "")
    ((∃ n, (run n).listing.isDone = true) ↔ ¬endless) ∧
      (∀ n, (run n).listing.isDone = true →
        (run n).inquiry.asked.length = world.clients.items.pageCount request ∧
          List.Forall₂ (Survey.Brings path) items (run n).inquiry.accepted) ∧
      (¬endless → ∀ n, (run n).inquiry.asked.length ≤ world.clients.items.pageCount request) ∧
      (endless → ∀ requests, ∃ n, requests < (run n).inquiry.asked.length) := by
  intro request items endless
  have hnamed : world.clients.items.Named fun _ => True := hbuilt.named (ItemStore.named_new _)
  have hrestarts : world.clients.items.Restarts request ↔ endless := ItemStore.restarts_iff hnamed
  have hsound : (run 0).Sound p world.clients.items path capacity :=
    hstart ▸ sound_opened hanswers hlisted capacity
  have hwhole : ∀ n, (run n).listing.isDone = true → _ := fun n hdone =>
    (hr.sound hsound n).whole_of_isDone hnamed hdone
  have hends : ¬endless → ∃ n, (run n).listing.isDone = true := fun hnot =>
    hr.exists_isDone hsound hcapacity fun n =>
      (hr.sound hsound n).length_asked_le hnamed (hrestarts.not.mpr hnot)
  have hnever : endless → ∀ n, (run n).listing.isDone = false := fun hendless n =>
    (hr.sound hsound n).not_isDone (hrestarts.mpr hendless)
  refine ⟨⟨?_, hends⟩, hwhole, ?_, ?_⟩
  · rintro ⟨n, hdone⟩ hendless
    exact Bool.false_ne_true ((hnever hendless n).symm.trans hdone)
  · intro hnot n
    obtain ⟨last, hdone⟩ := hends hnot
    have hlater := hr.isDone_mono (Nat.le_max_right n last) hdone
    rw [← (hwhole _ hlater).1]
    exact hr.asked_mono (Nat.le_max_left n last)
  · intro hendless requests
    by_contra hbounded
    obtain ⟨n, hdone⟩ := hr.exists_isDone hsound hcapacity fun n =>
      not_lt.mp fun hlt => hbounded ⟨n, hlt⟩
    exact Bool.false_ne_true ((hnever hendless n).symm.trans hdone)

/-- The items of a directory, by pages of so many. -/
def pagesOf (pageSize : Nat) : ItemPoller :=
  .new "p" { paths := ["/d"], pageSize, pageDelay := 7, poll := ⟨1000, 64⟩ }

/-- Three items, by pages of two: an empty name does no harm, though calls and pauses take a while and the channel
has one place. -/
theorem isDone_beside_empty_name :
    let items := ((ItemStore.new.put "/d" "" [] ⟨5, 0⟩).put "/d" "a" [] ⟨5, 0⟩).put "/d" "b" [] ⟨5, 0⟩
    let world : World := { World.start ⟨0, 0⟩ .echo with
      clients := { Clients.new with items, routes := [(.getItems, ⟨some 5, 0⟩)] } }
    ∃ run : Nat → Traversal, run 0 = opened "/d" world 1 ∧ Runs (pagesOf 2) run ∧
      ∃ n, (run n).listing.isDone = true ∧ (run n).inquiry.asked.length = 2 ∧
        (run n).inquiry.accepted.map Event.path = ["/d/", "/d/a", "/d/b"] := by
  intro items world
  have hbuilt : ItemStore.new.Later (fun _ => True) world.clients.items :=
    ((Relation.ReflTransGen.single (.puts _ _ _ _ trivial)).tail (.puts _ _ _ _ trivial)).tail
      (.puts _ _ _ _ trivial)
  have hanswers : world.Answers := ⟨rfl, rfl⟩
  have hr := runs_schedule (pagesOf 2) (t := opened "/d" world 1) hanswers
  obtain ⟨hends, hwhole, -⟩ := isDone_iff hbuilt hanswers (List.mem_singleton_self "/d") Nat.one_ne_zero rfl hr
  obtain ⟨n, hdone⟩ := hends.mpr (by decide +kernel)
  obtain ⟨hcount, hbrings⟩ := hwhole n hdone
  refine ⟨_, rfl, hr, n, hdone, hcount.trans (by decide +kernel), ?_⟩
  rw [Survey.paths_of_brings hbrings]
  decide +kernel

/-- By pages of one item, an item with an empty name is listed again and again. -/
theorem not_isDone_of_empty_name :
    ¬ ∀ (p : ItemPoller) (path : String) (world : World) (capacity : Nat) (run : Nat → Traversal),
      ItemStore.new.Later (fun _ => True) world.clients.items → world.Answers → path ∈ p.settings.paths →
        p.settings.pageSize ≠ 0 → capacity ≠ 0 → run 0 = opened path world capacity → Runs p run →
          ∃ n, (run n).listing.isDone = true := by
  intro hlaw
  let items := (ItemStore.new.put "/d" "" [] ⟨5, 0⟩).put "/d" "a" [] ⟨5, 0⟩
  let world : World := { World.start ⟨0, 0⟩ .echo with clients := { Clients.new with items } }
  have hbuilt : ItemStore.new.Later (fun _ => True) world.clients.items :=
    (Relation.ReflTransGen.single (.puts _ _ _ _ trivial)).tail (.puts _ _ _ _ trivial)
  have hanswers : world.Answers := ⟨rfl, rfl⟩
  have hlisted : "/d" ∈ (pagesOf 1).settings.paths := List.mem_singleton_self _
  have hr := runs_schedule (pagesOf 1) (t := opened "/d" world 1) hanswers
  have hsound : (opened "/d" world 1).Sound (pagesOf 1) world.clients.items "/d" 1 :=
    sound_opened hanswers hlisted 1
  have hrestarts : world.clients.items.Restarts ((pagesOf 1).request "/d" (pagesOf 1).query "") := by
    decide +kernel
  obtain ⟨n, hdone⟩ := hlaw (pagesOf 1) "/d" world 1 _ hbuilt hanswers hlisted Nat.one_ne_zero Nat.one_ne_zero rfl hr
  exact Bool.false_ne_true (((hr.sound hsound n).not_isDone hrestarts).symm.trans hdone)

end Traversal

end EventDispatch
