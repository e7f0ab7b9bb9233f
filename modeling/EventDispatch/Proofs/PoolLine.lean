import EventDispatch.Proofs.Pool
import Mathlib.Data.List.Pairwise
import Mathlib.Logic.Relation
import Mathlib.Order.Nat

/-!
# Waiting for a pool

Calls wait for the items of a pool, each as long as its limit allows or for ever. Items are taken without
waiting, and returned, and calls are given up. Those who wait stand in a line, and the pool serves it from
the front: of those who still wait, as many can go on as items are idle, and these are the ones who came
first.

A call that runs out of time or is given up leaves the line, and takes no item with it. If it was granted
a permit already, the permit goes to the next in the line. So it costs nobody a turn.

## Time

The clock goes on only when no call that waits can move, and never past the instant at which one of them
runs out of time. A call that is due at an instant therefore moves at this instant. A permit that comes at
the same instant counts, and then the call does not fail.

## What is deliberately absent

Nothing is said of what callers do with their items. Any item may be returned at any time, whether it was
taken or not. The deterministic `Schedule` is one of the runs considered here.

## Main definitions

* `Pool.Serves`: a pool and the line of tickets that it serves.
* `Waiter`: a call that waits or has waited.
* `PoolLine`, `PoolLine.Step`: a pool with all waiters there ever were, and one move of anybody.
* `PoolLine.Fair`: the law.

## Main results

* `Acquire.step_waiting_cases`: everything that a call that waits can do.
* `PoolLine.Sound.step`: what one move of anybody keeps.
* `PoolLine.fair_of_reachable`: the law, for every run.
-/

namespace EventDispatch

/-! ### The line of a pool -/

namespace Pool

variable {α : Type} {p p' : Pool α} {tickets : List Nat} {ticket k : Nat}

/-- A pool serves a line of tickets: the permits are granted from the front, and none is free while
somebody waits for one. -/
structure Serves (tickets : List Nat) (p : Pool α) : Prop where
  order : p.granted ++ p.waiting = tickets
  greedy : p.waiting = [] ∨ p.free = 0
  balanced : p.Balanced
  ticketed : p.Ticketed tickets

theorem serves_full (name : String) (items : List α) : (full name items).Serves [] :=
  ⟨rfl, .inl rfl, balanced_full name items, ticketed_full name items⟩

/-- Who asks comes to the end of the line. -/
theorem Serves.request (h : p.Serves tickets) : p.request.2.Serves (tickets ++ [p.request.1]) := by
  refine ⟨?_, ?_, (request_balanced h.balanced).1,
    h.ticketed.request.of_perm (List.perm_append_singleton _ _).symm⟩
  · cases hf : p.free with
    | zero => simp [Pool.request, hf, ← h.order]
    | succ free =>
      have hnone : p.waiting = [] := h.greedy.resolve_right (by omega)
      simp [Pool.request, hf, hnone, ← h.order]
  · cases hf : p.free with
    | zero => simp [Pool.request, hf]
    | succ free =>
      have hnone : p.waiting = [] := h.greedy.resolve_right (by omega)
      simp [Pool.request, hf, hnone]

/-- A permit more is granted to the first who has none. -/
theorem granted_addPermit (p : Pool α) :
    p.addPermit.granted ++ p.addPermit.waiting = p.granted ++ p.waiting ∧
      ((p.waiting = [] ∨ p.free = 0) → p.addPermit.waiting = [] ∨ p.addPermit.free = 0) ∧
      ∀ x ∈ p.granted, x ∈ p.addPermit.granted := by
  cases hw : p.waiting with
  | nil => simp [addPermit, hw]
  | cons first rest =>
    refine ⟨by simp [addPermit, hw], fun hgreedy => .inr ?_, fun x hx => ?_⟩
    · simpa [addPermit, hw] using hgreedy
    · simp [addPermit, hw, hx]

/-- A permit is used up, wherever in the line its ticket stands. -/
theorem Serves.redeem (h : p.Serves tickets) {r : Except Error α} (hr : p.redeem ticket = some (r, p')) :
    p'.Serves (tickets.erase ticket) ∧ ∀ x ∈ p.granted, x ≠ ticket → x ∈ p'.granted := by
  have hgranted : ticket ∈ p.granted := by
    by_contra hnot
    rw [redeem_eq_none.mpr hnot] at hr
    cases hr
  have hmem : ticket ∈ tickets := h.order ▸ List.mem_append_left _ hgranted
  obtain ⟨item, -, hidle, hb, -⟩ := redeem_balanced h.balanced hr
  have hticketed := (h.ticketed.of_perm (List.perm_cons_erase hmem)).redeem h.balanced hr
  have hp' : p' = { p with granted := p.granted.erase ticket, idle := p'.idle } := by
    simp only [Pool.redeem, if_pos hgranted, popIdle, hidle, Option.some.injEq, Prod.mk.injEq] at hr
    exact hr.2.symm
  refine ⟨⟨?_, ?_, hb, hticketed⟩, fun x hx hne => ?_⟩
  · rw [hp', ← h.order, List.erase_append_left _ hgranted]
  · rw [hp']
    exact h.greedy
  · rw [hp']
    exact (List.mem_erase_of_ne hne).mpr hx

/-- Whoever leaves the line hands a permit on. -/
theorem Serves.withdraw (h : p.Serves tickets) (hmem : ticket ∈ tickets) :
    (p.withdraw ticket).Serves (tickets.erase ticket) ∧
      ∀ x ∈ p.granted, x ≠ ticket → x ∈ (p.withdraw ticket).granted := by
  have hb := (withdraw_balanced h.balanced ticket).1
  have hticketed := (h.ticketed.of_perm (List.perm_cons_erase hmem)).withdraw
  by_cases hgranted : ticket ∈ p.granted
  · have hw : p.withdraw ticket = { p with granted := p.granted.erase ticket }.addPermit := by
      rw [Pool.withdraw, if_pos hgranted]
    obtain ⟨horder, hgreedy, hkeeps⟩ := granted_addPermit { p with granted := p.granted.erase ticket }
    rw [hw] at hb hticketed ⊢
    refine ⟨⟨?_, hgreedy h.greedy, hb, hticketed⟩, fun x hx hne => ?_⟩
    · rw [horder, ← h.order, List.erase_append_left _ hgranted]
    · exact hkeeps x ((List.mem_erase_of_ne hne).mpr hx)
  · have hw : p.withdraw ticket = { p with waiting := p.waiting.erase ticket } := by
      rw [Pool.withdraw, if_neg hgranted]
    rw [hw] at hb hticketed ⊢
    refine ⟨⟨?_, ?_, hb, hticketed⟩, fun x hx _ => hx⟩
    · rw [← h.order, List.erase_append_right _ hgranted]
    · rcases h.greedy with hnone | hfree
      · left
        simp [hnone]
      · exact .inr hfree

/-- Who does not wait takes an item only if nobody waits for one. -/
theorem Serves.tryTake (h : p.Serves tickets) {r : Except Error α} (hr : p.tryTake = (r, p')) :
    p'.Serves tickets ∧ p'.granted = p.granted := by
  obtain ⟨-, hb, -, hgranted, hwaiting, hnext⟩ := tryTake_balanced h.balanced hr
  refine ⟨⟨?_, ?_, hb, ?_, h.ticketed.nodup, ?_⟩, hgranted⟩
  · rw [hgranted, hwaiting]
    exact h.order
  · rw [hwaiting]
    rcases h.greedy with hnone | hfree
    · exact .inl hnone
    · rw [Pool.tryTake, hfree] at hr
      cases hr
      exact .inr hfree
  · rw [hgranted, hwaiting]
    exact h.ticketed.perm
  · rw [hnext]
    exact h.ticketed.fresh

/-- A return serves the line, if the item is kept. -/
theorem Serves.giveBack (h : p.Serves tickets) (same : α → α → Bool) (item : α) :
    (p.giveBack same item).2.Serves tickets ∧ ∀ x ∈ p.granted, x ∈ (p.giveBack same item).2.granted := by
  have hb := giveBack_balanced h.balanced same item
  have hticketed := h.ticketed.giveBack same item
  obtain ⟨horder, hgreedy, hkeeps⟩ := granted_addPermit { p with idle := item :: p.idle }
  have hgiven : ((p.giveBack same item).2.granted ++ (p.giveBack same item).2.waiting = tickets ∧
      ((p.giveBack same item).2.waiting = [] ∨ (p.giveBack same item).2.free = 0)) ∧
      ∀ x ∈ p.granted, x ∈ (p.giveBack same item).2.granted := by
    rw [Pool.giveBack]
    split
    · exact ⟨⟨h.order, h.greedy⟩, fun x hx => hx⟩
    · split
      · exact ⟨⟨h.order, h.greedy⟩, fun x hx => hx⟩
      · exact ⟨⟨horder.trans h.order, hgreedy h.greedy⟩, hkeeps⟩
  exact ⟨⟨hgiven.1.1, hgiven.1.2, hb, hticketed⟩, hgiven.2⟩

/-- As many tickets have a permit as items are idle, from the front of the line. -/
theorem Serves.granted_iff (h : p.Serves tickets) (hk : tickets[k]? = some ticket) :
    ticket ∈ p.granted ↔ k < p.idle.length := by
  have hlen : k < tickets.length := (List.getElem?_eq_some_iff.mp hk).1
  have hcount : k < p.granted.length ↔ k < p.idle.length := by
    have hb : p.idle.length = p.free + p.granted.length := h.balanced
    rcases h.greedy with hnone | hfree
    · have hall : p.granted = tickets := by rw [← h.order, hnone, List.append_nil]
      rw [← hall] at hlen
      omega
    · omega
  rw [← hcount]
  constructor
  · intro hm
    obtain ⟨i, hi, heq⟩ := List.getElem_of_mem hm
    have hi' : tickets[i]? = some ticket := by
      rw [← h.order, List.getElem?_append_left hi, List.getElem?_eq_getElem hi, heq]
    have hsame : i = k := (List.getElem?_inj (List.getElem?_eq_some_iff.mp hi').1 h.ticketed.nodup).mp
      (hi'.trans hk.symm)
    exact hsame ▸ hi
  · intro hlt
    rw [← h.order, List.getElem?_append_left hlt] at hk
    exact List.mem_of_getElem? hk

/-- Whoever stands before one who has a permit has one too. -/
theorem Serves.granted_of_before {front back : List Nat} (h : p.Serves (front ++ ticket :: back))
    (hgranted : ticket ∈ p.granted) : ∀ x ∈ front, x ∈ p.granted := by
  intro x hx
  rcases List.append_eq_append_iff.mp h.order with ⟨rest, hfront, hwaiting⟩ | ⟨rest, hall, -⟩
  · have hnodup := h.ticketed.perm.nodup_iff.mpr h.ticketed.nodup
    have hmem : ticket ∈ p.waiting := by
      rw [hwaiting]
      simp
    exact absurd rfl ((List.nodup_append.mp hnodup).2.2 ticket hgranted ticket hmem)
  · rw [hall]
    exact List.mem_append_left _ hx

end Pool

/-- **Everything that a call that waits can do**: with a permit it takes an item; without one it fails once
its time is over, and waits until then. -/
theorem Acquire.step_waiting_cases {α : Type} {p : Pool α} (hb : p.Balanced) (now ticket : Nat)
    (limit : Option (Nat × Nat)) :
    (ticket ∈ p.granted ∧ ∃ item p', p.redeem ticket = some (.ok item, p') ∧ p.idle = item :: p'.idle ∧
      (Acquire.waiting ticket limit).step now p = some (.ends (.ok item), p')) ∨
    (ticket ∉ p.granted ∧ ∃ deadline t, limit = some (deadline, t) ∧ deadline ≤ now ∧
      (Acquire.waiting ticket limit).step now p =
        some (.ends (.error (.timedOut (.ofMillis t))), p.withdraw ticket)) ∨
    (ticket ∉ p.granted ∧ (∀ deadline t, limit = some (deadline, t) → now < deadline) ∧
      (Acquire.waiting ticket limit).step now p = none) := by
  cases hr : p.redeem ticket with
  | some x =>
    obtain ⟨r, p'⟩ := x
    obtain ⟨item, rfl, hidle, -, -⟩ := Pool.redeem_balanced hb hr
    have hgranted : ticket ∈ p.granted := by
      by_contra hnot
      rw [Pool.redeem_eq_none.mpr hnot] at hr
      cases hr
    exact .inl ⟨hgranted, item, p', rfl, hidle, by simp [step, hr]⟩
  | none =>
    have hnot : ticket ∉ p.granted := Pool.redeem_eq_none.mp hr
    rcases limit with _ | ⟨deadline, t⟩
    · exact .inr (.inr ⟨hnot, by simp, by simp [step, hr]⟩)
    · by_cases hdue : deadline ≤ now
      · exact .inr (.inl ⟨hnot, deadline, t, rfl, hdue, by simp [step, hr, hdue]⟩)
      · refine .inr (.inr ⟨hnot, ?_, by simp [step, hr, hdue]⟩)
        rintro _ _ ⟨⟩
        exact Nat.not_le.mp hdue

/-! ### Waiters -/

/-- What has become of a call that waits. -/
inductive Reply (α : Type) where
  | waiting
  | answered (at_ : Nat) (result : Except Error α)
  | dropped

/-- A call that waits for an item, or has waited. -/
structure Waiter (α : Type) where
  ticket : Nat
  /-- The instant at which it was made. -/
  since : Nat
  /-- How long it may wait, in milliseconds. -/
  limit : Option Nat
  reply : Reply α

namespace Waiter

variable {α : Type}

/-- The call, while it waits. -/
def acquire (r : Waiter α) : Acquire := .waiting r.ticket (r.limit.map fun t => (r.since + t, t))

/-- It still waits. -/
def waits (r : Waiter α) : Bool :=
  match r.reply with
  | .waiting => true
  | _ => false

/-- The item that it was answered with. -/
def taken (r : Waiter α) : List α :=
  match r.reply with
  | .answered _ (.ok item) => [item]
  | _ => []

/-- It keeps to its time. -/
def Timely (now : Nat) (r : Waiter α) : Prop :=
  match r.reply with
  | .waiting => ∀ t, r.limit = some t → now ≤ r.since + t
  | .answered instant result => instant ≤ now ∧ (∀ t, r.limit = some t → instant ≤ r.since + t) ∧
      ∀ e, result = .error e →
        ∃ t, r.limit = some t ∧ e = .timedOut (.ofMillis t) ∧ instant = r.since + t
  | .dropped => True

theorem waits_iff {r : Waiter α} : r.waits = true ↔ r.reply = .waiting := by
  rw [waits]
  split <;> simp_all

end Waiter

/-- A pool, all waiters in the order in which they came, the items taken without waiting, and those
that were returned and kept. -/
structure PoolLine (α : Type) where
  now : Nat
  pool : Pool α
  waiters : List (Waiter α)
  tried : List α
  kept : List α

namespace PoolLine

variable {α : Type}

/-- A pool with all its items, which nobody has asked for. -/
def full (name : String) (items : List α) : PoolLine α := ⟨0, .full name items, [], [], []⟩

/-- Those that still wait, in the order in which they came. -/
def queue (s : PoolLine α) : List (Waiter α) := s.waiters.filter Waiter.waits

theorem mem_queue {s : PoolLine α} {r : Waiter α} : r ∈ s.queue ↔ r ∈ s.waiters ∧ r.reply = .waiting := by
  rw [queue, List.mem_filter, Waiter.waits_iff]

/-- One move of anybody. -/
inductive Step : PoolLine α → PoolLine α → Prop
  /-- Somebody asks for an item and waits, as long as a limit allows or for ever. -/
  | asks (s : PoolLine α) {limit : Option Nat} {ticket : Nat} {deadline : Option (Nat × Nat)}
      {pool : Pool α}
      (hs : (Acquire.asking limit).step s.now s.pool = some (.goes (.waiting ticket deadline), pool)) :
      Step s { s with pool, waiters := s.waiters ++ [⟨ticket, s.now, limit, .waiting⟩] }
  /-- Somebody takes an item without waiting, or finds none. -/
  | tries (s : PoolLine α) {result : Except Error α} {pool : Pool α} (hs : s.pool.tryTake = (result, pool)) :
      Step s { s with pool, tried := result.toOption.toList ++ s.tried }
  /-- A waiter is answered. -/
  | answers {now : Nat} {p p' : Pool α} {pre post : List (Waiter α)} {r : Waiter α}
      {tried kept : List α} {result : Except Error α} (hw : r.reply = .waiting)
      (hs : r.acquire.step now p = some (.ends result, p')) :
      Step ⟨now, p, pre ++ r :: post, tried, kept⟩
        ⟨now, p', pre ++ { r with reply := .answered now result } :: post, tried, kept⟩
  /-- A waiter is given up. -/
  | drops {now : Nat} {p : Pool α} {pre post : List (Waiter α)} {r : Waiter α} {tried kept : List α}
      (hw : r.reply = .waiting) :
      Step ⟨now, p, pre ++ r :: post, tried, kept⟩
        ⟨now, r.acquire.drop p, pre ++ { r with reply := .dropped } :: post, tried, kept⟩
  /-- An item is returned, and kept or not. -/
  | returns (s : PoolLine α) (same : α → α → Bool) (item : α) {kept : Bool} {pool : Pool α}
      (hs : s.pool.giveBack same item = (kept, pool)) :
      Step s { s with pool, kept := (if kept then [item] else []) ++ s.kept }
  /-- Time passes, once no waiter can move, and until one of them is due at the latest. -/
  | passes (s : PoolLine α) (now : Nat) (hle : s.now ≤ now)
      (hquiet : ∀ r ∈ s.queue, r.acquire.step s.now s.pool = none)
      (hdue : ∀ r ∈ s.queue, ∀ instant, r.acquire.deadline = some instant → now ≤ instant) :
      Step s { s with now }

/-- **The law.** The line is served in its order, and who fails has waited as long as allowed. -/
structure Fair (items : List α) (s : PoolLine α) : Prop where
  /-- As long as a waiter cannot move, no item can be taken by others. -/
  alert : ∀ r ∈ s.queue, r.acquire.step s.now s.pool = none → s.pool.available = 0
  /-- Of those who wait, as many are served as items are idle, and these are the ones who came first. -/
  turn : ∀ k r, s.queue[k]? = some r →
    ((∃ item pool, r.acquire.step s.now s.pool = some (.ends (.ok item), pool)) ↔ k < s.pool.idle.length)
  /-- One of the others fails when its time is over. -/
  expiry : ∀ k r, s.queue[k]? = some r →
    ((∃ e pool, r.acquire.step s.now s.pool = some (.ends (.error e), pool)) ↔
      s.pool.idle.length ≤ k ∧ ∃ t, r.limit = some t ∧ s.now = r.since + t)
  /-- When a waiter is served, all that came before have been answered by then, or are served at the same
  instant. -/
  in_order : s.waiters.Pairwise fun r later => ∀ instant item, later.reply = .answered instant (.ok item) →
    (∀ earlier result, r.reply = .answered earlier result → earlier ≤ instant) ∧
    (r.reply = .waiting → instant = s.now ∧
      ∃ item pool, r.acquire.step s.now s.pool = some (.ends (.ok item), pool))
  /-- A waiter fails only because its time is over, and exactly then. -/
  punctual : ∀ r ∈ s.waiters, ∀ instant e, r.reply = .answered instant (.error e) →
    ∃ t, r.limit = some t ∧ e = .timedOut (.ofMillis t) ∧ instant = r.since + t
  /-- No waiter waits longer than it may. -/
  timely : ∀ r ∈ s.waiters, ∀ t, r.limit = some t → (r.reply = .waiting → s.now ≤ r.since + t) ∧
    ∀ instant result, r.reply = .answered instant result → instant ≤ r.since + t
  /-- Every item is idle, or was taken without waiting or by a waiter that was served; none is lost to
  others. -/
  accounts : (s.pool.idle ++ (s.waiters.flatMap Waiter.taken ++ s.tried)).Perm (items ++ s.kept)

/-! ### What every move keeps -/

/-- Two waiters, of which one came before the other, are in order: when the later is served, the
earlier was answered by then, or has a permit and the instant is the same. -/
def InTurn (now : Nat) (p : Pool α) (r later : Waiter α) : Prop :=
  ∀ instant item, later.reply = .answered instant (.ok item) →
    (∀ earlier result, r.reply = .answered earlier result → earlier ≤ instant) ∧
    (r.reply = .waiting → instant = now ∧ r.ticket ∈ p.granted)

/-- The state is in order. -/
structure Sound (items : List α) (s : PoolLine α) : Prop where
  serves : s.pool.Serves (s.queue.map Waiter.ticket)
  timely : ∀ r ∈ s.waiters, r.Timely s.now
  turns : s.waiters.Pairwise (InTurn s.now s.pool)
  accounts : (s.pool.idle ++ (s.waiters.flatMap Waiter.taken ++ s.tried)).Perm (items ++ s.kept)

variable {items : List α} {s s' : PoolLine α}

theorem sound_full (name : String) (items : List α) : Sound items (full name items) :=
  ⟨Pool.serves_full name items, by simp [full], by simp [full], by simp [full, Pool.full]⟩

/-! ### What follows for those who wait -/

/-- What a waiter can do depends on its place in the line. -/
theorem Sound.acquire_iff (h : Sound items s) {k : Nat} {r : Waiter α} (hk : s.queue[k]? = some r) :
    ((∃ item pool, r.acquire.step s.now s.pool = some (.ends (.ok item), pool)) ↔ k < s.pool.idle.length) ∧
    ((∃ e pool, r.acquire.step s.now s.pool = some (.ends (.error e), pool)) ↔
      s.pool.idle.length ≤ k ∧ ∃ t, r.limit = some t ∧ s.now = r.since + t) := by
  have hgranted : r.ticket ∈ s.pool.granted ↔ k < s.pool.idle.length :=
    h.serves.granted_iff (by rw [List.getElem?_map, hk, Option.map_some])
  obtain ⟨hmem, hw⟩ := mem_queue.mp (List.mem_of_getElem? hk)
  have htimely : ∀ t, r.limit = some t → s.now ≤ r.since + t := by
    have := h.timely r hmem
    rwa [Waiter.Timely, hw] at this
  rw [Waiter.acquire]
  rcases Acquire.step_waiting_cases h.serves.balanced s.now r.ticket
      (r.limit.map fun t => (r.since + t, t)) with
    ⟨hyes, item, pool, -, -, hstep⟩ | ⟨hno, deadline, t, hlimit, hdue, hstep⟩ | ⟨hno, hlater, hstep⟩
  · have hlt := hgranted.mp hyes
    refine ⟨⟨fun _ => hlt, fun _ => ⟨item, pool, hstep⟩⟩, ⟨?_, fun ⟨hle, _⟩ => absurd hlt hle.not_gt⟩⟩
    rintro ⟨e, pool', hstep'⟩
    rw [hstep] at hstep'
    cases hstep'
  · have hge : s.pool.idle.length ≤ k := Nat.not_lt.mp (hgranted.not.mp hno)
    obtain ⟨_, hl, heq⟩ := Option.map_eq_some_iff.mp hlimit
    cases heq
    refine ⟨⟨?_, fun hlt => absurd hlt hge.not_gt⟩,
      ⟨fun _ => ⟨hge, t, hl, (htimely t hl).antisymm hdue⟩, fun _ => ⟨_, _, hstep⟩⟩⟩
    rintro ⟨item, pool, hstep'⟩
    rw [hstep] at hstep'
    cases hstep'
  · have hge : s.pool.idle.length ≤ k := Nat.not_lt.mp (hgranted.not.mp hno)
    refine ⟨⟨?_, fun hlt => absurd hlt hge.not_gt⟩, ⟨?_, ?_⟩⟩
    · rintro ⟨item, pool, hstep'⟩
      rw [hstep] at hstep'
      cases hstep'
    · rintro ⟨e, pool, hstep'⟩
      rw [hstep] at hstep'
      cases hstep'
    · rintro ⟨-, t, hl, hnow⟩
      exact absurd (hlater (r.since + t) t (by rw [hl, Option.map_some])) (by omega)

theorem Sound.fair (h : Sound items s) : Fair items s where
  alert r hr hstep := by
    have hnot : r.ticket ∉ s.pool.granted := fun hm => Acquire.step_ne_none_of_granted hm hstep
    have hmem : r.ticket ∈ s.pool.granted ++ s.pool.waiting := by
      rw [h.serves.order]
      exact List.mem_map_of_mem hr
    refine h.serves.greedy.resolve_left fun hnone => ?_
    rw [hnone, List.append_nil] at hmem
    exact hnot hmem
  turn k r hk := (h.acquire_iff hk).1
  expiry k r hk := (h.acquire_iff hk).2
  in_order := by
    refine h.turns.imp_of_mem fun {r later} hr _ hturn instant item hserved => ?_
    obtain ⟨hanswered, hwaiting⟩ := hturn instant item hserved
    refine ⟨hanswered, fun hw => ?_⟩
    obtain ⟨hinstant, hgranted⟩ := hwaiting hw
    obtain ⟨k, hk⟩ := List.mem_iff_getElem?.mp (mem_queue.mpr ⟨hr, hw⟩)
    have hplace : (s.queue.map Waiter.ticket)[k]? = some r.ticket := by
      rw [List.getElem?_map, hk, Option.map_some]
    exact ⟨hinstant, (h.acquire_iff hk).1.mpr ((h.serves.granted_iff hplace).mp hgranted)⟩
  punctual r hr instant e he := by
    have htimely := h.timely r hr
    rw [Waiter.Timely, he] at htimely
    exact htimely.2.2 e rfl
  timely r hr t ht := by
    have htimely := h.timely r hr
    refine ⟨fun hw => ?_, fun instant result ha => ?_⟩
    · rw [Waiter.Timely, hw] at htimely
      exact htimely t ht
    · rw [Waiter.Timely, ha] at htimely
      exact htimely.2.1 t ht
  accounts := h.accounts

/-! ### The moves -/

theorem InTurn.of_granted {now : Nat} {p p' : Pool α} {r later : Waiter α} (h : InTurn now p r later)
    (hkeeps : r.reply = .waiting → r.ticket ∈ p.granted → r.ticket ∈ p'.granted) :
    InTurn now p' r later := by
  intro instant item hserved
  obtain ⟨hanswered, hwaiting⟩ := h instant item hserved
  exact ⟨hanswered, fun hw => ⟨(hwaiting hw).1, hkeeps hw (hwaiting hw).2⟩⟩

/-- Somebody asks, and waits from now on. -/
theorem Sound.asks (h : Sound items s) {limit : Option Nat} {ticket : Nat} {deadline : Option (Nat × Nat)}
    {pool : Pool α}
    (hs : (Acquire.asking limit).step s.now s.pool = some (.goes (.waiting ticket deadline), pool)) :
    Sound items { s with pool, waiters := s.waiters ++ [⟨ticket, s.now, limit, .waiting⟩] } := by
  have hrequest : ticket = s.pool.request.1 ∧ pool = s.pool.request.2 := by
    rcases limit with _ | _ | t
    · cases hs
      exact ⟨rfl, rfl⟩
    · cases hs
    · cases hs
      exact ⟨rfl, rfl⟩
  obtain ⟨rfl, rfl⟩ := hrequest
  have hgranted : ∀ x ∈ s.pool.granted, x ∈ s.pool.request.2.granted := by
    intro x hx
    rw [Pool.request]
    split
    · exact List.mem_append_left _ hx
    · exact hx
  refine ⟨?_, ?_, ?_, ?_⟩
  · have hline : ∀ r : Waiter α, r.reply = .waiting →
        (s.waiters ++ [r]).filter Waiter.waits = s.queue ++ [r] := by
      intro r hw
      rw [List.filter_append, List.filter_cons_of_pos (Waiter.waits_iff.mpr hw)]
      rfl
    rw [queue, hline _ rfl, List.map_append]
    exact h.serves.request
  · intro r hr
    rcases List.mem_append.mp hr with hr | hr
    · exact h.timely r hr
    · rw [List.mem_singleton.mp hr]
      exact fun t _ => Nat.le_add_right _ _
  · refine List.pairwise_append.mpr ⟨h.turns.imp fun hturn => hturn.of_granted fun _ => hgranted _,
      List.pairwise_singleton _ _, fun r _ later hlater instant item hserved => ?_⟩
    rw [List.mem_singleton.mp hlater] at hserved
    cases hserved
  · have hidle : s.pool.request.2.idle = s.pool.idle := (Pool.request_balanced h.serves.balanced).2.1
    simpa [hidle, Waiter.taken] using h.accounts

section Leaving

variable {now : Nat} {p p' : Pool α} {pre post : List (Waiter α)} {r r' : Waiter α}

theorem filter_waits_append_cons (hw : r.reply = .waiting) : (pre ++ r :: post).filter Waiter.waits =
    pre.filter Waiter.waits ++ r :: post.filter Waiter.waits := by
  rw [List.filter_append, List.filter_cons_of_pos (Waiter.waits_iff.mpr hw)]

/-- Everybody else who waits has another ticket. -/
theorem ticket_ne_of_nodup (hw : r.reply = .waiting)
    (hnodup : (((pre ++ r :: post).filter Waiter.waits).map Waiter.ticket).Nodup) :
    ∀ x ∈ pre ++ post, x.reply = .waiting → x.ticket ≠ r.ticket := by
  intro x hx hxw heq
  rw [filter_waits_append_cons hw, List.map_append, List.map_cons] at hnodup
  have hmiddle := List.perm_middle.nodup_iff.mp hnodup
  refine (List.nodup_cons.mp hmiddle).1 (heq ▸ ?_)
  rw [← List.map_append, ← List.filter_append]
  exact List.mem_map_of_mem (List.mem_filter.mpr ⟨hx, Waiter.waits_iff.mpr hxw⟩)

/-- Whoever leaves takes its ticket out of the line. -/
theorem tickets_of_left (hw : r.reply = .waiting) (hleft : r'.waits = false)
    (hnodup : (((pre ++ r :: post).filter Waiter.waits).map Waiter.ticket).Nodup) :
    ((pre ++ r' :: post).filter Waiter.waits).map Waiter.ticket =
      (((pre ++ r :: post).filter Waiter.waits).map Waiter.ticket).erase r.ticket := by
  have hnotin : r.ticket ∉ (pre.filter Waiter.waits).map Waiter.ticket := by
    rw [filter_waits_append_cons hw, List.map_append, List.map_cons] at hnodup
    exact fun hm => (List.nodup_append.mp hnodup).2.2 r.ticket hm r.ticket List.mem_cons_self rfl
  rw [filter_waits_append_cons hw, List.filter_append, List.filter_cons_of_neg (by simp [hleft]),
    List.map_append, List.map_append, List.map_cons, List.erase_append_right _ hnotin, List.erase_cons_head]

/-- Those who came earlier and later are still in order when a waiter leaves. -/
theorem turns_of_left (hw : r.reply = .waiting) (hleft : r'.waits = false)
    (hturns : (pre ++ r :: post).Pairwise (InTurn now p)) (htimely : ∀ x ∈ pre, x.Timely now)
    (hothers : ∀ x ∈ pre ++ post, x.reply = .waiting → x.ticket ≠ r.ticket)
    (hkeeps : ∀ x ∈ p.granted, x ≠ r.ticket → x ∈ p'.granted)
    (hnow : ∀ instant result, r'.reply = .answered instant result → instant = now)
    (hserved : ∀ instant item, r'.reply = .answered instant (.ok item) →
      ∀ x ∈ pre, x.reply = .waiting → x.ticket ∈ p.granted) :
    (pre ++ r' :: post).Pairwise (InTurn now p') := by
  obtain ⟨hpre, hpost, hcross⟩ := List.pairwise_append.mp hturns
  obtain ⟨hr, hpost⟩ := List.pairwise_cons.mp hpost
  have hmono : ∀ {x later}, x ∈ pre ++ post → InTurn now p x later → InTurn now p' x later :=
    fun {x later} hx hturn => hturn.of_granted fun hxw hg => hkeeps _ hg (hothers x hx hxw)
  refine List.pairwise_append.mpr ⟨hpre.imp_of_mem fun hx _ => hmono (List.mem_append_left _ hx),
    List.pairwise_cons.mpr ⟨fun later hlater instant item hs => ?_,
      hpost.imp_of_mem fun hx _ => hmono (List.mem_append_right _ hx)⟩, fun x hx later hlater => ?_⟩
  · -- Whoever came later was served while this one waited, so at this instant.
    obtain ⟨-, hwaiting⟩ := hr later hlater instant item hs
    refine ⟨fun earlier result ha => ?_, fun hw' => ?_⟩
    · rw [hnow earlier result ha, (hwaiting hw).1]
    · rw [Waiter.waits_iff.mpr hw'] at hleft
      cases hleft
  · rcases List.mem_cons.mp hlater with rfl | hlater
    · intro instant item hs
      refine ⟨fun earlier result ha => ?_, fun hxw => ⟨hnow instant _ hs, ?_⟩⟩
      · have hx' := htimely x hx
        rw [Waiter.Timely, ha] at hx'
        rw [hnow instant _ hs]
        exact hx'.1
      · exact hkeeps _ (hserved instant item hs x hx hxw) (hothers x (List.mem_append_left _ hx) hxw)
    · exact hmono (List.mem_append_left _ hx) (hcross x hx later (List.mem_cons_of_mem _ hlater))

end Leaving

/-- A waiter leaves the line, answered or given up. -/
theorem Sound.leaves {now : Nat} {p p' : Pool α} {pre post : List (Waiter α)} {r r' : Waiter α}
    {tried kept : List α} (h : Sound items ⟨now, p, pre ++ r :: post, tried, kept⟩)
    (hw : r.reply = .waiting) (hleft : r'.waits = false)
    (hserves : p'.Serves ((((pre ++ r :: post).filter Waiter.waits).map Waiter.ticket).erase r.ticket))
    (hkeeps : ∀ x ∈ p.granted, x ≠ r.ticket → x ∈ p'.granted) (htimely : r'.Timely now)
    (hnow : ∀ instant result, r'.reply = .answered instant result → instant = now)
    (hserved : ∀ instant item, r'.reply = .answered instant (.ok item) → r.ticket ∈ p.granted)
    (hidle : p.idle = r'.taken ++ p'.idle) :
    Sound items ⟨now, p', pre ++ r' :: post, tried, kept⟩ := by
  have hplace : p.Serves (((pre ++ r :: post).filter Waiter.waits).map Waiter.ticket) := h.serves
  have hnodup := hplace.ticketed.nodup
  refine ⟨?_, ?_, ?_, ?_⟩
  · rw [queue, tickets_of_left hw hleft hnodup]
    exact hserves
  · intro x hx
    rcases List.mem_cons.mp (List.perm_middle.mem_iff.mp hx) with rfl | hx
    · exact htimely
    · exact h.timely x (List.perm_middle.mem_iff.mpr (List.mem_cons_of_mem _ hx))
  · refine turns_of_left hw hleft h.turns (fun x hx => h.timely x (List.mem_append_left _ hx))
      (ticket_ne_of_nodup hw hnodup) hkeeps hnow fun instant item hs x hx hxw => ?_
    -- Permits are granted from the front, so whoever came before one that has a permit has one.
    rw [filter_waits_append_cons hw, List.map_append, List.map_cons] at hplace
    exact hplace.granted_of_before (hserved instant item hs) _
      (List.mem_map_of_mem (List.mem_filter.mpr ⟨hx, Waiter.waits_iff.mpr hxw⟩))
  · have hnothing : r.taken = [] := by rw [Waiter.taken, hw]
    refine List.Perm.trans ?_ h.accounts
    simp only [hidle, List.flatMap_append, List.flatMap_cons, hnothing, List.nil_append, List.append_assoc]
    exact ((List.perm_append_comm_assoc _ _ _).append_left _).trans (List.perm_append_comm_assoc _ _ _)

/-- A waiter is answered. -/
theorem Sound.answers {now : Nat} {p p' : Pool α} {pre post : List (Waiter α)} {r : Waiter α}
    {tried kept : List α} {result : Except Error α}
    (h : Sound items ⟨now, p, pre ++ r :: post, tried, kept⟩) (hw : r.reply = .waiting)
    (hs : r.acquire.step now p = some (.ends result, p')) :
    Sound items ⟨now, p', pre ++ { r with reply := .answered now result } :: post, tried, kept⟩ := by
  have hmem : r.ticket ∈ ((pre ++ r :: post).filter Waiter.waits).map Waiter.ticket :=
    List.mem_map_of_mem (List.mem_filter.mpr ⟨by simp, Waiter.waits_iff.mpr hw⟩)
  have htimely := h.timely r (by simp)
  rw [Waiter.Timely, hw] at htimely
  have hnow : ∀ instant (other : Except Error α), Reply.answered now result = .answered instant other →
      instant = now := by
    rintro _ _ ⟨⟩
    rfl
  rw [Waiter.acquire] at hs
  rcases Acquire.step_waiting_cases h.serves.balanced now r.ticket (r.limit.map fun t => (r.since + t, t))
    with ⟨hgranted, item, q, hredeem, hidle, hstep⟩ | ⟨-, deadline, t, hlimit, hdue, hstep⟩ | ⟨-, -, hstep⟩
  · rw [hstep] at hs
    cases hs
    obtain ⟨hserves, hkeeps⟩ := h.serves.redeem hredeem
    refine h.leaves hw rfl hserves hkeeps ⟨le_rfl, htimely, fun e he => by cases he⟩ hnow
      (fun _ _ _ => hgranted) hidle
  · rw [hstep] at hs
    cases hs
    obtain ⟨_, hl, heq⟩ := Option.map_eq_some_iff.mp hlimit
    cases heq
    obtain ⟨hserves, hkeeps⟩ := h.serves.withdraw hmem
    have hidle := (Pool.withdraw_balanced h.serves.balanced r.ticket).2.1
    refine h.leaves hw rfl hserves hkeeps ⟨le_rfl, htimely, ?_⟩ hnow (fun _ _ hs => by cases hs) hidle.symm
    rintro _ ⟨⟩
    exact ⟨t, hl, rfl, (htimely t hl).antisymm hdue⟩
  · rw [hstep] at hs
    cases hs

/-- A waiter is given up. -/
theorem Sound.drops {now : Nat} {p : Pool α} {pre post : List (Waiter α)} {r : Waiter α}
    {tried kept : List α} (h : Sound items ⟨now, p, pre ++ r :: post, tried, kept⟩)
    (hw : r.reply = .waiting) :
    Sound items ⟨now, r.acquire.drop p, pre ++ { r with reply := .dropped } :: post, tried, kept⟩ := by
  have hmem : r.ticket ∈ ((pre ++ r :: post).filter Waiter.waits).map Waiter.ticket :=
    List.mem_map_of_mem (List.mem_filter.mpr ⟨by simp, Waiter.waits_iff.mpr hw⟩)
  obtain ⟨hserves, hkeeps⟩ := h.serves.withdraw hmem
  have hidle := (Pool.withdraw_balanced h.serves.balanced r.ticket).2.1
  exact h.leaves hw rfl hserves hkeeps trivial (fun _ _ hs => by cases hs) (fun _ _ hs => by cases hs)
    hidle.symm

/-- **One move of anybody** keeps the state in order. -/
theorem Sound.step (h : Sound items s) (hs : Step s s') : Sound items s' := by
  cases hs with
  | asks _ hs => exact h.asks hs
  | answers hw hs => exact h.answers hw hs
  | drops hw => exact h.drops hw
  | tries _ hs =>
    obtain ⟨hserves, hgranted⟩ := h.serves.tryTake hs
    refine ⟨hserves, h.timely, h.turns.imp fun hturn => hturn.of_granted fun _ hm => hgranted ▸ hm, ?_⟩
    rcases (Pool.tryTake_balanced h.serves.balanced hs).1 with ⟨item, rfl, hidle⟩ | ⟨⟨e, rfl⟩, rfl⟩
    · have haccounts := h.accounts
      rw [hidle] at haccounts
      refine List.Perm.trans ?_ haccounts
      change (_ ++ (_ ++ ([item] ++ s.tried))).Perm ([item] ++ _ ++ _)
      rw [List.append_assoc]
      exact ((List.perm_append_comm_assoc _ _ _).append_left _).trans (List.perm_append_comm_assoc _ _ _)
    · exact h.accounts
  | returns _ same item hs =>
    obtain ⟨hserves, hgranted⟩ := h.serves.giveBack same item
    rw [hs] at hserves hgranted
    refine ⟨hserves, h.timely, h.turns.imp fun hturn => hturn.of_granted fun _ => hgranted _, ?_⟩
    rw [Pool.giveBack] at hs
    split at hs
    · cases hs
      exact h.accounts
    · split at hs
      · cases hs
        exact h.accounts
      · cases hs
        rw [Pool.idle_addPermit]
        exact (h.accounts.cons item).trans List.perm_middle.symm
  | passes _ now hle hquiet hdue =>
    refine ⟨h.serves, fun r hr => ?_, h.turns.imp_of_mem fun {r later} hr _ hturn => ?_, h.accounts⟩
    · have htimely := h.timely r hr
      rw [Waiter.Timely] at htimely ⊢
      cases hreply : r.reply with
      | waiting =>
        intro t ht
        refine hdue r (mem_queue.mpr ⟨hr, hreply⟩) _ ?_
        rw [Waiter.acquire, ht]
        rfl
      | answered instant result =>
        rw [hreply] at htimely
        exact ⟨htimely.1.trans hle, htimely.2⟩
      | dropped => trivial
    · -- Whoever has a permit could still move.
      intro instant item hserved
      obtain ⟨hanswered, hwaiting⟩ := hturn instant item hserved
      refine ⟨hanswered, fun hw => ?_⟩
      exact absurd (hquiet r (mem_queue.mpr ⟨hr, hw⟩)) (Acquire.step_ne_none_of_granted (hwaiting hw).2)

theorem Sound.of_reachable {name : String} (hr : Relation.ReflTransGen Step (full name items) s) :
    Sound items s := by
  induction hr with
  | refl => exact sound_full name items
  | tail _ hs ih => exact ih.step hs

/-- **Nobody waits in vain.** In every run the line is served in the order in which it formed, no item
stays idle while somebody waits for one, and who fails has waited exactly as long as allowed and has cost
nobody a turn. -/
theorem fair_of_reachable {name : String} (hr : Relation.ReflTransGen Step (full name items) s) :
    Fair items s :=
  (Sound.of_reachable hr).fair

/-- Of two waiters for the only item, the first runs out of time; at the same instant the item is
returned, and the second is served. -/
theorem fair_expired_before_return :
    ∃ s : PoolLine Nat, Relation.ReflTransGen Step (full "single" [7]) s ∧ s.now = 20 ∧
      s.waiters.map Waiter.reply =
        [.answered 20 (.error (.timedOut (.ofMillis 20))), .answered 20 (.ok 7)] ∧
      Fair [7] s := by
  have hasked := ((Relation.ReflTransGen.refl.tail
    (Step.tries (full "single" [7]) rfl)).tail
    (@Step.asks _ _ (some 20) _ _ _ rfl)).tail
    (@Step.asks _ _ none _ _ _ rfl)
  have hwaited := hasked.tail (.passes _ 20 (by decide)
    (by
      intro r hr
      rcases List.mem_cons.mp hr with rfl | hr
      · rfl
      · rw [List.mem_singleton.mp hr]
        rfl)
    (by
      intro r hr instant hdue
      rcases List.mem_cons.mp hr with rfl | hr
      · cases hdue
        rfl
      · rw [List.mem_singleton.mp hr] at hdue
        cases hdue))
  have hr := ((hwaited.tail
    (@Step.answers _ _ _ _ [] _ _ _ _ _ rfl rfl)).tail
    (@Step.returns _ _ (fun _ _ => false) 7 _ _ rfl)).tail
    (@Step.answers _ _ _ _ [_] _ _ _ _ _ rfl rfl)
  exact ⟨_, hr, rfl, rfl, fair_of_reachable hr⟩

end PoolLine

end EventDispatch
