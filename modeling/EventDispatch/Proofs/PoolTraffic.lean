import EventDispatch.Crew
import EventDispatch.Proofs.Pool
import Mathlib.Data.List.Nodup
import Mathlib.Logic.Relation

/-!
# Calls of a pool, step by step

The idle items and the permits of a pool are changed one after the other: who takes an item uses up a
permit first and takes the item then, and who returns one puts it down first and adds its permit then.
Between two such steps others may do theirs. Here a call is cut into these steps, and any number of calls
do them in any order.

The order of the two steps is what keeps a pool sound. At any moment there are at least as many idle items
as permits, and as many more as there are calls between two of their steps. So whoever has a permit finds
an item.

## Misuse

Items may be returned that were never taken, or taken from another pool, or returned before. A return that
finds its item idle, or no room, drops it and adds no permit. Nothing is assumed of who returns what.

## What is deliberately absent

Time does not occur. A call that waits may run out of time, or be given up, at any moment; and when it has
run out of time its ticket may still be granted a permit before it leaves its place.

## Main definitions

* `Pool.claim`, `Pool.claimFree`, `Pool.pop`, `Pool.keep`: the steps within the operations of a pool.
* `PoolCall`, `PoolCall.step`: a call between its steps, and its next step.
* `PoolCalls`, `PoolCalls.Step`: a pool with all calls ever made, and one step of any of them.
* `PoolCalls.InStep`: the law.

## Main results

* `PoolCalls.steps_of_acquire`, `PoolCalls.steps_of_giveBack`: the operations of a pool are runs of these steps.
* `PoolCalls.Sound.step`: what one step keeps.
* `PoolCalls.in_step_of_reachable`: the law, for every run.
-/

namespace EventDispatch

/-! ### The steps within the operations -/

namespace Pool

variable {α : Type} {p p' : Pool α}

/-- Uses up the permit granted to a ticket. -/
def claim (ticket : Nat) (p : Pool α) : Option (Pool α) :=
  if ticket ∈ p.granted then some { p with granted := p.granted.erase ticket } else none

/-- Uses up a free permit. -/
def claimFree (p : Pool α) : Option (Pool α) :=
  match p.free with
  | free + 1 => some { p with free }
  | 0 => none

/-- Takes the item that became idle last. -/
def pop (p : Pool α) : Option (α × Pool α) :=
  match p.idle with
  | item :: idle => some (item, { p with idle })
  | [] => none

/-- Puts an item back, unless it is the same as an idle one or the pool is full. Its permit is still to be
added. -/
def keep (same : α → α → Bool) (item : α) (p : Pool α) : Option (Pool α) :=
  if p.idle.any (same · item) then none
  else if p.capacity ≤ p.idle.length then none
  else some { p with idle := item :: p.idle }

/-- What is answered to one who has a permit and finds no item. -/
def noIdleItem (p : Pool α) : Error :=
  .internal ("Pool " ++ p.name ++ " granted a permit with no idle item")

theorem redeem_eq (ticket : Nat) (p : Pool α) : p.redeem ticket = (p.claim ticket).map popIdle := by
  rw [redeem, claim]
  split <;> rfl

theorem tryTake_eq (p : Pool α) : p.tryTake =
    match p.claimFree with
    | some p => p.popIdle
    | none => (.error .noAvailableWorkers, p) := by
  rw [tryTake, claimFree]
  cases p.free <;> rfl

theorem popIdle_eq (p : Pool α) : p.popIdle =
    match p.pop with
    | some (item, p) => (.ok item, p)
    | none => (.error p.noIdleItem, p.addPermit) := by
  rw [popIdle, pop]
  cases p.idle <;> rfl

theorem giveBack_eq (same : α → α → Bool) (item : α) (p : Pool α) : p.giveBack same item =
    match p.keep same item with
    | some p => (true, p.addPermit)
    | none => (false, p) := by
  rw [giveBack, keep]
  split
  · rfl
  · split <;> rfl

/-! ### What the steps change -/

/-- The permits that are free, or granted and not used up. -/
def permits (p : Pool α) : Nat := p.free + p.granted.length

theorem permits_request (p : Pool α) : p.request.2.permits = p.permits := by
  cases hf : p.free with
  | zero => simp [permits, request, hf]
  | succ free => simp [permits, request, hf]; omega

theorem idle_request (p : Pool α) : p.request.2.idle = p.idle ∧ p.request.2.capacity = p.capacity := by
  rw [request]
  split <;> exact ⟨rfl, rfl⟩

theorem permits_withdraw (ticket : Nat) (p : Pool α) : (p.withdraw ticket).permits = p.permits := by
  rw [withdraw]
  split
  next hm =>
    have hadd := permits_addPermit { p with granted := p.granted.erase ticket }
    have hlen := List.length_erase_of_mem hm
    have hpos := List.length_pos_of_mem hm
    simp only [permits] at *
    omega
  next => rfl

theorem idle_withdraw (ticket : Nat) (p : Pool α) :
    (p.withdraw ticket).idle = p.idle ∧ (p.withdraw ticket).capacity = p.capacity := by
  rw [withdraw]
  split
  · exact ⟨idle_addPermit _, capacity_addPermit _⟩
  · exact ⟨rfl, rfl⟩

/-- One permit less, whether it was granted or free. -/
theorem permits_claim {ticket : Nat} (h : p.claim ticket = some p') :
    p'.permits + 1 = p.permits ∧ p'.idle = p.idle ∧ p'.capacity = p.capacity := by
  rw [claim] at h
  split at h
  next hm =>
    cases h
    have hlen := List.length_erase_of_mem hm
    have hpos := List.length_pos_of_mem hm
    exact ⟨by simp only [permits]; omega, rfl, rfl⟩
  next => cases h

theorem permits_claimFree (h : p.claimFree = some p') :
    p'.permits + 1 = p.permits ∧ p'.idle = p.idle ∧ p'.capacity = p.capacity := by
  rw [claimFree] at h
  split at h
  next free hf =>
    cases h
    exact ⟨by simp only [permits]; omega, rfl, rfl⟩
  next => cases h

theorem idle_pop {item : α} (h : p.pop = some (item, p')) :
    p.idle = item :: p'.idle ∧ p'.permits = p.permits ∧ p'.capacity = p.capacity := by
  rw [pop] at h
  split at h
  next hidle =>
    cases h
    exact ⟨hidle, rfl, rfl⟩
  next => cases h

theorem pop_eq_none : p.pop = none ↔ p.idle = [] := by
  rw [pop]
  split
  next hidle => simp [hidle]
  next hidle => simp [hidle]

/-- An item is kept if there is room for it and it is not the same as an idle one. -/
theorem idle_keep {same : α → α → Bool} {item : α} (h : p.keep same item = some p') :
    (p'.idle = item :: p.idle ∧ p'.permits = p.permits ∧ p'.capacity = p.capacity) ∧
      p.idle.length < p.capacity ∧ ∀ x ∈ p.idle, ¬ same x item := by
  rw [keep] at h
  split at h
  · cases h
  next hnew =>
    split at h
    · cases h
    next hroom =>
      cases h
      exact ⟨⟨rfl, rfl, rfl⟩, Nat.not_le.mp hroom, by simpa using hnew⟩

end Pool

/-! ### Calls between their steps -/

/-- A call of a pool: what it is about to do, or what it has ended with. -/
inductive PoolCall (α : Type) where
  /-- Waits for a permit. -/
  | waiting (ticket : Nat)
  /-- Leaves its place: its time, a number of milliseconds, is over, or it is given up. -/
  | leaving (ticket : Nat) (limit : Option Nat)
  /-- Has used up a permit, and is about to take an item. -/
  | holding
  /-- Has found no item, and is about to add its permit again. -/
  | failing
  /-- Is about to put an item back, unless it is the same as an idle one. -/
  | returning (same : α → α → Bool) (item : α)
  /-- Has put an item back, and is about to add a permit. -/
  | kept
  | served (item : α)
  | refused (e : Error)
  | gone
  | returned (kept : Bool)

namespace PoolCall

variable {α : Type}

/-- The next step of a call, unless it has to wait or is over. -/
def step (p : Pool α) : PoolCall α → Option (PoolCall α × Pool α)
  | waiting ticket => (p.claim ticket).map (holding, ·)
  | leaving ticket limit =>
    let after := match limit with
      | some t => refused (.timedOut (.ofMillis t))
      | none => gone
    some (after, p.withdraw ticket)
  | holding =>
    match p.pop with
    | some (item, p) => some (served item, p)
    | none => some (failing, p)
  | failing => some (refused p.noIdleItem, p.addPermit)
  | returning same item =>
    match p.keep same item with
    | some p => some (kept, p)
    | none => some (returned false, p)
  | kept => some (returned true, p.addPermit)
  | served _ | refused _ | gone | returned _ => none

/-- The call is between a change of the permits and a change of the idle items: an item is idle for which
there is no permit. -/
def halfway : PoolCall α → Bool
  | holding | failing | kept => true
  | _ => false

/-- The call has a permit and found no item for it, or was told so. -/
def isLost : PoolCall α → Bool
  | failing | refused (.internal _) => true
  | _ => false

/-- A call that takes an item, once it waits. -/
def ofAcquire : Acquire → List (PoolCall α)
  | .asking _ => []
  | .waiting ticket _ => [waiting ticket]

/-- A call that has ended with a result. -/
def ofResult : Except Error α → PoolCall α
  | .ok item => served item
  | .error e => refused e

end PoolCall

/-- A pool and all calls made so far. -/
structure PoolCalls (α : Type) where
  pool : Pool α
  calls : List (PoolCall α)

/-- Two workers are the same, as a crew tells that finds one returned. -/
def Worker.same (a b : Worker) : Bool := a.serial == b.serial

namespace PoolCalls

variable {α : Type} {tests : (α → α → Bool) → Prop} {p p' : Pool α} {pre post : List (PoolCall α)}

/-- One step of anybody, where returns tell items apart by tests of some kind. -/
inductive Step (tests : (α → α → Bool) → Prop) : PoolCalls α → PoolCalls α → Prop
  /-- Somebody asks for an item. -/
  | asks (p : Pool α) (pre post : List (PoolCall α)) :
      Step tests ⟨p, pre ++ post⟩ ⟨p.request.2, pre ++ .waiting p.request.1 :: post⟩
  /-- Somebody asks for an item without waiting, and uses up a free permit. -/
  | tries {p p' : Pool α} {pre post : List (PoolCall α)} (hs : p.claimFree = some p') :
      Step tests ⟨p, pre ++ post⟩ ⟨p', pre ++ .holding :: post⟩
  /-- Somebody asks for an item without waiting, and no permit is free. -/
  | misses {p : Pool α} {pre post : List (PoolCall α)} (hs : p.claimFree = none) :
      Step tests ⟨p, pre ++ post⟩ ⟨p, pre ++ .refused .noAvailableWorkers :: post⟩
  /-- Somebody returns an item, whatever it is and wherever it comes from. -/
  | gives (p : Pool α) (pre post : List (PoolCall α)) (item : α) {same : α → α → Bool}
      (htest : tests same) : Step tests ⟨p, pre ++ post⟩ ⟨p, pre ++ .returning same item :: post⟩
  /-- A call that waits runs out of time or is given up. -/
  | leaves (p : Pool α) (pre post : List (PoolCall α)) (ticket : Nat) (limit : Option Nat) :
      Step tests ⟨p, pre ++ .waiting ticket :: post⟩ ⟨p, pre ++ .leaving ticket limit :: post⟩
  /-- A call does its next step. -/
  | moves {p p' : Pool α} {pre post : List (PoolCall α)} {call next : PoolCall α}
      (hs : call.step p = some (next, p')) :
      Step tests ⟨p, pre ++ call :: post⟩ ⟨p', pre ++ next :: post⟩

/-! ### The operations of a pool as runs of these steps -/

/-- Who has used up a permit takes an item. -/
theorem steps_of_popIdle {r : Except Error α} (h : p.popIdle = (r, p')) :
    Relation.ReflTransGen (Step tests) ⟨p, pre ++ .holding :: post⟩
      ⟨p', pre ++ .ofResult r :: post⟩ := by
  rw [Pool.popIdle_eq] at h
  cases hpop : p.pop with
  | some x =>
    obtain ⟨item, q⟩ := x
    rw [hpop] at h
    cases h
    exact .single (.moves (by simp [PoolCall.step, hpop, PoolCall.ofResult]))
  | none =>
    rw [hpop] at h
    cases h
    have hfails : Step tests ⟨p, pre ++ .holding :: post⟩ ⟨p, pre ++ .failing :: post⟩ :=
      .moves (by simp [PoolCall.step, hpop])
    exact (Relation.ReflTransGen.single hfails).tail (.moves rfl)

/-- **A move of a call that takes an item** is a run of these steps. -/
theorem steps_of_acquire {now : Nat} {a : Acquire} {m : Move Acquire (Except Error α)}
    (h : a.step now p = some (m, p')) :
    Relation.ReflTransGen (Step tests) ⟨p, pre ++ (PoolCall.ofAcquire a ++ post)⟩
      ⟨p', pre ++ (m.after PoolCall.ofAcquire (fun r => [.ofResult r]) ++ post)⟩ := by
  have hasks : ∀ limit, m = .goes (.waiting p.request.1 limit) → p' = p.request.2 →
      Relation.ReflTransGen (Step tests) ⟨p, pre ++ post⟩
        ⟨p', pre ++ (m.after PoolCall.ofAcquire (fun r => [.ofResult r]) ++ post)⟩ := by
    rintro limit rfl rfl
    exact .single (.asks p pre post)
  cases a with
  | asking limit =>
    rcases limit with _ | _ | t
    · simp only [Acquire.step, Option.map_none, Option.some.injEq, Prod.mk.injEq] at h
      exact hasks none h.1.symm h.2.symm
    · simp only [Acquire.step, Pool.tryTake_eq, Option.some.injEq, Prod.mk.injEq] at h
      cases hclaim : p.claimFree with
      | some q =>
        simp only [hclaim] at h
        obtain ⟨rfl, rfl⟩ := h
        exact .head (.tries hclaim) (steps_of_popIdle rfl)
      | none =>
        simp only [hclaim] at h
        obtain ⟨rfl, rfl⟩ := h
        exact .single (.misses hclaim)
    · simp only [Acquire.step, Option.map_some, Option.some.injEq, Prod.mk.injEq] at h
      exact hasks _ h.1.symm h.2.symm
  | waiting ticket limit =>
    simp only [Acquire.step, Pool.redeem_eq] at h
    cases hclaim : p.claim ticket with
    | some q =>
      simp only [hclaim, Option.map_some, Option.some.injEq, Prod.mk.injEq] at h
      obtain ⟨rfl, rfl⟩ := h
      have hholds : Step tests ⟨p, pre ++ .waiting ticket :: post⟩ ⟨q, pre ++ .holding :: post⟩ :=
        .moves (by simp [PoolCall.step, hclaim])
      exact .head hholds (steps_of_popIdle rfl)
    | none =>
      simp only [hclaim, Option.map_none] at h
      split at h
      · cases h
      next deadline t =>
        split at h
        · cases h
          exact .head (.leaves p pre post ticket (some t)) (.single (.moves rfl))
        · cases h

/-- A call that takes an item is given up. -/
theorem steps_of_drop (a : Acquire) : ∃ calls, Relation.ReflTransGen (Step tests)
    ⟨p, pre ++ (PoolCall.ofAcquire a ++ post)⟩ ⟨a.drop p, pre ++ (calls ++ post)⟩ := by
  cases a with
  | asking limit => exact ⟨[], .refl⟩
  | waiting ticket limit =>
    exact ⟨[.gone], .head (.leaves p pre post ticket none) (.single (.moves rfl))⟩

/-- **A return** is a run of these steps. -/
theorem steps_of_giveBack {same : α → α → Bool} (htest : tests same) {item : α} {kept : Bool}
    (h : p.giveBack same item = (kept, p')) :
    Relation.ReflTransGen (Step tests) ⟨p, pre ++ post⟩ ⟨p', pre ++ .returned kept :: post⟩ := by
  refine .head (.gives p pre post item htest) ?_
  rw [Pool.giveBack_eq] at h
  cases hkeep : p.keep same item with
  | some q =>
    rw [hkeep] at h
    cases h
    have hkeeps : Step tests ⟨p, pre ++ .returning same item :: post⟩ ⟨q, pre ++ .kept :: post⟩ :=
      .moves (by simp [PoolCall.step, hkeep])
    exact .head hkeeps (.single (.moves rfl))
  | none =>
    rw [hkeep] at h
    cases h
    exact .single (.moves (by simp [PoolCall.step, hkeep]))

/-! ### The law -/

/-- **The law.** The idle items and the permits stay in step, whatever is returned and whoever leaves. -/
structure InStep (tests : (α → α → Bool) → Prop) (items : List α) (s : PoolCalls α) : Prop where
  /-- There is room for all idle items. -/
  room : s.pool.idle.length ≤ items.length
  /-- No more permits are free or granted than items are idle. -/
  covered : s.pool.permits ≤ s.pool.idle.length
  /-- While no call is between two of its steps, there is one permit for each idle item. -/
  settled : (∀ call ∈ s.calls, call.halfway = false) → s.pool.permits = s.pool.idle.length
  /-- Nobody has a permit and finds no item. -/
  sure : ∀ call ∈ s.calls, call.isLost = false
  /-- Where returns tell items apart by a key, and no two items had one key, no two idle items have. -/
  single : ∀ {κ : Type} (key : α → κ),
    (∀ same, tests same → ∀ a b, same a b = true ↔ key a = key b) → (items.map key).Nodup →
    (s.pool.idle.map key).Nodup

/-! ### What every step keeps -/

/-- The state is in order: beside those for which there is a permit, there is an idle item for each call
that is between two of its steps. -/
structure Sound (tests : (α → α → Bool) → Prop) (items : List α) (s : PoolCalls α) : Prop where
  capacity : s.pool.capacity = items.length
  room : s.pool.idle.length ≤ s.pool.capacity
  balance : s.pool.idle.length = s.pool.permits + s.calls.countP PoolCall.halfway
  sure : ∀ call ∈ s.calls, call.isLost = false
  tested : ∀ same item, .returning same item ∈ s.calls → tests same
  single : ∀ {κ : Type} (key : α → κ),
    (∀ same, tests same → ∀ a b, same a b = true ↔ key a = key b) → (items.map key).Nodup →
    (s.pool.idle.map key).Nodup

variable {items : List α} {s s' : PoolCalls α}

theorem sound_full (name : String) (items : List α) : Sound tests items ⟨.full name items, []⟩ := by
  refine ⟨rfl, by simp [Pool.full], by simp [Pool.full, Pool.permits], by simp, by simp, ?_⟩
  intro κ key _ hdistinct
  simpa [Pool.full, List.map_reverse] using hdistinct

theorem Sound.inStep (h : Sound tests items s) : InStep tests items s := by
  refine ⟨h.capacity ▸ h.room, ?_, fun hrest => ?_, h.sure, h.single⟩
  · have := h.balance
    omega
  · have hnone : s.calls.countP PoolCall.halfway = 0 := by
      simpa [List.countP_eq_zero] using hrest
    have := h.balance
    omega

/-- A call comes or goes on: where the accounts of the idle items, the permits and the halfway calls
change alike, the rest follows. -/
theorem Sound.changes (olds news : List (PoolCall α)) (h : Sound tests items ⟨p, pre ++ (olds ++ post)⟩)
    (hcapacity : p'.capacity = p.capacity) (hroom : p'.idle.length ≤ p.capacity)
    (hbalance : p'.idle.length + (p.permits + olds.countP PoolCall.halfway) =
      p.idle.length + (p'.permits + news.countP PoolCall.halfway))
    (hsure : ∀ call ∈ news, call.isLost = false)
    (htested : ∀ same item, .returning same item ∈ news → tests same)
    (hsingle : ∀ {κ : Type} (key : α → κ), (∀ same, tests same → ∀ a b, same a b = true ↔ key a = key b) →
      (p.idle.map key).Nodup → (p'.idle.map key).Nodup) :
    Sound tests items ⟨p', pre ++ (news ++ post)⟩ := by
  have hmem : ∀ {call}, call ∈ pre ++ (news ++ post) → call ∈ news ∨ call ∈ pre ++ (olds ++ post) := by
    intro call hm
    simp only [List.mem_append] at hm ⊢
    tauto
  refine ⟨hcapacity.trans h.capacity, hcapacity ▸ hroom, ?_, fun call hm => ?_,
    fun same item hm => ?_, fun key hkey hdistinct => hsingle key hkey (h.single key hkey hdistinct)⟩
  · have hold := h.balance
    simp only [List.countP_append] at hold ⊢
    omega
  · exact (hmem hm).elim (hsure call) (h.sure call)
  · exact (hmem hm).elim (htested same item) (h.tested same item)

/-- Where the idle items stay, the permits and the halfway calls have to make up for each other. -/
theorem Sound.rests (olds news : List (PoolCall α)) (h : Sound tests items ⟨p, pre ++ (olds ++ post)⟩)
    (hidle : p'.idle = p.idle) (hcapacity : p'.capacity = p.capacity)
    (hpermits : p.permits + olds.countP PoolCall.halfway = p'.permits + news.countP PoolCall.halfway)
    (hsure : ∀ call ∈ news, call.isLost = false)
    (htested : ∀ same item, .returning same item ∈ news → tests same) :
    Sound tests items ⟨p', pre ++ (news ++ post)⟩ := by
  have hroom : p.idle.length ≤ p.capacity := h.room
  refine h.changes olds news hcapacity (hidle ▸ hroom) ?_ hsure htested ?_
  · rw [hidle, hpermits]
  · intro κ key _ hdistinct
    rwa [hidle]

/-- Who has used up a permit takes an item: there is one idle item more than permits on its account. -/
theorem Sound.holds {next : PoolCall α} (h : Sound tests items ⟨p, pre ++ ([.holding] ++ post)⟩)
    (hs : PoolCall.holding.step p = some (next, p')) : Sound tests items ⟨p', pre ++ ([next] ++ post)⟩ := by
  have hroom : p.idle.length ≤ p.capacity := h.room
  have hsome : 0 < p.idle.length := by
    have hbalance := h.balance
    simp only [List.countP_append, List.countP_singleton, PoolCall.halfway, if_true] at hbalance
    omega
  simp only [PoolCall.step] at hs
  split at hs
  next item q hpop =>
    cases hs
    obtain ⟨hidle, hpermits, hcapacity⟩ := Pool.idle_pop hpop
    refine h.changes [_] [_] hcapacity ?_ ?_ (by simp [PoolCall.isLost]) (by simp) ?_
    · rw [hidle, List.length_cons] at hroom
      omega
    · simp only [hidle, hpermits, List.length_cons, List.countP_singleton, PoolCall.halfway, if_true]
      simp
      omega
    · intro κ key _ hdistinct
      rw [hidle, List.map_cons] at hdistinct
      exact hdistinct.of_cons
  next hpop =>
    rw [Pool.pop_eq_none.mp hpop] at hsome
    cases hsome

/-- An item is put back, if there is room and it is not idle. -/
theorem Sound.returns {next : PoolCall α} {same : α → α → Bool} {item : α}
    (h : Sound tests items ⟨p, pre ++ ([.returning same item] ++ post)⟩)
    (hs : (PoolCall.returning same item).step p = some (next, p')) :
    Sound tests items ⟨p', pre ++ ([next] ++ post)⟩ := by
  have htest : tests same := h.tested same item (by simp)
  simp only [PoolCall.step] at hs
  split at hs
  next q hkeep =>
    cases hs
    obtain ⟨⟨hidle, hpermits, hcapacity⟩, hfree, hnew⟩ := Pool.idle_keep hkeep
    refine h.changes [_] [_] hcapacity ?_ ?_ (by simp [PoolCall.isLost]) (by simp) ?_
    · rw [hidle, List.length_cons]
      omega
    · simp only [hidle, hpermits, List.length_cons, List.countP_singleton, PoolCall.halfway, if_true]
      simp
      omega
    · intro κ key hkey hdistinct
      rw [hidle, List.map_cons, List.nodup_cons]
      refine ⟨fun hm => ?_, hdistinct⟩
      obtain ⟨x, hx, heq⟩ := List.mem_map.mp hm
      exact hnew x hx ((hkey same htest x item).mpr heq)
  next =>
    cases hs
    exact h.rests [_] [_] rfl rfl rfl (by simp [PoolCall.isLost]) (by simp)

/-- A call does its next step. -/
theorem Sound.moves {call next : PoolCall α} (h : Sound tests items ⟨p, pre ++ ([call] ++ post)⟩)
    (hs : call.step p = some (next, p')) : Sound tests items ⟨p', pre ++ ([next] ++ post)⟩ := by
  cases call with
  | waiting ticket =>
    obtain ⟨q, hclaim, heq⟩ := Option.map_eq_some_iff.mp hs
    cases heq
    obtain ⟨hpermits, hidle, hcapacity⟩ := Pool.permits_claim hclaim
    exact h.rests [_] [_] hidle hcapacity hpermits.symm (by simp [PoolCall.isLost]) (by simp)
  | leaving ticket limit =>
    cases hs
    obtain ⟨hidle, hcapacity⟩ := Pool.idle_withdraw ticket p
    have hpermits := Pool.permits_withdraw ticket p
    cases limit with
    | none => exact h.rests [_] [_] hidle hcapacity hpermits.symm (by simp [PoolCall.isLost]) (by simp)
    | some t =>
      exact h.rests [_] [_] hidle hcapacity hpermits.symm (by simp [PoolCall.isLost, Error.timedOut]) (by simp)
  | holding => exact h.holds hs
  | failing =>
    have hsure : PoolCall.failing.isLost = false := h.sure (.failing : PoolCall α) (by simp)
    cases hsure
  | returning same item => exact h.returns hs
  | kept =>
    cases hs
    exact h.rests [_] [_] (Pool.idle_addPermit p) (Pool.capacity_addPermit p) (Pool.permits_addPermit p).symm
      (by simp [PoolCall.isLost]) (by simp)
  | served item => cases hs
  | refused e => cases hs
  | gone => cases hs
  | returned kept => cases hs

/-- **One step of anybody** keeps the state in order. -/
theorem Sound.step (h : Sound tests items s) (hs : Step tests s s') : Sound tests items s' := by
  cases hs with
  | asks p pre post =>
    obtain ⟨hidle, hcapacity⟩ := Pool.idle_request p
    exact h.rests [] [.waiting _] hidle hcapacity (Pool.permits_request p).symm
      (by simp [PoolCall.isLost]) (by simp)
  | tries hclaim =>
    obtain ⟨hpermits, hidle, hcapacity⟩ := Pool.permits_claimFree hclaim
    exact h.rests [] [.holding] hidle hcapacity hpermits.symm
      (by simp [PoolCall.isLost]) (by simp)
  | misses =>
    exact h.rests [] [.refused _] rfl rfl rfl (by simp [PoolCall.isLost]) (by simp)
  | gives p pre post item htest =>
    refine h.rests [] [.returning _ item] rfl rfl rfl (by simp [PoolCall.isLost]) ?_
    intro same other hm
    cases List.mem_singleton.mp hm
    exact htest
  | leaves p pre post ticket limit =>
    exact h.rests [.waiting _] [.leaving _ _] rfl rfl rfl (by simp [PoolCall.isLost])
      (by simp)
  | moves hs => exact h.moves hs

theorem Sound.of_reachable {name : String}
    (hr : Relation.ReflTransGen (Step tests) ⟨.full name items, []⟩ s) : Sound tests items s := by
  induction hr with
  | refl => exact sound_full name items
  | tail _ hs ih => exact ih.step hs

/-- **Permits and idle items.** At any interleaving of the steps of calls, whatever is returned and whoever
leaves, the idle items fit the pool, every permit stands for one of them, and nobody with a permit finds
none; and no item is idle twice where returns tell items apart. -/
theorem in_step_of_reachable {name : String}
    (hr : Relation.ReflTransGen (Step tests) ⟨.full name items, []⟩ s) : InStep tests items s :=
  (Sound.of_reachable hr).inStep

/-- While a call is between its two steps, a worker that is idle is returned, and dropped. -/
theorem in_step_repeated_return :
    ∃ s : PoolCalls Worker, Relation.ReflTransGen (Step (· = Worker.same))
        ⟨(Crew.ofCount .shared 2).pool, []⟩ s ∧
      s.pool.permits = 1 ∧ s.pool.idle = [⟨1, 1, 1⟩, ⟨0, 0, 0⟩] ∧
      InStep (· = Worker.same) (Crew.ofCount .shared 2).members s := by
  have hr := ((Relation.ReflTransGen.refl.tail
    (@Step.tries _ (· = Worker.same) (Crew.ofCount .shared 2).pool _ [] [] rfl)).tail
    (.gives _ [.holding] [] ⟨0, 0, 0⟩ rfl)).tail
    (@Step.moves _ _ _ _ [.holding] [] _ _ rfl)
  exact ⟨_, hr, rfl, rfl, in_step_of_reachable hr⟩

end PoolCalls

end EventDispatch
