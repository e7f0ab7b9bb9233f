import EventDispatch.Proofs.Requests

/-!
# Events on loan

The events of a pool are lent to guards, each of which gives its event back when it is dropped. Anybody
may also put an event into the pool that was never lent. Both come back through one door, which is shut
only while every place is taken by an idle event. An event that is put while a guard holds another
therefore takes the place of that one: from then on the pool has more events out and idle than it was made
with, until as many guards have found the door shut.

## What is deliberately absent

Nobody looks into an event here: it is emptied when it comes back (`Isolation`). Calls are not scheduled
in time, so that any of them may move at any instant.

## Main definitions

* `EventGuards`: a pool of events with all who use it; `EventGuards.Step` is one act of anybody.
* `EventGuards.Sound`: the account that every act keeps.
* `EventGuards.Lawful`: no more guards than the pool was made for, and all other events can be taken.

## Main results

* `EventGuards.sound_step`, `EventGuards.sound_of_reachable`: the account holds in every run.
* `EventGuards.lawful_of_reachable_iff`: the law holds all along a run exactly if nothing was put while a guard
  held an event.
-/

namespace EventDispatch

/-- A pool of events, and all who use it. -/
structure EventGuards where
  pool : Pool Event
  /-- The calls that wait for an event. -/
  calls : List Acquire
  /-- The events that guards hold. -/
  guards : List Event
  /-- How many events that had not been lent were put and kept. -/
  strays : Nat
  /-- How many events came back from a guard and were not kept. -/
  spilled : Nat
  /-- An event was put while a guard held one. -/
  mixed : Bool

namespace EventGuards

/-- A new pool, of which nothing is lent. -/
def opened (places : Nat) (now : Timestamp) : EventGuards :=
  ⟨.full "events" (List.replicate places (.blank now)), [], [], 0, 0, false⟩

/-- What comes back to the pool, emptied; whether it was kept. -/
def takeBack (event : Event) (now : Timestamp) (pool : Pool Event) : Bool × Pool Event :=
  pool.giveBack (fun _ _ => false) (event.reset now)

/-- A guard is dropped, and the others stay. -/
def dropGuard (event : Event) (others : List Event) (now : Timestamp) (s : EventGuards) : EventGuards :=
  { s with pool := (takeBack event now s.pool).2, guards := others,
           spilled := s.spilled + (!(takeBack event now s.pool).1).toNat }

/-- An event is put that had not been lent. -/
def put (event : Event) (now : Timestamp) (s : EventGuards) : EventGuards :=
  { s with pool := (takeBack event now s.pool).2,
           strays := s.strays + (takeBack event now s.pool).1.toNat,
           mixed := s.mixed || !s.guards.isEmpty }

/-- The guard that a call ends with; a call that fails makes an event of its own. -/
def guardOf (now : Timestamp) : Except Error Event → Event
  | .ok event => event
  | .error _ => .blank now

/-- One act of anybody. -/
inductive Step : EventGuards → EventGuards → Prop
  /-- Somebody asks for an event, and waits as long as it takes. -/
  | asks (s : EventGuards) : Step s { s with calls := .asking none :: s.calls }
  /-- A call moves, and may end with a guard. -/
  | moves {s : EventGuards} {pre post : List Acquire} {call : Acquire} {now : Nat}
      {m : Move Acquire (Except Error Event)} {pool : Pool Event} (hc : s.calls = pre ++ call :: post)
      (hs : call.step now s.pool = some (m, pool)) (clock : Timestamp) :
      Step s { s with pool, calls := pre ++ (m.next?.toList ++ post),
                      guards := m.after (fun _ => []) (fun r => [guardOf clock r]) ++ s.guards }
  /-- A call is given up. -/
  | givesUp {s : EventGuards} {pre post : List Acquire} {call : Acquire} (hc : s.calls = pre ++ call :: post) :
      Step s { s with pool := call.drop s.pool, calls := pre ++ post }
  /-- Somebody takes an event if one can be taken at once. -/
  | tries {s : EventGuards} {r : Except Error Event} {pool : Pool Event} (ht : s.pool.tryTake = (r, pool)) :
      Step s { s with pool, guards := r.toOption.toList ++ s.guards }
  /-- A guard makes another event of the one that it holds. -/
  | edits {s : EventGuards} {pre post : List Event} {event : Event} (hg : s.guards = pre ++ event :: post)
      (edited : Event) : Step s { s with guards := pre ++ edited :: post }
  /-- A guard is dropped. -/
  | drops {s : EventGuards} {pre post : List Event} {event : Event} (hg : s.guards = pre ++ event :: post)
      (now : Timestamp) : Step s (s.dropGuard event (pre ++ post) now)
  /-- An event is put that had not been lent. -/
  | puts (s : EventGuards) (event : Event) (now : Timestamp) : Step s (s.put event now)

/-! ### The account -/

/-- The account of a pool that was made for so many events. -/
structure Sound (places : Nat) (s : EventGuards) : Prop where
  balanced : s.pool.Balanced
  ticketed : s.pool.Ticketed (s.calls.flatMap Acquire.tickets)
  capacity : s.pool.capacity = places
  patient : ∀ call ∈ s.calls, call = .asking none ∨ ∃ ticket, call = .waiting ticket none
  /-- The pool never has more idle events than places. -/
  room : s.pool.idle.length ≤ places
  /-- An event that was put and kept is one more than there were, and one that was not taken back one less. -/
  account : s.pool.idle.length + s.guards.length + s.spilled = places + s.strays
  /-- Every event that was not taken back had lost its place to one that was put. -/
  displaced : s.spilled ≤ s.strays
  /-- An event that is put while no guard holds one finds no place. -/
  unmixed : s.mixed = false → s.strays = 0

theorem sound_opened (places : Nat) (now : Timestamp) : (opened places now).Sound places where
  balanced := Pool.balanced_full _ _
  ticketed := Pool.ticketed_full _ _
  capacity := by simp [opened, Pool.full]
  patient := fun _ hm => by cases hm
  room := by simp [opened, Pool.full]
  account := by simp [opened, Pool.full]
  displaced := le_rfl
  unmixed := fun _ => rfl

/-- **The door.** What comes back is idle then if there is a place for it, and is not kept if there is
none. -/
theorem takeBack_cases (event : Event) (now : Timestamp) (pool : Pool Event) :
    ((takeBack event now pool).1 = true ∧ pool.idle.length < pool.capacity ∧
      (takeBack event now pool).2.idle.length = pool.idle.length + 1) ∨
    ((takeBack event now pool).1 = false ∧ pool.capacity ≤ pool.idle.length ∧
      (takeBack event now pool).2.idle.length = pool.idle.length) := by
  rcases Nat.lt_or_ge pool.idle.length pool.capacity with hroom | hfull
  · have hkept : takeBack event now pool = _ := Pool.giveBack_of_room (fun _ _ => Bool.false_ne_true) hroom
    refine .inl ⟨by rw [hkept], hroom, ?_⟩
    rw [hkept, Pool.idle_addPermit, List.length_cons]
  · have hshut : takeBack event now pool = (false, pool) := by simp [takeBack, Pool.giveBack, hfull]
    exact .inr ⟨by rw [hshut], hfull, by rw [hshut]⟩

namespace Sound

variable {places : Nat} {s : EventGuards}

/-- The tickets of all calls, with one call taken apart. -/
theorem ticketed_split (h : s.Sound places) {pre post : List Acquire} {call : Acquire}
    (hc : s.calls = pre ++ call :: post) :
    s.pool.Ticketed (call.tickets ++ (pre ++ post).flatMap Acquire.tickets) := by
  refine h.ticketed.of_perm ?_
  rw [hc, ← List.flatMap_cons]
  exact List.perm_middle.flatMap_right _

/-- A call that moves takes an idle event, or none. -/
theorem moves (h : s.Sound places) {pre post : List Acquire} {call : Acquire} {now : Nat}
    {m : Move Acquire (Except Error Event)} {pool : Pool Event} (hc : s.calls = pre ++ call :: post)
    (hs : call.step now s.pool = some (m, pool)) (clock : Timestamp) :
    Sound places { s with pool, calls := pre ++ (m.next?.toList ++ post),
                            guards := m.after (fun _ => []) (fun r => [guardOf clock r]) ++ s.guards } := by
  have hothers : ∀ other ∈ pre ++ post, other = .asking none ∨ ∃ ticket, other = .waiting ticket none :=
    fun other hm => h.patient other (by rw [hc]; exact List.perm_middle.mem_iff.mpr (.tail _ hm))
  have hcall := h.patient call (by rw [hc]; exact List.mem_append_right _ (.head _))
  obtain ⟨hidle, hb, hcap, ht⟩ := Acquire.step_balanced h.balanced hs
  have htickets := ht _ (h.ticketed_split hc)
  have haccount := h.account
  have hroom := h.room
  rcases Acquire.step_patient h.balanced hcall hs with ⟨ticket, rfl⟩ | ⟨item, rfl⟩
  · have hsame : s.pool.idle = pool.idle := hidle
    rw [hsame] at haccount hroom
    have hperm : (Acquire.waiting ticket none :: (pre ++ post)).Perm (pre ++ .waiting ticket none :: post) :=
      List.perm_middle.symm
    exact ⟨hb, htickets.of_perm (hperm.flatMap_right Acquire.tickets), hcap.trans h.capacity,
      fun other hm => (List.mem_cons.mp (hperm.mem_iff.mpr hm)).elim (fun heq => .inr ⟨ticket, heq⟩)
        (hothers other), hroom, haccount, h.displaced, h.unmixed⟩
  · have hlength : s.pool.idle.length = pool.idle.length + 1 := congrArg List.length hidle
    refine ⟨hb, htickets, hcap.trans h.capacity, hothers, ?_, ?_, h.displaced, h.unmixed⟩
    · change pool.idle.length ≤ places
      omega
    · change pool.idle.length + (s.guards.length + 1) + s.spilled = places + s.strays
      omega

/-- A call that is given up leaves the events where they are. -/
theorem givesUp (h : s.Sound places) {pre post : List Acquire} {call : Acquire}
    (hc : s.calls = pre ++ call :: post) :
    Sound places { s with pool := call.drop s.pool, calls := pre ++ post } := by
  obtain ⟨hidle, hb, hcap, ht⟩ := Acquire.drop_balanced call h.balanced
  refine ⟨hb, ht _ (h.ticketed_split hc), hcap.trans h.capacity, fun other hm => h.patient other ?_, ?_, ?_,
    h.displaced, h.unmixed⟩
  · rw [hc]
    exact List.perm_middle.mem_iff.mpr (.tail _ hm)
  · rw [hidle]
    exact h.room
  · rw [hidle]
    exact h.account

/-- Who takes an event at once takes an idle one. -/
theorem tries (h : s.Sound places) {r : Except Error Event} {pool : Pool Event}
    (ht : s.pool.tryTake = (r, pool)) :
    Sound places { s with pool, guards := r.toOption.toList ++ s.guards } := by
  obtain ⟨hr, hb, hcap, hgranted, hwaiting, hnext⟩ := Pool.tryTake_balanced h.balanced ht
  have htickets : pool.Ticketed (s.calls.flatMap Acquire.tickets) :=
    ⟨by rw [hgranted, hwaiting]; exact h.ticketed.perm, h.ticketed.nodup,
      by rw [hnext]; exact h.ticketed.fresh⟩
  have haccount := h.account
  have hroom := h.room
  rcases hr with ⟨item, rfl, hidle⟩ | ⟨⟨e, rfl⟩, rfl⟩
  · have hlength : s.pool.idle.length = pool.idle.length + 1 := congrArg List.length hidle
    refine ⟨hb, htickets, hcap.trans h.capacity, h.patient, ?_, ?_, h.displaced, h.unmixed⟩
    · change pool.idle.length ≤ places
      omega
    · change pool.idle.length + (s.guards.length + 1) + s.spilled = places + s.strays
      omega
  · exact ⟨hb, htickets, hcap.trans h.capacity, h.patient, hroom, haccount, h.displaced, h.unmixed⟩

/-- A dropped guard finds the door shut only if an event that was put has its place. -/
theorem drops (h : s.Sound places) {pre post : List Event} {event : Event}
    (hg : s.guards = pre ++ event :: post) (now : Timestamp) :
    (s.dropGuard event (pre ++ post) now).Sound places := by
  have hguards : s.guards.length = (pre ++ post).length + 1 := by
    rw [hg, List.perm_middle.length_eq, List.length_cons]
  have haccount := h.account
  have hdisplaced := h.displaced
  have hroom := h.room
  refine ⟨Pool.giveBack_balanced h.balanced _ _, h.ticketed.giveBack _ _,
    (Pool.capacity_giveBack _ _ _).trans h.capacity, h.patient, ?_, ?_, ?_, h.unmixed⟩ <;>
  rcases takeBack_cases event now s.pool with ⟨hkept, hplace, hlength⟩ | ⟨hkept, hplace, hlength⟩ <;>
  rw [h.capacity] at hplace <;>
  simp only [dropGuard, hkept, hlength, Bool.not_true, Bool.not_false, Bool.toNat_true, Bool.toNat_false] <;>
  omega

/-- An event that is put while no guard is out finds the door shut, if none was put earlier. -/
theorem put_shut (h : s.Sound places) (hzero : s.strays = 0) (hnone : s.guards = []) (event : Event)
    (now : Timestamp) : (takeBack event now s.pool).1 = false := by
  have haccount := h.account
  have hdisplaced := h.displaced
  rw [hnone, List.length_nil] at haccount
  rcases takeBack_cases event now s.pool with ⟨-, hplace, -⟩ | ⟨hshut, -⟩
  · rw [h.capacity] at hplace
    omega
  · exact hshut

/-- An event that is put keeps the account. -/
theorem puts (h : s.Sound places) (event : Event) (now : Timestamp) : (s.put event now).Sound places := by
  have haccount := h.account
  have hdisplaced := h.displaced
  have hroom := h.room
  have hunmixed : (s.put event now).mixed = false → (s.put event now).strays = 0 := fun hmixed => by
    obtain ⟨hbefore, hout⟩ := Bool.or_eq_false_iff.mp hmixed
    have hzero := h.unmixed hbefore
    rw [put, h.put_shut hzero (by simpa using hout), hzero]
    rfl
  refine ⟨Pool.giveBack_balanced h.balanced _ _, h.ticketed.giveBack _ _,
    (Pool.capacity_giveBack _ _ _).trans h.capacity, h.patient, ?_, ?_, ?_, hunmixed⟩ <;>
  rcases takeBack_cases event now s.pool with ⟨hkept, hplace, hlength⟩ | ⟨hkept, hplace, hlength⟩ <;>
  rw [h.capacity] at hplace <;>
  simp only [put, hkept, hlength, Bool.toNat_true, Bool.toNat_false] <;>
  omega

end Sound

variable {places : Nat} {s s' : EventGuards}

/-- **Every act keeps the account.** -/
theorem sound_step (h : s.Sound places) (hs : Step s s') : s'.Sound places := by
  cases hs with
  | asks =>
    exact ⟨h.balanced, h.ticketed, h.capacity, List.forall_mem_cons.mpr ⟨.inl rfl, h.patient⟩, h.room,
      h.account, h.displaced, h.unmixed⟩
  | moves hc hm clock => exact h.moves hc hm clock
  | givesUp hc => exact h.givesUp hc
  | tries ht => exact h.tries ht
  | edits hg edited =>
    have hlength : s.guards.length = _ := congrArg List.length hg
    refine ⟨h.balanced, h.ticketed, h.capacity, h.patient, h.room, ?_, h.displaced, h.unmixed⟩
    have haccount := h.account
    rw [List.length_append, List.length_cons] at hlength ⊢
    simp only
    omega
  | drops hg now => exact h.drops hg now
  | puts event now => exact h.puts event now

theorem sound_of_reachable {now : Timestamp} (hr : Relation.ReflTransGen Step (opened places now) s) :
    s.Sound places := by
  induction hr with
  | refl => exact sound_opened places now
  | tail _ hs ih => exact sound_step ih hs

/-! ### The law -/

/-- No more guards hold an event than the pool was made for, and all other events can be taken, by anybody
or by the call to which one was granted. -/
def Lawful (places : Nat) (s : EventGuards) : Prop :=
  s.guards.length ≤ places ∧ s.pool.available + s.pool.granted.length + s.guards.length = places

/-- An act after which the law holds. -/
def LawfulStep (places : Nat) (before after : EventGuards) : Prop := Step before after ∧ after.Lawful places

theorem Sound.lawful_iff (h : s.Sound places) : s.Lawful places ↔ s.strays = s.spilled := by
  have hbalanced : s.pool.idle.length = s.pool.available + s.pool.granted.length := h.balanced
  have haccount := h.account
  rw [Lawful]
  omega

/-- What was put while a guard held an event stays on record. -/
theorem mixed_step (hs : Step s s') (h : s.mixed = true) : s'.mixed = true := by
  cases hs with
  | puts event now => rw [put, h]; rfl
  | asks => exact h
  | moves hc hm clock => exact h
  | givesUp hc => exact h
  | tries ht => exact h
  | edits hg edited => exact h
  | drops hg now => exact h

/-- **An event that is put while a guard holds another breaks the law** that held until then. -/
theorem Sound.not_lawful_put (h : s.Sound places) (hlawful : s.Lawful places) (hout : s.guards ≠ [])
    (event : Event) (now : Timestamp) : ¬ (s.put event now).Lawful places := by
  have hequal := h.lawful_iff.mp hlawful
  have haccount := h.account
  have hguards := List.length_pos_iff.mpr hout
  rw [(h.puts event now).lawful_iff]
  rcases takeBack_cases event now s.pool with ⟨hkept, -⟩ | ⟨-, hplace, -⟩
  · simp only [put, hkept, Bool.toNat_true]
    omega
  · rw [h.capacity] at hplace
    omega

/-- A lawful act is no put while a guard holds an event. -/
theorem mixed_of_lawful_step (h : s.Sound places) (hlawful : s.Lawful places) (hs : Step s s')
    (hlawful' : s'.Lawful places) : s'.mixed = s.mixed := by
  cases hs with
  | puts event now =>
    have hnone : s.guards = [] := by
      by_contra hout
      exact h.not_lawful_put hlawful hout event now hlawful'
    simp [put, hnone]
  | asks => rfl
  | moves hc hm clock => rfl
  | givesUp hc => rfl
  | tries ht => rfl
  | edits hg edited => rfl
  | drops hg now => rfl

/-- With nothing on record the law holds. -/
theorem Sound.lawful_of_unmixed (h : s.Sound places) (hmixed : s.mixed = false) : s.Lawful places := by
  have hnone := h.unmixed hmixed
  have hdisplaced := h.displaced
  exact h.lawful_iff.mpr (by omega)

/-- Along lawful acts nothing is put on record. -/
theorem unmixed_of_lawful {now : Timestamp}
    (hr : Relation.ReflTransGen (LawfulStep places) (opened places now) s) :
    s.Sound places ∧ s.Lawful places ∧ s.mixed = false := by
  induction hr with
  | refl => exact ⟨sound_opened places now, (sound_opened places now).lawful_of_unmixed rfl, rfl⟩
  | tail _ hs ih =>
    obtain ⟨hsound, hlawful, hmixed⟩ := ih
    exact ⟨sound_step hsound hs.1, hs.2, (mixed_of_lawful_step hsound hlawful hs.1 hs.2).trans hmixed⟩

/-- With nothing on record at the end there was nothing on record at any time. -/
theorem lawful_of_unmixed {now : Timestamp} (hr : Relation.ReflTransGen Step (opened places now) s)
    (hmixed : s.mixed = false) :
    Relation.ReflTransGen (LawfulStep places) (opened places now) s := by
  induction hr with
  | refl => exact .refl
  | tail hbefore hs ih =>
    have hearlier := Bool.eq_false_iff.mpr fun hrecord => absurd (mixed_step hs hrecord) (by rw [hmixed]; decide)
    have hsound := sound_step (sound_of_reachable hbefore) hs
    exact (ih hearlier).tail ⟨hs, hsound.lawful_of_unmixed hmixed⟩

/-- While nobody can move, nothing is granted: what is idle can be taken by anybody. -/
theorem Sound.granted_of_rest (h : s.Sound places)
    (hrest : ∀ call ∈ s.calls, ∀ now, call.step now s.pool = none) : s.pool.granted = [] := by
  refine List.eq_nil_iff_forall_not_mem.mpr fun ticket hm => ?_
  have hheld := h.ticketed.perm.mem_iff.mp (List.mem_append_left _ hm)
  obtain ⟨call, hcall, hticket⟩ := List.mem_flatMap.mp hheld
  cases call with
  | asking limit => cases hticket
  | waiting own limit =>
    obtain rfl := List.mem_singleton.mp hticket
    exact Acquire.step_ne_none_of_granted hm (hrest _ hcall 0)

/-- **What a pool of events guarantees.** However events are asked for, waited for, taken at once, edited,
dropped and put, the events that can be taken, those granted to calls and those in guards are as many as the
pool was made for and those put in the place of others since, less those that found no place; nothing stays
granted once nobody can move. And no more guards than the pool was made for hold an event, with all others
there to be taken, all along a run exactly if no event was put in it while a guard held one. -/
theorem lawful_of_reachable_iff {now : Timestamp} (hr : Relation.ReflTransGen Step (opened places now) s) :
    (s.pool.available + s.pool.granted.length + s.guards.length + s.spilled = places + s.strays ∧
      s.spilled ≤ s.strays ∧ s.pool.available + s.pool.granted.length ≤ places) ∧
    ((∀ call ∈ s.calls, ∀ now, call.step now s.pool = none) → s.pool.granted = []) ∧
    (Relation.ReflTransGen (LawfulStep places) (opened places now) s ↔ s.mixed = false) := by
  have hsound := sound_of_reachable hr
  have hbalanced : s.pool.idle.length = s.pool.available + s.pool.granted.length := hsound.balanced
  have haccount := hsound.account
  have hroom := hsound.room
  exact ⟨⟨by omega, hsound.displaced, by omega⟩, hsound.granted_of_rest,
    fun hlawful => (unmixed_of_lawful hlawful).2.2, lawful_of_unmixed hr⟩

/-- A pool of one event: it is taken at once, waited for by a call, dropped, and goes to that call. -/
theorem lawful_handed_on :
    ∃ s, Relation.ReflTransGen Step (opened 1 ⟨0, 0⟩) s ∧ s.guards.length = 1 ∧ s.pool.available = 0 ∧
      (s.pool.available + s.pool.granted.length + s.guards.length + s.spilled = 1 + s.strays ∧
        s.spilled ≤ s.strays ∧ s.pool.available + s.pool.granted.length ≤ 1) ∧
      ((∀ call ∈ s.calls, ∀ now, call.step now s.pool = none) → s.pool.granted = []) ∧
      (Relation.ReflTransGen (LawfulStep 1) (opened 1 ⟨0, 0⟩) s ↔ s.mixed = false) := by
  have hr := ((((Relation.ReflTransGen.refl.tail
    (@Step.tries (opened 1 ⟨0, 0⟩) _ _ rfl)).tail
    (Step.asks _)).tail
    (@Step.moves _ [] [] _ 0 _ _ rfl rfl ⟨0, 0⟩)).tail
    (@Step.drops _ [] [] _ rfl ⟨0, 0⟩)).tail
    (@Step.moves _ [] [] _ 0 _ _ rfl rfl ⟨0, 0⟩)
  exact ⟨_, hr, rfl, rfl, lawful_of_reachable_iff hr⟩

/-- The only event of a pool is out, and another one is put: it can be taken, although a guard has as many
events as the pool was made for, and then two guards hold one. -/
theorem guards_exceed_places :
    ∃ kept twice, Relation.ReflTransGen Step (opened 1 ⟨0, 0⟩) kept ∧ kept.calls = [] ∧
      kept.guards.length = 1 ∧ kept.pool.available = 1 ∧
      Relation.ReflTransGen Step (opened 1 ⟨0, 0⟩) twice ∧ twice.calls = [] ∧ twice.guards.length = 2 := by
  have hkept := (Relation.ReflTransGen.refl.tail
    (@Step.tries (opened 1 ⟨0, 0⟩) _ _ rfl)).tail
    (Step.puts _ (.blank ⟨0, 0⟩) ⟨0, 0⟩)
  have htwice := hkept.tail (@Step.tries _ _ _ rfl)
  exact ⟨_, _, hkept, rfl, rfl, rfl, htwice, rfl, rfl⟩

end EventGuards

end EventDispatch
