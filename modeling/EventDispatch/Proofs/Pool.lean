import EventDispatch.Pool

/-!
# The accounts of a pool

Two things are counted in a pool: the idle items, and the permits that stand for them. They are changed
in different places, so that they agree is a law. The tickets of those who wait are the third account:
each stands in the line, or holds a permit, and never both.

## What is deliberately absent

Nothing is said here about who holds the items that are not idle. A pool does not know its holders;
whoever takes items from it keeps that account (`Leases`).

## Main definitions

* `Pool.Balanced`: every idle item has its permit.
* `Pool.Ticketed`: the tickets of a pool are those that callers hold, each once.
* `Move.after`: what a move leaves behind.
* `Acquire.tickets`, `Acquire.taken`: the ticket that a call holds, and the item that a move brings.

## Main results

* `Acquire.step_balanced`: what one move of a call that takes an item does to the accounts.
* `Acquire.drop_balanced`: the same for a call that is given up.
* `Pool.giveBack_of_room`: a returned item that is not idle, and for which there is room, is kept.
-/

namespace EventDispatch

namespace Pool

variable {α : Type} {p p' : Pool α}

/-- Every idle item has its permit, free or granted. -/
def Balanced (p : Pool α) : Prop := p.idle.length = p.free + p.granted.length

/-- The tickets of a pool, in the line or granted, are those that callers hold, each once. -/
structure Ticketed (p : Pool α) (held : List Nat) : Prop where
  /-- Each ticket held stands in exactly one place. -/
  perm : (p.granted ++ p.waiting).Perm held
  /-- No ticket is held twice. -/
  nodup : held.Nodup
  /-- The next ticket is a new one. -/
  fresh : ∀ t ∈ held, t < p.nextTicket

theorem Ticketed.of_perm {held held' : List Nat} (h : p.Ticketed held) (hp : held.Perm held') :
    p.Ticketed held' :=
  ⟨h.perm.trans hp, hp.nodup_iff.mp h.nodup, fun t ht => h.fresh t (hp.mem_iff.mpr ht)⟩

theorem balanced_full (name : String) (items : List α) : (full name items).Balanced := by
  simp [Balanced, full]

theorem ticketed_full (name : String) (items : List α) : (full name items).Ticketed [] :=
  ⟨by simp [full], List.nodup_nil, by simp⟩

/-! ### Permits -/

@[simp] theorem idle_addPermit (p : Pool α) : p.addPermit.idle = p.idle := by
  rw [addPermit]; split <;> rfl

@[simp] theorem capacity_addPermit (p : Pool α) : p.addPermit.capacity = p.capacity := by
  rw [addPermit]; split <;> rfl

/-- A permit more is free or granted. -/
theorem permits_addPermit (p : Pool α) :
    p.addPermit.free + p.addPermit.granted.length = p.free + p.granted.length + 1 := by
  rw [addPermit]
  split
  · simp only [List.length_append, List.length_singleton]; omega
  · simp only; omega

theorem Ticketed.addPermit {held : List Nat} (h : p.Ticketed held) : p.addPermit.Ticketed held := by
  rw [Pool.addPermit]
  split
  next ticket waiting hw =>
    refine ⟨?_, h.nodup, h.fresh⟩
    simpa [hw] using h.perm
  next hw => exact ⟨h.perm, h.nodup, h.fresh⟩

/-! ### Tickets -/

/-- Asking for an item changes neither the idle items nor the balance. -/
theorem request_balanced (hb : p.Balanced) :
    p.request.2.Balanced ∧ p.request.2.idle = p.idle ∧ p.request.2.capacity = p.capacity := by
  unfold Balanced at *
  cases hf : p.free with
  | zero => simp [request, hf] at *; omega
  | succ free => simp [request, hf] at *; omega

/-- Whoever asks holds a ticket more. -/
theorem Ticketed.request {held : List Nat} (h : p.Ticketed held) :
    p.request.2.Ticketed (p.request.1 :: held) := by
  have hnew : p.nextTicket ∉ held := fun hm => Nat.lt_irrefl _ (h.fresh _ hm)
  have hfresh : ∀ t ∈ p.nextTicket :: held, t < p.nextTicket + 1 := by
    intro t ht
    rcases List.mem_cons.mp ht with rfl | ht
    · omega
    · have := h.fresh t ht; omega
  cases hf : p.free with
  | zero =>
    simp only [Pool.request, hf]
    refine ⟨?_, List.nodup_cons.mpr ⟨hnew, h.nodup⟩, hfresh⟩
    rw [← List.append_assoc]
    exact List.perm_append_comm.trans (h.perm.cons _)
  | succ free =>
    simp only [Pool.request, hf]
    refine ⟨?_, List.nodup_cons.mpr ⟨hnew, h.nodup⟩, hfresh⟩
    rw [List.append_assoc, List.singleton_append]
    exact List.perm_middle.trans (h.perm.cons _)

/-- Who waits for a permit is not served. -/
theorem redeem_eq_none {ticket : Nat} : p.redeem ticket = none ↔ ticket ∉ p.granted := by
  rw [redeem]; split <;> simp_all

/-- A granted ticket brings the item that became idle last. -/
theorem redeem_balanced (hb : p.Balanced) {ticket : Nat} {r : Except Error α}
    (h : p.redeem ticket = some (r, p')) :
    ∃ item, r = .ok item ∧ p.idle = item :: p'.idle ∧ p'.Balanced ∧ p'.capacity = p.capacity := by
  unfold Balanced at *
  unfold redeem at h
  split at h
  next hm =>
    have hlen := List.length_erase_of_mem hm
    have hpos := List.length_pos_of_mem hm
    cases hi : p.idle with
    | nil => simp [hi] at hb; omega
    | cons item rest =>
      simp only [popIdle, hi, Option.some.injEq, Prod.mk.injEq] at h
      obtain ⟨rfl, rfl⟩ := h
      simp only [hi, List.length_cons] at hb
      exact ⟨item, rfl, rfl, by simp only; omega, rfl⟩
  · cases h

theorem Ticketed.redeem {held : List Nat} {ticket : Nat} (hb : p.Balanced)
    (h : p.Ticketed (ticket :: held)) {r : Except Error α} (hr : p.redeem ticket = some (r, p')) :
    p'.Ticketed held := by
  have hheld : held.Nodup := (List.nodup_cons.mp h.nodup).2
  have hfresh : ∀ t ∈ held, t < p.nextTicket := fun t ht => h.fresh t (List.mem_cons_of_mem _ ht)
  unfold Pool.redeem at hr
  split at hr
  next hm =>
    have hperm := h.perm.erase ticket
    rw [List.erase_append_left _ hm, List.erase_cons_head] at hperm
    cases hi : p.idle with
    | nil =>
      have hpos := List.length_pos_of_mem hm
      simp only [Balanced, hi, List.length_nil] at hb
      omega
    | cons item rest =>
      simp only [popIdle, hi, Option.some.injEq, Prod.mk.injEq] at hr
      obtain ⟨-, rfl⟩ := hr
      exact ⟨hperm, hheld, hfresh⟩
  · cases hr

/-- A ticket that is given up hands its permit on. -/
theorem withdraw_balanced (hb : p.Balanced) (ticket : Nat) :
    (p.withdraw ticket).Balanced ∧ (p.withdraw ticket).idle = p.idle ∧
      (p.withdraw ticket).capacity = p.capacity := by
  rw [withdraw]
  split
  next hm =>
    refine ⟨?_, by simp, by simp⟩
    have hlen := List.length_erase_of_mem hm
    have hpos := List.length_pos_of_mem hm
    have := permits_addPermit { p with granted := p.granted.erase ticket }
    simp only [Balanced, idle_addPermit] at *
    omega
  next => exact ⟨hb, rfl, rfl⟩

theorem Ticketed.withdraw {held : List Nat} {ticket : Nat} (h : p.Ticketed (ticket :: held)) :
    (p.withdraw ticket).Ticketed held := by
  have hheld : held.Nodup := (List.nodup_cons.mp h.nodup).2
  have hfresh : ∀ t ∈ held, t < p.nextTicket := fun t ht => h.fresh t (List.mem_cons_of_mem _ ht)
  have hperm := h.perm.erase ticket
  rw [List.erase_cons_head] at hperm
  rw [Pool.withdraw]
  split
  next hm =>
    rw [List.erase_append_left _ hm] at hperm
    exact Ticketed.addPermit (p := { p with granted := p.granted.erase ticket })
      ⟨hperm, hheld, hfresh⟩
  next hm =>
    rw [List.erase_append_right _ hm] at hperm
    exact ⟨hperm, hheld, hfresh⟩

/-- Taking without waiting: an item that is idle, or nothing. -/
theorem tryTake_balanced (hb : p.Balanced) {r : Except Error α} (h : p.tryTake = (r, p')) :
    ((∃ item, r = .ok item ∧ p.idle = item :: p'.idle) ∨ (∃ e, r = .error e) ∧ p' = p) ∧
      p'.Balanced ∧ p'.capacity = p.capacity ∧
      p'.granted = p.granted ∧ p'.waiting = p.waiting ∧ p'.nextTicket = p.nextTicket := by
  unfold Balanced at *
  cases hf : p.free with
  | zero =>
    simp only [tryTake, hf, Prod.mk.injEq] at h
    obtain ⟨rfl, rfl⟩ := h
    exact ⟨.inr ⟨⟨_, rfl⟩, rfl⟩, hb, rfl, rfl, rfl, rfl⟩
  | succ free =>
    cases hi : p.idle with
    | nil => rw [hi, hf, List.length_nil] at hb; omega
    | cons item rest =>
      simp only [tryTake, hf, popIdle, hi, Prod.mk.injEq] at h
      obtain ⟨rfl, rfl⟩ := h
      simp only [hi, hf, List.length_cons] at hb
      exact ⟨.inl ⟨item, rfl, rfl⟩, by simp only; omega, rfl, rfl, rfl, rfl⟩

/-! ### Returns -/

/-- A returned item that is not idle, and for which there is room, is kept. -/
theorem giveBack_of_room {same : α → α → Bool} {item : α} (hnew : ∀ x ∈ p.idle, ¬ same x item)
    (hroom : p.idle.length < p.capacity) :
    p.giveBack same item = (true, { p with idle := item :: p.idle }.addPermit) := by
  have hany : p.idle.any (same · item) = false := by simpa using hnew
  simp [giveBack, hany, hroom]

/-- Whether the item is kept or not, a return keeps the balance. -/
theorem giveBack_balanced (hb : p.Balanced) (same : α → α → Bool) (item : α) :
    (p.giveBack same item).2.Balanced := by
  rw [giveBack]
  split
  · exact hb
  · split
    · exact hb
    · have := permits_addPermit { p with idle := item :: p.idle }
      simp only [Balanced, idle_addPermit, List.length_cons] at *
      omega

theorem Ticketed.giveBack {held : List Nat} (h : p.Ticketed held) (same : α → α → Bool) (item : α) :
    (p.giveBack same item).2.Ticketed held := by
  rw [Pool.giveBack]
  split
  · exact h
  · split
    · exact h
    · exact Ticketed.addPermit (p := { p with idle := item :: p.idle }) ⟨h.perm, h.nodup, h.fresh⟩

@[simp] theorem capacity_giveBack (same : α → α → Bool) (item : α) (p : Pool α) :
    (p.giveBack same item).2.capacity = p.capacity := by
  rw [giveBack]
  split
  · rfl
  · split
    · rfl
    · simp

theorem mem_idle_giveBack {same : α → α → Bool} {item x : α} (h : x ∈ (p.giveBack same item).2.idle) :
    x = item ∨ x ∈ p.idle := by
  rw [giveBack] at h
  split at h
  · exact .inr h
  · split at h
    · exact .inr h
    · rw [idle_addPermit] at h
      exact List.mem_cons.mp h

end Pool

/-! ### Moves -/

namespace Move

variable {μ μ' ρ ρ' β : Type}

/-- What a move leaves behind: with the activity that goes on, or with its result. -/
def after (onNext : μ → List β) (onEnd : ρ → List β) : Move μ ρ → List β
  | .goes next => onNext next
  | .ends result => onEnd result

/-- The activity that goes on after a move, if it does. -/
def next? : Move μ ρ → Option μ
  | .goes next => some next
  | .ends _ => none

theorem mem_next? {m : Move μ ρ} {next : μ} : next ∈ m.next? ↔ m = .goes next := by
  cases m with
  | goes other => simp [next?]
  | ends result => simp [next?]

/-- A move of an activity within another. -/
def map (f : μ → μ') (g : ρ → ρ') : Move μ ρ → Move μ' ρ'
  | .goes next => .goes (f next)
  | .ends result => .ends (g result)

@[simp] theorem after_map (f : μ → μ') (g : ρ → ρ') (onNext : μ' → List β) (onEnd : ρ' → List β)
    (m : Move μ ρ) : (m.map f g).after onNext onEnd = m.after (onNext ∘ f) (onEnd ∘ g) := by
  cases m <;> rfl

/-- What a move leaves behind, in the midst of other activities. -/
theorem perm_after (onNext : μ → List β) (onEnd : ρ → List β) (m : Move μ ρ) (pre post : List μ) :
    (m.after onNext onEnd ++ (pre ++ post).flatMap onNext).Perm
      ((pre ++ (m.next?.toList ++ post)).flatMap onNext ++ m.after (fun _ => []) onEnd) := by
  cases m with
  | goes next =>
    have hmiddle : (next :: (pre ++ post)).Perm (pre ++ next :: post) := List.perm_middle.symm
    simpa [after, next?] using hmiddle.flatMap_right onNext
  | ends result => exact List.perm_append_comm

end Move

/-! ### Calls that take an item -/

namespace Acquire

variable {α : Type} {p p' : Pool α}

/-- The ticket that a call holds. -/
def tickets : Acquire → List Nat
  | .asking _ => []
  | .waiting ticket _ => [ticket]

/-- The ticket that a call holds after a move. -/
abbrev ticketsAfter (m : Move Acquire (Except Error α)) : List Nat := m.after tickets fun _ => []

/-- The item that a move brings. -/
abbrev taken (m : Move Acquire (Except Error α)) : List α :=
  m.after (fun _ => []) fun r => r.toOption.toList

/-- **One move of a call.** The item that it brings was idle, no other item is touched, and the
accounts of permits and tickets stay right. -/
theorem step_balanced {now : Nat} {a : Acquire} {m : Move Acquire (Except Error α)}
    (hb : p.Balanced) (h : a.step now p = some (m, p')) :
    p.idle = taken m ++ p'.idle ∧ p'.Balanced ∧ p'.capacity = p.capacity ∧
      ∀ others, p.Ticketed (a.tickets ++ others) → p'.Ticketed (ticketsAfter m ++ others) := by
  have hasks : ∀ limit, m = .goes (.waiting p.request.1 limit) → p' = p.request.2 →
      p.idle = taken m ++ p'.idle ∧ p'.Balanced ∧ p'.capacity = p.capacity ∧
        ∀ others, p.Ticketed ([] ++ others) → p'.Ticketed (ticketsAfter m ++ others) := by
    rintro limit rfl rfl
    obtain ⟨h₁, h₂, h₃⟩ := Pool.request_balanced hb
    exact ⟨h₂.symm, h₁, h₃, fun others ht => ht.request⟩
  cases a with
  | asking limit =>
    rcases limit with _ | _ | t
    · simp only [step, Option.map_none, Option.some.injEq, Prod.mk.injEq] at h
      exact hasks none h.1.symm h.2.symm
    · cases hq : p.tryTake with
      | mk r q =>
        simp only [step, hq, Option.some.injEq, Prod.mk.injEq] at h
        obtain ⟨rfl, rfl⟩ := h
        obtain ⟨hr, h₁, h₂, hg, hw, hn⟩ := Pool.tryTake_balanced hb hq
        refine ⟨?_, h₁, h₂, fun others ht => ⟨?_, ht.nodup, ?_⟩⟩
        · rcases hr with ⟨item, rfl, hi⟩ | ⟨⟨e, rfl⟩, rfl⟩
          · exact hi
          · rfl
        · rw [hg, hw]; exact ht.perm
        · rw [hn]; exact ht.fresh
    · simp only [step, Option.map_some, Option.some.injEq, Prod.mk.injEq] at h
      exact hasks _ h.1.symm h.2.symm
  | waiting ticket limit =>
    simp only [step] at h
    cases hr : p.redeem ticket with
    | some x =>
      obtain ⟨r, q⟩ := x
      simp only [hr, Option.some.injEq, Prod.mk.injEq] at h
      obtain ⟨rfl, rfl⟩ := h
      obtain ⟨item, rfl, hi, h₁, h₂⟩ := Pool.redeem_balanced hb hr
      exact ⟨hi, h₁, h₂, fun others ht => ht.redeem hb hr⟩
    | none =>
      simp only [hr] at h
      split at h
      · cases h
      · split at h
        · simp only [Option.some.injEq, Prod.mk.injEq] at h
          obtain ⟨rfl, rfl⟩ := h
          obtain ⟨h₁, h₂, h₃⟩ := Pool.withdraw_balanced hb ticket
          exact ⟨h₂.symm, h₁, h₃, fun others ht => ht.withdraw⟩
        · cases h

/-- **A call that is given up** leaves all items where they are, and its ticket is gone. -/
theorem drop_balanced (a : Acquire) (hb : p.Balanced) :
    (a.drop p).idle = p.idle ∧ (a.drop p).Balanced ∧ (a.drop p).capacity = p.capacity ∧
      ∀ others, p.Ticketed (a.tickets ++ others) → (a.drop p).Ticketed others := by
  cases a with
  | asking limit => exact ⟨rfl, hb, rfl, fun _ ht => ht⟩
  | waiting ticket limit =>
    obtain ⟨h₁, h₂, h₃⟩ := Pool.withdraw_balanced hb ticket
    exact ⟨h₂, h₁, h₃, fun others ht => ht.withdraw⟩

/-- A call that holds a granted ticket can move. -/
theorem step_ne_none_of_granted {now ticket : Nat} {limit : Option (Nat × Nat)}
    (h : ticket ∈ p.granted) : (Acquire.waiting ticket limit).step now p ≠ none := by
  cases hr : p.redeem ticket with
  | none => exact absurd h (Pool.redeem_eq_none.mp hr)
  | some x => simp [step, hr]

end Acquire

end EventDispatch
