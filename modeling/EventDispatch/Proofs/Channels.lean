import EventDispatch.Poll.Channel

/-!
# The accounts of a channel

What a call that sends does to a channel, and what a look into it does. Messages come out in the order in
which they went in; and while somebody receives, every place is free, granted to a ticket, or taken by a
message, so that nobody waits while a place is free.

## What is deliberately absent

Who sends and who receives is not said here. When nobody receives any more the places count for nothing,
since whoever sends is refused.

## Main definitions

* `Sent.Leaves`, `Received.Leaves`: what is in a channel after a call, and after a look into it.
* `Sending.tickets`: the ticket of a call that waits for a place.
* `Channel.Places`: where the places of a channel are, and who waits for them.

## Main results

* `Sending.leaves_of_step`, `Channel.leaves_of_receive`: the messages.
* `Channel.Places.step`, `Channel.Places.receive`: the places.
* `Channel.Places.exists_granted`: when no message is left, a call that waits can move.
-/

namespace EventDispatch

/-! ### Messages -/

/-- What a call that sends a message leaves in a channel. -/
inductive Sent.Leaves (m : PollMessage) (c c' : Channel) : Sent → Prop
  | sent (hopen : c.receiverGone = false) (hqueue : c'.queue = c.queue ++ [m]) : Leaves m c c' .sent
  | waits (send : Sending) (hopen : c.receiverGone = false) (hqueue : c'.queue = c.queue) :
      Leaves m c c' (.waits send)
  | refused (hgone : c.receiverGone = true) (hsame : c' = c) : Leaves m c c' .refused

/-- What a look into a channel leaves there. -/
inductive Received.Leaves (c c' : Channel) : Received → Prop
  | message (m : PollMessage) (hqueue : c.queue = m :: c'.queue) : Leaves c c' (.message m)
  | closed (hgone : c.sendersGone = true) (hempty : c.queue = []) (hsame : c' = c) : Leaves c c' .closed
  | pending (hpresent : c.sendersGone = false) (hempty : c.queue = []) (hsame : c' = c) : Leaves c c' .pending

namespace Channel

variable {c c' : Channel}

/-- Both ends of a channel are as they were. -/
structure SameEnds (c c' : Channel) : Prop where
  receiver : c'.receiverGone = c.receiverGone
  senders : c'.sendersGone = c.sendersGone

theorem sameEnds_addPlace (c : Channel) : c.SameEnds c.addPlace ∧ c.addPlace.queue = c.queue := by
  rw [addPlace]
  split <;> exact ⟨⟨rfl, rfl⟩, rfl⟩

theorem leaves_of_receive {r : Received} (h : c.receive = (r, c')) : c.SameEnds c' ∧ r.Leaves c c' := by
  unfold receive at h
  split at h
  next m queue hqueue =>
    cases h
    obtain ⟨hends, hsame⟩ := sameEnds_addPlace { c with queue }
    exact ⟨⟨hends.receiver, hends.senders⟩, .message m (by rw [hsame, hqueue])⟩
  next hempty =>
    split at h
    next hgone =>
      cases h
      exact ⟨⟨rfl, rfl⟩, .closed hgone hempty rfl⟩
    next hpresent =>
      cases h
      exact ⟨⟨rfl, rfl⟩, .pending (Bool.eq_false_iff.mpr hpresent) hempty rfl⟩

end Channel

namespace Sending

variable {m : PollMessage} {c c' : Channel} {send : Sending} {r : Sent}

theorem leaves_of_step (h : send.step m c = some (r, c')) : c.SameEnds c' ∧ r.Leaves m c c' := by
  cases send with
  | ready =>
    rw [step] at h
    split at h
    next hgone =>
      cases h
      exact ⟨⟨rfl, rfl⟩, .refused hgone rfl⟩
    next hopen =>
      have hopen := Bool.eq_false_iff.mpr hopen
      split at h <;> cases h
      · exact ⟨⟨rfl, rfl⟩, .sent hopen rfl⟩
      · exact ⟨⟨rfl, rfl⟩, .waits _ hopen rfl⟩
  | waiting ticket =>
    rw [step] at h
    split at h
    next hgone =>
      cases h
      exact ⟨⟨rfl, rfl⟩, .refused hgone rfl⟩
    next hopen =>
      split at h <;> cases h
      exact ⟨⟨rfl, rfl⟩, .sent (Bool.eq_false_iff.mpr hopen) rfl⟩

/-! ### Places -/

/-- The ticket of a call that waits for a place. -/
def tickets : Sending → List Nat
  | .ready => []
  | .waiting ticket => [ticket]

/-- A call that waits can move when it was granted a place, or when nobody receives any more. -/
theorem step_eq_none (h : send.step m c = none) :
    ∃ ticket, send = .waiting ticket ∧ ticket ∉ c.granted ∧ c.receiverGone = false := by
  cases send with
  | ready =>
    rw [step] at h
    split at h
    · cases h
    · split at h <;> cases h
  | waiting ticket =>
    rw [step] at h
    split at h
    · cases h
    next hopen =>
      split at h
      · cases h
      next hwaits => exact ⟨ticket, rfl, hwaits, Bool.eq_false_iff.mpr hopen⟩

end Sending

/-- The ticket with which a call goes on to wait. -/
def Sent.tickets : Sent → List Nat
  | .waits send => send.tickets
  | _ => []

theorem Sent.tickets_of_ne_waits {r : Sent} (h : ∀ send, r ≠ .waits send) : r.tickets = [] := by
  cases r with
  | waits send => exact absurd rfl (h send)
  | sent | refused => rfl

namespace Channel

/-- Where the places of a channel are, and who waits for them. -/
structure Places (capacity : Nat) (held : List Nat) (c : Channel) : Prop where
  /-- Every ticket was granted a place, or waits for one. -/
  tickets : (c.granted ++ c.waiting).Perm held
  /-- Every place is free, granted, or taken. -/
  room : c.free + c.granted.length + c.queue.length = capacity
  /-- Nobody waits while a place is free. -/
  line : c.waiting ≠ [] → c.free = 0

variable {capacity : Nat} {held : List Nat} {c c' : Channel}

theorem places_new (capacity : Nat) : (new capacity).Places capacity [] := ⟨.refl _, rfl, fun h => absurd rfl h⟩

theorem Places.of_perm {held' : List Nat} (h : c.Places capacity held) (hp : held.Perm held') :
    c.Places capacity held' := ⟨h.tickets.trans hp, h.room, h.line⟩

theorem Places.closeSenders (h : c.Places capacity held) : c.closeSenders.Places capacity held :=
  ⟨h.tickets, h.room, h.line⟩

/-- **One move of a call that sends.** -/
theorem Places.step {m : PollMessage} {send : Sending} {r : Sent}
    (h : c.Places capacity (send.tickets ++ held)) (hopen : c.receiverGone = false)
    (hs : send.step m c = some (r, c')) : c'.Places capacity (r.tickets ++ held) := by
  obtain ⟨htickets, hroom, hline⟩ := h
  cases send with
  | ready =>
    simp only [Sending.step, hopen, Bool.false_eq_true, if_false] at hs
    split at hs
    next free hfree =>
      cases hs
      refine ⟨htickets, ?_, fun hwaiting => ?_⟩
      · rw [List.length_append, List.length_singleton]
        dsimp only
        omega
      · have := hline hwaiting
        omega
    next hfree =>
      cases hs
      refine ⟨?_, hroom, fun _ => hfree⟩
      rw [← List.append_assoc]
      exact (List.perm_append_singleton _ _).trans (htickets.cons _)
  | waiting ticket =>
    simp only [Sending.step, hopen, Bool.false_eq_true, if_false] at hs
    split at hs
    next hgranted =>
      cases hs
      have hperm := htickets.erase ticket
      rw [List.erase_append_left _ hgranted, Sending.tickets, List.singleton_append,
        List.erase_cons_head] at hperm
      refine ⟨hperm, ?_, hline⟩
      have hlength := List.length_erase_of_mem hgranted
      have hpos := List.length_pos_of_mem hgranted
      rw [List.length_append, List.length_singleton]
      dsimp only
      omega
    · cases hs

/-- One move of the only call that sends. -/
theorem Places.step_alone {m : PollMessage} {send : Sending} {r : Sent} (h : c.Places capacity send.tickets)
    (hopen : c.receiverGone = false) (hs : send.step m c = some (r, c')) : c'.Places capacity r.tickets := by
  rw [← List.append_nil send.tickets] at h
  rw [← List.append_nil r.tickets]
  exact Places.step h hopen hs

/-- **A look into the channel** gives the place of the message to the next in the line. -/
theorem Places.receive (h : c.Places capacity held) {r : Received} (hs : c.receive = (r, c')) :
    c'.Places capacity held := by
  obtain ⟨htickets, hroom, hline⟩ := h
  unfold Channel.receive at hs
  split at hs
  next m queue hqueue =>
    cases hs
    rw [hqueue, List.length_cons] at hroom
    rw [addPlace]
    split
    next ticket waiting hwaiting =>
      dsimp only at hwaiting
      refine ⟨?_, ?_, fun _ => ?_⟩
      · rw [hwaiting] at htickets
        rw [List.append_assoc]
        exact htickets
      · rw [List.length_append, List.length_singleton]
        dsimp only
        omega
      · exact hline (by rw [hwaiting]; exact List.cons_ne_nil _ _)
    next hwaiting =>
      dsimp only at hwaiting
      refine ⟨htickets, ?_, fun hne => absurd hwaiting hne⟩
      dsimp only
      omega
  next hempty =>
    cases hs
    exact ⟨htickets, hroom, hline⟩

/-- **When no message is left** and somebody waits, one of those who wait was granted a place. -/
theorem Places.exists_granted (h : c.Places capacity held) (hcapacity : capacity ≠ 0)
    (hempty : c.queue = []) (hne : held ≠ []) : ∃ ticket ∈ held, ticket ∈ c.granted := by
  obtain ⟨ticket, rest, hgranted⟩ : ∃ ticket rest, c.granted = ticket :: rest := by
    refine List.exists_cons_of_ne_nil fun hnone => ?_
    have hwaiting : c.waiting ≠ [] := fun hnil => by
      have := h.tickets
      rw [hnone, hnil] at this
      exact hne this.symm.eq_nil
    have hroom := h.room
    rw [h.line hwaiting, hnone, hempty] at hroom
    exact hcapacity hroom.symm
  have hmem : ticket ∈ c.granted := hgranted ▸ List.mem_cons_self
  exact ⟨ticket, h.tickets.mem_iff.mp (List.mem_append_left _ hmem), hmem⟩

end Channel

end EventDispatch
