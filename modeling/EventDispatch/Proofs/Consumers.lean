import EventDispatch.Proofs.Deliveries
import Mathlib.Logic.Relation

/-!
# Consumers of a topic

Any number of calls receive from the topics of a broker, while messages are published and deliveries
acknowledged. Some calls run out of time, and some are given up while they wait, before or after they
were given a note.

A call does not look for a delivery all the time, but only when it is given a note, and one note may stand
for many deliveries. What carries the proof is that a topic with pending deliveries always has a note on
its way, or somebody who is about to look or to give one. So no call is left waiting beside a delivery.

## Steps within the moves

What a call does in one move is cut into steps here: it finds that nothing is pending, and asks for a note
then; it takes a delivery, and tells the next call then; it leaves the line when its time is over, and
looks a last time then; a message is put in, and a note is given then. Between two such steps others may
do theirs. A history may mix these steps with whole moves.

## What is deliberately absent

Acknowledgements that are refused change nothing, and are left out. Time is not scheduled: a call that is
out of time may move late. Nothing is said of what a consumer does with a delivery.

## Main definitions

* `Topic.Attended`: the tickets of a topic and the notes for them.
* `BrokerConsumers`: a broker with the calls ever made.
* `BrokerConsumers.Turn`: a step within a move of a call.
* `BrokerConsumers.Step`: one step, or one whole move, of anybody.
* `BrokerConsumers.Served`: the law.

## Main results

* `BrokerConsumers.turns_of_step`: the moves of calls that receive are runs of such steps.
* `BrokerConsumers.Sound.step`: what one step keeps.
* `BrokerConsumers.served_of_reachable`: the law, for every history.
-/

namespace EventDispatch

/-- Of two entries under one key the later counts. -/
theorem Keyed.insert_insert {α : Type} (key : String) (value value' : α) (table : Keyed α) :
    (table.insert key value).insert key value' = table.insert key value' := by
  induction table with
  | nil => simp [Keyed.insert]
  | cons entry rest ih =>
    obtain ⟨k, v⟩ := entry
    by_cases heq : key = k
    · simp [Keyed.insert, heq]
    · by_cases hlt : key < k
      · simp [Keyed.insert, heq, hlt]
      · simp [Keyed.insert, heq, hlt, ih]

/-! ### Notes and tickets -/

namespace Topic

variable {t t' : Topic} {ticket : Nat} {tickets rest : List Nat}

/-- The notes of a topic, and the tickets that wait for one. -/
def notes (t : Topic) : Bool × List Nat × List Nat × Nat := (t.note, t.waiting, t.noted, t.nextTicket)

/-- Whoever has a ticket waits for a note or was given one, and nobody waits while a note is kept. -/
structure Attended (tickets : List Nat) (t : Topic) : Prop where
  line : (t.noted ++ t.waiting).Perm tickets
  distinct : tickets.Nodup
  issued : ∀ n ∈ tickets, n < t.nextTicket
  kept : t.note = true → t.waiting = []

/-- A note is on its way. -/
def Told (t : Topic) : Prop := t.note = true ∨ t.noted ≠ []

theorem attended_new : new.Attended [] :=
  ⟨.nil, List.nodup_nil, fun _ hn => (by cases hn), fun _ => rfl⟩

theorem Attended.of_notes_eq (h : t.Attended tickets) (heq : t'.notes = t.notes) : t'.Attended tickets := by
  simp only [notes, Prod.mk.injEq] at heq
  obtain ⟨hnote, hwaiting, hnoted, hnext⟩ := heq
  obtain ⟨hline, hdistinct, hissued, hkept⟩ := h
  rw [← hwaiting, ← hnoted] at hline
  rw [← hnext] at hissued
  rw [← hnote, ← hwaiting] at hkept
  exact ⟨hline, hdistinct, hissued, hkept⟩

theorem told_of_notes_eq (h : t.Told) (heq : t'.notes = t.notes) : t'.Told := by
  simp only [notes, Prod.mk.injEq] at heq
  rw [Told, heq.1, heq.2.2.1]
  exact h

theorem notes_takeNext {d : Delivery} (h : t.takeNext = some (d, t')) : t'.notes = t.notes := by
  rw [takeNext] at h
  split at h
  · cases h
    rfl
  · cases h

theorem pending_of_takeNext (h : t.takeNext = none) : t.pending = [] := by
  rw [takeNext] at h
  split at h
  · cases h
  next hpending => exact hpending

/-- A note that is given is on its way. -/
theorem told_notify (t : Topic) : t.notify.Told := by
  rw [notify]
  split
  · exact .inr (by simp)
  · exact .inl rfl

theorem Attended.notify (h : t.Attended tickets) : t.notify.Attended tickets := by
  obtain ⟨hline, hdistinct, hissued, hkept⟩ := h
  rw [Topic.notify]
  split
  next ticket waiting hwaiting =>
    rw [hwaiting] at hline
    refine ⟨?_, hdistinct, hissued, fun hnote => ?_⟩
    · simpa using hline
    · have hnil := hkept hnote
      rw [hwaiting] at hnil
      cases hnil
  next hwaiting => exact ⟨hline, hdistinct, hissued, fun _ => hwaiting⟩

/-- A kept note is taken. -/
theorem Attended.awaits (h : t.Attended tickets) (ha : t.awaitNote = (none, t')) : t'.Attended tickets := by
  rw [awaitNote] at ha
  split at ha
  · cases ha
    exact ⟨h.line, h.distinct, h.issued, fun hnote => by cases hnote⟩
  · cases ha

/-- With no note kept, one more ticket waits. -/
theorem Attended.waits (h : t.Attended tickets) (ha : t.awaitNote = (some ticket, t')) :
    t'.Attended (ticket :: tickets) ∧ (t.Told → t'.Told) := by
  rw [awaitNote] at ha
  split at ha
  · cases ha
  next hnote =>
    cases ha
    refine ⟨⟨?_, ?_, fun n hn => ?_, fun hkept => absurd hkept hnote⟩, id⟩
    · rw [← List.append_assoc]
      exact (List.perm_append_singleton _ _).trans (h.line.cons _)
    · exact List.nodup_cons.mpr ⟨fun hm => Nat.lt_irrefl _ (h.issued _ hm), h.distinct⟩
    · rcases List.mem_cons.mp hn with rfl | hold
      · exact Nat.lt_succ_self _
      · exact Nat.lt_succ_of_lt (h.issued n hold)

/-- Who was given a note takes it. -/
theorem Attended.wakes (h : t.Attended (ticket :: rest)) (hm : ticket ∈ t.noted) :
    { t with noted := t.noted.erase ticket }.Attended rest := by
  refine ⟨?_, (List.nodup_cons.mp h.distinct).2, fun n hn => h.issued n (List.mem_cons_of_mem _ hn), h.kept⟩
  have hsplit : (ticket :: (t.noted.erase ticket ++ t.waiting)).Perm (ticket :: rest) :=
    ((List.perm_cons_erase hm).symm.append_right t.waiting).trans h.line
  exact hsplit.cons_inv

/-- Who leaves passes on the note that was given to it. -/
theorem Attended.withdraw (h : t.Attended (ticket :: rest)) :
    (t.withdraw ticket).Attended rest ∧ (t.Told → (t.withdraw ticket).Told) := by
  rw [Topic.withdraw]
  split
  next hm => exact ⟨(h.wakes hm).notify, fun _ => told_notify _⟩
  next hnot =>
    have hm : ticket ∈ t.waiting :=
      (List.mem_append.mp (h.line.symm.subset List.mem_cons_self)).resolve_left hnot
    refine ⟨⟨?_, (List.nodup_cons.mp h.distinct).2, fun n hn => h.issued n (List.mem_cons_of_mem _ hn),
      fun hnote => ?_⟩, id⟩
    · have hsplit : (ticket :: (t.noted ++ t.waiting.erase ticket)).Perm (ticket :: rest) :=
        List.perm_middle.symm.trans (((List.perm_cons_erase hm).symm.append_left t.noted).trans h.line)
      exact hsplit.cons_inv
    · rw [h.kept hnote] at hm
      cases hm

theorem Attended.perm {other : List Nat} (h : t.Attended tickets) (hp : tickets.Perm other) :
    t.Attended other :=
  ⟨h.line.trans hp, hp.nodup_iff.mp h.distinct, fun n hn => h.issued n (hp.symm.subset hn), h.kept⟩

end Topic

namespace Broker

variable {b b' : Broker} {name : String}

/-- Of two states of a topic the later counts. -/
theorem setTopic_setTopic (name : String) (t t' : Topic) (b : Broker) :
    (b.setTopic name t).setTopic name t' = b.setTopic name t' := by
  rw [setTopic, setTopic, setTopic, Keyed.insert_insert]

/-- What an acknowledgement does to the topics. -/
theorem topic_of_ack {id : Nat} (h : b.ack name id = .ok b') : b'.published = b.published ∧
    (id ∈ (b.topic name).unacked.map Delivery.id ∧ b'.topic name = { b.topic name with
      unacked := (b.topic name).unacked.filter (·.id != id), acked := (b.topic name).acked ++ [id] }) ∧
    ∀ other ≠ name, b'.topic other = b.topic other := by
  simp only [ack] at h
  split at h
  · cases h
  next t hget =>
    have ht : b.topic name = t := by rw [topic, hget, Option.getD_some]
    split at h
    next hany =>
      cases h
      refine ⟨rfl, ⟨?_, ?_⟩, fun other hne => ?_⟩
      · rw [ht]
        simpa using hany
      · rw [topic_setTopic_self, ht]
      · rw [topic_setTopic, if_neg hne]
    · cases h

end Broker

/-- The one that is acknowledged goes over to the acknowledged ones. -/
theorem Delivery.perm_of_acked {unacked : List Delivery} {id : Nat}
    (hd : (unacked.map Delivery.id).Nodup) (hm : id ∈ unacked.map Delivery.id) (acked : List Nat) :
    (unacked.map Delivery.id ++ acked).Perm
      ((unacked.filter (·.id != id)).map Delivery.id ++ (acked ++ [id])) := by
  have herase : (unacked.filter (·.id != id)).map Delivery.id = (unacked.map Delivery.id).erase id := by
    rw [hd.erase_eq_filter, List.filter_map]
    rfl
  rw [herase]
  calc (unacked.map Delivery.id ++ acked).Perm (id :: ((unacked.map Delivery.id).erase id ++ acked)) :=
        (List.perm_cons_erase hm).append_right acked
    _ |>.Perm ((unacked.map Delivery.id).erase id ++ id :: acked) := List.perm_middle.symm
    _ |>.Perm ((unacked.map Delivery.id).erase id ++ (acked ++ [id])) :=
        (List.perm_append_singleton id acked).symm.append_left _

/-! ### Calls, step by step -/

/-- A call that receives or publishes. -/
inductive BrokerConsumers.Call where
  | receiving (call : Receive)
  /-- It has found nothing pending, and is about to ask for a note. -/
  | empty (topic : String) (deadline : Nat)
  /-- It has taken a delivery, and is about to tell the next call if more is pending. -/
  | leaving (topic : String) (d : Delivery)
  /-- It has run out of time, and is about to look a last time. -/
  | late (topic : String)
  | answered (result : Option Delivery)
  | dropped
  /-- It has put a message in, and is about to give a note. -/
  | telling (topic : String)
  | told

/-- A broker, the calls ever made that receive or publish, and what was published and handed out, in
order. -/
structure BrokerConsumers where
  broker : Broker
  now : Nat
  calls : List BrokerConsumers.Call
  published : List Delivery
  handed : List Delivery

namespace BrokerConsumers

namespace Call

/-- The ticket on a topic that a call waits with. -/
def ticket? (name : String) : Call → Option Nat
  | receiving (.waiting topic ticket _) => if topic = name then some ticket else none
  | _ => none

/-- The delivery that was handed to a call. -/
def delivery? : Call → Option Delivery
  | leaving _ d => some d
  | answered result => result
  | _ => none

/-- A call is about to look for a delivery of a topic, or to tell the next call. -/
def Busy (name : String) : Call → Prop
  | receiving (.looking topic _) | leaving topic _ | telling topic => topic = name
  | _ => False

/-- A call is over, or has to wait. -/
def Rests (now : Nat) (b : Broker) : Call → Prop
  | receiving call => call.step now b = none
  | answered _ | dropped | told => True
  | _ => False

/-- A call after one of its moves. -/
def after : Move Receive (Option Delivery) → Call
  | .goes next => receiving next
  | .ends result => answered result

end Call

/-- A step of a call on a topic, with the topic before and after it, and with what is handed out. -/
inductive Turn (now : Nat) (name : String) (t : Topic) : Call → Call → Topic → Option Delivery → Prop
  | begins {wait : Nat} :
      Turn now name t (.receiving (.asking name wait)) (.receiving (.looking name (now + wait))) t none
  | takes {deadline : Nat} {d : Delivery} {t' : Topic} (h : t.takeNext = some (d, t')) :
      Turn now name t (.receiving (.looking name deadline)) (.leaving name d) t' (some d)
  | leaves {d : Delivery} : Turn now name t (.leaving name d) (.answered (some d))
      (if t.pending.isEmpty then t else t.notify) none
  | finds {deadline : Nat} (h : t.takeNext = none) :
      Turn now name t (.receiving (.looking name deadline)) (.empty name deadline) t none
  | goes {deadline : Nat} {t' : Topic} (h : t.awaitNote = (none, t')) :
      Turn now name t (.empty name deadline) (.receiving (.looking name deadline)) t' none
  | waits {deadline ticket : Nat} {t' : Topic} (h : t.awaitNote = (some ticket, t')) :
      Turn now name t (.empty name deadline) (.receiving (.waiting name ticket deadline)) t' none
  | wakes {ticket deadline : Nat} (h : ticket ∈ t.noted) :
      Turn now name t (.receiving (.waiting name ticket deadline)) (.receiving (.looking name deadline))
        { t with noted := t.noted.erase ticket } none
  /-- A note may still come before the call has left the line. -/
  | expires {ticket deadline : Nat} (h : deadline ≤ now) :
      Turn now name t (.receiving (.waiting name ticket deadline)) (.late name) (t.withdraw ticket) none
  | looks {d : Delivery} {t' : Topic} (h : t.takeNext = some (d, t')) :
      Turn now name t (.late name) (.answered (some d)) t' (some d)
  | misses (h : t.takeNext = none) : Turn now name t (.late name) (.answered none) t none
  | drops {ticket deadline : Nat} :
      Turn now name t (.receiving (.waiting name ticket deadline)) .dropped (t.withdraw ticket) none
  | tells : Turn now name t (.telling name) .told t.notify none

/-- The topic after a step of a call follows on the step before it. -/
inductive Turns (now : Nat) (name : String) (t : Topic) (call : Call) (after : Call) (t' : Topic)
    (handed : Option Delivery) : Prop
  | one (h : Turn now name t call after t' handed)
  /-- What is handed out is handed out in the first step or in the second. -/
  | two {middle : Call} {t₁ : Topic} {first second : Option Delivery}
      (h₁ : Turn now name t call middle t₁ first) (h₂ : Turn now name t₁ middle after t' second)
      (hhanded : first.toList ++ second.toList = handed.toList)

/-- **A move of a call that receives** is one step or two. -/
theorem turns_of_step {now : Nat} {b b' : Broker} {call : Receive} {m : Move Receive (Option Delivery)}
    (hs : call.step now b = some (m, b')) : ∃ t', b' = b.setTopic call.topic t' ∧
      Turns now call.topic (b.topic call.topic) (.receiving call) (.after m) t' (Call.after m).delivery? := by
  cases call with
  | asking topic wait =>
    cases hs
    exact ⟨_, rfl, .one .begins⟩
  | looking topic deadline =>
    simp only [Receive.step] at hs
    split at hs
    next d t htake =>
      cases hs
      exact ⟨_, rfl, .two (.takes htake) .leaves rfl⟩
    next hnone =>
      split at hs
      next t hawait =>
        cases hs
        exact ⟨_, rfl, .two (.finds hnone) (.goes hawait) rfl⟩
      next ticket t hawait =>
        cases hs
        exact ⟨_, rfl, .two (.finds hnone) (.waits hawait) rfl⟩
  | waiting topic ticket deadline =>
    simp only [Receive.step] at hs
    split at hs
    next hnoted =>
      cases hs
      exact ⟨_, rfl, .one (.wakes hnoted)⟩
    · split at hs
      next hlate =>
        split at hs
        next d t htake =>
          cases hs
          exact ⟨_, rfl, .two (.expires hlate) (.looks htake) rfl⟩
        next hnone =>
          cases hs
          exact ⟨_, rfl, .two (.expires hlate) (.misses hnone) rfl⟩
      · cases hs

/-! ### What a step does to its topic -/

namespace Turn

variable {now : Nat} {name : String} {t t' : Topic} {call call' : Call} {out : Option Delivery}

/-- The tickets stay those of the calls that wait. -/
theorem attended (h : Turn now name t call call' t' out) {rest : List Nat}
    (ha : t.Attended ((call.ticket? name).toList ++ rest)) :
    t'.Attended ((call'.ticket? name).toList ++ rest) := by
  cases h with
  | begins => exact ha
  | takes h => exact ha.of_notes_eq (Topic.notes_takeNext h)
  | leaves =>
    split
    · exact ha
    · exact ha.notify
  | finds h => exact ha
  | goes h => exact ha.awaits h
  | waits h =>
    simp only [Call.ticket?, if_true, Option.toList_some, List.singleton_append]
    exact (ha.waits h).1
  | wakes h =>
    simp only [Call.ticket?, if_true, Option.toList_some, List.singleton_append] at ha
    exact ha.wakes h
  | expires h =>
    simp only [Call.ticket?, if_true, Option.toList_some, List.singleton_append] at ha
    exact ha.withdraw.1
  | looks h => exact ha.of_notes_eq (Topic.notes_takeNext h)
  | misses h => exact ha
  | drops =>
    simp only [Call.ticket?, if_true, Option.toList_some, List.singleton_append] at ha
    exact ha.withdraw.1
  | tells => exact ha.notify

/-- With deliveries pending, a note stays on its way, or somebody about to look or to give one. -/
theorem woken (h : Turn now name t call call' t' out) {rest : List Nat} {others : Prop}
    (ha : t.Attended ((call.ticket? name).toList ++ rest))
    (hw : t.pending ≠ [] → t.Told ∨ call.Busy name ∨ others) (hp : t'.pending ≠ []) :
    t'.Told ∨ call'.Busy name ∨ others := by
  have hleft : ∀ {ticket : Nat} {tickets : List Nat}, t.Attended (ticket :: tickets) →
      (t.withdraw ticket).pending ≠ [] → ¬ call.Busy name → (t.withdraw ticket).Told ∨ others := by
    intro ticket tickets hattended hpending hidle
    have hstock := congrArg Prod.fst (Topic.stock_withdraw ticket t)
    have hstill : t.pending ≠ [] := fun hnil => hpending (hstock.trans hnil)
    rcases hw hstill with htold | hbusy | hother
    · exact .inl (hattended.withdraw.2 htold)
    · exact absurd hbusy hidle
    · exact .inr hother
  cases h with
  | begins => exact .inr (.inl rfl)
  | takes h => exact .inr (.inl rfl)
  | leaves =>
    split at hp
    next hempty => exact absurd (List.isEmpty_iff.mp hempty) hp
    next hmore =>
      rw [if_neg hmore]
      exact .inl (Topic.told_notify t)
  | finds h => exact absurd (Topic.pending_of_takeNext h) hp
  | goes h => exact .inr (.inl rfl)
  | @waits deadline ticket t' h =>
    have hstock := congrArg Prod.fst (Topic.stock_awaitNote t)
    rw [h] at hstock
    have hstill : t.pending ≠ [] := fun hnil => hp (hstock.trans hnil)
    rcases hw hstill with htold | hbusy | hother
    · exact .inl ((ha.waits h).2 htold)
    · exact absurd hbusy not_false
    · exact .inr (.inr hother)
  | wakes h => exact .inr (.inl rfl)
  | expires h =>
    simp only [Call.ticket?, if_true, Option.toList_some, List.singleton_append] at ha
    exact (hleft ha hp not_false).imp_right .inr
  | looks h =>
    obtain ⟨hpending, -⟩ := Topic.stock_takeNext h
    have hstill : t.pending ≠ [] := by simp [hpending]
    rcases hw hstill with htold | hbusy | hother
    · exact .inl (Topic.told_of_notes_eq htold (Topic.notes_takeNext h))
    · exact absurd hbusy not_false
    · exact .inr (.inr hother)
  | misses h => exact absurd (Topic.pending_of_takeNext h) hp
  | drops =>
    simp only [Call.ticket?, if_true, Option.toList_some, List.singleton_append] at ha
    exact (hleft ha hp not_false).imp_right .inr
  | tells => exact .inl (Topic.told_notify t)

/-- What is handed out is the oldest pending delivery, and else the stock stays. -/
theorem stock (h : Turn now name t call call' t' out) : (out = none ∧ t'.stock = t.stock) ∨
    ∃ d, out = some d ∧ t.pending = d :: t'.pending ∧
      t'.stock = (t'.pending, t.unacked ++ [d], t.acked) := by
  cases h with
  | begins => exact .inl ⟨rfl, rfl⟩
  | takes h => exact .inr ⟨_, rfl, Topic.stock_takeNext h⟩
  | leaves =>
    refine .inl ⟨rfl, ?_⟩
    split
    · rfl
    · exact Topic.stock_notify t
  | finds h => exact .inl ⟨rfl, rfl⟩
  | goes h =>
    have hstock := Topic.stock_awaitNote t
    rw [h] at hstock
    exact .inl ⟨rfl, hstock⟩
  | waits h =>
    have hstock := Topic.stock_awaitNote t
    rw [h] at hstock
    exact .inl ⟨rfl, hstock⟩
  | wakes h => exact .inl ⟨rfl, rfl⟩
  | expires h => exact .inl ⟨rfl, Topic.stock_withdraw _ t⟩
  | looks h => exact .inr ⟨_, rfl, Topic.stock_takeNext h⟩
  | misses h => exact .inl ⟨rfl, rfl⟩
  | drops => exact .inl ⟨rfl, Topic.stock_withdraw _ t⟩
  | tells => exact .inl ⟨rfl, Topic.stock_notify t⟩

/-- What is handed out comes from the head of the pending deliveries, and is unacknowledged from then on. -/
theorem passed_on (h : Turn now name t call call' t' out) : t.pending = out.toList ++ t'.pending ∧
    t'.unacked = t.unacked ++ out.toList ∧ t'.acked = t.acked := by
  rcases h.stock with ⟨rfl, hsame⟩ | ⟨d, rfl, hpending, htaken⟩
  · simp only [Topic.stock, Prod.mk.injEq] at hsame
    exact ⟨hsame.1.symm, by simp [hsame.2.1], hsame.2.2⟩
  · simp only [Topic.stock, Prod.mk.injEq] at htaken
    exact ⟨hpending, htaken.2⟩

/-- What is handed out is handed to the call. -/
theorem delivery (h : Turn now name t call call' t' out) :
    call'.delivery?.toList = call.delivery?.toList ++ out.toList := by
  cases h <;> rfl

/-- A call does not touch another topic. -/
theorem foreign (h : Turn now name t call call' t' out) {other : String} (hne : other ≠ name) :
    call.ticket? other = none ∧ call'.ticket? other = none ∧ ¬ call.Busy other := by
  cases h <;> simp [Call.ticket?, Call.Busy, hne.symm]

end Turn

/-! ### Histories -/

/-- Puts a message into its topic, without a note. -/
def post (name : String) (body : ByteArray) (headers : Keyed String) (at_ : Timestamp) (b : Broker) :
    Broker :=
  let delivery : Delivery := { id := b.published + 1, topic := name, body, headers, publishedAt := at_ }
  let t := b.topic name
  { b with published := b.published + 1 }.setTopic name { t with pending := t.pending ++ [delivery] }

/-- Deliveries of a topic. -/
def on (name : String) (deliveries : List Delivery) : List Delivery :=
  deliveries.filter (·.topic == name)

/-- One step, or one whole move, of anybody. -/
inductive Step : BrokerConsumers → BrokerConsumers → Prop
  /-- Time passes. -/
  | passes (s : BrokerConsumers) (now : Nat) (h : s.now ≤ now) : Step s { s with now }
  /-- A message is published. -/
  | publishes (s : BrokerConsumers) (name : String) (body : ByteArray) (headers : Keyed String) (at_ : Timestamp) :
      Step s { s with
        broker := (s.broker.publish name body headers at_).2
        calls := s.calls ++ [.told]
        published := s.published ++ [⟨s.broker.published + 1, name, body, headers, at_⟩] }
  /-- A message is put in; the note comes later. -/
  | posts (s : BrokerConsumers) (name : String) (body : ByteArray) (headers : Keyed String) (at_ : Timestamp) :
      Step s { s with
        broker := post name body headers at_ s.broker
        calls := s.calls ++ [.telling name]
        published := s.published ++ [⟨s.broker.published + 1, name, body, headers, at_⟩] }
  /-- Somebody asks for a delivery. -/
  | asks (s : BrokerConsumers) (name : String) (wait : Nat) :
      Step s { s with calls := s.calls ++ [.receiving (.asking name wait)] }
  /-- A call that receives makes a whole move. -/
  | moves {s : BrokerConsumers} {pre post : List Call} {call : Receive} {m : Move Receive (Option Delivery)}
      {b : Broker} (hcalls : s.calls = pre ++ .receiving call :: post)
      (hs : call.step s.now s.broker = some (m, b)) :
      Step s { s with
        broker := b
        calls := pre ++ .after m :: post
        handed := s.handed ++ (Call.after m).delivery?.toList }
  /-- A call makes a step. -/
  | turns {s : BrokerConsumers} {pre post : List Call} {call call' : Call} {name : String} {t : Topic}
      {out : Option Delivery} (hcalls : s.calls = pre ++ call :: post)
      (hs : Turn s.now name (s.broker.topic name) call call' t out) :
      Step s { s with
        broker := s.broker.setTopic name t
        calls := pre ++ call' :: post
        handed := s.handed ++ out.toList }
  /-- A call that receives is given up, before it has begun or while it waits. -/
  | drops {s : BrokerConsumers} {pre post : List Call} {call : Receive}
      (hcalls : s.calls = pre ++ .receiving call :: post)
      (hpaused : ∀ name deadline, call ≠ .looking name deadline) :
      Step s { s with broker := call.drop s.broker, calls := pre ++ .dropped :: post }
  /-- A delivery is acknowledged. -/
  | acks {s : BrokerConsumers} {name : String} {id : Nat} {b : Broker} (hs : s.broker.ack name id = .ok b) :
      Step s { s with broker := b }

/-- A broker where nothing has happened. -/
def quiet (now : Nat) : BrokerConsumers :=
  { broker := .new, now, calls := [], published := [], handed := [] }

/-- **The law**: nothing is lost, doubled, handed out of turn, or left beside a call that waits. -/
structure Served (s : BrokerConsumers) : Prop where
  /-- Every delivery that was published is pending, unacknowledged or acknowledged, and only one of these. -/
  accounted : ∀ name, ((on name s.published).map Delivery.id).Perm
    ((s.broker.topic name).pending.map Delivery.id ++
      ((s.broker.topic name).unacked.map Delivery.id ++ (s.broker.topic name).acked))
  distinct : (s.published.map Delivery.id).Nodup
  /-- Deliveries are handed out in the order in which they were published. -/
  in_order : ∀ name, on name s.published = on name s.handed ++ (s.broker.topic name).pending
  /-- What was handed out was handed to one call each. -/
  once : s.handed.Perm (s.calls.filterMap Call.delivery?)
  /-- When every call is over or has to wait, none waits for a topic with a pending delivery. -/
  awake : (∀ call ∈ s.calls, call.Rests s.now s.broker) → ∀ name ticket deadline,
    .receiving (.waiting name ticket deadline) ∈ s.calls → (s.broker.topic name).pending = []

/-! ### What every step keeps -/

/-- The state is in order. -/
structure Sound (s : BrokerConsumers) : Prop where
  ids : s.published.map Delivery.id = List.range' 1 s.broker.published
  line : ∀ name, on name s.published = on name s.handed ++ (s.broker.topic name).pending
  kept : ∀ name, ((on name s.handed).map Delivery.id).Perm
    ((s.broker.topic name).unacked.map Delivery.id ++ (s.broker.topic name).acked)
  once : s.handed.Perm (s.calls.filterMap Call.delivery?)
  attended : ∀ name, (s.broker.topic name).Attended (s.calls.filterMap (Call.ticket? name))
  woken : ∀ name, (s.broker.topic name).pending ≠ [] →
    (s.broker.topic name).Told ∨ ∃ call ∈ s.calls, call.Busy name

variable {s s' : BrokerConsumers}

theorem sound_quiet (now : Nat) : Sound (quiet now) where
  ids := rfl
  line _ := rfl
  kept _ := .nil
  once := .nil
  attended _ := Topic.attended_new
  woken _ hp := absurd rfl hp

theorem Sound.distinct (h : Sound s) : (s.published.map Delivery.id).Nodup := by
  rw [h.ids]
  exact List.nodup_range'

theorem on_append (name : String) (a b : List Delivery) : on name (a ++ b) = on name a ++ on name b :=
  List.filter_append ..

/-- A delivery of a topic is one that says so. -/
theorem topic_of_mem_on {name : String} {d : Delivery} {deliveries : List Delivery}
    (h : d ∈ on name deliveries) : d.topic = name := by
  simpa using (List.mem_filter.mp h).2

/-- One call stands for itself among the others. -/
theorem filterMap_middle {β : Type} (f : Call → Option β) (pre post : List Call) (call : Call) :
    ((pre ++ call :: post).filterMap f).Perm ((f call).toList ++ (pre ++ post).filterMap f) := by
  rw [List.filterMap_append, List.filterMap_append, List.filterMap_cons]
  cases f call with
  | none => exact .refl _
  | some x => exact List.perm_middle

theorem exists_middle (P : Call → Prop) (pre post : List Call) (call : Call) :
    (∃ x ∈ pre ++ call :: post, P x) ↔ P call ∨ ∃ x ∈ pre ++ post, P x := by
  simp only [List.perm_middle.mem_iff, List.mem_cons, exists_eq_or_imp]

/-- What is handed out of a topic is no matter elsewhere. -/
theorem on_toList {name : String} {out : Option Delivery} (h : ∀ d, out = some d → d.topic = name)
    (other : String) : on other out.toList = if other = name then out.toList else [] := by
  cases out with
  | none => simp [on]
  | some d =>
    have htopic := h d rfl
    by_cases heq : other = name
    · simp [on, heq, htopic]
    · simp [on, heq, htopic, Ne.symm heq]

/-- **A step of a call** keeps the state in order. -/
theorem Sound.turn (h : Sound s) {pre post : List Call} {call call' : Call} {name : String} {t : Topic}
    {out : Option Delivery} (hcalls : s.calls = pre ++ call :: post)
    (hs : Turn s.now name (s.broker.topic name) call call' t out) :
    Sound { s with
      broker := s.broker.setTopic name t
      calls := pre ++ call' :: post
      handed := s.handed ++ out.toList } := by
  obtain ⟨hpending, hunacked, hacked⟩ := hs.passed_on
  -- What is handed out comes from the topic of the call.
  have hon : ∀ other, on other out.toList = if other = name then out.toList else [] := by
    refine fun other => on_toList (fun d hd => ?_) other
    have hmem : d ∈ on name s.published := by
      rw [h.line name, hpending, hd]
      simp
    exact topic_of_mem_on hmem
  refine ⟨h.ids, fun other => ?_, fun other => ?_, ?_, fun other => ?_, fun other => ?_⟩
  · show on other s.published = on other (s.handed ++ out.toList) ++ _
    rw [h.line other, on_append, hon, Broker.topic_setTopic]
    split
    next heq =>
      subst heq
      rw [hpending, List.append_assoc]
    next => rw [List.append_nil]
  · show ((on other (s.handed ++ out.toList)).map _).Perm _
    rw [on_append, hon, Broker.topic_setTopic]
    split
    next heq =>
      subst heq
      rw [hunacked, hacked, List.map_append, List.map_append, List.append_assoc]
      refine ((h.kept other).append_right _).trans ?_
      rw [List.append_assoc]
      exact List.perm_append_comm.append_left _
    next =>
      rw [List.append_nil]
      exact h.kept other
  · show (s.handed ++ out.toList).Perm _
    have hbefore := h.once.trans (hcalls ▸ filterMap_middle Call.delivery? pre post call)
    refine (hbefore.append_right out.toList).trans (.trans ?_ (filterMap_middle _ pre post call').symm)
    rw [hs.delivery, List.append_assoc, List.append_assoc]
    exact List.perm_append_comm.append_left _
  · show (Broker.topic other _).Attended _
    have hbefore := (h.attended other).perm (hcalls ▸ filterMap_middle (Call.ticket? other) pre post call)
    refine Topic.Attended.perm ?_ (filterMap_middle _ pre post call').symm
    rw [Broker.topic_setTopic]
    split
    next heq =>
      subst heq
      exact hs.attended hbefore
    next hne =>
      obtain ⟨hnone, hnone', -⟩ := hs.foreign hne
      rw [hnone] at hbefore
      rw [hnone']
      exact hbefore
  · show (Broker.topic other _).pending ≠ [] → (Broker.topic other _).Told ∨ _
    have hbefore := (h.attended other).perm (hcalls ▸ filterMap_middle (Call.ticket? other) pre post call)
    have hwoken := h.woken other
    rw [hcalls, exists_middle] at hwoken
    rw [exists_middle, Broker.topic_setTopic]
    split
    next heq =>
      subst heq
      exact hs.woken hbefore hwoken
    next hne =>
      obtain ⟨-, -, hidle⟩ := hs.foreign hne
      intro hp
      rcases hwoken hp with htold | hbusy | hothers
      · exact .inl htold
      · exact absurd hbusy hidle
      · exact .inr (.inr hothers)

/-- A whole move of a call keeps the state in order. -/
theorem Sound.moves (h : Sound s) {pre post : List Call} {call : Receive}
    {m : Move Receive (Option Delivery)} {b : Broker} (hcalls : s.calls = pre ++ .receiving call :: post)
    (hs : call.step s.now s.broker = some (m, b)) :
    Sound { s with
      broker := b
      calls := pre ++ .after m :: post
      handed := s.handed ++ (Call.after m).delivery?.toList } := by
  obtain ⟨t', rfl, hturns⟩ := turns_of_step hs
  cases hturns with
  | one hturn => exact h.turn hcalls hturn
  | @two middle t₁ first second h₁ h₂ hhanded =>
    have hfirst := h.turn hcalls h₁
    have hnext : Turn s.now call.topic ((s.broker.setTopic call.topic t₁).topic call.topic) middle
        (.after m) t' second := by
      rw [Broker.topic_setTopic_self]
      exact h₂
    have hsecond := hfirst.turn rfl hnext
    rw [← hhanded, ← List.append_assoc, ← Broker.setTopic_setTopic]
    exact hsecond

/-- More calls are made, which have neither a ticket nor a delivery. -/
theorem Sound.joined (h : Sound s) (call : Call) (hticket : ∀ name, call.ticket? name = none)
    (hdelivery : call.delivery? = none) : Sound { s with calls := s.calls ++ [call] } := by
  refine ⟨h.ids, h.line, h.kept, ?_, fun name => ?_, fun name hp => ?_⟩
  · show s.handed.Perm ((s.calls ++ [call]).filterMap Call.delivery?)
    rw [List.filterMap_append, List.filterMap_cons_none hdelivery]
    simpa using h.once
  · show (s.broker.topic name).Attended ((s.calls ++ [call]).filterMap (Call.ticket? name))
    rw [List.filterMap_append, List.filterMap_cons_none (hticket name)]
    simpa using h.attended name
  · refine (h.woken name hp).imp_right ?_
    rintro ⟨c, hc, hbusy⟩
    exact ⟨c, List.mem_append_left _ hc, hbusy⟩

/-- A message is put in, by a call that is to give a note. -/
theorem Sound.posts (h : Sound s) (name : String) (body : ByteArray) (headers : Keyed String)
    (at_ : Timestamp) : Sound { s with
      broker := post name body headers at_ s.broker
      calls := s.calls ++ [.telling name]
      published := s.published ++ [⟨s.broker.published + 1, name, body, headers, at_⟩] } := by
  have hcalls := h.joined (.telling name) (fun _ => rfl) rfl
  have htopic : ∀ other, (post name body headers at_ s.broker).topic other = if other = name then
      { s.broker.topic name with pending := (s.broker.topic name).pending ++
        [⟨s.broker.published + 1, name, body, headers, at_⟩] } else s.broker.topic other :=
    fun other => Broker.topic_setTopic name other _ _
  refine ⟨?_, fun other => ?_, fun other => ?_, hcalls.once, fun other => ?_, fun other hp => ?_⟩
  · show (s.published ++ [_]).map Delivery.id = List.range' 1 (s.broker.published + 1)
    rw [List.map_append, h.ids, List.range'_1_concat, Nat.add_comm 1]
    rfl
  · show on other (s.published ++ [_]) = on other s.handed ++ (Broker.topic other _).pending
    rw [on_append, h.line other, htopic]
    split
    next heq => simp [on, heq]
    next hne => simp [on, Ne.symm hne]
  · show ((on other s.handed).map Delivery.id).Perm _
    rw [htopic]
    split
    next heq =>
      subst heq
      exact h.kept other
    next => exact h.kept other
  · show (Broker.topic other _).Attended _
    rw [htopic]
    split
    next heq =>
      subst heq
      exact (hcalls.attended other).of_notes_eq rfl
    next => exact hcalls.attended other
  · by_cases heq : other = name
    · exact .inr ⟨.telling name, by simp, heq.symm⟩
    · change (Broker.topic other _).pending ≠ [] at hp
      show (Broker.topic other _).Told ∨ _
      rw [htopic, if_neg heq] at hp ⊢
      exact hcalls.woken other hp

/-- A message is put in and a note given. -/
theorem Sound.publishes (h : Sound s) (name : String) (body : ByteArray) (headers : Keyed String)
    (at_ : Timestamp) : Sound { s with
      broker := (s.broker.publish name body headers at_).2
      calls := s.calls ++ [.told]
      published := s.published ++ [⟨s.broker.published + 1, name, body, headers, at_⟩] } := by
  have hposted := h.posts name body headers at_
  have htold := @Sound.turn _ hposted s.calls [] (.telling name) .told name _ _ rfl .tells
  have hpublish : (post name body headers at_ s.broker).setTopic name
      ((post name body headers at_ s.broker).topic name).notify =
        (s.broker.publish name body headers at_).2 := by
    rw [post, Broker.topic_setTopic_self, Broker.setTopic_setTopic]
    rfl
  rw [← hpublish]
  simpa using htold

/-- A call is given up, before it has begun or while it waits. -/
theorem Sound.drops (h : Sound s) {pre post : List Call} {call : Receive}
    (hcalls : s.calls = pre ++ .receiving call :: post)
    (hpaused : ∀ name deadline, call ≠ .looking name deadline) :
    Sound { s with broker := call.drop s.broker, calls := pre ++ .dropped :: post } := by
  cases call with
  | asking name wait =>
    have hsame : ∀ {β : Type} (f : Call → Option β), f (.receiving (.asking name wait)) = none →
        f .dropped = none → (pre ++ .dropped :: post).filterMap f = s.calls.filterMap f := by
      intro β f hasking hdropped
      rw [hcalls, List.filterMap_append, List.filterMap_append, List.filterMap_cons_none hasking,
        List.filterMap_cons_none hdropped]
    refine ⟨h.ids, h.line, h.kept, ?_, fun other => ?_, fun other hp => ?_⟩
    · exact (hsame Call.delivery? rfl rfl).symm ▸ h.once
    · exact (hsame (Call.ticket? other) rfl rfl).symm ▸ h.attended other
    · have hwoken := h.woken other hp
      rw [hcalls, exists_middle] at hwoken
      show _ ∨ ∃ c ∈ pre ++ Call.dropped :: post, c.Busy other
      rw [exists_middle]
      exact hwoken
  | looking name deadline => exact absurd rfl (hpaused name deadline)
  | waiting name ticket deadline => simpa [Receive.drop] using h.turn hcalls .drops

/-- A delivery is acknowledged, which those that wait do not notice. -/
theorem Sound.acks (h : Sound s) {name : String} {id : Nat} {b : Broker} (hs : s.broker.ack name id = .ok b) :
    Sound { s with broker := b } := by
  obtain ⟨hpublished, hmine, hothers⟩ := Broker.topic_of_ack hs
  have hnotes : ∀ other, (b.topic other).notes = (s.broker.topic other).notes ∧
      (b.topic other).pending = (s.broker.topic other).pending := by
    intro other
    by_cases heq : other = name
    · rw [heq, hmine.2]
      exact ⟨rfl, rfl⟩
    · rw [hothers other heq]
      exact ⟨rfl, rfl⟩
  refine ⟨?_, fun other => ?_, fun other => ?_, h.once, fun other => ?_, fun other hp => ?_⟩
  · show _ = List.range' 1 b.published
    rw [hpublished]
    exact h.ids
  · show _ = _ ++ (b.topic other).pending
    rw [(hnotes other).2]
    exact h.line other
  · show (List.map _ _).Perm ((b.topic other).unacked.map _ ++ (b.topic other).acked)
    by_cases heq : other = name
    · subst heq
      have hdistinct : ((s.broker.topic other).unacked.map Delivery.id).Nodup := by
        have hhanded : ((on other s.handed).map Delivery.id).Nodup := by
          have hsub : (on other s.published).Sublist s.published := List.filter_sublist
          rw [h.line other] at hsub
          exact h.distinct.sublist (((List.sublist_append_left _ _).trans hsub).map _)
        exact (List.nodup_append'.mp ((h.kept other).nodup_iff.mp hhanded)).1
      rw [hmine.2]
      refine (h.kept other).trans ?_
      exact Delivery.perm_of_acked hdistinct hmine.1 _
    · rw [hothers other heq]
      exact h.kept other
  · exact (h.attended other).of_notes_eq (hnotes other).1
  · change (b.topic other).pending ≠ [] at hp
    rw [(hnotes other).2] at hp
    exact (h.woken other hp).imp_left fun htold => Topic.told_of_notes_eq htold (hnotes other).1

/-- **One step of anybody** keeps the state in order. -/
theorem Sound.step (h : Sound s) (hs : Step s s') : Sound s' := by
  cases hs with
  | passes now hnow => exact ⟨h.ids, h.line, h.kept, h.once, h.attended, h.woken⟩
  | publishes name body headers at_ => exact h.publishes name body headers at_
  | posts name body headers at_ => exact h.posts name body headers at_
  | asks name wait => exact h.joined _ (fun _ => rfl) rfl
  | moves hcalls hs => exact h.moves hcalls hs
  | turns hcalls hs => exact h.turn hcalls hs
  | drops hcalls hpaused => exact h.drops hcalls hpaused
  | acks hs => exact h.acks hs

theorem Sound.of_reachable {now : Nat} (hr : Relation.ReflTransGen Step (quiet now) s) : Sound s := by
  induction hr with
  | refl => exact sound_quiet now
  | tail _ hs ih => exact ih.step hs

/-! ### The law -/

/-- When everybody rests, nobody waits beside a delivery. -/
theorem Sound.awake (h : Sound s) (hrests : ∀ call ∈ s.calls, call.Rests s.now s.broker)
    {name : String} {ticket deadline : Nat} (hwaits : .receiving (.waiting name ticket deadline) ∈ s.calls) :
    (s.broker.topic name).pending = [] := by
  have hidle : ticket ∉ (s.broker.topic name).noted := by
    intro hnoted
    have hstill := hrests _ hwaits
    simp [Call.Rests, Receive.step, hnoted] at hstill
  have hticket : ticket ∈ s.calls.filterMap (Call.ticket? name) :=
    List.mem_filterMap.mpr ⟨_, hwaits, by simp [Call.ticket?]⟩
  have hattended := h.attended name
  have hwaiting : ticket ∈ (s.broker.topic name).waiting :=
    (List.mem_append.mp (hattended.line.symm.subset hticket)).resolve_left hidle
  by_contra hpending
  rcases h.woken name hpending with (hnote | hnoted) | ⟨call, hcall, hbusy⟩
  · rw [hattended.kept hnote] at hwaiting
    cases hwaiting
  · -- Whoever was given a note can move.
    obtain ⟨other, hother⟩ := List.exists_mem_of_ne_nil _ hnoted
    have hm := hattended.line.subset (List.mem_append_left _ hother)
    obtain ⟨call, hcall, hits⟩ := List.mem_filterMap.mp hm
    have hstill := hrests call hcall
    unfold Call.ticket? at hits
    split at hits
    next topic ticket' deadline' =>
      split at hits
      next heq =>
        cases hits
        subst heq
        simp [Call.Rests, Receive.step, hother] at hstill
      next => cases hits
    next => cases hits
  · have hstill := hrests call hcall
    unfold Call.Busy at hbusy
    split at hbusy
    next topic deadline' =>
      simp only [Call.Rests, Receive.step] at hstill
      split at hstill
      · cases hstill
      · split at hstill <;> cases hstill
    next => exact hstill
    next => exact hstill
    next => exact hbusy

theorem Sound.served (h : Sound s) : Served s where
  accounted name := by
    rw [h.line name, List.map_append]
    exact List.perm_append_comm.trans ((h.kept name).append_left _)
  distinct := h.distinct
  in_order := h.line
  once := h.once
  awake hrests _ _ _ hwaits := h.awake hrests hwaits

/-- **Competing consumers.** However any number of calls receive from the topics of a broker, while
messages are published and acknowledged, and calls run out of time or are given up: every delivery is
pending, unacknowledged or acknowledged, each is handed to one call, in the order in which they were
published, and no call is left waiting for a topic with a pending delivery. -/
theorem served_of_reachable {now : Nat} (hr : Relation.ReflTransGen Step (quiet now) s) : Served s :=
  (Sound.of_reachable hr).served

/-- Two calls wait. The first is given the note of a delivery and is given up, whereupon the note goes to
the second, which receives the delivery and acknowledges it. -/
theorem served_note_passed_on : ∃ s, Relation.ReflTransGen Step (quiet 0) s ∧
    s.calls.filterMap Call.delivery? = s.published ∧ (s.broker.topic "jobs").acked = [1] ∧ Served s := by
  have hasked := (Relation.ReflTransGen.single (Step.asks (quiet 0) "jobs" 5)).tail (.asks _ "jobs" 5)
  have hfirst := (hasked.tail (@Step.moves _ [] _ _ _ _ rfl rfl)).tail (@Step.moves _ [] _ _ _ _ rfl rfl)
  have hsecond := (hfirst.tail (@Step.moves _ [_] _ _ _ _ rfl rfl)).tail
    (@Step.moves _ [_] _ _ _ _ rfl rfl)
  have hnoted := hsecond.tail (.publishes _ "jobs" .empty [] ⟨0, 0⟩)
  have hdropped := hnoted.tail (@Step.drops _ [] _ _ rfl (by intro _ _ hlooking; cases hlooking))
  have hanswered := (hdropped.tail (@Step.moves _ [_] _ _ _ _ rfl rfl)).tail
    (@Step.moves _ [_] _ _ _ _ rfl rfl)
  have hacked := hanswered.tail (@Step.acks _ "jobs" 1 _ rfl)
  exact ⟨_, hacked, rfl, rfl, served_of_reachable hacked⟩

end BrokerConsumers

end EventDispatch
