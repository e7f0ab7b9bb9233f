import EventDispatch.Proofs.Leases
import EventDispatch.Proofs.QueueHistory
import EventDispatch.Proofs.Consumers

/-!
# What tasks have in hand

A task of a source may hold a worker, wait for one, and have a call of the function in progress. That is
its duty at the desk of the source. The duties of all tasks together say which workers are not idle, and
which events are counted neither as successes nor as failures yet.

A move of a task changes its duty, the desk and the log of function calls together: what it takes is taken
from the desk, and a call that it had in progress and has no more is counted.

## What is deliberately absent

Nothing is said of what else a task does. What becomes of a delivery or of an item once the function was
run on it differs from kind to kind (`Workloads`).

## Main definitions

* `FunctionCall`, `Ambient.calls`: the calls of the function so far, each with what becomes of its event.
* `SourceCounts.Tallied`: two states of the counts differ by the outcomes of some calls.
* `Duty`: what a task has in hand.
* `Desk.Served`: what a move does to the desk, to the log and to a duty.
* `Broker.Grows`, `World.Advances`: deliveries stay known and acknowledged, and updates stay sent.
* `World.Still`: none of this changes, and the function is not entered.

## Main results

* `Submission.step_served`, `Batch.step_served`, `Assignment.step_served`, `Desk.served_of_stepAcquire`:
  what one move of each kind of call does.
* `Broker.grows_publish`, `Broker.grows_ack`, `Receive.step_grows`: deliveries are never forgotten.
-/

namespace EventDispatch

/-! ### Function calls -/

/-- A call of the function, and what becomes of its event. -/
structure FunctionCall where
  entry : Entry
  outcome : Outcome

namespace FunctionCall

/-- The event with which the function was entered. -/
def event (call : FunctionCall) : Event := call.entry.event

/-- The event is handled with success. -/
def succeeded (call : FunctionCall) : Bool := call.outcome.succeeded

end FunctionCall

namespace Ambient

/-- All calls of the function so far, in order. What becomes of an event may depend on the entries before
its own. -/
def calls (a : Ambient) : List FunctionCall :=
  a.entries.toList.zipIdx.map fun (entry, before) =>
    ⟨entry, (a.function (a.entries.take before) entry).conclusion.outcome⟩

/-- The calls that were made since an earlier moment. -/
def callsSince (earlier a : Ambient) : List FunctionCall := a.calls.drop earlier.calls.length

variable {a a' : Ambient}

theorem callsSince_of_append {made : List FunctionCall} (h : a'.calls = a.calls ++ made) :
    a.callsSince a' = made := by
  rw [callsSince, h, List.drop_left]

/-- To enter the function is to make a call, which ends as the run does. -/
theorem calls_enter (worker : Nat) (event : Event) (a : Ambient) : (a.enter worker event).2.calls =
    a.calls ++ [⟨⟨worker, event⟩, (a.enter worker event).1.outcome⟩] := by
  have hbefore : ∀ x ∈ a.entries.toList.zipIdx,
      (a.entries.push ⟨worker, event⟩).take x.2 = a.entries.take x.2 := by
    intro x hx
    have hlt : x.2 < a.entries.size := by
      have := List.snd_lt_of_mem_zipIdx hx
      simpa using this
    rw [← Array.toList_inj]
    simp [List.take_append_of_le_length (Nat.le_of_lt hlt)]
  have hall : (a.entries.push ⟨worker, event⟩).take a.entries.size = a.entries := by
    rw [← Array.toList_inj]
    simp
  simp only [calls, enter, Array.toList_push, List.zipIdx_append, List.map_append, List.zipIdx_singleton,
    List.map_cons, List.map_nil, Array.length_toList, Nat.zero_add, hall]
  congr 1
  refine List.map_congr_left fun x hx => ?_
  rw [hbefore x hx]

end Ambient

/-! ### Counts -/

namespace SourceCounts

/-- Between two states of the counts, the outcomes of some calls were recorded, modulo the width of the
counters. Failures to find a worker are counted in between as well, as failures and of their own. -/
structure Tallied (c : SourceCounts) (calls : List FunctionCall) (c' : SourceCounts) : Prop where
  success : c'.success = c.success + UInt64.ofNat (calls.countP FunctionCall.succeeded)
  failure : c'.failure + c.allocationFailures =
    c.failure + c'.allocationFailures + UInt64.ofNat (calls.countP fun call => !call.succeeded)

variable {c c' c'' : SourceCounts} {calls calls' : List FunctionCall}

theorem Tallied.refl (c : SourceCounts) : c.Tallied [] c :=
  ⟨(UInt64.add_zero _).symm, (UInt64.add_zero _).symm⟩

theorem Tallied.append (h : c.Tallied calls c') (h' : c'.Tallied calls' c'') :
    c.Tallied (calls ++ calls') c'' := by
  obtain ⟨hs, hf⟩ := h
  obtain ⟨hs', hf'⟩ := h'
  constructor
  · rw [List.countP_append, UInt64.ofNat_add]
    grind
  · rw [List.countP_append, UInt64.ofNat_add]
    grind

theorem Tallied.perm (h : c.Tallied calls c') (hp : calls.Perm calls') : c.Tallied calls' c' :=
  ⟨by rw [← hp.countP_eq]; exact h.success, by rw [← hp.countP_eq]; exact h.failure⟩

theorem tallied_record (call : FunctionCall) (c : SourceCounts) :
    c.Tallied [call] (c.record call.succeeded) := by
  cases hs : call.succeeded with
  | true => constructor <;> simp [record, hs]
  | false =>
    have hcount : [call].countP (fun call => !call.succeeded) = 1 := by simp [hs]
    constructor
    · simp [record, hs]
    · rw [hcount]
      simp only [record]
      grind

theorem tallied_recordAllocationFailure (c : SourceCounts) : c.Tallied [] c.recordAllocationFailure := by
  constructor
  · simp [recordAllocationFailure]
  · simp only [recordAllocationFailure, List.countP_nil]
    grind

end SourceCounts

/-! ### Duties -/

/-- What a task has in hand. -/
structure Duty where
  /-- The workers that it holds. -/
  held : List Worker
  /-- The tickets with which it waits for a worker. -/
  tickets : List Nat
  /-- The function calls in progress. -/
  calls : List FunctionCall

namespace Duty

variable {μ ρ α : Type}

/-- Nothing in hand. -/
def none : Duty := ⟨[], [], []⟩

/-- Two duties together. -/
def and (duty other : Duty) : Duty :=
  ⟨duty.held ++ other.held, duty.tickets ++ other.tickets, duty.calls ++ other.calls⟩

/-- The duties of several tasks together. -/
def all (duties : List Duty) : Duty :=
  ⟨duties.flatMap held, duties.flatMap tickets, duties.flatMap calls⟩

/-- The duty after a move: that of the activity that goes on, and none at its end. -/
def after (duty : μ → Duty) : Move μ ρ → Duty
  | .goes next => duty next
  | .ends _ => .none

theorem all_cons (duty : Duty) (duties : List Duty) : all (duty :: duties) = duty.and (all duties) := by
  simp [all, and]

/-- Two duties are the same, but for their order. -/
structure Perm (duty other : Duty) : Prop where
  held : duty.held.Perm other.held
  tickets : duty.tickets.Perm other.tickets
  calls : duty.calls.Perm other.calls

theorem Perm.symm {duty other : Duty} (h : duty.Perm other) : other.Perm duty :=
  ⟨h.held.symm, h.tickets.symm, h.calls.symm⟩

theorem perm_all {duties others : List Duty} (h : duties.Perm others) : (all duties).Perm (all others) :=
  ⟨h.flatMap_right held, h.flatMap_right tickets, h.flatMap_right calls⟩

theorem all_eq_none {duties : List Duty} (h : ∀ duty ∈ duties, duty = .none) : all duties = .none := by
  induction duties with
  | nil => rfl
  | cons duty duties ih =>
    rw [all_cons, h duty List.mem_cons_self, ih fun other hm => h other (List.mem_cons_of_mem _ hm)]
    rfl

end Duty

/-- **What a move does at a desk**: to the workers and those who wait for them, to the log of function
calls, and to the counts, for one with a duty before and after the move. Whatever others have in hand is
not touched. -/
structure Desk.Served (a a' : Ambient) (d d' : Desk) (before after : Duty)
    (recorded : List FunctionCall) : Prop where
  accounts : ∀ members others line, (members.map Worker.serial).Nodup →
    d.Accounts members (before.held ++ others) (before.tickets ++ line) →
    d'.Accounts members (after.held ++ others) (after.tickets ++ line)
  /-- Calls that were in progress, or are made, are in progress afterwards or recorded. -/
  calls : ∃ made, a'.calls = a.calls ++ made ∧ (before.calls ++ made).Perm (recorded ++ after.calls)
  known : recorded ⊆ before.calls
  tallied : d.counts.Tallied recorded d'.counts

namespace Desk

variable {a a' : Ambient} {d d' : Desk} {before after duty : Duty}

/-- No call is made, and none ends. -/
theorem Served.of_calls (haccounts : ∀ members others line, (members.map Worker.serial).Nodup →
      d.Accounts members (before.held ++ others) (before.tickets ++ line) →
      d'.Accounts members (after.held ++ others) (after.tickets ++ line))
    (hlog : a'.calls = a.calls) (hcalls : after.calls = before.calls)
    (htallied : d.counts.Tallied [] d'.counts) : Served a a' d d' before after [] where
  accounts := haccounts
  calls := ⟨[], by rw [hlog, List.append_nil], by rw [List.append_nil, hcalls]; exact .refl _⟩
  known := List.nil_subset _
  tallied := htallied

/-- Nothing happens at the desk. -/
theorem Served.still (hlog : a'.calls = a.calls) (d : Desk) (duty : Duty) :
    Served a a' d d duty duty [] :=
  .of_calls (fun _ _ _ _ h => h) hlog rfl (.refl _)

/-- The worker in hand is given back. -/
theorem served_of_release (a : Ambient) (d : Desk) (worker : Worker) :
    Served a a d (d.release worker) ⟨[worker], [], []⟩ .none [] :=
  .of_calls (fun _ _ _ hd h => h.release hd) rfl rfl (.refl _)

/-- A ticket in hand is given up. -/
theorem served_of_dropAcquire (a : Ambient) (d : Desk) (acquire : Acquire) :
    Served a a d (d.dropAcquire acquire) ⟨[], acquire.tickets, []⟩ .none [] :=
  .of_calls (fun _ _ _ _ h => h.dropAcquire) rfl rfl (.refl _)

theorem tallied_of_stepAcquire {acquire : Acquire} {m : Move Acquire (Except Error Worker)}
    (hs : d.stepAcquire a acquire = some (m, d')) : d.counts.Tallied [] d'.counts := by
  rw [stepAcquire] at hs
  split at hs
  · cases hs
  · cases hs
    exact .refl _
  · cases hs
    exact .refl _
  · cases hs
    exact SourceCounts.tallied_recordAllocationFailure _

/-- What a call that takes a worker has in hand after a move. -/
def dutyAfter (m : Move Acquire (Except Error Worker)) : Duty :=
  ⟨Acquire.taken m, Acquire.ticketsAfter m, []⟩

/-- A call that takes a worker moves. -/
theorem served_of_stepAcquire {acquire : Acquire} {m : Move Acquire (Except Error Worker)}
    (hs : d.stepAcquire a acquire = some (m, d')) :
    Served a a d d' ⟨[], acquire.tickets, []⟩ (dutyAfter m) [] :=
  .of_calls (fun _ _ _ _ h => h.stepAcquire hs) rfl rfl (tallied_of_stepAcquire hs)

theorem calls_prepare (d : Desk) (event : Event) (a : Ambient) : (d.prepare event a).2.calls = a.calls := by
  rw [prepare]
  dsimp only
  split <;> rfl

theorem calls_prepareAll (d : Desk) (events : List Event) (a : Ambient) :
    (d.prepareAll events a).2.calls = a.calls := by
  induction events generalizing a with
  | nil => rfl
  | cons event events ih =>
    have hstep : (d.prepareAll (event :: events) a).2 = (d.prepareAll events (d.prepare event a).2).2 := rfl
    rw [hstep, ih, calls_prepare]

theorem isOf_prepare {delivery : Delivery} {event : Event} (h : event.IsOf delivery) (d : Desk)
    (a : Ambient) : (d.prepare event a).1.IsOf delivery := by
  rw [prepare]
  dsimp only
  split
  · exact congrArg (fun e : Event => { e with source := some d.info, id := a.freshId.1 }) h
  · exact congrArg (fun e : Event => { e with source := some d.info }) h

/-- The function is entered, and the call is in hand from then on. -/
theorem served_of_enter (d : Desk) (worker : Nat) (event : Event) (held : List Worker) (a : Ambient) :
    Served a (a.enter worker event).2 d d ⟨held, [], []⟩
      ⟨held, [], [⟨⟨worker, event⟩, (a.enter worker event).1.outcome⟩]⟩ [] where
  accounts _ _ _ _ h := h
  calls := ⟨_, Ambient.calls_enter worker event a, .refl _⟩
  known := List.nil_subset _
  tallied := .refl _

/-- A call in hand ends, and is counted. -/
theorem served_of_recordRun (a : Ambient) (d : Desk) (worker : Worker) (held : List Worker)
    (call : FunctionCall) : Served a a d (d.recordRun worker call.outcome) ⟨held, [], [call]⟩
      ⟨held, [], []⟩ [call] where
  accounts _ _ _ _ h := h.of_pool (pool_recordRun worker call.outcome d)
  calls := ⟨[], (List.append_nil _).symm, .refl _⟩
  known := List.Subset.refl _
  tallied := SourceCounts.tallied_record call d.counts

/-- Two moves, one after the other, of which one records nothing. -/
theorem Served.trans {a'' : Ambient} {d'' : Desk} {between : Duty} {recorded : List FunctionCall}
    (h : Served a a' d d' before between recorded) (h' : Served a' a'' d' d'' between after []) :
    Served a a'' d d'' before after recorded where
  accounts members others line hd hacc :=
    h'.accounts members others line hd (h.accounts members others line hd hacc)
  calls := by
    obtain ⟨made, hlog, hperm⟩ := h.calls
    obtain ⟨made', hlog', hperm'⟩ := h'.calls
    refine ⟨made ++ made', by rw [hlog', hlog, List.append_assoc], ?_⟩
    rw [← List.append_assoc]
    refine (hperm.append_right made').trans ?_
    rw [List.append_assoc]
    exact hperm'.append_left recorded
  known := h.known
  tallied := by
    have htallied := h.tallied.append h'.tallied
    rwa [List.append_nil] at htallied

end Desk

/-! ### Calls at the desk -/

section Calls

variable {a a' : Ambient} {d d' : Desk}

/-- What a submission has in hand. -/
def Submission.duty : Submission → Duty
  | .ready _ _ => .none
  | .acquiring _ acquire => ⟨[], acquire.tickets, []⟩
  | .running worker event run => ⟨[worker], [], [⟨⟨worker.knownAs, event⟩, run.outcome⟩]⟩

theorem Submission.event_of_mem_duty {call : Submission} {c : FunctionCall} (h : c ∈ call.duty.calls) :
    c.event = call.event := by
  cases call with
  | ready event limit => cases h
  | acquiring event acquire => cases h
  | running worker event run =>
    rw [List.mem_singleton.mp h]
    rfl

/-- **One move of a submission.** A call that is recorded ends the submission, with its outcome. -/
theorem Submission.step_served {call : Submission} {m : Move Submission (SubmitOutcome × Event)}
    (hs : call.step a d = some (m, a', d')) :
    ∃ recorded, d.Served a a' d' call.duty (Duty.after duty m) recorded ∧
      ∀ c ∈ recorded, ∃ event, m = .ends (.ofOutcome c.outcome, event) := by
  have hnone : ∀ c ∈ ([] : List FunctionCall), ∃ event, m = .ends (.ofOutcome c.outcome, event) :=
    fun c hc => by cases hc
  cases call with
  | ready event limit =>
    cases hs
    exact ⟨[], .still (d.calls_prepare event a) d .none, hnone⟩
  | acquiring event acquire =>
    rw [step] at hs
    split at hs
    · cases hs
    next hacquire =>
      cases hs
      exact ⟨[], Desk.served_of_stepAcquire hacquire, hnone⟩
    next hacquire =>
      cases hs
      exact ⟨[], Desk.served_of_stepAcquire hacquire, hnone⟩
    next worker _ hacquire =>
      cases hs
      exact ⟨[], (Desk.served_of_stepAcquire hacquire).trans
        (Desk.served_of_enter _ worker.knownAs event [worker] a), hnone⟩
  | running worker event run =>
    rw [step] at hs
    split at hs
    · cases hs
      refine ⟨[⟨⟨worker.knownAs, event⟩, run.outcome⟩], ?_, fun c hc => ?_⟩
      · rw [Desk.record_release]
        exact (d.served_of_recordRun a worker [worker] ⟨⟨worker.knownAs, event⟩, run.outcome⟩).trans
          (Desk.served_of_release a _ worker)
      · rw [List.mem_singleton.mp hc]
        exact ⟨event, rfl⟩
    · cases hs

/-- The event that is submitted stays the same, but for its source and its id. -/
theorem Submission.isOf_of_step {delivery : Delivery} {call next : Submission}
    (h : call.event.IsOf delivery) (hs : call.step a d = some (.goes next, a', d')) :
    next.event.IsOf delivery := by
  cases call with
  | ready event limit =>
    cases hs
    exact Desk.isOf_prepare h d a
  | acquiring event acquire =>
    rw [step] at hs
    split at hs
    · cases hs
    · cases hs
      exact h
    · cases hs
    · cases hs
      exact h
  | running worker event run =>
    rw [step] at hs
    split at hs <;> cases hs

/-- A submission that is given up leaves nothing in hand. -/
theorem Submission.drop_released {members others : List Worker} {line : List Nat} {call : Submission}
    (hd : (members.map Worker.serial).Nodup)
    (h : d.Accounts members (call.duty.held ++ others) (call.duty.tickets ++ line)) :
    (call.drop d).Accounts members others line := by
  have hleased : d.Accounts members (call.leased ++ others) (call.tickets ++ line) := by
    cases call <;> exact h
  exact drop_accounts hd hleased

/-- What a batch has in hand. The event that runs comes after those that are done. -/
def Batch.duty : Batch → Duty
  | .ready _ _ => .none
  | .acquiring _ acquire => ⟨[], acquire.tickets, []⟩
  | .between worker _ _ _ => ⟨[worker], [], []⟩
  | .running worker done events _ run =>
    ⟨[worker], [], events[done.length]?.toList.map fun event => ⟨⟨worker.knownAs, event⟩, run.outcome⟩⟩

/-- The event that runs is one of the batch. -/
def Batch.Within : Batch → Prop
  | .running _ done events _ _ => done.length < events.length
  | _ => True

/-- The function was run on an event of the batch with this outcome. -/
def Batch.Handled (call : FunctionCall) : Batch → Prop
  | .between _ done events _ | .running _ done events _ _ => (call.event, call.outcome) ∈ events.zip done
  | _ => False

/-- The same after a move. -/
def Batch.HandledAfter (call : FunctionCall) : Move Batch (BatchOutcome × List Event) → Prop
  | .goes next => next.Handled call
  | .ends (.processed outcomes, events) => (call.event, call.outcome) ∈ events.zip outcomes
  | .ends (.noWorker _, _) => False

theorem Batch.zip_concat {events : List Event} {done : List Outcome} (hlt : done.length < events.length)
    (outcome : Outcome) :
    events.zip (done ++ [outcome]) = events.zip done ++ [(events[done.length], outcome)] := by
  induction done generalizing events with
  | nil =>
    cases events with
    | nil => cases hlt
    | cons event events => simp
  | cons first done ih =>
    cases events with
    | nil => cases hlt
    | cons event events =>
      rw [List.cons_append, List.zip_cons_cons, ih (Nat.lt_of_succ_lt_succ hlt), List.zip_cons_cons]
      rfl

/-- **One move of a batch.** A call that is recorded is handled from then on. -/
theorem Batch.step_served {call : Batch} {m : Move Batch (BatchOutcome × List Event)}
    (hpaired : call.Paired) (hwithin : call.Within) (hs : call.step a d = some (m, a', d')) :
    (∀ next ∈ m.next?, next.Within) ∧
      ∃ recorded, d.Served a a' d' call.duty (Duty.after duty m) recorded ∧
        ∀ c, c ∈ recorded ∨ call.Handled c → HandledAfter c m := by
  cases call with
  | ready events limit =>
    cases hs
    refine ⟨fun next hm => by cases hm; trivial, [], .still (d.calls_prepareAll events a) d .none, ?_⟩
    rintro c (hc | hc) <;> cases hc
  | acquiring events acquire =>
    rw [step] at hs
    split at hs
    · cases hs
    next hacquire =>
      cases hs
      refine ⟨fun next hm => by cases hm; trivial, [], Desk.served_of_stepAcquire hacquire, ?_⟩
      rintro c (hc | hc) <;> cases hc
    next hacquire =>
      cases hs
      refine ⟨fun next hm => (by cases hm), [], Desk.served_of_stepAcquire hacquire, ?_⟩
      rintro c (hc | hc) <;> cases hc
    next hacquire =>
      cases hs
      refine ⟨fun next hm => by cases hm; trivial, [], Desk.served_of_stepAcquire hacquire, ?_⟩
      rintro c (hc | hc) <;> cases hc
  | between worker done events rest =>
    cases rest with
    | nil =>
      cases hs
      exact ⟨fun next hm => (by cases hm), [], d.served_of_release a worker,
        fun c hc => hc.resolve_left List.not_mem_nil⟩
    | cons event rest =>
      cases hs
      have hdrop : event :: rest = events.drop done.length := hpaired
      have hevent : events[done.length]? = some event := by
        rw [← List.head?_drop, ← hdrop, List.head?_cons]
      refine ⟨fun next hm => ?_, [], ?_, fun c hc => hc.resolve_left List.not_mem_nil⟩
      · cases hm
        exact (List.getElem?_eq_some_iff.mp hevent).1
      · simp only [duty, Duty.after, hevent, Option.toList_some, List.map_cons, List.map_nil]
        exact d.served_of_enter worker.knownAs event [worker] a
  | running worker done events rest run =>
    rw [step] at hs
    split at hs
    · cases hs
      have hlt : done.length < events.length := hwithin
      have hevent : events[done.length]? = some events[done.length] := List.getElem?_eq_getElem hlt
      refine ⟨fun next hm => by cases hm; trivial,
        [⟨⟨worker.knownAs, events[done.length]⟩, run.outcome⟩], ?_, fun c hc => ?_⟩
      · simp only [duty, Duty.after, hevent, Option.toList_some, List.map_cons, List.map_nil]
        exact d.served_of_recordRun a worker [worker]
          ⟨⟨worker.knownAs, events[done.length]⟩, run.outcome⟩
      · rw [HandledAfter, Handled, zip_concat hlt]
        rcases hc with hc | hc
        · rw [List.mem_singleton.mp hc]
          exact List.mem_append_right _ (List.mem_singleton_self _)
        · exact List.mem_append_left _ hc
    · cases hs

/-- A batch that is given up leaves nothing in hand. -/
theorem Batch.drop_released {members others : List Worker} {line : List Nat} {call : Batch}
    (hd : (members.map Worker.serial).Nodup)
    (h : d.Accounts members (call.duty.held ++ others) (call.duty.tickets ++ line)) :
    (call.drop d).Accounts members others line := by
  have hleased : d.Accounts members (call.leased ++ others) (call.tickets ++ line) := by
    cases call <;> exact h
  exact drop_accounts hd hleased

/-- The call of the function that an assignment has in progress. -/
def Assignment.calls : Assignment → List FunctionCall
  | .running worker event run => [⟨⟨worker.knownAs, event⟩, run.outcome⟩]
  | _ => []

/-- **One move of an assignment**, whose worker stays in the hands of the caller. -/
theorem Assignment.step_served {call : Assignment} {m : Move Assignment (Outcome × Event)}
    (held : List Worker) (hs : call.step a d = some (m, a', d')) :
    ∃ recorded, d.Served a a' d' ⟨held, [], call.calls⟩ ⟨held, [], m.after calls fun _ => []⟩ recorded := by
  cases call with
  | ready worker event =>
    cases hs
    exact ⟨[], .still (d.calls_prepare event a) d ⟨held, [], []⟩⟩
  | prepared worker event =>
    cases hs
    exact ⟨[], d.served_of_enter worker.knownAs event held a⟩
  | running worker event run =>
    rw [step] at hs
    split at hs
    · cases hs
      exact ⟨[_], d.served_of_recordRun a worker held ⟨⟨worker.knownAs, event⟩, run.outcome⟩⟩
    · cases hs

end Calls

/-! ### Deliveries that are not forgotten -/

namespace Broker

variable {b b' b'' : Broker} {name : String}

/-- Pending deliveries are filed under their topics. -/
def Filed (b : Broker) : Prop := ∀ name, ∀ d ∈ (b.stock name).1, d.topic = name

/-- A delivery was received, and is acknowledged or not. -/
def Knows (d : Delivery) (b : Broker) : Prop :=
  d.id ∈ (b.stock d.topic).2.1.map Delivery.id ∨ d.id ∈ (b.stock d.topic).2.2

/-- What publishing, receiving and acknowledging keep: a delivery that was received stays known, and an
acknowledged one stays acknowledged. -/
structure Grows (b b' : Broker) : Prop where
  filed : b.Filed → b'.Filed
  known : ∀ d, b.Knows d → b'.Knows d
  acked : ∀ name, (b.stock name).2.2 ⊆ (b'.stock name).2.2

theorem Grows.refl (b : Broker) : b.Grows b := ⟨id, fun _ => id, fun _ => List.Subset.refl _⟩

theorem Grows.trans (h : b.Grows b') (h' : b'.Grows b'') : b.Grows b'' :=
  ⟨fun hf => h'.filed (h.filed hf), fun d hd => h'.known d (h.known d hd),
    fun name => List.Subset.trans (h.acked name) (h'.acked name)⟩

/-- Where one topic changes, it is enough to look at that one. -/
theorem Grows.of_topic (name : String) (hothers : ∀ other ≠ name, b'.stock other = b.stock other)
    (hfiled : ∀ d ∈ (b'.stock name).1, d ∈ (b.stock name).1 ∨ d.topic = name)
    (hknown : ∀ id, id ∈ (b.stock name).2.1.map Delivery.id →
      id ∈ (b'.stock name).2.1.map Delivery.id ∨ id ∈ (b'.stock name).2.2)
    (hacked : (b.stock name).2.2 ⊆ (b'.stock name).2.2) : b.Grows b' where
  filed hf other d hd := by
    by_cases heq : other = name
    · subst heq
      exact (hfiled d hd).elim (hf _ d) id
    · rw [hothers other heq] at hd
      exact hf other d hd
  known d hd := by
    by_cases heq : d.topic = name
    · rw [Knows, heq] at hd ⊢
      exact hd.elim (hknown d.id) fun h => .inr (hacked h)
    · rw [Knows, hothers _ heq]
      exact hd
  acked other := by
    by_cases heq : other = name
    · rw [heq]
      exact hacked
    · rw [hothers other heq]
      exact List.Subset.refl _

theorem Grows.of_stock_eq (h : ∀ name, b'.stock name = b.stock name) : b.Grows b' :=
  .of_topic "" (fun other _ => h other) (fun d hd => .inl (h _ ▸ hd))
    (fun id hid => .inl (by rw [h]; exact hid)) (by rw [h]; exact List.Subset.refl _)

/-- Somebody publishes. -/
theorem grows_publish (name : String) (body : ByteArray) (headers : Keyed String) (now : Timestamp)
    (b : Broker) : b.Grows (b.publish name body headers now).2 := by
  have hstock : (b.publish name body headers now).2.stock name = _ := stock_publish rfl body headers now
  refine .of_topic name (fun other hne => stock_publish_of_ne hne.symm body headers now) ?_ ?_ ?_
  · rw [hstock]
    intro d hd
    rcases List.mem_append.mp hd with hold | hnew
    · exact .inl hold
    · rw [List.mem_singleton.mp hnew]
      exact .inr rfl
  · rw [hstock]
    exact fun id => .inl
  · rw [hstock]
    exact List.Subset.refl _

/-- Somebody acknowledges. -/
theorem grows_ack {id : Nat} (h : b.ack name id = .ok b') : b.Grows b' := by
  obtain ⟨-, ⟨-, htopic⟩, hothers⟩ := topic_of_ack h
  refine .of_topic name (fun other hne => congrArg Topic.stock (hothers other hne)) ?_ ?_ ?_
  · rw [stock, htopic]
    exact fun d => .inl
  · rw [stock, stock, htopic]
    intro other hother
    obtain ⟨d, hd, rfl⟩ := List.mem_map.mp hother
    by_cases heq : d.id = id
    · exact .inr (List.mem_append_right _ (List.mem_singleton.mpr heq))
    · exact .inl (List.mem_map.mpr ⟨d, List.mem_filter.mpr ⟨hd, by simpa using heq⟩, rfl⟩)
  · rw [stock, stock, htopic]
    exact List.subset_append_left _ _

/-- A delivery that is known is acknowledged when somebody tries to, if not before. -/
theorem acked_of_knows {d : Delivery} (h : b.Knows d) :
    (∃ b', b.ack d.topic d.id = .ok b' ∧ d.id ∈ (b'.stock d.topic).2.2) ∨
    ((∃ e, b.ack d.topic d.id = .error e) ∧ d.id ∈ (b.stock d.topic).2.2) := by
  cases hack : b.ack d.topic d.id with
  | ok b' =>
    obtain ⟨-, ⟨-, htopic⟩, -⟩ := topic_of_ack hack
    refine .inl ⟨b', rfl, ?_⟩
    rw [stock, htopic]
    exact List.mem_append_right _ (List.mem_singleton_self _)
  | error e =>
    refine .inr ⟨⟨e, rfl⟩, h.resolve_left fun hunacked => ?_⟩
    rw [stock, topic] at hunacked
    rw [ack] at hack
    cases hget : b.topics.get? d.topic with
    | none =>
      rw [hget] at hunacked
      cases hunacked
    | some t =>
      rw [hget, Option.getD_some] at hunacked
      have hany : t.unacked.any (·.id == d.id) = true := by
        obtain ⟨x, hx, heq⟩ := List.mem_map.mp hunacked
        exact List.any_eq_true.mpr ⟨x, hx, beq_iff_eq.mpr heq⟩
      simp [hget, hany] at hack

end Broker

namespace Receive

variable {b b' : Broker} {now : Nat} {call : Receive} {m : Move Receive (Option Delivery)}

/-- Somebody receives: a delivery that is handed out is known from then on. -/
theorem step_grows (hs : call.step now b = some (m, b')) : b.Grows b' ∧
    ∀ d, m = .ends (some d) → b.Filed → b'.Knows d := by
  obtain ⟨t, rfl, -⟩ := BrokerConsumers.turns_of_step hs
  have hothers : ∀ other ≠ call.topic, (b.setTopic call.topic t).stock other = b.stock other :=
    fun other hne => by rw [Broker.stock, Broker.topic_setTopic, if_neg hne, Broker.stock]
  have hsame : (b.setTopic call.topic t).stock call.topic = b.stock call.topic →
      b.Grows (b.setTopic call.topic t) := fun heq => by
    refine .of_stock_eq fun other => ?_
    by_cases hother : other = call.topic
    · rw [hother, heq]
    · exact hothers other hother
  cases (step_stock hs).1 with
  | waits htopic hstock => exact ⟨hsame hstock, fun d hm => by cases hm⟩
  | misses hstock => exact ⟨hsame hstock, fun d hm => by cases hm⟩
  | @takes d pending unacked acked hbefore hafter =>
    refine ⟨.of_topic call.topic hothers ?_ ?_ ?_, fun d' hm hfiled => ?_⟩
    · rw [hafter, hbefore]
      exact fun x hx => .inl (List.mem_cons_of_mem _ hx)
    · rw [hafter, hbefore, List.map_append]
      exact fun id hid => .inl (List.mem_append_left _ hid)
    · rw [hafter, hbefore]
      exact List.Subset.refl _
    · cases hm
      have htopic : d.topic = call.topic := hfiled call.topic d (by rw [hbefore]; exact List.mem_cons_self)
      rw [Broker.Knows, htopic, hafter, List.map_append]
      exact .inl (List.mem_append_right _ (List.mem_singleton_self _))

/-- A call that is given up forgets nothing. -/
theorem drop_grows (call : Receive) (b : Broker) : b.Grows (call.drop b) :=
  .of_stock_eq fun name => (drop_stock call name).1

end Receive

/-! ### The world around the tasks -/

/-- The clients are in memory: no acknowledgement and no update is lost on its way, and the broker has its
deliveries in order. -/
structure World.InMemory (w : World) : Prop where
  ack : (w.clients.route .ack).failing = 0
  update : (w.clients.route .updateItem).failing = 0
  filed : w.clients.broker.Filed

/-- What everybody keeps who uses the clients: they stay in memory, no delivery is forgotten, and no update
is taken back. -/
structure World.Advances (w w' : World) : Prop where
  memory : w.InMemory → w'.InMemory
  broker : w.clients.broker.Grows w'.clients.broker
  updates : w.clients.items.updates ⊆ w'.clients.items.updates

/-- A move that neither enters the function nor has to do with deliveries or updates. -/
structure World.Still (w w' : World) : Prop where
  calls : w'.ambient.calls = w.ambient.calls
  broker : w'.clients.broker = w.clients.broker
  updates : w'.clients.items.updates = w.clients.items.updates
  ack : w'.clients.route .ack = w.clients.route .ack
  update : w'.clients.route .updateItem = w.clients.route .updateItem

namespace World

variable {w w' w'' : World}

theorem inMemory_start (epoch : Timestamp) (function : Function) : (World.start epoch function).InMemory :=
  ⟨rfl, rfl, fun _ _ hd => by cases hd⟩

theorem Advances.refl (w : World) : w.Advances w := ⟨id, .refl _, List.Subset.refl _⟩

theorem Advances.trans (h : w.Advances w') (h' : w'.Advances w'') : w.Advances w'' :=
  ⟨fun hm => h'.memory (h.memory hm), h.broker.trans h'.broker,
    List.Subset.trans h.updates h'.updates⟩

/-- Something happens to the broker alone. -/
theorem advances_of_grows {broker : Broker} (h : w.clients.broker.Grows broker) (ambient : Ambient) :
    w.Advances { w with ambient, clients := { w.clients with broker } } :=
  ⟨fun hm => ⟨hm.ack, hm.update, h.filed hm.filed⟩, h, List.Subset.refl _⟩

/-- The function may be entered. -/
theorem advances_ambient (w : World) (ambient : Ambient) : w.Advances { w with ambient } :=
  advances_of_grows (.refl _) ambient

theorem Still.refl (w : World) : w.Still w := ⟨rfl, rfl, rfl, rfl, rfl⟩

theorem Still.trans (h : w.Still w') (h' : w'.Still w'') : w.Still w'' :=
  ⟨h'.calls.trans h.calls, h'.broker.trans h.broker, h'.updates.trans h.updates, h'.ack.trans h.ack,
    h'.update.trans h.update⟩

theorem Still.advances (h : w.Still w') : w.Advances w' where
  memory hm := ⟨h.ack.symm ▸ hm.ack, h.update.symm ▸ hm.update, h.broker.symm ▸ hm.filed⟩
  broker := by rw [h.broker]; exact .refl _
  updates := by rw [h.updates]; exact List.Subset.refl _

/-- A call is on its way that neither acknowledges nor updates. -/
theorem still_of_stepTrip {call : RemoteCall} {trip : Trip} {m : Move Trip (Option Error)}
    (hack : call ≠ .ack) (hupdate : call ≠ .updateItem) (h : w.stepTrip call trip = some (m, w')) :
    w.Still w' := by
  obtain ⟨⟨routes, rfl⟩, hothers⟩ := stepTrip_routes h
  exact ⟨rfl, rfl, rfl, hothers _ hack.symm, hothers _ hupdate.symm⟩

end World

end EventDispatch
