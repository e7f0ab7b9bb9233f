import EventDispatch.Desk.Submission
import EventDispatch.Proofs.Pool
import Mathlib.Data.List.Nodup
import Mathlib.Logic.Relation

/-!
# Leases on workers

Callers submit events at a desk, one or several at a time, or take a worker to keep and give it events
themselves, as many at a time as they like. Each of these calls moves on its own, at any moment, and may be
given up wherever it waits. Whatever the order, a worker is idle or held once, and its holder alone runs
events on it.

## The moment between grant and move

A worker that comes back while a call waits is idle again, but its permit is granted to that call, and
counted as available no more. The count of available workers is therefore exact only up to the permits
granted: `LeasedDesk.Exclusive.restored` states it with them, and `LeasedDesk.Exclusive.settled` for the
moments at which no open call can move. At the moment itself another call may run out of time, although
nobody holds a worker (`LeasedDesk.not_available_nor_alone`).

## One event at a time

A submission runs one event at a time on its worker. One who keeps a worker is not kept from running
several: a worker does not count the events that run on it. `LeasedDesk.Exclusive.solo` says of whom they
are.

## What is deliberately absent

Time is not scheduled. Any call may move before any other, the wall clock and the function may do
anything in between, and a limit may be over at any instant; the deterministic `Schedule` is one of these
runs.

## Main definitions

* `Desk.Accounts`: where the workers of a desk are, and who waits for them.
* `DeskCall`, `Lease`, `LeasedDesk`: the calls, what callers keep, and the desk with all of them.
* `LeasedDesk.Step`: one move of anybody.
* `LeasedDesk.Exclusive`: each worker is idle or held by one lease, and its holder alone runs events on it.

## Main results

* `Submission.step_accounts`, `Batch.step_accounts`: what one move of a call does to the accounts.
* `LeasedDesk.Sound.step`: what one move of anybody keeps.
* `LeasedDesk.exclusive_of_reachable`: the law, for every run.
-/

namespace EventDispatch

/-- A crew that nobody has taken a worker from, and whose workers are told apart by their serials. -/
structure Crew.Fresh (c : Crew) : Prop where
  /-- All workers are idle. -/
  full : c.pool = .full c.pool.name c.members
  /-- No two workers have one serial. -/
  distinct : (c.members.map Worker.serial).Nodup

theorem Crew.fresh_ofIndices (sharing : Sharing) (indices : List Nat) :
    (Crew.ofIndices sharing indices).Fresh := by
  refine ⟨rfl, ?_⟩
  have hserials : ((indices.zipIdx.map fun x : Nat × Nat => (⟨x.2, x.1, x.1⟩ : Worker)).map
      Worker.serial) = List.range' 0 indices.length := by
    rw [List.map_map, ← List.zipIdx_map_snd 0 indices]
    rfl
  rw [show (Crew.ofIndices sharing indices).members
      = indices.zipIdx.map fun x : Nat × Nat => (⟨x.2, x.1, x.1⟩ : Worker) from rfl, hserials]
  exact List.nodup_range'

/-! ### The accounts of a desk -/

namespace Desk

variable {members held : List Worker} {tickets : List Nat} {d d' : Desk}

/-- Where the workers of a desk are, those who hold them taken together, and the tickets of those who
wait. -/
structure Accounts (members held : List Worker) (tickets : List Nat) (d : Desk) : Prop where
  /-- Every worker is idle or held, in one place. -/
  workers : (d.crew.pool.idle ++ held).Perm members
  /-- Every idle worker has its permit. -/
  balanced : d.crew.pool.Balanced
  /-- Every ticket is held once. -/
  ticketed : d.crew.pool.Ticketed tickets
  /-- The pool was made for these workers. -/
  capacity : d.crew.pool.capacity = members.length

@[simp] theorem pool_recordRun (w : Worker) (o : Outcome) (d : Desk) :
    (d.recordRun w o).crew.pool = d.crew.pool := rfl

theorem Accounts.of_pool (h : d.Accounts members held tickets) (hp : d'.crew.pool = d.crew.pool) :
    d'.Accounts members held tickets :=
  ⟨hp ▸ h.workers, hp ▸ h.balanced, hp ▸ h.ticketed, hp ▸ h.capacity⟩

theorem Accounts.of_perm {held' : List Worker} {tickets' : List Nat}
    (h : d.Accounts members held tickets) (hw : held.Perm held') (ht : tickets.Perm tickets') :
    d.Accounts members held' tickets' :=
  ⟨(hw.symm.append_left _).trans h.workers, h.balanced, h.ticketed.of_perm ht, h.capacity⟩

/-- What is held is held once. -/
theorem Accounts.nodup_held (hd : (members.map Worker.serial).Nodup) (h : d.Accounts members held tickets) :
    held.Nodup :=
  (h.workers.nodup_iff.mpr (hd.of_map _)).of_append_right

theorem accounts_of_fresh (h : d.crew.Fresh) : d.Accounts d.crew.members [] [] := by
  refine ⟨?_, ?_, ?_, ?_⟩ <;> rw [h.full]
  · simp [Pool.full]
  · exact Pool.balanced_full _ _
  · exact Pool.ticketed_full _ _
  · rfl

/-- Taking a worker moves it from the idle ones to the caller. -/
theorem Accounts.stepAcquire {a : Ambient} {acquire : Acquire}
    {m : Move Acquire (Except Error Worker)}
    (h : d.Accounts members held (acquire.tickets ++ tickets))
    (hs : d.stepAcquire a acquire = some (m, d')) :
    d'.Accounts members (Acquire.taken m ++ held) (Acquire.ticketsAfter m ++ tickets) := by
  unfold Desk.stepAcquire at hs
  cases hp : acquire.step a.now d.crew.pool with
  | none => simp [hp] at hs
  | some x =>
    obtain ⟨m', pool⟩ := x
    obtain ⟨hidle, hb, hc, ht⟩ := Acquire.step_balanced h.balanced hp
    have hm : m = m' ∧ d'.crew.pool = pool := by
      rcases m' with next | (e | worker) <;>
        · simp only [hp, Option.some.injEq, Prod.mk.injEq] at hs
          obtain ⟨rfl, rfl⟩ := hs
          exact ⟨rfl, rfl⟩
    obtain ⟨rfl, rfl⟩ := hm
    have hw := h.workers
    rw [hidle] at hw
    refine ⟨?_, hb, ht _ h.ticketed, hc.trans h.capacity⟩
    refine List.Perm.trans ?_ hw
    rw [← List.append_assoc]
    exact List.perm_append_comm.append_right held

/-- Giving up leaves all workers where they are. -/
theorem Accounts.dropAcquire {acquire : Acquire}
    (h : d.Accounts members held (acquire.tickets ++ tickets)) :
    (d.dropAcquire acquire).Accounts members held tickets := by
  obtain ⟨hi, hb, hc, ht⟩ := Acquire.drop_balanced acquire h.balanced
  exact ⟨hi ▸ h.workers, hb, ht _ h.ticketed, hc.trans h.capacity⟩

/-- **A worker that comes back is kept**: it was not idle, and there is room for it. -/
theorem Accounts.release (hd : (members.map Worker.serial).Nodup) {w : Worker}
    (h : d.Accounts members (w :: held) tickets) : (d.release w).Accounts members held tickets := by
  have hserials : ((d.crew.pool.idle ++ w :: held).map Worker.serial).Nodup :=
    (h.workers.map Worker.serial).nodup_iff.mpr hd
  have hnew : ∀ x ∈ d.crew.pool.idle, ¬ (x.serial == w.serial) := by
    intro x hx
    rw [List.map_append, List.map_cons, List.nodup_append] at hserials
    have := hserials.2.2 x.serial (List.mem_map_of_mem hx) w.serial List.mem_cons_self
    simpa using this
  have hroom : d.crew.pool.idle.length < d.crew.pool.capacity := by
    have := h.workers.length_eq
    rw [List.length_append, List.length_cons] at this
    rw [h.capacity]
    omega
  have hpool : (d.release w).crew.pool
      = ({ d.crew.pool with idle := w :: d.crew.pool.idle } : Pool Worker).addPermit := by
    rw [show (d.release w).crew.pool
        = (d.crew.pool.giveBack (fun a b => a.serial == b.serial) w).2 from rfl,
      Pool.giveBack_of_room hnew hroom]
  refine ⟨?_, ?_, ?_, ?_⟩
  · rw [hpool, Pool.idle_addPermit]
    exact List.perm_middle.symm.trans h.workers
  · exact Pool.giveBack_balanced h.balanced _ w
  · exact h.ticketed.giveBack _ w
  · rw [hpool, Pool.capacity_addPermit]; exact h.capacity

end Desk

/-! ### The calls -/

section Calls

variable {members others : List Worker} {line : List Nat} {a a' : Ambient} {d d' : Desk}

namespace Submission

/-- The worker that a submission holds. -/
def leased : Submission → List Worker
  | .running worker _ _ => [worker]
  | _ => []

/-- The ticket of a submission that waits for a worker. -/
def tickets : Submission → List Nat
  | .acquiring _ acquire => acquire.tickets
  | _ => []

/-- The worker on which a submission runs its event. -/
def busy : Submission → List Worker := leased

theorem step_accounts (hd : (members.map Worker.serial).Nodup) {call : Submission}
    {m : Move Submission (SubmitOutcome × Event)}
    (h : d.Accounts members (call.leased ++ others) (call.tickets ++ line))
    (hs : call.step a d = some (m, a', d')) :
    d'.Accounts members (m.after Submission.leased (fun _ => []) ++ others)
      (m.after Submission.tickets (fun _ => []) ++ line) := by
  cases call with
  | ready event limit =>
    simp only [step, Option.some.injEq, Prod.mk.injEq] at hs
    obtain ⟨rfl, -, rfl⟩ := hs
    exact h
  | acquiring event acquire =>
    simp only [step] at hs
    cases hq : d.stepAcquire a acquire with
    | none => simp [hq] at hs
    | some x =>
      obtain ⟨m', d₁⟩ := x
      have h' := Desk.Accounts.stepAcquire h hq
      rcases m' with next | (e | worker) <;>
        · simp only [hq, Option.some.injEq, Prod.mk.injEq] at hs
          obtain ⟨rfl, -, rfl⟩ := hs
          exact h'
  | running worker event run =>
    simp only [step] at hs
    split at hs
    · simp only [Option.some.injEq, Prod.mk.injEq] at hs
      obtain ⟨rfl, -, rfl⟩ := hs
      rw [Desk.record_release]
      exact (h.of_pool (Desk.pool_recordRun worker run.outcome d)).release hd
    · cases hs

theorem drop_accounts (hd : (members.map Worker.serial).Nodup) {call : Submission}
    (h : d.Accounts members (call.leased ++ others) (call.tickets ++ line)) :
    (call.drop d).Accounts members others line := by
  cases call with
  | ready event limit => exact h
  | acquiring event acquire => exact h.dropAcquire
  | running worker event run => exact h.release hd

end Submission

namespace Batch

/-- The worker that a batch holds, also between two of its events. -/
def leased : Batch → List Worker
  | .between worker _ _ _ => [worker]
  | .running worker _ _ _ _ => [worker]
  | _ => []

/-- The ticket of a batch that waits for a worker. -/
def tickets : Batch → List Nat
  | .acquiring _ acquire => acquire.tickets
  | _ => []

/-- The worker on which a batch runs an event. -/
def busy : Batch → List Worker
  | .running worker _ _ _ _ => [worker]
  | _ => []

theorem busy_sublist_leased (call : Batch) : call.busy.Sublist call.leased := by
  cases call <;> simp [busy, leased]

theorem step_accounts (hd : (members.map Worker.serial).Nodup) {call : Batch}
    {m : Move Batch (BatchOutcome × List Event)}
    (h : d.Accounts members (call.leased ++ others) (call.tickets ++ line))
    (hs : call.step a d = some (m, a', d')) :
    d'.Accounts members (m.after Batch.leased (fun _ => []) ++ others)
      (m.after Batch.tickets (fun _ => []) ++ line) := by
  cases call with
  | ready events limit =>
    simp only [step, Option.some.injEq, Prod.mk.injEq] at hs
    obtain ⟨rfl, -, rfl⟩ := hs
    exact h
  | acquiring events acquire =>
    simp only [step] at hs
    cases hq : d.stepAcquire a acquire with
    | none => simp [hq] at hs
    | some x =>
      obtain ⟨m', d₁⟩ := x
      have h' := Desk.Accounts.stepAcquire h hq
      rcases m' with next | (e | worker) <;>
        · simp only [hq, Option.some.injEq, Prod.mk.injEq] at hs
          obtain ⟨rfl, -, rfl⟩ := hs
          exact h'
  | between worker done events rest =>
    cases rest with
    | nil =>
      simp only [step, Option.some.injEq, Prod.mk.injEq] at hs
      obtain ⟨rfl, -, rfl⟩ := hs
      exact h.release hd
    | cons event rest =>
      simp only [step, Option.some.injEq, Prod.mk.injEq] at hs
      obtain ⟨rfl, -, rfl⟩ := hs
      exact h
  | running worker done events rest run =>
    simp only [step] at hs
    split at hs
    · simp only [Option.some.injEq, Prod.mk.injEq] at hs
      obtain ⟨rfl, -, rfl⟩ := hs
      exact h.of_pool (Desk.pool_recordRun worker run.outcome d)
    · cases hs

theorem drop_accounts (hd : (members.map Worker.serial).Nodup) {call : Batch}
    (h : d.Accounts members (call.leased ++ others) (call.tickets ++ line)) :
    (call.drop d).Accounts members others line := by
  cases call with
  | ready events limit => exact h
  | acquiring events acquire => exact h.dropAcquire
  | between worker done events rest => exact h.release hd
  | running worker done events rest run => exact h.release hd

end Batch

namespace Assignment

/-- The worker that an assignment was given. -/
def worker : Assignment → Worker
  | .ready worker _ => worker
  | .prepared worker _ => worker
  | .running worker _ _ => worker

/-- The worker on which an assignment runs its event. -/
def busy : Assignment → List Worker
  | .running worker _ _ => [worker]
  | _ => []

theorem eq_worker_of_mem_busy {call : Assignment} {w : Worker} (h : w ∈ call.busy) : w = call.worker := by
  cases call with
  | ready worker event | prepared worker event => cases h
  | running worker event run => exact List.mem_singleton.mp h

theorem length_busy_le (call : Assignment) : call.busy.length ≤ 1 := by
  cases call <;> simp [busy]

/-- An assignment stays with its worker, takes none and gives none back. -/
theorem step_pool {call : Assignment} {m : Move Assignment (Outcome × Event)}
    (hs : call.step a d = some (m, a', d')) :
    d'.crew.pool = d.crew.pool ∧ ∀ next, m = .goes next → next.worker = call.worker := by
  cases call with
  | ready w event =>
    simp only [step, Option.some.injEq, Prod.mk.injEq] at hs
    obtain ⟨rfl, -, rfl⟩ := hs
    exact ⟨rfl, fun next hn => by cases hn; rfl⟩
  | prepared w event =>
    simp only [step, Option.some.injEq, Prod.mk.injEq] at hs
    obtain ⟨rfl, -, rfl⟩ := hs
    exact ⟨rfl, fun next hn => by cases hn; rfl⟩
  | running w event run =>
    simp only [step] at hs
    split at hs
    · simp only [Option.some.injEq, Prod.mk.injEq] at hs
      obtain ⟨rfl, -, rfl⟩ := hs
      exact ⟨rfl, fun next hn => by cases hn⟩
    · cases hs

end Assignment

end Calls

/-! ### Calls at a desk -/

/-- A call that takes a worker from the desk. -/
inductive DeskCall where
  | submit (call : Submission)
  | batch (call : Batch)
  | allocate (call : Allocation)

namespace DeskCall

/-- The worker that a call holds. -/
def leased : DeskCall → List Worker
  | .submit call => call.leased
  | .batch call => call.leased
  | .allocate _ => []

/-- The ticket of a call that waits for a worker. -/
def tickets : DeskCall → List Nat
  | .submit call => call.tickets
  | .batch call => call.tickets
  | .allocate call => Acquire.tickets call

/-- The worker on which a call runs an event. -/
def busy : DeskCall → List Worker
  | .submit call => call.busy
  | .batch call => call.busy
  | .allocate _ => []

/-- The next move of a call; it may end with a worker that its caller keeps. -/
def step (a : Ambient) (d : Desk) :
    DeskCall → Option (Move DeskCall (Option Worker) × Ambient × Desk)
  | .submit call => (call.step a d).map fun (m, a, d) => (m.map .submit fun _ => none, a, d)
  | .batch call => (call.step a d).map fun (m, a, d) => (m.map .batch fun _ => none, a, d)
  | .allocate call => (call.step a d).map fun (m, d) => (m.map .allocate Except.toOption, a, d)

/-- Gives a call up. -/
def drop (d : Desk) : DeskCall → Desk
  | .submit call => call.drop d
  | .batch call => call.drop d
  | .allocate call => d.dropAcquire call

variable {members others : List Worker} {line : List Nat} {a a' : Ambient} {d d' : Desk}

theorem busy_sublist_leased (call : DeskCall) : call.busy.Sublist call.leased := by
  cases call with
  | submit call => exact List.Sublist.refl _
  | batch call => exact call.busy_sublist_leased
  | allocate call => exact List.Sublist.refl _

theorem flatMap_busy_sublist (calls : List DeskCall) :
    (calls.flatMap busy).Sublist (calls.flatMap leased) := by
  induction calls with
  | nil => exact List.Sublist.refl _
  | cons call rest ih =>
    rw [List.flatMap_cons, List.flatMap_cons]
    exact call.busy_sublist_leased.append ih

/-- **One move of a call**: what it holds afterwards, with what its caller keeps, is what it held and
took, less what it gave back. -/
theorem step_accounts (hd : (members.map Worker.serial).Nodup) {call : DeskCall}
    {m : Move DeskCall (Option Worker)}
    (h : d.Accounts members (call.leased ++ others) (call.tickets ++ line))
    (hs : call.step a d = some (m, a', d')) :
    d'.Accounts members (m.after leased Option.toList ++ others)
      (m.after tickets (fun _ => []) ++ line) := by
  cases call with
  | submit call =>
    simp only [step, Option.map_eq_some_iff] at hs
    obtain ⟨⟨m', a₁, d₁⟩, hq, heq⟩ := hs
    simp only [Prod.mk.injEq] at heq
    obtain ⟨rfl, rfl, rfl⟩ := heq
    rw [Move.after_map, Move.after_map]
    exact Submission.step_accounts hd h hq
  | batch call =>
    simp only [step, Option.map_eq_some_iff] at hs
    obtain ⟨⟨m', a₁, d₁⟩, hq, heq⟩ := hs
    simp only [Prod.mk.injEq] at heq
    obtain ⟨rfl, rfl, rfl⟩ := heq
    rw [Move.after_map, Move.after_map]
    exact Batch.step_accounts hd h hq
  | allocate call =>
    simp only [step, Option.map_eq_some_iff] at hs
    obtain ⟨⟨m', d₁⟩, hq, heq⟩ := hs
    simp only [Prod.mk.injEq] at heq
    obtain ⟨rfl, rfl, rfl⟩ := heq
    rw [Move.after_map, Move.after_map]
    refine Desk.Accounts.stepAcquire ?_ hq
    exact h

theorem drop_accounts (hd : (members.map Worker.serial).Nodup) {call : DeskCall}
    (h : d.Accounts members (call.leased ++ others) (call.tickets ++ line)) :
    (call.drop d).Accounts members others line := by
  cases call with
  | submit call => exact Submission.drop_accounts hd h
  | batch call => exact Batch.drop_accounts hd h
  | allocate call => exact h.dropAcquire

/-- The accounts of several calls and of those who keep workers, with one call taken apart from all else. -/
theorem split_accounts {calls pre post : List DeskCall} {call : DeskCall} {kept : List Worker}
    (h : d.Accounts members (calls.flatMap leased ++ kept) (calls.flatMap tickets))
    (hc : calls = pre ++ call :: post) :
    d.Accounts members (call.leased ++ ((pre ++ post).flatMap leased ++ kept))
      (call.tickets ++ (pre ++ post).flatMap tickets) := by
  refine h.of_perm ?_ ?_
  · rw [hc, ← List.append_assoc, ← List.flatMap_cons]
    exact (List.perm_middle.flatMap_right _).append_right _
  · rw [hc, ← List.flatMap_cons]
    exact List.perm_middle.flatMap_right _

/-- A call that holds a granted ticket can move. -/
theorem step_ne_none_of_granted {call : DeskCall} {ticket : Nat} (ht : ticket ∈ call.tickets)
    (hg : ticket ∈ d.crew.pool.granted) : call.step a d ≠ none := by
  have key : ∀ acquire : Acquire, ticket ∈ acquire.tickets → d.stepAcquire a acquire ≠ none := by
    intro acquire hm
    cases acquire with
    | asking limit => cases hm
    | waiting t limit =>
      obtain rfl : ticket = t := by simpa [Acquire.tickets] using hm
      have hne : (Acquire.waiting ticket limit).step a.now d.crew.pool ≠ none :=
        Acquire.step_ne_none_of_granted hg
      obtain ⟨⟨m, pool⟩, hq⟩ := Option.ne_none_iff_exists'.mp hne
      rcases m with next | (e | worker) <;> simp [Desk.stepAcquire, hq]
  cases call with
  | submit call =>
    cases call with
    | acquiring event acquire =>
      obtain ⟨⟨m, d₁⟩, hq⟩ := Option.ne_none_iff_exists'.mp (key acquire ht)
      rcases m with next | (e | worker) <;> simp [step, Submission.step, hq]
    | ready event limit => cases ht
    | running worker event run => cases ht
  | batch call =>
    cases call with
    | acquiring events acquire =>
      obtain ⟨⟨m, d₁⟩, hq⟩ := Option.ne_none_iff_exists'.mp (key acquire ht)
      rcases m with next | (e | worker) <;> simp [step, Batch.step, hq]
    | ready events limit => cases ht
    | between worker done events rest => cases ht
    | running worker done events rest run => cases ht
  | allocate call => simpa [step, Allocation.step] using key call ht

end DeskCall

/-! ### Leases that callers keep -/

/-- A worker that a caller keeps, and the calls with which the caller runs events on it. There may be
several of them at a time. -/
structure Lease where
  worker : Worker
  calls : List Assignment

namespace Lease

/-- The worker of a lease, as often as a call runs an event on it. -/
def busy (l : Lease) : List Worker := l.calls.flatMap Assignment.busy

/-- The calls of a lease are for its worker. -/
def Bound (l : Lease) : Prop := ∀ call ∈ l.calls, call.worker = l.worker

theorem Bound.eq_of_mem_busy {l : Lease} (h : l.Bound) {w : Worker} (hw : w ∈ l.busy) : w = l.worker := by
  obtain ⟨call, hc, hw⟩ := List.mem_flatMap.mp hw
  exact (Assignment.eq_worker_of_mem_busy hw).trans (h call hc)

theorem Bound.count_busy {l : Lease} (h : l.Bound) : l.busy.count l.worker = l.busy.length :=
  List.count_eq_length.mpr fun _ hw => (h.eq_of_mem_busy hw).symm

theorem count_flatMap_busy_of_not_mem {leases : List Lease} {w : Worker} (h : ∀ l ∈ leases, l.Bound)
    (hw : w ∉ leases.map worker) : (leases.flatMap busy).count w = 0 := by
  refine List.count_eq_zero.mpr fun hm => hw ?_
  obtain ⟨l, hl, hm⟩ := List.mem_flatMap.mp hm
  exact (h l hl).eq_of_mem_busy hm ▸ List.mem_map_of_mem hl

theorem length_busy_le (l : Lease) : l.busy.length ≤ l.calls.length := by
  obtain ⟨worker, calls⟩ := l
  induction calls with
  | nil => exact Nat.le_refl 0
  | cons call rest ih =>
    have hrest : (rest.flatMap Assignment.busy).length ≤ rest.length := ih
    have hcall := call.length_busy_le
    rw [busy, List.flatMap_cons, List.length_append, List.length_cons]
    omega

end Lease

/-! ### All that goes on at a desk -/

/-- A desk, the calls that are open at it, and the leases that callers keep. -/
structure LeasedDesk where
  ambient : Ambient
  desk : Desk
  calls : List DeskCall
  leases : List Lease

namespace LeasedDesk

/-- A desk at which nobody has called. -/
def quiet (ambient : Ambient) (desk : Desk) : LeasedDesk := ⟨ambient, desk, [], []⟩

/-- The workers on live leases: those that calls hold, and those that callers keep. -/
def held (s : LeasedDesk) : List Worker :=
  s.calls.flatMap DeskCall.leased ++ s.leases.map Lease.worker

/-- The workers on which events are running, each as often as there are runs. -/
def busy (s : LeasedDesk) : List Worker := s.calls.flatMap DeskCall.busy ++ s.leases.flatMap Lease.busy

/-- One move of anybody. -/
inductive Step : LeasedDesk → LeasedDesk → Prop
  /-- Somebody submits an event, with a limit for the wait or without. -/
  | submits (s : LeasedDesk) (event : Event) (limit : Option Nat) :
      Step s { s with calls := .submit (.ready event limit) :: s.calls }
  /-- Somebody submits several events. -/
  | submitsAll (s : LeasedDesk) (events : List Event) (limit : Option Nat) :
      Step s { s with calls := .batch (.ready events limit) :: s.calls }
  /-- Somebody asks for a worker to keep. -/
  | allocates (s : LeasedDesk) (limit : Option Nat) :
      Step s { s with calls := .allocate (.asking limit) :: s.calls }
  /-- An open call moves; the worker that it ends with is kept. -/
  | moves {s : LeasedDesk} {pre post : List DeskCall} {call : DeskCall}
      {m : Move DeskCall (Option Worker)} {ambient : Ambient} {desk : Desk}
      (hc : s.calls = pre ++ call :: post)
      (hs : call.step s.ambient s.desk = some (m, ambient, desk)) :
      Step s ⟨ambient, desk, pre ++ (m.next?.toList ++ post),
        m.after (fun _ => []) (fun kept => kept.toList.map (⟨·, []⟩)) ++ s.leases⟩
  /-- An open call is given up. -/
  | drops {s : LeasedDesk} {pre post : List DeskCall} {call : DeskCall}
      (hc : s.calls = pre ++ call :: post) :
      Step s { s with desk := call.drop s.desk, calls := pre ++ post }
  /-- A caller gives an event to a worker that it keeps, whatever runs on it already. -/
  | assigns {s : LeasedDesk} {pre post : List Lease} {lease : Lease} (event : Event)
      (hl : s.leases = pre ++ lease :: post) :
      Step s { s with
        leases := pre ++ { lease with calls := .ready lease.worker event :: lease.calls } :: post }
  /-- A call on a worker that is kept moves. -/
  | works {s : LeasedDesk} {pre post : List Lease} {lease : Lease} {early late : List Assignment}
      {call : Assignment} {m : Move Assignment (Outcome × Event)} {ambient : Ambient} {desk : Desk}
      (hl : s.leases = pre ++ lease :: post) (hc : lease.calls = early ++ call :: late)
      (hs : call.step s.ambient s.desk = some (m, ambient, desk)) :
      Step s { s with
        ambient, desk, leases := pre ++ { lease with calls := early ++ (m.next?.toList ++ late) } :: post }
  /-- A call on a worker that is kept is given up; the caller keeps the worker. -/
  | stopsWork {s : LeasedDesk} {pre post : List Lease} {lease : Lease} {early late : List Assignment}
      {call : Assignment} (hl : s.leases = pre ++ lease :: post) (hc : lease.calls = early ++ call :: late) :
      Step s { s with leases := pre ++ { lease with calls := early ++ late } :: post }
  /-- A caller drops a lease, and the calls on it if there are any. -/
  | returns {s : LeasedDesk} {pre post : List Lease} {lease : Lease}
      (hl : s.leases = pre ++ lease :: post) :
      Step s { s with desk := s.desk.release lease.worker, leases := pre ++ post }
  /-- Time passes, and other things happen elsewhere. -/
  | passes (s : LeasedDesk) (ambient : Ambient) (hnow : s.ambient.now ≤ ambient.now) :
      Step s { s with ambient }

/-- Time passes, and nothing else happens. -/
theorem Step.elapses (s : LeasedDesk) (ms : Nat) :
    Step s { s with ambient := { s.ambient with now := s.ambient.now + ms } } :=
  .passes s _ (Nat.le_add_right _ _)

/-- No open call can move at this instant. -/
def AtRest (s : LeasedDesk) : Prop := ∀ call ∈ s.calls, call.step s.ambient s.desk = none

/-- Each worker is idle or held by one live lease, and its holder alone runs events on it. -/
structure Exclusive (members : List Worker) (s : LeasedDesk) : Prop where
  /-- A worker is idle and on no lease, or not idle and on exactly one. -/
  placed : ∀ w ∈ members, (s.desk.crew.pool.idle.count w = 1 ∧ s.held.count w = 0) ∨
    (s.desk.crew.pool.idle.count w = 0 ∧ s.held.count w = 1)
  /-- Nobody else is idle or held. -/
  known : ∀ w, w ∈ s.desk.crew.pool.idle ∨ w ∈ s.held → w ∈ members
  /-- At most one event runs on a worker, unless one who keeps it runs several: then all that run on it are
  those of the calls of that lease. -/
  solo : ∀ w, s.busy.count w ≤ 1 ∨
    ∃ lease ∈ s.leases, lease.worker = w ∧ s.busy.count w = lease.busy.length
  /-- At most one event runs on a worker if nobody who keeps it has more than one call open on it. -/
  single : ∀ w, (∀ lease ∈ s.leases, lease.worker = w → lease.calls.length ≤ 1) → s.busy.count w ≤ 1
  /-- An event runs only on a worker that is held. -/
  busy_held : ∀ w ∈ s.busy, w ∈ s.held
  /-- Without a live lease all workers are idle, and every permit is available, but for those already
  granted to calls that wait. -/
  restored : s.held = [] → s.desk.crew.pool.idle.length = s.desk.crew.capacity ∧
    s.desk.crew.available + s.desk.crew.pool.granted.length = s.desk.crew.capacity
  /-- A permit is granted only to a call that waits for a worker, and that call can move. -/
  granted : ∀ ticket ∈ s.desk.crew.pool.granted, ∃ call ∈ s.calls, ticket ∈ call.tickets ∧
    call.step s.ambient s.desk ≠ none
  /-- Without a live lease, once no call can move, all of them are available. -/
  settled : s.held = [] → s.AtRest → s.desk.crew.available = s.desk.crew.capacity

/-! ### What every move keeps -/

/-- The accounts of the desk are those of the calls and the leases, and the calls on a lease are for its
worker. -/
structure Sound (members : List Worker) (s : LeasedDesk) : Prop where
  /-- The accounts. -/
  accounts : s.desk.Accounts members s.held (s.calls.flatMap DeskCall.tickets)
  /-- Who works on a leased worker was given that one. -/
  bound : ∀ l ∈ s.leases, l.Bound

theorem sound_quiet {ambient : Ambient} {desk : Desk} (h : desk.crew.Fresh) :
    Sound desk.crew.members (quiet ambient desk) :=
  ⟨Desk.accounts_of_fresh h, by simp [quiet]⟩

variable {members : List Worker} {s s' : LeasedDesk}

/-- The accounts with one open call taken apart from all else. -/
theorem Sound.split_call (h : Sound members s) {pre post : List DeskCall} {call : DeskCall}
    (hc : s.calls = pre ++ call :: post) :
    s.desk.Accounts members
      (call.leased ++ ((pre ++ post).flatMap DeskCall.leased ++ s.leases.map Lease.worker))
      (call.tickets ++ (pre ++ post).flatMap DeskCall.tickets) :=
  DeskCall.split_accounts h.accounts hc

/-- The accounts with one lease taken apart from all else. -/
theorem Sound.split_lease (h : Sound members s) {pre post : List Lease} {lease : Lease}
    (hl : s.leases = pre ++ lease :: post) :
    s.desk.Accounts members
      (lease.worker :: (s.calls.flatMap DeskCall.leased ++ (pre ++ post).map Lease.worker))
      (s.calls.flatMap DeskCall.tickets) := by
  refine h.accounts.of_perm ?_ (List.Perm.refl _)
  rw [held, hl, List.map_append, List.map_cons, List.map_append, ← List.append_assoc,
    ← List.append_assoc]
  exact List.perm_middle

/-- A new call holds nothing. -/
theorem Sound.cons_call (h : Sound members s) {call : DeskCall} (hw : call.leased = [])
    (ht : call.tickets = []) : Sound members { s with calls := call :: s.calls } := by
  refine ⟨?_, h.bound⟩
  simpa [held, hw, ht] using h.accounts

/-- Other calls on the same leases, for the same workers. -/
theorem Sound.set_calls (h : Sound members s) {pre post : List Lease} {lease : Lease}
    {calls : List Assignment} (hl : s.leases = pre ++ lease :: post)
    (hb : ({ lease with calls } : Lease).Bound) :
    Sound members { s with leases := pre ++ { lease with calls } :: post } := by
  refine ⟨?_, fun l hm => ?_⟩
  · have := h.accounts
    rw [held, hl] at this
    simpa [held] using this
  · rcases List.mem_append.mp hm with hm | hm
    · exact h.bound l (hl ▸ List.mem_append_left _ hm)
    · rcases List.mem_cons.mp hm with rfl | hm
      · exact hb
      · exact h.bound l (hl ▸ List.mem_append_right _ (List.mem_cons_of_mem _ hm))

theorem Sound.bound_of_split (h : Sound members s) {pre post : List Lease} {lease : Lease}
    (hl : s.leases = pre ++ lease :: post) : lease.Bound :=
  h.bound lease (hl ▸ List.mem_append_right _ List.mem_cons_self)

/-- **What one move of anybody keeps.** -/
theorem Sound.step (hd : (members.map Worker.serial).Nodup) (h : Sound members s)
    (hs : Step s s') : Sound members s' := by
  cases hs with
  | submits event limit => exact h.cons_call rfl rfl
  | submitsAll events limit => exact h.cons_call rfl rfl
  | allocates limit => exact h.cons_call rfl rfl
  | moves hc hq =>
    rename_i pre post call m ambient desk
    have key := DeskCall.step_accounts hd (h.split_call hc) hq
    refine ⟨?_, fun l hm => ?_⟩
    · refine key.of_perm ?_ ?_
      · have hw := (Move.perm_after DeskCall.leased Option.toList m pre post).append_right
          (s.leases.map Lease.worker)
        rw [List.append_assoc, List.append_assoc] at hw
        refine hw.trans (List.Perm.of_eq ?_)
        rw [held, List.map_append]
        cases m with
        | goes next => rfl
        | ends kept => cases kept <;> rfl
      · have ht := Move.perm_after DeskCall.tickets (fun _ => []) m pre post
        refine ht.trans (List.Perm.of_eq ?_)
        cases m <;> exact List.append_nil _
    · rcases List.mem_append.mp hm with hm | hm
      · cases m with
        | goes next => cases hm
        | ends kept =>
          obtain ⟨w, -, rfl⟩ := List.mem_map.mp hm
          intro c hc'; cases hc'
      · exact h.bound l hm
  | drops hc =>
    have key := DeskCall.drop_accounts hd (h.split_call hc)
    exact ⟨key, h.bound⟩
  | assigns event hl => exact h.set_calls hl (List.forall_mem_cons.mpr ⟨rfl, h.bound_of_split hl⟩)
  | works hl hc hq =>
    rename_i pre post lease early late call m ambient desk
    obtain ⟨hpool, hnext⟩ := Assignment.step_pool hq
    have hall : ∀ c ∈ lease.calls, c.worker = lease.worker := h.bound_of_split hl
    obtain ⟨hearly, hrest⟩ := List.forall_mem_append.mp (hc ▸ hall)
    obtain ⟨hcall, hlate⟩ := List.forall_mem_cons.mp hrest
    have hbound : ({ lease with calls := early ++ (m.next?.toList ++ late) } : Lease).Bound :=
      List.forall_mem_append.mpr ⟨hearly, List.forall_mem_append.mpr ⟨fun next hn =>
        (hnext next (Move.mem_next?.mp (Option.mem_toList.mp hn))).trans hcall, hlate⟩⟩
    have key := h.set_calls hl hbound
    exact ⟨key.accounts.of_pool hpool, key.bound⟩
  | stopsWork hl hc =>
    refine h.set_calls hl fun other hm => h.bound_of_split hl other (hc ▸ ?_)
    exact ((List.sublist_cons_self _ _).append_left _).subset hm
  | returns hl =>
    refine ⟨(h.split_lease hl).release hd, fun l hm => h.bound l ?_⟩
    rw [hl]
    exact ((List.sublist_cons_self _ _).append_left _).subset hm
  | passes ambient hnow => exact ⟨h.accounts, h.bound⟩

/-! ### The law -/

/-- Events run on workers that are held. -/
theorem Sound.mem_held_of_busy (h : Sound members s) {w : Worker} (hw : w ∈ s.busy) : w ∈ s.held := by
  rcases List.mem_append.mp hw with hcall | hlease
  · exact List.mem_append_left _ ((DeskCall.flatMap_busy_sublist s.calls).subset hcall)
  · obtain ⟨l, hl, hw⟩ := List.mem_flatMap.mp hlease
    exact List.mem_append_right _ ((h.bound l hl).eq_of_mem_busy hw ▸ List.mem_map_of_mem hl)

/-- **Who runs events on a worker**: one who keeps it, and nobody else; or a call that holds it, one. -/
theorem Sound.busy_cases (hd : (members.map Worker.serial).Nodup) (h : Sound members s) (w : Worker) :
    (∃ lease ∈ s.leases, lease.worker = w ∧ s.busy.count w = lease.busy.length) ∨ s.busy.count w ≤ 1 := by
  have hsplit : s.busy.count w =
      (s.calls.flatMap DeskCall.busy).count w + (s.leases.flatMap Lease.busy).count w := List.count_append
  by_cases hkept : w ∈ s.leases.map Lease.worker
  · obtain ⟨lease, hm, rfl⟩ := List.mem_map.mp hkept
    obtain ⟨pre, post, hl⟩ := List.append_of_mem hm
    -- The lease is the only one for its worker, and no call holds that worker.
    obtain ⟨hnot, -⟩ := List.nodup_cons.mp ((h.split_lease hl).nodup_held hd)
    have hnone : (s.calls.flatMap DeskCall.busy).count lease.worker = 0 := List.count_eq_zero.mpr fun hb =>
      hnot (List.mem_append_left _ ((DeskCall.flatMap_busy_sublist s.calls).subset hb))
    have hrest : ((pre ++ post).flatMap Lease.busy).count lease.worker = 0 :=
      Lease.count_flatMap_busy_of_not_mem
        (fun l hm => h.bound l (hl ▸ ((List.sublist_cons_self _ _).append_left _).subset hm))
        fun hm => hnot (List.mem_append_right _ hm)
    have hleases : (s.leases.flatMap Lease.busy).count lease.worker = lease.busy.length := by
      rw [hl, (List.perm_middle.flatMap_right Lease.busy).count_eq, List.flatMap_cons, List.count_append,
        hrest, (h.bound lease hm).count_busy, Nat.add_zero]
    exact .inl ⟨lease, hm, rfl, by rw [hsplit, hnone, hleases, Nat.zero_add]⟩
  · have hle := Nat.le_trans ((DeskCall.flatMap_busy_sublist s.calls).count_le w)
      (List.nodup_iff_count_le_one.mp (h.accounts.nodup_held hd).of_append_left w)
    exact .inr (by rwa [hsplit, Lease.count_flatMap_busy_of_not_mem h.bound hkept, Nat.add_zero])

/-- A permit is granted to a call that waits, and that can take its worker now. -/
theorem Sound.call_of_granted (h : Sound members s) {ticket : Nat}
    (hm : ticket ∈ s.desk.crew.pool.granted) :
    ∃ call ∈ s.calls, ticket ∈ call.tickets ∧ call.step s.ambient s.desk ≠ none := by
  obtain ⟨call, hc, ht⟩ := List.mem_flatMap.mp
    (h.accounts.ticketed.perm.mem_iff.mp (List.mem_append_left _ hm))
  exact ⟨call, hc, ht, DeskCall.step_ne_none_of_granted ht hm⟩

/-- When no lease is live, the idle workers and their permits are complete. -/
theorem Sound.restored (h : Sound members s) (hnone : s.held = []) :
    s.desk.crew.pool.idle.length = s.desk.crew.capacity ∧
      s.desk.crew.available + s.desk.crew.pool.granted.length = s.desk.crew.capacity := by
  have hidle := h.accounts.workers.length_eq
  have hpermits := h.accounts.balanced
  have hcap : s.desk.crew.capacity = members.length := h.accounts.capacity
  rw [hnone, List.append_nil] at hidle
  unfold Pool.Balanced at hpermits
  rw [Crew.available, Pool.available, hcap]
  omega

/-- When no lease is live and no call can move, no permit is on its way. -/
theorem Sound.available_of_atRest (h : Sound members s) (hnone : s.held = []) (hrest : s.AtRest) :
    s.desk.crew.available = s.desk.crew.capacity := by
  have hgranted : s.desk.crew.pool.granted = [] := List.eq_nil_iff_forall_not_mem.mpr fun ticket hm => by
    obtain ⟨call, hc, -, hmoves⟩ := h.call_of_granted hm
    exact hmoves (hrest call hc)
  have hall := (h.restored hnone).2
  rwa [hgranted] at hall

theorem Sound.exclusive (hd : (members.map Worker.serial).Nodup) (h : Sound members s) :
    Exclusive members s := by
  refine ⟨fun w hw => ?_, fun w hw => ?_, fun w => (h.busy_cases hd w).symm, fun w hone => ?_,
    fun w hw => h.mem_held_of_busy hw, h.restored, fun ticket hm => h.call_of_granted hm,
    h.available_of_atRest⟩
  · have hmember := List.count_eq_one_of_mem (hd.of_map _) hw
    have hplaces : s.desk.crew.pool.idle.count w + s.held.count w = members.count w := by
      rw [← List.count_append]
      exact h.accounts.workers.count_eq w
    omega
  · exact h.accounts.workers.mem_iff.mp (List.mem_append.mpr hw)
  · rcases h.busy_cases hd w with ⟨lease, hm, hworker, hruns⟩ | hle
    · exact hruns ▸ Nat.le_trans lease.length_busy_le (hone lease hm hworker)
    · exact hle

theorem Sound.of_reachable (hd : (members.map Worker.serial).Nodup) (h : Sound members s)
    (hr : Relation.ReflTransGen Step s s') : Sound members s' := by
  induction hr with
  | refl => exact h
  | tail _ hs ih => exact ih.step hd hs

/-- **Workers are never shared.** Whatever calls are made at a desk with a fresh crew, in whatever
order they move, and whichever of them are given up, each worker is idle or held by one live lease, and
runs one event at a time, or those that the one who keeps it has given it. When no lease is live all
workers are idle again, and available, but for the permits that are granted to calls that wait. -/
theorem exclusive_of_reachable {ambient : Ambient} {desk : Desk} (hf : desk.crew.Fresh)
    (hr : Relation.ReflTransGen Step (quiet ambient desk) s) : Exclusive desk.crew.members s :=
  ((sound_quiet hf).of_reachable hf.distinct hr).exclusive hf.distinct

/-- A worker that is lent runs two events of its holder, while a submission waits for it; then the lease is
dropped, and the worker goes to the submission. -/
theorem exclusive_worker_handed_on :
    let desk : Desk := .new ⟨"desk", "echo", .async⟩ (.ofIndices .single [0])
    let ambient : Ambient := .start ⟨0, 0⟩ .echo
    desk.crew.Fresh ∧
      ∃ lent handed : LeasedDesk, Relation.ReflTransGen Step (quiet ambient desk) lent ∧
        lent.held = [⟨0, 0, 0⟩] ∧ lent.busy = [⟨0, 0, 0⟩, ⟨0, 0, 0⟩] ∧ Exclusive desk.crew.members lent ∧
        Relation.ReflTransGen Step lent handed ∧ handed.held = [] ∧
        handed.desk.crew.pool.granted = [1] ∧ Exclusive desk.crew.members handed := by
  intro desk ambient
  have hf : desk.crew.Fresh := Crew.fresh_ofIndices .single [0]
  have hlent := (((((((((((Relation.ReflTransGen.refl.tail
    (Step.allocates (quiet ambient desk) none)).tail
    (@Step.moves _ [] [] _ _ _ _ rfl rfl)).tail
    (@Step.moves _ [] [] _ _ _ _ rfl rfl)).tail
    (@Step.assigns _ [] [] _ (.blank ⟨0, 0⟩) rfl)).tail
    (@Step.works _ [] [] _ [] [] _ _ _ _ rfl rfl rfl)).tail
    (@Step.works _ [] [] _ [] [] _ _ _ _ rfl rfl rfl)).tail
    (@Step.assigns _ [] [] _ (.blank ⟨0, 0⟩) rfl)).tail
    (@Step.works _ [] [] _ [] [_] _ _ _ _ rfl rfl rfl)).tail
    (@Step.works _ [] [] _ [] [_] _ _ _ _ rfl rfl rfl)).tail
    (Step.submits _ (.blank ⟨0, 0⟩) none)).tail
    (@Step.moves _ [] [] _ _ _ _ rfl rfl)).tail
    (@Step.moves _ [] [] _ _ _ _ rfl rfl)
  have hhanded := hlent.tail (@Step.returns _ [] [] _ rfl)
  exact ⟨hf, _, _, hlent, rfl, rfl, exclusive_of_reachable hf hlent,
    .single (@Step.returns _ [] [] _ rfl), rfl, rfl, exclusive_of_reachable hf hhanded⟩

/-- **Not every worker is available while nobody holds one**, for a permit may be granted already: the first
of three submissions ends, the second has not moved yet, and the third, whose time is over, is turned away.
**Nor does a worker run one event at a time**: one who keeps it may give it two. -/
theorem not_available_nor_alone :
    let desk : Desk := .new ⟨"desk", "slow", .async⟩ (.ofIndices .single [0])
    let ambient : Ambient := .start ⟨0, 0⟩ fun _ _ => ⟨100, .answers .empty⟩
    desk.crew.Fresh ∧
      (∃ s : LeasedDesk, Relation.ReflTransGen Step (quiet ambient desk) s ∧ s.held = [] ∧
        s.desk.crew.pool.idle = [⟨0, 0, 0⟩] ∧ s.desk.crew.available ≠ s.desk.crew.capacity ∧
        ∃ (late : Submission) (event : Event) (ambient : Ambient) (desk : Desk), .submit late ∈ s.calls ∧
          late.step s.ambient s.desk = some (.ends (.noWorker (.allocationTimeout 100), event), ambient, desk)) ∧
      ∃ s : LeasedDesk, Relation.ReflTransGen Step (quiet ambient desk) s ∧ ¬ s.busy.count ⟨0, 0, 0⟩ ≤ 1 := by
  intro desk ambient
  have hgranted := (((((((((((Relation.ReflTransGen.refl.tail
    (Step.submits (quiet ambient desk) (.blank ⟨0, 0⟩) none)).tail
    (@Step.moves _ [] [] _ _ _ _ rfl rfl)).tail
    (@Step.moves _ [] [] _ _ _ _ rfl rfl)).tail
    (@Step.moves _ [] [] _ _ _ _ rfl rfl)).tail
    (Step.submits _ (.blank ⟨0, 0⟩) none)).tail
    (@Step.moves _ [] [_] _ _ _ _ rfl rfl)).tail
    (@Step.moves _ [] [_] _ _ _ _ rfl rfl)).tail
    (Step.submits _ (.blank ⟨0, 0⟩) (some 100))).tail
    (@Step.moves _ [] [_, _] _ _ _ _ rfl rfl)).tail
    (@Step.moves _ [] [_, _] _ _ _ _ rfl rfl)).tail
    (Step.elapses _ 100)).tail
    (@Step.moves _ [_, _] [] _ _ _ _ rfl rfl)
  have hboth := ((((((((Relation.ReflTransGen.refl.tail
    (Step.allocates (quiet ambient desk) none)).tail
    (@Step.moves _ [] [] _ _ _ _ rfl rfl)).tail
    (@Step.moves _ [] [] _ _ _ _ rfl rfl)).tail
    (@Step.assigns _ [] [] _ (.blank ⟨0, 0⟩) rfl)).tail
    (@Step.works _ [] [] _ [] [] _ _ _ _ rfl rfl rfl)).tail
    (@Step.works _ [] [] _ [] [] _ _ _ _ rfl rfl rfl)).tail
    (@Step.assigns _ [] [] _ (.blank ⟨0, 0⟩) rfl)).tail
    (@Step.works _ [] [] _ [] [_] _ _ _ _ rfl rfl rfl)).tail
    (@Step.works _ [] [] _ [] [_] _ _ _ _ rfl rfl rfl)
  exact ⟨Crew.fresh_ofIndices .single [0], ⟨_, hgranted, rfl, rfl, by decide, _, _, _, _, List.mem_cons_self, rfl⟩,
    _, hboth, by decide⟩

end LeasedDesk

end EventDispatch
