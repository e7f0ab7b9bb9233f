import EventDispatch.Proofs.SourceHistory

/-!
# A worker for every task

A task of a source holds one worker at most, or the ticket for one. So where there are no more tasks than
workers, whoever asks for a worker finds one idle: the others cannot hold them all. Nobody waits, then, and
nobody is turned away; and as the tasks take, keep and give back their workers, are given up or started
anew, it stays so.

Both halves are needed for each other. A permit is free for who asks because nobody waits in front of them,
and nobody comes to wait because a permit is always free.

## What is deliberately absent

How many workers a source has, and how many tasks its start spawns, is decided elsewhere (`Sizing`). Here
a source suits a number of workers, and a move keeps that.

## Main definitions

* `Desk.Staffed`, `Desk.Provides`: a desk where nobody waits, and a move that leaves it so.
* `Workload.Staffing`: a kind of source whose tasks hold one worker at most.
* `Workload.Manned`: there are no more tasks than workers, and nobody waits.

## Main results

* `Acquire.step_of_room`: who asks while there is room gets an item at once.
* `Submission.step_provides`, `Batch.step_provides`, `Assignment.step_provides`,
  `Desk.provides_of_stepAcquire`: what one move of each kind of call does.
* `Generator.staffing`, `QueueSource.staffing`, `StreamSource.staffing`, `PollSource.staffing`: the kinds.
* `Workload.Manned.works`, `Workload.Manned.stops`, `Workload.Manned.begins`: what a move of a task, a move
  of a stop and the beginning of a run keep.
-/

namespace EventDispatch

/-! ### Pools in which nobody waits -/

namespace Pool

variable {α : Type} {p : Pool α}

theorem waiting_addPermit (h : p.waiting = []) : p.addPermit.waiting = [] := by
  rw [addPermit, h]

theorem waiting_withdraw (h : p.waiting = []) (ticket : Nat) : (p.withdraw ticket).waiting = [] := by
  rw [withdraw]
  split
  · exact waiting_addPermit h
  · simp [h]

theorem waiting_giveBack (h : p.waiting = []) (same : α → α → Bool) (item : α) :
    (p.giveBack same item).2.waiting = [] := by
  rw [giveBack]
  split
  · exact h
  · split
    · exact h
    · exact waiting_addPermit h

end Pool

/-- **Who asks while there is room gets an item at once.** Fewer others hold a ticket than items are idle, so
a permit is free; and who holds a ticket already has been granted it. -/
theorem Acquire.step_of_room {α : Type} {p p' : Pool α} {now : Nat} {a : Acquire}
    {m : Move Acquire (Except Error α)} {line : List Nat} (hb : p.Balanced)
    (ht : p.Ticketed (a.tickets ++ line)) (hw : p.waiting = []) (hroom : line.length < p.idle.length)
    (h : a.step now p = some (m, p')) : p'.waiting = [] ∧ ∀ e, m ≠ .ends (.error e) := by
  have hgranted : p.granted.Perm (a.tickets ++ line) := by
    simpa [hw] using ht.perm
  have hidle : p.idle.length = p.free + p.granted.length := hb
  cases a with
  | asking limit =>
    have hcount : p.granted.length = line.length := hgranted.length_eq
    obtain ⟨free, hfree⟩ : ∃ free, p.free = free + 1 := Nat.exists_eq_succ_of_ne_zero (by omega)
    have hrequest : p.request.2.waiting = [] := by
      simp only [Pool.request, hfree]
      exact hw
    rcases limit with _ | _ | t
    · cases h
      exact ⟨hrequest, fun e he => by cases he⟩
    · obtain ⟨item, rest, hitems⟩ := List.exists_cons_of_length_pos (Nat.zero_lt_of_lt hroom)
      simp only [step, Pool.tryTake, hfree, Pool.popIdle, hitems] at h
      cases h
      exact ⟨hw, fun e he => by cases he⟩
    · cases h
      exact ⟨hrequest, fun e he => by cases he⟩
  | waiting ticket limit =>
    have hmine : ticket ∈ p.granted := hgranted.mem_iff.mpr List.mem_cons_self
    obtain ⟨item, rest, hitems⟩ := List.exists_cons_of_length_pos (Nat.zero_lt_of_lt hroom)
    simp only [step, Pool.redeem, hmine, if_true, Pool.popIdle, hitems] at h
    cases h
    exact ⟨hw, fun e he => by cases he⟩

/-! ### Desks at which nobody waits -/

namespace Desk

/-- The workers of a desk are accounted for, nobody waits for one, and nobody was ever turned away. -/
structure Staffed (members held : List Worker) (tickets : List Nat) (d : Desk) : Prop where
  accounts : d.Accounts members held tickets
  unqueued : d.crew.pool.waiting = []
  unfailed : d.counts.allocationFailures = 0

/-- **What a move does at a desk with a worker to spare**, for one with a duty before and after the move:
nobody waits, and nobody is turned away. What others have in hand is not touched. -/
structure Provides (d d' : Desk) (before after : Duty) : Prop where
  sharing : d'.crew.sharing = d.crew.sharing
  staffed : ∀ members others line, (members.map Worker.serial).Nodup →
    others.length + line.length < members.length →
    d.Staffed members (before.held ++ others) (before.tickets ++ line) →
    d'.Staffed members (after.held ++ others) (after.tickets ++ line)

variable {d d' : Desk} {before after : Duty}

theorem Staffed.of_perm {members held held' : List Worker} {tickets tickets' : List Nat}
    (h : d.Staffed members held tickets) (hw : held.Perm held') (ht : tickets.Perm tickets') :
    d.Staffed members held' tickets' :=
  ⟨h.accounts.of_perm hw ht, h.unqueued, h.unfailed⟩

/-- A desk is staffed at which nothing has happened. -/
theorem staffed_of_fresh (h : d.crew.Fresh) (hcounts : d.counts = .zero) :
    d.Staffed d.crew.members [] [] := by
  refine ⟨accounts_of_fresh h, ?_, ?_⟩
  · rw [h.full]
    rfl
  · rw [hcounts]
    rfl

/-- Nothing happens to workers or tickets. -/
theorem Provides.still (d : Desk) (hheld : after.held = before.held)
    (htickets : after.tickets = before.tickets) : Provides d d before after := by
  refine ⟨rfl, fun members others line _ _ h => ?_⟩
  rw [hheld, htickets]
  exact h

/-- Two moves, one after the other. -/
theorem Provides.trans {d'' : Desk} {between : Duty} (h : Provides d d' before between)
    (h' : Provides d' d'' between after) : Provides d d'' before after :=
  ⟨h'.sharing.trans h.sharing, fun members others line hd hroom hstaffed =>
    h'.staffed members others line hd hroom (h.staffed members others line hd hroom hstaffed)⟩

theorem provides_of_release (d : Desk) (worker : Worker) (calls : List FunctionCall) :
    Provides d (d.release worker) ⟨[worker], [], calls⟩ .none :=
  ⟨rfl, fun _ _ _ hd _ h => ⟨h.accounts.release hd, Pool.waiting_giveBack h.unqueued _ _, h.unfailed⟩⟩

theorem provides_of_dropAcquire (d : Desk) (acquire : Acquire) :
    Provides d (d.dropAcquire acquire) ⟨[], acquire.tickets, []⟩ .none := by
  refine ⟨rfl, fun members others line _ _ h => ⟨h.accounts.dropAcquire, ?_, h.unfailed⟩⟩
  cases acquire with
  | asking limit => exact h.unqueued
  | waiting ticket limit => exact Pool.waiting_withdraw h.unqueued ticket

/-- A run that ends is no reason to turn anybody away. -/
theorem provides_of_recordRun (d : Desk) (worker : Worker) (outcome : Outcome) (held : List Worker)
    (calls calls' : List FunctionCall) :
    Provides d (d.recordRun worker outcome) ⟨held, [], calls⟩ ⟨held, [], calls'⟩ := by
  refine ⟨rfl, fun members others line _ _ h =>
    ⟨h.accounts.of_pool (pool_recordRun worker outcome d), h.unqueued, ?_⟩⟩
  have hrecord : ∀ succeeded,
      (d.counts.record succeeded).allocationFailures = d.counts.allocationFailures := by
    intro succeeded
    cases succeeded <;> rfl
  exact (hrecord outcome.succeeded).trans h.unfailed

/-- **A call that takes a worker moves**, and is not turned away. -/
theorem provides_of_stepAcquire {a : Ambient} {acquire : Acquire} {m : Move Acquire (Except Error Worker)}
    (hs : d.stepAcquire a acquire = some (m, d')) :
    Provides d d' ⟨[], acquire.tickets, []⟩ (dutyAfter m) := by
  have hstep := hs
  rw [stepAcquire] at hstep
  refine ⟨?_, fun members others line _ hroom h => ?_⟩
  · split at hstep <;> cases hstep <;> rfl
  · have hidle := h.accounts.workers.length_eq
    rw [List.nil_append, List.length_append] at hidle
    have hkey : ∀ m pool, acquire.step a.now d.crew.pool = some (m, pool) →
        pool.waiting = [] ∧ ∀ e, m ≠ .ends (.error e) := fun m pool hp =>
      Acquire.step_of_room h.accounts.balanced h.accounts.ticketed h.unqueued (by omega) hp
    have haccounts := h.accounts.stepAcquire hs
    split at hstep
    · cases hstep
    next hp =>
      cases hstep
      exact ⟨haccounts, (hkey _ _ hp).1, h.unfailed⟩
    next hp =>
      cases hstep
      exact ⟨haccounts, (hkey _ _ hp).1, h.unfailed⟩
    next e pool hp => exact absurd rfl ((hkey _ _ hp).2 e)

end Desk

/-! ### Calls at such a desk -/

section Calls

variable {a a' : Ambient} {d d' : Desk}

/-- A submission holds one worker at most, or the ticket for one. -/
theorem Submission.duty_light (call : Submission) : call.duty.held.length + call.duty.tickets.length ≤ 1 := by
  cases call with
  | ready event limit => exact Nat.zero_le _
  | acquiring event acquire => cases acquire <;> simp [duty, Acquire.tickets]
  | running worker event run => exact Nat.le_refl _

/-- A submission that moves finds a worker if it asks for one. -/
theorem Submission.step_provides {call : Submission} {m : Move Submission (SubmitOutcome × Event)}
    (hs : call.step a d = some (m, a', d')) : d.Provides d' call.duty (Duty.after duty m) := by
  cases call with
  | ready event limit =>
    cases hs
    exact .still d rfl rfl
  | acquiring event acquire =>
    rw [step] at hs
    split at hs
    · cases hs
    next hacquire =>
      cases hs
      exact Desk.provides_of_stepAcquire hacquire
    next hacquire =>
      cases hs
      exact Desk.provides_of_stepAcquire hacquire
    next hacquire =>
      cases hs
      exact (Desk.provides_of_stepAcquire hacquire).trans (.still _ rfl rfl)
  | running worker event run =>
    rw [step] at hs
    split at hs
    · cases hs
      rw [Desk.record_release]
      exact (d.provides_of_recordRun worker run.outcome [worker] _ []).trans
        (Desk.provides_of_release _ worker [])
    · cases hs

theorem Submission.drop_provides (call : Submission) (d : Desk) :
    d.Provides (call.drop d) call.duty .none := by
  cases call with
  | ready event limit => exact .still d rfl rfl
  | acquiring event acquire => exact d.provides_of_dropAcquire acquire
  | running worker event run => exact d.provides_of_release worker _

/-- A batch holds one worker at most, or the ticket for one. -/
theorem Batch.duty_light (call : Batch) : call.duty.held.length + call.duty.tickets.length ≤ 1 := by
  cases call with
  | ready events limit => exact Nat.zero_le _
  | acquiring events acquire => cases acquire <;> simp [duty, Acquire.tickets]
  | between worker done events rest => exact Nat.le_refl _
  | running worker done events rest run => exact Nat.le_refl _

/-- A batch that moves finds a worker if it asks for one. -/
theorem Batch.step_provides {call : Batch} {m : Move Batch (BatchOutcome × List Event)}
    (hs : call.step a d = some (m, a', d')) : d.Provides d' call.duty (Duty.after duty m) := by
  cases call with
  | ready events limit =>
    cases hs
    exact .still d rfl rfl
  | acquiring events acquire =>
    rw [step] at hs
    split at hs
    · cases hs
    next hacquire =>
      cases hs
      exact Desk.provides_of_stepAcquire hacquire
    next hacquire =>
      cases hs
      exact Desk.provides_of_stepAcquire hacquire
    next hacquire =>
      cases hs
      exact Desk.provides_of_stepAcquire hacquire
  | between worker done events rest =>
    cases rest with
    | nil =>
      cases hs
      exact d.provides_of_release worker []
    | cons event rest =>
      cases hs
      exact .still d rfl rfl
  | running worker done events rest run =>
    rw [step] at hs
    split at hs
    · cases hs
      exact d.provides_of_recordRun worker run.outcome [worker] _ []
    · cases hs

theorem Batch.drop_provides (call : Batch) (d : Desk) : d.Provides (call.drop d) call.duty .none := by
  cases call with
  | ready events limit => exact .still d rfl rfl
  | acquiring events acquire => exact d.provides_of_dropAcquire acquire
  | between worker done events rest => exact d.provides_of_release worker []
  | running worker done events rest run => exact d.provides_of_release worker _

/-- An assignment leaves the workers where they are. -/
theorem Assignment.step_provides {call : Assignment} {m : Move Assignment (Outcome × Event)}
    (held : List Worker) (calls calls' : List FunctionCall) (hs : call.step a d = some (m, a', d')) :
    d.Provides d' ⟨held, [], calls⟩ ⟨held, [], calls'⟩ := by
  cases call with
  | ready worker event =>
    cases hs
    exact .still d rfl rfl
  | prepared worker event =>
    cases hs
    exact .still d rfl rfl
  | running worker event run =>
    rw [step] at hs
    split at hs
    · cases hs
      exact d.provides_of_recordRun worker run.outcome held calls calls'
    · cases hs

end Calls

/-! ### Kinds of sources -/

namespace Workload

variable {σ τ : Type}

/-- What a move leaves behind where the desk has a worker to spare. A source that suits some number of
workers suits it afterwards. -/
structure Provided (k : Workload σ τ) (suits : Nat → σ → Prop) (before after : Duty) (s s' : σ) : Prop where
  desk : (k.desk s).Provides (k.desk s') before after
  suits : ∀ n, suits n s → suits n s'

variable {k : Workload σ τ} {suits : Nat → σ → Prop} {s : σ}

/-- A move that changes neither the source nor the duty. -/
theorem Provided.refl {duty : Duty} : k.Provided suits duty duty s s := ⟨.still _ rfl rfl, fun _ => id⟩

/-- A kind of source whose tasks find workers: `suits n s` says that `n` workers are enough for the source. -/
structure Staffing (k : Workload σ τ) (suits : Nat → σ → Prop) : Prop where
  /-- A task holds one worker at most, or the ticket for one. -/
  light : ∀ task, (k.duty task).held.length + (k.duty task).tickets.length ≤ 1
  set_suits : ∀ {n} l s, suits n s → suits n (k.rules.setLifecycle l s)
  moved : ∀ {signal task w s m w' s'}, k.rules.step signal task w s = some (m, w', s') →
    k.Provided suits (k.duty task) (Duty.after k.duty m) s s'
  dropped : ∀ task w s, k.Provided suits (k.duty task) .none s (k.rules.drop task w s).2

end Workload

namespace Generator

/-- A generator has a task for each worker, if its crew is shared. -/
def Suits (_ : Nat) (g : Generator) : Prop := g.desk.crew.sharing = .shared

theorem provided_of_desk {before after : Duty} {g : Generator} {desk : Desk}
    (h : g.desk.Provides desk before after) : workload.Provided Suits before after g { g with desk } :=
  ⟨h, fun _ hshared => h.sharing.trans hshared⟩

theorem provided_of_moves {signal : Signal} {task : Generation} {m : Move Generation Unit} {w w' : World}
    {g g' : Generator} (h : Moves signal w g task m w' g') :
    workload.Provided Suits task.duty (Duty.after Generation.duty m) g g' := by
  cases h with
  | submits hsubmit => exact provided_of_desk (Submission.step_provides hsubmit)
  | returns hsubmit => exact provided_of_desk (Submission.step_provides hsubmit)
  | _ => exact .refl

/-- **The tasks of a generator find workers.** -/
theorem staffing : workload.Staffing Suits where
  light task := by
    cases task with
    | idle index made => exact Nat.zero_le _
    | pausing index made pause => exact Nat.zero_le _
    | submitting index made submission => exact submission.duty_light
  set_suits _ _ h := h
  moved hs := provided_of_moves (moves_of_step hs)
  dropped task w g := by
    cases task with
    | idle index made => exact .refl
    | pausing index made pause => exact .refl
    | submitting index made submission => exact provided_of_desk (submission.drop_provides g.desk)

end Generator

namespace QueueSource

/-- A source that listens to a broker has as many tasks as workers, and at least one. -/
def Suits (n : Nat) (_ : QueueSource) : Prop := 0 < n

theorem provided_of_moves {policy : AckPolicy} {signal : Signal} {l : Listener} {m : Move Listener Unit}
    {w w' : World} {q q' : QueueSource} (h : Moves signal w q l m w' q') :
    (workload policy).Provided Suits l.duty (Duty.after Listener.duty m) q q' := by
  cases h with
  | submits hsubmit => exact ⟨Submission.step_provides hsubmit, fun _ => id⟩
  | completes hsubmit => exact ⟨Submission.step_provides hsubmit, fun _ => id⟩
  | forgets hsubmit => exact ⟨Submission.step_provides hsubmit, fun _ => id⟩
  | _ => exact .refl

/-- **The tasks of a source that listens to a broker find workers.** -/
theorem staffing (policy : AckPolicy) : (workload policy).Staffing Suits where
  light task := by
    cases task with
    | handling d submission => exact submission.duty_light
    | checking => exact Nat.zero_le _
    | reaching trip => exact Nat.zero_le _
    | receiving call => exact Nat.zero_le _
    | acking d trip => exact Nat.zero_le _
    | resting pause => exact Nat.zero_le _
  set_suits _ _ h := h
  moved hs := provided_of_moves (moves_of_step hs)
  dropped task w q := by
    cases task with
    | handling d submission => exact ⟨submission.drop_provides q.desk, fun _ => id⟩
    | checking => exact .refl
    | reaching trip => exact .refl
    | receiving call => exact .refl
    | acking d trip => exact .refl
    | resting pause => exact .refl

end QueueSource

namespace StreamSource

variable {signal : Signal} {r : Reader} {m : Move Reader Unit} {w w' : World} {s s' : StreamSource}

/-- A source that reads a stream has a task for each shard. -/
def Suits (n : Nat) (s : StreamSource) : Prop := s.settings.shards.length ≤ n

theorem provided_of_moves (h : Moves signal w s r m w' s') :
    workload.Provided Suits r.duty (Duty.after Reader.duty m) s s' := by
  cases h with
  | withdraws => exact ⟨s.desk.provides_of_dropAcquire _, fun _ => id⟩
  | queues _ hacquire => exact ⟨Desk.provides_of_stepAcquire hacquire, fun _ => id⟩
  | misses _ hacquire => exact ⟨Desk.provides_of_stepAcquire hacquire, fun _ => id⟩
  | hires _ hacquire => exact ⟨Desk.provides_of_stepAcquire hacquire, fun _ => id⟩
  | handles hassign => exact ⟨Assignment.step_provides [_] _ _ hassign, fun _ => id⟩
  | completes hassign => exact ⟨Assignment.step_provides [_] _ [] hassign, fun _ => id⟩
  | breaks => exact ⟨s.desk.provides_of_release _ [], fun _ => id⟩
  | quits hrests =>
    rw [hrests.duty_eq]
    exact ⟨s.desk.provides_of_release _ [], fun _ => id⟩
  | _ => exact .refl

/-- **The tasks of a source that reads a stream find workers.** -/
theorem staffing : workload.Staffing Suits where
  light task := by
    cases task with
    | hiring shard allocation =>
      cases allocation <;> simp [workload, Workload.plain, Reader.duty, Acquire.tickets]
    | locating shard worker resume trip => exact Nat.le_refl _
    | relocating shard worker resume pause => exact Nat.le_refl _
    | idle shard worker position => exact Nat.le_refl _
    | pausing shard worker position pause => exact Nat.le_refl _
    | fetching shard worker position trip => exact Nat.le_refl _
    | between shard worker rest next => exact Nat.le_refl _
    | handling shard worker record rest next assignment => exact Nat.le_refl _
  set_suits _ _ h := h
  moved hs := provided_of_moves (moves_of_step hs)
  dropped task w s := by
    cases task with
    | hiring shard allocation => exact ⟨s.desk.provides_of_dropAcquire allocation, fun _ => id⟩
    | locating shard worker resume trip => exact ⟨s.desk.provides_of_release worker [], fun _ => id⟩
    | relocating shard worker resume pause => exact ⟨s.desk.provides_of_release worker [], fun _ => id⟩
    | idle shard worker position => exact ⟨s.desk.provides_of_release worker [], fun _ => id⟩
    | pausing shard worker position pause => exact ⟨s.desk.provides_of_release worker [], fun _ => id⟩
    | fetching shard worker position trip => exact ⟨s.desk.provides_of_release worker [], fun _ => id⟩
    | between shard worker rest next => exact ⟨s.desk.provides_of_release worker [], fun _ => id⟩
    | handling shard worker record rest next assignment =>
      exact ⟨s.desk.provides_of_release worker assignment.calls, fun _ => id⟩

end StreamSource

namespace PollSource

/-- A source that polls has one task. -/
def Suits (n : Nat) (_ : PollSource) : Prop := 0 < n

theorem provides_of_consumer {signal : Signal} {c c' : Channel} {w w' : World} {s s' : PollSource}
    {consumer consumer' : Consumer}
    (hs : s.stepConsumer signal c w consumer = some (consumer', c', w', s')) :
    s.desk.Provides s'.desk consumer.duty consumer'.duty := by
  cases Consumer.moves_of_step hs with
  | submits hbatch | handles hbatch => exact Batch.step_provides hbatch
  | misses hbatch =>
    rw [(quiet_afterBatch _).1]
    exact Batch.step_provides hbatch
  | returns hwrapup =>
    rw [(quiet_afterBatch _).1]
    exact .still _ rfl rfl
  | _ => exact .still _ rfl rfl

theorem provides_of_step {signal : Signal} {task : PollTask} {m : Move PollTask Unit} {w w' : World}
    {s s' : PollSource} (hs : s.step signal task w = some (m, w', s')) :
    s.desk.Provides s'.desk task.duty (Duty.after PollTask.duty m) := by
  cases moves_of_step hs with
  | receives hsubmit => exact provides_of_consumer hsubmit
  | _ => exact .still _ rfl rfl

/-- **The task of a source that polls finds workers.** -/
theorem staffing (stamp? : Option Stamp) : (workload stamp?).Staffing Suits where
  light task := by
    cases task with
    | checking => exact Nat.zero_le _
    | pausing pause => exact Nat.zero_le _
    | cycling turn c producer consumer =>
      cases consumer with
      | submitting isLast batch => exact batch.duty_light
      | receiving batch => exact Nat.zero_le _
      | wrapping isLast previous wrapup => exact Nat.zero_le _
      | done => exact Nat.zero_le _
  set_suits _ _ h := h
  moved hs := ⟨provides_of_step hs, fun _ => id⟩
  dropped task w s := by
    refine ⟨?_, fun _ => id⟩
    cases task with
    | checking => exact .still _ rfl rfl
    | pausing pause => exact .still _ rfl rfl
    | cycling turn c producer consumer =>
      cases consumer with
      | submitting isLast batch => exact batch.drop_provides s.desk
      | receiving batch => exact .still _ rfl rfl
      | wrapping isLast previous wrapup => exact .still _ rfl rfl
      | done => exact .still _ rfl rfl

end PollSource

/-! ### One task among others -/

namespace Lifecycle

variable {τ : Type} {l : Lifecycle (Task τ)} {handle : Nat} {task : Task τ}

/-- A task that lives is one of those that do. -/
theorem length_live_finish (hd : l.alive.Nodup) (ht : l.task? handle = some task) :
    (l.finish handle).live.length + 1 = l.live.length := by
  obtain ⟨pre, post, hlive, hfinish, -⟩ := exists_split hd ht
  rw [hlive, hfinish]
  simp only [List.length_append, List.length_cons]
  omega

theorem length_live_moved (signal : Signal) (m : Move τ Unit) :
    (l.moved handle signal m).live.length ≤ l.live.length := by
  cases m with
  | goes next => exact Nat.le_of_eq (List.length_map _)
  | ends result => exact List.length_filter_le _ _

theorem nodup_alive_moved (hd : l.alive.Nodup) (signal : Signal) (m : Move τ Unit) :
    (l.moved handle signal m).alive.Nodup := by
  cases m with
  | goes next =>
    rw [moved, alive_replace]
    exact hd
  | ends result => exact hd.sublist (List.filter_sublist.map _)

end Lifecycle

namespace Workload

variable {σ τ : Type} {k : Workload σ τ} {suits : Nat → σ → Prop} {members : List Worker} {w w' : World}
  {s s' : σ}

/-- There are no more tasks than workers, and nobody waits for one. -/
structure Manned (k : Workload σ τ) (suits : Nat → σ → Prop) (members : List Worker) (s : σ) : Prop where
  suited : suits members.length s
  distinct : (k.rules.lifecycle s).alive.Nodup
  few : (k.rules.lifecycle s).live.length ≤ members.length
  staffed : (k.desk s).Staffed members (k.duties (k.rules.lifecycle s)).held
    (k.duties (k.rules.lifecycle s)).tickets

/-- All tasks together hold no more workers and tickets than there are tasks. -/
theorem Staffing.length_duties_le (hk : k.Staffing suits) (l : Lifecycle (Task τ)) :
    (k.duties l).held.length + (k.duties l).tickets.length ≤ l.live.length := by
  rw [duties]
  induction l.live with
  | nil => exact Nat.le_refl _
  | cons t rest ih =>
    have hlight := hk.light t.2.state
    rw [List.map_cons, Duty.all_cons, Duty.and]
    simp only [List.length_append, List.length_cons]
    omega

namespace Manned

/-- A lifecycle is put in the place of another. -/
theorem of_setLifecycle (hk : k.Staffing suits) (hl : k.Lawful) {l : Lifecycle (Task τ)}
    (hsuited : suits members.length s) (hdistinct : l.alive.Nodup) (hfew : l.live.length ≤ members.length)
    (hstaffed : (k.desk s).Staffed members (k.duties l).held (k.duties l).tickets) :
    k.Manned suits members (k.rules.setLifecycle l s) := by
  refine ⟨hk.set_suits l s hsuited, ?_, ?_, ?_⟩
  · rw [hl.sealed.get_set]
    exact hdistinct
  · rw [hl.sealed.get_set]
    exact hfew
  · rw [hl.sealed.get_set, hl.set_desk]
    exact hstaffed

/-- **There is a worker for the task that moves**: the others hold fewer than there are. -/
theorem provided (hk : k.Staffing suits) (hd : (members.map Worker.serial).Nodup)
    (h : k.Manned suits members s) {handle : Nat} {task : Task τ}
    (ht : (k.rules.lifecycle s).task? handle = some task) {after : Duty}
    (hp : k.Provided suits (k.duty task.state) after s s') :
    suits members.length s' ∧ (k.desk s').Staffed members
      (after.and (k.duties ((k.rules.lifecycle s).finish handle))).held
      (after.and (k.duties ((k.rules.lifecycle s).finish handle))).tickets := by
  obtain ⟨hbefore, -⟩ := perm_duties (k := k) h.distinct ht
  have hothers := hk.length_duties_le ((k.rules.lifecycle s).finish handle)
  have hlast := Lifecycle.length_live_finish h.distinct ht
  have hfew := h.few
  refine ⟨hp.suits _ h.suited, hp.desk.staffed members _ _ hd (by omega) ?_⟩
  exact h.staffed.of_perm hbefore.held hbefore.tickets

/-- **A task moves.** -/
theorem works (hk : k.Staffing suits) (hl : k.Lawful) (hd : (members.map Worker.serial).Nodup)
    (h : k.Manned suits members s) {handle : Nat} (hs : k.rules.stepLive handle w s = some (w', s')) :
    k.Manned suits members s' := by
  obtain ⟨task, m, s₁, htask, hstep, rfl⟩ := TaskRules.stepLive_cases hs
  obtain ⟨hsuited, hstaffed⟩ := h.provided hk hd htask (hk.moved hstep)
  obtain ⟨-, hduties⟩ := perm_duties (k := k) h.distinct htask
  have hafter := (hduties m).symm
  rw [hl.sealed.get_step hstep]
  exact of_setLifecycle hk hl hsuited (Lifecycle.nodup_alive_moved h.distinct _ _)
    ((Lifecycle.length_live_moved _ _).trans h.few) (hstaffed.of_perm hafter.held hafter.tickets)

/-- **A stop moves.** What it gives up goes back to the desk. -/
theorem stops (hk : k.Staffing suits) (hl : k.Lawful) (hd : (members.map Worker.serial).Nodup)
    (h : k.Manned suits members s) {stop : Stop} {m : Move Stop Unit}
    (hs : k.rules.stop stop w s = some (m, w', s')) : k.Manned suits members s' := by
  refine TaskRules.stop_gives (P := fun _ s => k.Manned suits members s) (fun h => ?_) ?_ hs h
  · have hlive := Lifecycle.live_halt (k.rules.lifecycle s)
    refine of_setLifecycle hk hl h.suited ?_ ?_ ?_
    · rw [Lifecycle.alive, hlive]
      exact h.distinct
    · rw [hlive]
      exact h.few
    · rw [duties, hlive]
      exact h.staffed
  · intro handle task w₁ s₁ htask h
    have hdropped := hk.dropped task.state w₁ (k.rules.setLifecycle ((k.rules.lifecycle s₁).finish handle) s₁)
    have hdesk := hdropped.desk
    rw [hl.set_desk] at hdesk
    obtain ⟨hsuited, hstaffed⟩ := h.provided hk hd htask
      ⟨hdesk, fun n hn => hdropped.suits n (hk.set_suits _ _ hn)⟩
    refine ⟨hsuited, ?_, ?_, ?_⟩
    · rw [hl.sealed.get_drop, hl.sealed.get_set]
      exact h.distinct.sublist (List.filter_sublist.map _)
    · rw [hl.sealed.get_drop, hl.sealed.get_set]
      exact (List.length_filter_le _ _).trans h.few
    · rw [hl.sealed.get_drop, hl.sealed.get_set]
      exact hstaffed

/-- The two states differ in nothing that counts. -/
theorem alike (h : k.Manned suits members s) (ha : k.Alike s s') (hsuited : suits members.length s') :
    k.Manned suits members s' := by
  refine ⟨hsuited, ?_, ?_, ?_⟩
  · rw [ha.lifecycle]
    exact h.distinct
  · rw [ha.lifecycle]
    exact h.few
  · rw [ha.lifecycle, ha.desk]
    exact h.staffed

/-- **A run begins**, with no more tasks than there are workers. -/
theorem begins (hk : k.Staffing suits) (hl : k.Lawful) (h : k.Manned suits members s)
    (hrun : (k.rules.lifecycle s).running = false) (hlive : (k.rules.lifecycle s).live = []) {tasks : List τ}
    (hcount : tasks.length ≤ members.length) (htasks : ∀ t ∈ tasks, k.duty t = .none) :
    k.Manned suits members (k.rules.start tasks s).2 ∧
      Tended none (k.rules.lifecycle (k.rules.start tasks s).2) := by
  obtain ⟨l, hstart, htended, hstates⟩ := TaskRules.start_states hrun hlive tasks
  have hnone : k.duties l = .none := by
    refine Duty.all_eq_none fun duty hduty => ?_
    obtain ⟨t, ht, rfl⟩ := List.mem_map.mp hduty
    exact htasks _ (hstates ▸ List.mem_map_of_mem (f := fun t => t.2.state) ht)
  have hstaffed := h.staffed
  rw [duties_eq_none hlive] at hstaffed
  rw [hstart]
  refine ⟨of_setLifecycle hk hl h.suited htended.distinct ?_ ?_, ?_⟩
  · have hlength := congrArg List.length hstates
    rw [List.length_map] at hlength
    exact hlength ▸ hcount
  · rw [hnone]
    exact hstaffed
  · rw [hl.sealed.get_set]
    exact htended

end Manned

end Workload

end EventDispatch
