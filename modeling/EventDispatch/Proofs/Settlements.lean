import EventDispatch.Proofs.Counters
import EventDispatch.Proofs.StreamMoves
import EventDispatch.Proofs.TaskKinds
import Mathlib.Algebra.Group.Prod

/-!
# What is settled

When a run of the function is over, or a call finds no worker, something is settled at a source. What a move settles is
told by the call that moves, without a look at the counters: a call at a desk has one run in progress at most, and ends
in one refusal at most. A task of a source moves a call at its desk, or none.

The counters follow. A move adds to each counter what it settles, and nothing else changes a counter: not a start, not
a stop by force or without, and not a call that is given up.

## What is deliberately absent

Counters wrap around, and nothing is said here of how far they are from it. How long a run took is settled by itself:
the clock that tells it is not part of a desk.

## Main definitions

* `Settled`: what may be settled; `Settled.source` and `Settled.worker` tell what it adds to which counters.
* `Desk.Counted`: the counters of a desk are ahead of those that it had by what was settled.
* `Work`: a call at a desk; `Work.settles` is what its next move settles.
* `Worksheet`: a kind of source, as seen by one who looks for calls at the desk.

## Main results

* `Work.counted_of_serve`: a call at a desk adds what it settles.
* `Generator.worksheet_faithful`, `QueueSource.worksheet_faithful`, `StreamSource.worksheet_faithful`,
  `PollSource.worksheet_faithful`: so do the tasks of all kinds of sources.
* `Source.counted_of_stepTask`, `Source.counted_of_stepStop`, `Source.counted_of_start`: a source of any kind adds what
  its tasks settle, and nothing when it starts or stops.
-/

namespace EventDispatch

/-! ### Amounts -/

namespace SourceCounts

/-- The counters as numbers: successes, failures, and the calls that found no worker. -/
def amounts (c : SourceCounts) : ℕ × ℕ × ℕ := (c.success.toNat, c.failure.toNat, c.allocationFailures.toNat)

/-- The counters when so much was added. -/
def plus (n : ℕ × ℕ × ℕ) (c : SourceCounts) : SourceCounts :=
  ⟨c.success + .ofNat n.1, c.failure + .ofNat n.2.1, c.allocationFailures + .ofNat n.2.2⟩

@[simp] theorem plus_zero (c : SourceCounts) : c.plus 0 = c := by simp [plus]

theorem plus_plus (n m : ℕ × ℕ × ℕ) (c : SourceCounts) : (c.plus n).plus m = c.plus (n + m) := by
  simp only [plus, Prod.fst_add, Prod.snd_add, UInt64.ofNat_add, UInt64.add_assoc]

end SourceCounts

namespace WorkerCounts

/-- The counters as numbers: successes, failures, microseconds, and events processed. -/
def amounts (c : WorkerCounts) : ℕ × ℕ × ℕ × ℕ :=
  (c.success.toNat, c.failure.toNat, c.micros.toNat, c.count.toNat)

/-- The counters when so much was added. -/
def plus (n : ℕ × ℕ × ℕ × ℕ) (c : WorkerCounts) : WorkerCounts :=
  ⟨c.success + .ofNat n.1, c.failure + .ofNat n.2.1, c.micros + .ofNat n.2.2.1, c.count + .ofNat n.2.2.2⟩

@[simp] theorem plus_zero (c : WorkerCounts) : c.plus 0 = c := by simp [plus]

@[simp] theorem map_plus_zero (c : Option WorkerCounts) : c.map (plus 0) = c := by
  rw [show plus 0 = id from funext plus_zero, Option.map_id, id]

theorem plus_plus (n m : ℕ × ℕ × ℕ × ℕ) (c : WorkerCounts) : (c.plus n).plus m = c.plus (n + m) := by
  simp only [plus, Prod.fst_add, Prod.snd_add, UInt64.ofNat_add, UInt64.add_assoc]

end WorkerCounts

/-! ### What may be settled -/

/-- What may be settled at a source. -/
inductive Settled where
  /-- A run of the function is over. -/
  | run (run : EndedRun)
  /-- A call found no worker. -/
  | refusal
  /-- It is told how long a run took on a worker. -/
  | took (worker : Worker) (micros : ℕ)

namespace Settled

/-- What is added to the counters of the source. A call that found no worker is a failure too. -/
def source : Settled → ℕ × ℕ × ℕ
  | run r => if r.outcome.succeeded then (1, 0, 0) else (0, 1, 0)
  | refusal => (0, 1, 1)
  | took _ _ => 0

/-- What is added to the counters of the worker with a serial. -/
def worker (serial : ℕ) : Settled → ℕ × ℕ × ℕ × ℕ
  | run r =>
    if r.worker.serial = serial then if r.outcome.succeeded then (1, 0, 0, 1) else (0, 1, 0, 1) else 0
  | refusal => 0
  | took worker micros => if worker.serial = serial then (0, 0, micros, 0) else 0

/-- What all of it adds to the counters of the source. -/
def sourceTotal (settled : List Settled) : ℕ × ℕ × ℕ := (settled.map source).sum

/-- What all of it adds to the counters of the worker with a serial. -/
def workerTotal (serial : ℕ) (settled : List Settled) : ℕ × ℕ × ℕ × ℕ := (settled.map (worker serial)).sum

@[simp] theorem sourceTotal_nil : sourceTotal [] = 0 := rfl

@[simp] theorem workerTotal_nil (serial : ℕ) : workerTotal serial [] = 0 := rfl

@[simp] theorem sourceTotal_singleton (s : Settled) : sourceTotal [s] = s.source := by simp [sourceTotal]

@[simp] theorem workerTotal_singleton (serial : ℕ) (s : Settled) : workerTotal serial [s] = s.worker serial := by
  simp [workerTotal]

theorem sourceTotal_append (settled more : List Settled) :
    sourceTotal (settled ++ more) = sourceTotal settled + sourceTotal more := by
  rw [sourceTotal, List.map_append, List.sum_append]
  rfl

theorem workerTotal_append (serial : ℕ) (settled more : List Settled) :
    workerTotal serial (settled ++ more) = workerTotal serial settled + workerTotal serial more := by
  rw [workerTotal, List.map_append, List.sum_append]
  rfl

end Settled

/-! ### The counters of a desk -/

/-- The time of a run is added to what its worker took. -/
def Desk.addTime (worker : Worker) (micros : ℕ) (d : Desk) : Desk :=
  { d with crew := { d.crew with
      counts := d.crew.counts.modify worker.serial fun c => { c with micros := c.micros + .ofNat micros } } }

/-- **The counters of a desk are ahead** of those that it had by what was settled. -/
structure Desk.Counted (d d' : Desk) (settled : List Settled) : Prop where
  source : d'.counts = d.counts.plus (Settled.sourceTotal settled)
  workers : ∀ i : ℕ, d'.crew.counts[i]? = (d.crew.counts[i]?).map (WorkerCounts.plus (Settled.workerTotal i settled))

namespace Desk

variable {a a' : Ambient} {d d' d'' : Desk} {settled more : List Settled}

namespace Counted

/-- Nothing is settled. -/
theorem still (hcounts : d'.counts = d.counts) (hcrew : d'.crew.counts = d.crew.counts) : Counted d d' [] where
  source := by simp [hcounts]
  workers i := by rw [hcrew, Settled.workerTotal_nil, WorkerCounts.map_plus_zero]

theorem refl (d : Desk) : Counted d d [] := .still rfl rfl

/-- First one thing is settled, and then another. -/
theorem trans (h : Counted d d' settled) (h' : Counted d' d'' more) : Counted d d'' (settled ++ more) where
  source := by rw [h'.source, h.source, SourceCounts.plus_plus, Settled.sourceTotal_append]
  workers i := by
    rw [h'.workers, h.workers, Option.map_map, Settled.workerTotal_append]
    congr 1
    funext c
    exact WorkerCounts.plus_plus _ _ c

/-- Nothing is settled any more. -/
theorem then_still (h : Counted d d' settled) (hcounts : d''.counts = d'.counts)
    (hcrew : d''.crew.counts = d'.crew.counts) : Counted d d'' settled := by
  have hboth := h.trans (.still hcounts hcrew)
  rwa [List.append_nil] at hboth

/-- One entry of the table of workers changes. -/
theorem getElem?_modify_plus {counts : List WorkerCounts} {serial : ℕ} {f : WorkerCounts → WorkerCounts}
    {n : ℕ → ℕ × ℕ × ℕ × ℕ} (hf : ∀ c, f c = c.plus (n serial)) (hothers : ∀ i, serial ≠ i → n i = 0) (i : ℕ) :
    (counts.modify serial f)[i]? = (counts[i]?).map (WorkerCounts.plus (n i)) := by
  rw [List.getElem?_modify, Option.map_eq_map]
  congr 1
  funext c
  by_cases heq : serial = i
  · rw [if_pos heq, hf, heq]
  · rw [if_neg heq, hothers i heq, WorkerCounts.plus_zero]

/-- **A run is over.** -/
theorem recordRun (d : Desk) (worker : Worker) (outcome : Outcome) :
    Counted d (d.recordRun worker outcome) [.run ⟨worker, outcome⟩] where
  source := by
    rw [Settled.sourceTotal_singleton]
    change d.counts.record outcome.succeeded = _
    cases hs : outcome.succeeded <;> simp [SourceCounts.record, SourceCounts.plus, Settled.source, hs]
  workers i := by
    rw [Settled.workerTotal_singleton]
    refine getElem?_modify_plus (n := (Settled.worker · (.run ⟨worker, outcome⟩))) (fun c => ?_) (fun i hne => ?_) i
    · cases hs : outcome.succeeded <;> simp [WorkerCounts.record, WorkerCounts.plus, Settled.worker, hs, Span.micros]
    · exact if_neg hne

/-- **No worker was found.** -/
theorem recordAllocationFailure (d : Desk) : Counted d d.recordAllocationFailure [.refusal] where
  source := by
    rw [Settled.sourceTotal_singleton]
    simp [Desk.recordAllocationFailure, SourceCounts.recordAllocationFailure, SourceCounts.plus, Settled.source]
  workers i := by
    rw [Settled.workerTotal_singleton, Settled.worker, WorkerCounts.map_plus_zero]
    rfl

/-- It is told how long a run took. -/
theorem addTime (d : Desk) (worker : Worker) (micros : ℕ) :
    Counted d (d.addTime worker micros) [.took worker micros] where
  source := by simp [Desk.addTime, Settled.source]
  workers i := by
    rw [Settled.workerTotal_singleton]
    refine getElem?_modify_plus (n := (Settled.worker · (.took worker micros))) (fun c => ?_) (fun i hne => ?_) i
    · simp [WorkerCounts.plus, Settled.worker]
    · exact if_neg hne

end Counted

end Desk

/-! ### Calls at a desk -/

/-- What a move settles that ends these runs, and in so many refusals. -/
def Settled.ofMove (runs : List EndedRun) (refusals : ℕ) : List Settled :=
  runs.map run ++ List.replicate refusals refusal

/-- **What is recorded is settled.** -/
theorem Desk.Recorded.counted {d d' : Desk} {runs : List EndedRun} {refusals : ℕ} (h : d.Recorded runs refusals d') :
    d.Counted d' (Settled.ofMove runs refusals) := by
  cases h with
  | nothing hstill => exact .still hstill.source hstill.workers
  | run worker outcome hstill =>
    exact (Counted.recordRun d worker outcome).then_still hstill.source hstill.workers
  | refusal hstill => exact (Counted.recordAllocationFailure d).then_still hstill.source hstill.workers

theorem Submission.counted_drop (call : Submission) (d : Desk) : d.Counted (call.drop d) [] :=
  (DeskCall.recorded_drop (.submit call) d).counted

theorem Batch.counted_drop (call : Batch) (d : Desk) : d.Counted (call.drop d) [] :=
  (DeskCall.recorded_drop (.batch call) d).counted

/-- A call at a desk, for a worker or on one that the caller has. -/
inductive Work where
  | call (c : DeskCall)
  | errand (a : Assignment)

namespace Work

variable {a a' : Ambient} {d d' : Desk}

/-- **What the next move of a call settles**: the run that it has in progress, and a refusal if it ends in one. A call
that has to wait settles nothing. -/
def settles (a : Ambient) (d : Desk) : Work → List Settled
  | call c => ((c.serve a d).map fun x => Settled.ofMove c.inProgress (x.1.refusals DeskAnswer.refused)).getD []
  | errand e => ((e.step a d).map fun _ => Settled.ofMove e.inProgress 0).getD []

/-- **One move of a call at a desk** adds what it settles. -/
theorem counted_of_serve {c : DeskCall} {m : Move DeskCall DeskAnswer} (hs : c.serve a d = some (m, a', d')) :
    d.Counted d' ((call c).settles a d) := by
  rw [settles, hs]
  exact (DeskCall.recorded_of_serve hs).counted

theorem counted_of_submission {call : Submission} {m : Move Submission (SubmitOutcome × Event)}
    (hs : call.step a d = some (m, a', d')) : d.Counted d' ((Work.call (.submit call)).settles a d) := by
  have hserve : (DeskCall.submit call).serve a d = some (m.map .submit (.submitted ·.1), a', d') := by
    rw [DeskCall.serve, hs]
    rfl
  exact counted_of_serve hserve

theorem counted_of_batch {call : Batch} {m : Move Batch (BatchOutcome × List Event)}
    (hs : call.step a d = some (m, a', d')) : d.Counted d' ((Work.call (.batch call)).settles a d) := by
  have hserve : (DeskCall.batch call).serve a d = some (m.map .batch (.processed ·.1), a', d') := by
    rw [DeskCall.serve, hs]
    rfl
  exact counted_of_serve hserve

theorem counted_of_allocation {call : Allocation} {m : Move Allocation (Except Error Worker)}
    (hs : call.step a d = some (m, d')) : d.Counted d' ((Work.call (.allocate call)).settles a d) := by
  have hserve : (DeskCall.allocate call).serve a d = some (m.map .allocate .allocated, a, d') := by
    rw [DeskCall.serve, hs]
    rfl
  exact counted_of_serve hserve

theorem counted_of_assignment {call : Assignment} {m : Move Assignment (Outcome × Event)}
    (hs : call.step a d = some (m, a', d')) : d.Counted d' ((errand call).settles a d) := by
  rw [settles, hs]
  exact (Assignment.recorded_of_step hs).counted

/-- What is settled where there is a call or none. -/
def settlesAny (a : Ambient) (d : Desk) (work : Option Work) : List Settled := work.elim [] (·.settles a d)

end Work

/-! ### Kinds of sources -/

/-- A kind of source `σ` with tasks `τ`, as seen by one who looks for calls at the desk. -/
structure Worksheet (σ τ : Type) where
  rules : TaskRules σ τ
  desk : σ → Desk
  /-- The call at the desk that a move of a task moves. -/
  work? : Signal → σ → τ → Move τ Unit → Option Work

namespace Worksheet

variable {σ τ : Type} {k : Worksheet σ τ} {w w' : World} {s s' : σ} {handle : Nat}

/-- What the next move of the task behind a handle settles. -/
def settles (k : Worksheet σ τ) (handle : Nat) (w : World) (s : σ) : List Settled :=
  match (k.rules.lifecycle s).task? handle with
  | none => []
  | some task =>
    match k.rules.step task.signal task.state w s with
    | none => []
    | some (m, _) => Work.settlesAny w.ambient (k.desk s) (k.work? task.signal s task.state m)

/-- The tasks of the kind touch the counters only through these calls. -/
structure Faithful (k : Worksheet σ τ) : Prop where
  set_desk : ∀ l s, k.desk (k.rules.setLifecycle l s) = k.desk s
  moved : ∀ {signal task w s m w' s'}, k.rules.step signal task w s = some (m, w', s') →
    (k.desk s).Counted (k.desk s') (Work.settlesAny w.ambient (k.desk s) (k.work? signal s task m))
  dropped : ∀ task w s, (k.desk s).Counted (k.desk (k.rules.drop task w s).2) []

/-- **A task moves.** -/
theorem Faithful.counted_of_stepLive (hk : k.Faithful) (h : k.rules.stepLive handle w s = some (w', s')) :
    (k.desk s).Counted (k.desk s') (k.settles handle w s) := by
  obtain ⟨task, m, s₁, htask, hstep, rfl⟩ := TaskRules.stepLive_cases h
  rw [settles, htask, hk.set_desk]
  dsimp only
  rw [hstep]
  exact hk.moved hstep

/-- A stop settles nothing, whatever it gives up. -/
theorem Faithful.counted_of_stop (hk : k.Faithful) {stop : Stop} {m : Move Stop Unit}
    (h : k.rules.stop stop w s = some (m, w', s')) : (k.desk s).Counted (k.desk s') [] := by
  refine TaskRules.stop_keeps (P := fun _ s' => (k.desk s).Counted (k.desk s') []) (fun l w s' hs' => ?_)
    (fun task w s' hs' => hs'.trans (hk.dropped task w s')) h (.refl _)
  rw [hk.set_desk]
  exact hs'

/-- Neither does a start. -/
theorem Faithful.counted_of_start (hk : k.Faithful) (tasks : List τ) (s : σ) :
    (k.desk s).Counted (k.desk (k.rules.start tasks s).2) [] := by
  rw [TaskRules.start]
  split
  · exact .refl _
  · rw [hk.set_desk]
    exact .refl _

end Worksheet

namespace HttpSource

/-- Sources that serve requests. Their task has no calls. -/
def worksheet : Worksheet HttpSource Unit := ⟨rules, HttpSource.desk, fun _ _ _ _ => none⟩

theorem worksheet_faithful : worksheet.Faithful where
  set_desk _ _ := rfl
  moved h := by
    simp only [worksheet, rules] at h
    split at h
    · cases h
      exact .refl _
    · cases h
  dropped _ _ s := .refl s.desk

end HttpSource

namespace Generator

/-- Generators submit their events. -/
def worksheet : Worksheet Generator Generation where
  rules := rules
  desk := Generator.desk
  work? _ _ task _ :=
    match task with
    | .submitting _ _ submission => some (.call (.submit submission))
    | _ => none

theorem counted_of_moves {signal : Signal} {task : Generation} {w w' : World} {g g' : Generator}
    {m : Move Generation Unit} (h : Moves signal w g task m w' g') :
    g.desk.Counted g'.desk (Work.settlesAny w.ambient g.desk (worksheet.work? signal g task m)) := by
  cases h with
  | submits hsubmit => exact Work.counted_of_submission hsubmit
  | returns hsubmit => exact Work.counted_of_submission hsubmit
  | _ => exact .refl _

theorem worksheet_faithful : worksheet.Faithful where
  set_desk _ _ := rfl
  moved h := counted_of_moves (moves_of_step h)
  dropped task w g := by
    cases task with
    | submitting index made submission => exact submission.counted_drop g.desk
    | idle index made => exact .refl _
    | pausing index made pause => exact .refl _

end Generator

namespace QueueSource

/-- Sources that listen to a broker submit their deliveries. -/
def worksheet : Worksheet QueueSource Listener where
  rules := rules
  desk := QueueSource.desk
  work? _ _ task _ :=
    match task with
    | .handling _ submission => some (.call (.submit submission))
    | _ => none

theorem counted_of_moves {signal : Signal} {task : Listener} {w w' : World} {q q' : QueueSource}
    {m : Move Listener Unit} (h : Moves signal w q task m w' q') :
    q.desk.Counted q'.desk (Work.settlesAny w.ambient q.desk (worksheet.work? signal q task m)) := by
  cases h with
  | submits hsubmit => exact Work.counted_of_submission hsubmit
  | completes hsubmit => exact Work.counted_of_submission hsubmit
  | forgets hsubmit => exact Work.counted_of_submission hsubmit
  | _ => exact .refl _

theorem worksheet_faithful : worksheet.Faithful where
  set_desk _ _ := rfl
  moved h := counted_of_moves (moves_of_step h)
  dropped task w q := by
    cases task with
    | handling delivery submission => exact submission.counted_drop q.desk
    | _ => exact .refl _

end QueueSource

namespace StreamSource

/-- Sources that read a stream take a worker, unless they are told to stop before, and assign it their records. -/
def worksheet : Worksheet StreamSource Reader where
  rules := rules
  desk := StreamSource.desk
  work? signal s task _ :=
    match task with
    | .hiring _ allocation => if s.lifecycle.isReleased signal then none else some (.call (.allocate allocation))
    | .handling _ _ _ _ _ assignment => some (.errand assignment)
    | _ => none

theorem counted_of_moves {signal : Signal} {task : Reader} {w w' : World} {s s' : StreamSource}
    {m : Move Reader Unit} (h : Moves signal w s task m w' s') :
    s.desk.Counted s'.desk (Work.settlesAny w.ambient s.desk (worksheet.work? signal s task m)) := by
  cases h with
  | withdraws hreleased =>
    simp only [worksheet, hreleased, if_true]
    exact .still rfl rfl
  | queues hsignal hacquire | misses hsignal hacquire | hires hsignal hacquire =>
    simp only [worksheet, hsignal]
    exact Work.counted_of_allocation hacquire
  | handles hassign | completes hassign => exact Work.counted_of_assignment hassign
  | quits hrests hreleased hworld =>
    have hnone : worksheet.work? signal s task (.ends ()) = none := by
      cases task with
      | hiring shard allocation => exact False.elim hrests
      | handling shard held record rest next assignment => exact False.elim hrests
      | _ => rfl
    rw [hnone]
    exact .still rfl rfl
  | breaks => exact .still rfl rfl
  | _ => exact .refl _

theorem worksheet_faithful : worksheet.Faithful where
  set_desk _ _ := rfl
  moved h := counted_of_moves (moves_of_step h)
  dropped task w s := by
    cases task <;> exact .still rfl rfl

end StreamSource

namespace PollSource

/-- Sources that poll submit batches, when it is that half's turn. -/
def worksheet : Worksheet PollSource PollTask where
  rules := rules
  desk := PollSource.desk
  work? _ _ task m :=
    match task, m with
    | .cycling _ _ _ (.submitting _ batch), .goes (.cycling .receiving _ _ _) => some (.call (.batch batch))
    | _, _ => none

theorem counted_of_moves {signal : Signal} {task : PollTask} {w w' : World} {s s' : PollSource}
    {m : Move PollTask Unit} (h : Moves signal w s task m w' s') :
    s.desk.Counted s'.desk (Work.settlesAny w.ambient s.desk (worksheet.work? signal s task m)) := by
  cases h with
  | @receives turn c c' producer consumer consumer' w' s' hs =>
    cases Consumer.moves_of_step hs with
    | submits hbatch | misses hbatch | handles hbatch => exact Work.counted_of_batch hbatch
    | _ => exact .refl _
  | @searches turn c c' producer producer' consumer w' driver hs =>
    cases consumer <;> exact .refl _
  | _ => exact .refl _

theorem worksheet_faithful : worksheet.Faithful where
  set_desk _ _ := rfl
  moved h := counted_of_moves (moves_of_step h)
  dropped task w s := by
    cases task with
    | cycling turn c producer consumer =>
      cases consumer with
      | submitting isLast batch => exact batch.counted_drop s.desk
      | _ => exact .refl _
    | _ => exact .refl _

end PollSource

namespace Source

variable {w w' : World} {source source' : Source}

/-- What the next move of the task behind a handle settles. -/
def settles (handle : Nat) (w : World) : Source → List Settled
  | http s => HttpSource.worksheet.settles handle w s
  | generator s => Generator.worksheet.settles handle w s
  | queue s => QueueSource.worksheet.settles handle w s
  | stream s => StreamSource.worksheet.settles handle w s
  | poll s => PollSource.worksheet.settles handle w s
  | probe _ => []

theorem counted_of_map {σ τ : Type} {k : Worksheet σ τ} (wrap : σ → Source) (hk : k.Faithful)
    (hdesk : ∀ s, (wrap s).desk = k.desk s) {s : σ} {handle : Nat}
    (h : (k.rules.stepLive handle w s).map (fun (w, s) => (w, wrap s)) = some (w', source')) :
    (k.desk s).Counted source'.desk (k.settles handle w s) := by
  obtain ⟨⟨w₁, s₁⟩, hlive, heq⟩ := Option.map_eq_some_iff.mp h
  cases heq
  rw [hdesk]
  exact hk.counted_of_stepLive hlive

/-- **A task of a source moves.** -/
theorem counted_of_stepTask {handle : Nat} (h : source.stepTask handle w = some (w', source')) :
    source.desk.Counted source'.desk (source.settles handle w) := by
  cases source with
  | http s => exact counted_of_map http HttpSource.worksheet_faithful (fun _ => rfl) h
  | generator s => exact counted_of_map generator Generator.worksheet_faithful (fun _ => rfl) h
  | queue s => exact counted_of_map queue QueueSource.worksheet_faithful (fun _ => rfl) h
  | stream s => exact counted_of_map stream StreamSource.worksheet_faithful (fun _ => rfl) h
  | poll s => exact counted_of_map poll PollSource.worksheet_faithful (fun _ => rfl) h
  | probe s => cases h

theorem counted_of_stop {σ τ : Type} {k : Worksheet σ τ} (wrap : σ → Source) (hk : k.Faithful)
    (hdesk : ∀ s, (wrap s).desk = k.desk s) (finish : σ → Option String × σ)
    (hfinish : ∀ s, k.desk (finish s).2 = k.desk s) {s : σ} {stop : Stop}
    {m : Move Stop (Except Error (Option String))}
    (h : ((k.rules.stop stop w s).map fun (m, w, s) =>
      match m with
      | .goes next => (Move.goes next, w, wrap s)
      | .ends () => (.ends (.ok (finish s).1), w, wrap (finish s).2)) = some (m, w', source')) :
    (k.desk s).Counted source'.desk [] := by
  obtain ⟨s₁, hstop, hs₁⟩ := exists_stop_of_map wrap finish h
  have hdesk' : source'.desk = k.desk s₁ := by
    rcases hs₁ with rfl | rfl
    · exact hdesk s₁
    · rw [hdesk, hfinish]
  rw [hdesk']
  exact hk.counted_of_stop hstop

/-- A stop of a source settles nothing. -/
theorem counted_of_stepStop {stop : Stop} {m : Move Stop (Except Error (Option String))}
    (h : source.stepStop stop w = some (m, w', source')) : source.desk.Counted source'.desk [] := by
  cases source with
  | http s =>
    exact counted_of_stop http HttpSource.worksheet_faithful (fun _ => rfl)
      (fun s => (none, { s with bound := false })) (fun _ => rfl) h
  | generator s =>
    exact counted_of_stop generator Generator.worksheet_faithful (fun _ => rfl) (none, ·) (fun _ => rfl) h
  | queue s => exact counted_of_stop queue QueueSource.worksheet_faithful (fun _ => rfl) (none, ·) (fun _ => rfl) h
  | stream s =>
    exact counted_of_stop stream StreamSource.worksheet_faithful (fun _ => rfl)
      (fun s => (s.checkpoint, s)) (fun _ => rfl) h
  | poll s => exact counted_of_stop poll PollSource.worksheet_faithful (fun _ => rfl) (none, ·) (fun _ => rfl) h
  | probe s =>
    have hkept : source'.desk = s.desk := by
      simp only [stepStop] at h
      split at h
      · split at h <;> · cases h; rfl
      · cases h; rfl
    change s.desk.Counted source'.desk []
    rw [hkept]
    exact .refl _

/-- A start of a source settles nothing. -/
theorem counted_of_start {token : Option String} {result : Except Error Unit}
    (h : source.start token w = (result, w', source')) : source.desk.Counted source'.desk [] := by
  cases source with
  | http s =>
    cases h
    change s.desk.Counted s.start.2.desk []
    rw [HttpSource.start]
    have hstart : ∀ tasks s', (HttpSource.desk s').Counted (HttpSource.rules.start tasks s').2.desk [] :=
      HttpSource.worksheet_faithful.counted_of_start
    split
    · exact .refl _
    · split
      · have hbegun := hstart [()] s
        split
        next heq =>
          rw [heq] at hbegun
          exact hbegun
        next heq =>
          rw [heq] at hbegun
          exact hbegun.then_still rfl rfl
      · have hbegun := hstart [] s
        split
        next heq =>
          rw [heq] at hbegun
          exact hbegun
        next heq =>
          rw [heq] at hbegun
          exact hbegun.then_still rfl rfl
  | generator s =>
    cases h
    change s.desk.Counted s.start.2.desk []
    rw [Generator.start]
    split
    · exact .refl _
    · exact Generator.worksheet_faithful.counted_of_start _ s
  | queue s =>
    cases h
    exact QueueSource.worksheet_faithful.counted_of_start _ s
  | stream s =>
    cases h
    change s.desk.Counted (s.start token).2.desk []
    rw [StreamSource.start]
    split
    · exact .refl _
    next hrestore =>
      obtain ⟨positions, rfl⟩ := StreamSource.exists_positions_of_restore hrestore
      exact StreamSource.worksheet_faithful.counted_of_start _ { s with positions }
  | poll s =>
    cases h
    exact PollSource.worksheet_faithful.counted_of_start _ s
  | probe s =>
    simp only [start] at h
    split at h <;> · cases h; exact .refl _

@[simp] theorem desk_setDesk (desk : Desk) (source : Source) : (source.setDesk desk).desk = desk := by
  cases source <;> rfl

end Source

end EventDispatch
