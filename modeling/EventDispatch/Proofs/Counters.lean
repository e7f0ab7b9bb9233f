import EventDispatch.Proofs.Leases
import Mathlib.Algebra.BigOperators.Group.List.Basic
import Mathlib.Data.UInt

/-!
# The counters of a source and those of its workers

What became of an event is counted twice: on the worker that handled it, and at the desk of the source. A
call that finds no worker is counted at the desk alone. Events are submitted one or several at a time, or
given to one of the workers by name, all at once and in any order, and every call may be given up wherever
it waits. At every moment both sets of counters tell the same.

The counters hold 64 bits and wrap around, so all of this is said modulo their width.

## The moment at which a run ends

A run is counted on its worker, and then for the source; a submission gives its worker back in between.
All of this is one move of the call, which waits nowhere in the course of it. That the counters are read
between two moves only is an assumption: nothing locks both sets of them, and one who reads while a move is
going on elsewhere may find a run counted on its worker, and not yet for the source.

## What is deliberately absent

How long events took is not said here: that is counted on the workers only.

## Main definitions

* `EndedRun`: a run of the function that is over; `EndedRun.tally` counts some of them.
* `Desk.Tallies`: the counters of a desk and of its workers are those of some runs and refusals.
* `Desk.Recorded`: what a move records at a desk.
* `DeskCall.serve`: the next move of a call, with its answer.
* `CountedDesk`: a desk, what is going on at it, and what has ended there; `CountedDesk.Step` is one move of
  anybody.
* `CountedDesk.Agrees`: the counters agree with each other, and with what has ended.

## Main results

* `EndedRun.sum_tally_on`: what the workers of a crew handled, taken together.
* `DeskCall.recorded_of_serve`, `DeskCall.tallies_of_serve`: what one move of a call does to the counters.
* `CountedDesk.Sound.step`: what one move of anybody keeps.
* `CountedDesk.agrees_of_reachable`: the law, for every run.
-/

namespace EventDispatch

/-- The event was not handled with success. -/
def Outcome.failed (outcome : Outcome) : Bool := !outcome.succeeded

/-- A run of the function that is over: the worker on which it ran, and what became of the event. -/
structure EndedRun where
  worker : Worker
  outcome : Outcome

/-! ### Tallies -/

namespace EndedRun

variable {p : Outcome → Bool} {runs : List EndedRun} {members : List Worker}

/-- How many runs ended in one of some ways, modulo the width of a counter. -/
def tally (p : Outcome → Bool) (runs : List EndedRun) : UInt64 :=
  .ofNat (runs.countP fun run => p run.outcome)

/-- The runs that were on one worker. -/
def on (worker : Worker) (runs : List EndedRun) : List EndedRun := runs.filter (·.worker = worker)

theorem tally_append (p : Outcome → Bool) (runs more : List EndedRun) :
    tally p (runs ++ more) = tally p runs + tally p more := by
  rw [tally, List.countP_append, UInt64.ofNat_add]
  rfl

theorem on_append (worker : Worker) (runs more : List EndedRun) :
    on worker (runs ++ more) = on worker runs ++ on worker more := List.filter_append ..

theorem on_singleton (worker : Worker) (run : EndedRun) :
    on worker [run] = if run.worker = worker then [run] else [] := by
  simp only [on, List.filter_cons, List.filter_nil, decide_eq_true_eq]

/-- Every run ended well or badly. -/
theorem tally_all (runs : List EndedRun) :
    tally (fun _ => true) runs = tally Outcome.succeeded runs + tally Outcome.failed runs := by
  rw [tally, tally, tally, ← UInt64.ofNat_add, List.countP_true,
    List.length_eq_countP_add_countP (fun run : EndedRun => run.outcome.succeeded)]
  congr 3
  funext run
  simp [Outcome.failed]

/-- **What the workers of a crew handled, taken together**, is all that was handled, as long as nothing was
handled by others. -/
theorem sum_tally_on (hd : members.Nodup) (hr : ∀ run ∈ runs, run.worker ∈ members) :
    (members.map fun w => tally p (on w runs)).sum = tally p runs := by
  have hcounts : (members.map fun w => (on w runs).countP fun run => p run.outcome).sum =
      runs.countP fun run => p run.outcome := by
    induction runs with
    | nil => simp [on]
    | cons run runs ih =>
      -- Only one member is the worker of the first run.
      have hone : (members.map fun w => (on w [run]).countP fun run => p run.outcome).sum =
          [run].countP fun run => p run.outcome := by
        rw [List.sum_map_eq_nsmul_single run.worker _ fun w hne _ => by
            rw [on_singleton, if_neg hne.symm, List.countP_nil],
          List.count_eq_one_of_mem hd (hr run List.mem_cons_self), one_nsmul, on_singleton, if_pos rfl]
      have hsplit : ∀ w, (on w (run :: runs)).countP (fun run => p run.outcome) =
          (on w [run]).countP (fun run => p run.outcome) +
            (on w runs).countP fun run => p run.outcome := fun w => by
        rw [← List.singleton_append, on_append, List.countP_append]
      simp only [hsplit]
      rw [List.sum_map_add, hone, ih fun run hm => hr run (List.mem_cons_of_mem _ hm),
        ← List.countP_append, List.singleton_append]
  have hwide : ∀ l : List Nat, (l.map UInt64.ofNat).sum = UInt64.ofNat l.sum := fun l => by
    induction l with
    | nil => rfl
    | cons n l ih => rw [List.map_cons, List.sum_cons, ih, List.sum_cons, UInt64.ofNat_add]
  rw [tally, ← hcounts, ← hwide, List.map_map]
  rfl

end EndedRun

/-! ### The counters of a desk -/

open EndedRun

/-- A crew whose workers have handled nothing, and are numbered in their order. -/
structure Crew.Unused (c : Crew) : Prop extends c.Fresh where
  serials : c.members.map Worker.serial = List.range c.members.length
  counts : c.counts = c.members.map fun _ => .zero

theorem Crew.unused_ofIndices (sharing : Sharing) (indices : List Nat) :
    (Crew.ofIndices sharing indices).Unused where
  toFresh := fresh_ofIndices sharing indices
  serials := by
    have hmembers : (Crew.ofIndices sharing indices).members =
      indices.zipIdx.map fun x : Nat × Nat => (⟨x.2, x.1, x.1⟩ : Worker) := rfl
    rw [hmembers, List.map_map, List.length_map, List.length_zipIdx, List.range_eq_range',
      ← List.zipIdx_map_snd 0 indices]
    rfl
  counts := rfl

namespace Desk

variable {members : List Worker} {runs : List EndedRun} {refusals : Nat} {a : Ambient} {d d' : Desk}

/-- The counters of a desk and of its workers are those of some runs and refusals: each worker counts its
own runs, and the desk counts all of them, and the refusals. -/
structure Tallies (members : List Worker) (runs : List EndedRun) (refusals : Nat) (d : Desk) : Prop where
  same : d.crew.members = members
  /-- The counters of the workers stand in the order of their serials. -/
  serials : members.map Worker.serial = List.range members.length
  successes : d.crew.counts.map WorkerCounts.success =
    members.map fun w => tally Outcome.succeeded (on w runs)
  failures : d.crew.counts.map WorkerCounts.failure =
    members.map fun w => tally Outcome.failed (on w runs)
  processed : d.crew.counts.map WorkerCounts.count =
    members.map fun w => tally (fun _ => true) (on w runs)
  success : d.counts.success = tally Outcome.succeeded runs
  failure : d.counts.failure = tally Outcome.failed runs + .ofNat refusals
  allocationFailures : d.counts.allocationFailures = .ofNat refusals

/-- Nothing was handled yet. -/
theorem tallies_new {crew : Crew} (h : crew.Unused) (info : SourceInfo) :
    (Desk.new info crew).Tallies crew.members [] 0 := by
  have hzero : ∀ f : WorkerCounts → UInt64, f .zero = 0 →
      crew.counts.map f = crew.members.map fun _ => (0 : UInt64) := fun f hf => by
    rw [h.counts, List.map_map]
    exact List.map_congr_left fun w _ => hf
  exact ⟨rfl, h.serials, hzero _ rfl, hzero _ rfl, hzero _ rfl, rfl, rfl, rfl⟩

/-- What changes no counter keeps the tallies. -/
theorem Tallies.of_counts (h : d.Tallies members runs refusals)
    (hmembers : d'.crew.members = d.crew.members) (hcrew : d'.crew.counts = d.crew.counts)
    (hcounts : d'.counts = d.counts) : d'.Tallies members runs refusals :=
  ⟨hmembers.trans h.same, h.serials, hcrew ▸ h.successes, hcrew ▸ h.failures, hcrew ▸ h.processed,
    hcounts ▸ h.success, hcounts ▸ h.failure, hcounts ▸ h.allocationFailures⟩

/-- The worker with a serial stands in the place of that number. -/
theorem getElem?_eq_some_iff_serial {members : List Worker} {w : Worker} {i : Nat}
    (hserials : members.map Worker.serial = List.range members.length) :
    members[i]? = some w ↔ w ∈ members ∧ w.serial = i := by
  have hplace : ∀ {w : Worker} {i : Nat}, members[i]? = some w → w.serial = i := fun {w i} hw => by
    have hi := congrArg (·[i]?) hserials
    simp only [List.getElem?_map, hw, Option.map_some, List.getElem?_range
      (List.getElem?_eq_some_iff.mp hw).1] at hi
    exact Option.some.inj hi
  refine ⟨fun hw => ⟨List.mem_of_getElem? hw, hplace hw⟩, ?_⟩
  rintro ⟨hm, rfl⟩
  obtain ⟨i, hi⟩ := List.mem_iff_getElem?.mp hm
  rwa [hplace hi]

/-- All counters of a worker are those of its own runs. -/
theorem Tallies.exists_of_mem_counts (h : d.Tallies members runs refusals) {c : WorkerCounts}
    (hc : c ∈ d.crew.counts) : ∃ w ∈ members, c.success = tally Outcome.succeeded (on w runs) ∧
      c.failure = tally Outcome.failed (on w runs) ∧ c.count = tally (fun _ => true) (on w runs) := by
  obtain ⟨i, hi⟩ := List.mem_iff_getElem?.mp hc
  have hsuccess := congrArg (·[i]?) h.successes
  have hfailure := congrArg (·[i]?) h.failures
  have hcount := congrArg (·[i]?) h.processed
  simp only [List.getElem?_map, hi, Option.map_some] at hsuccess hfailure hcount
  cases hw : members[i]? with
  | none => simp [hw] at hsuccess
  | some w =>
    simp only [hw, Option.map_some, Option.some.injEq] at hsuccess hfailure hcount
    exact ⟨w, List.mem_of_getElem? hw, hsuccess, hfailure, hcount⟩

/-- One column of the counters of the workers, when a run ended on one of them. -/
theorem map_counts_record {counts : List WorkerCounts} {f : WorkerCounts → UInt64}
    {p : Outcome → Bool} {worker : Worker} {outcome : Outcome}
    (hserials : members.map Worker.serial = List.range members.length) (hm : worker ∈ members)
    (hcolumn : counts.map f = members.map fun w => tally p (on w runs))
    (hf : ∀ c, f (c.record outcome.succeeded ⟨0, 0⟩) = f c + tally p [⟨worker, outcome⟩]) :
    (counts.modify worker.serial (WorkerCounts.record outcome.succeeded ⟨0, 0⟩)).map f =
      members.map fun w => tally p (on w (runs ++ [⟨worker, outcome⟩])) := by
  refine List.ext_getElem? fun i => ?_
  have hi := congrArg (·[i]?) hcolumn
  simp only [List.getElem?_map, List.getElem?_modify] at hi ⊢
  cases hw : members[i]? with
  | none =>
    rw [hw] at hi
    simpa using hi
  | some w =>
    obtain ⟨c, hc, hvalue⟩ : ∃ c, counts[i]? = some c ∧ f c = tally p (on w runs) := by
      simpa [hw] using hi
    have hsame : worker.serial = i ↔ worker = w := by
      have hplaced : members[i]? = some worker ↔ _ := getElem?_eq_some_iff_serial hserials
      rw [hw, Option.some.injEq, eq_comm, and_iff_right hm] at hplaced
      exact hplaced.symm
    have hnone : tally p [] = 0 := rfl
    simp only [hc, hsame, on_append, tally_append, on_singleton, Option.map_some, Option.map_eq_map]
    by_cases heq : worker = w
    · rw [if_pos heq, if_pos heq, hf, hvalue]
    · rw [if_neg heq, if_neg heq, hvalue, hnone, UInt64.add_zero]

/-- **A run that ends is counted on its worker and at the desk.** -/
theorem Tallies.recordRun (h : d.Tallies members runs refusals) {worker : Worker}
    (hm : worker ∈ members) (outcome : Outcome) :
    (d.recordRun worker outcome).Tallies members (runs ++ [⟨worker, outcome⟩]) refusals := by
  have hsuccess : ∀ n : UInt64, (if outcome.succeeded then n + 1 else n) =
      n + tally Outcome.succeeded [⟨worker, outcome⟩] := fun n => by
    cases hs : outcome.succeeded <;> simp [tally, hs]
  have hfailure : ∀ n : UInt64, (if outcome.succeeded then n else n + 1) =
      n + tally Outcome.failed [⟨worker, outcome⟩] := fun n => by
    cases hs : outcome.succeeded <;> simp [tally, Outcome.failed, hs]
  have hcounts : (d.recordRun worker outcome).counts = d.counts.record outcome.succeeded := rfl
  refine ⟨h.same, h.serials, ?_, ?_, ?_, ?_, ?_, ?_⟩
  · exact map_counts_record h.serials hm h.successes fun c => hsuccess c.success
  · exact map_counts_record h.serials hm h.failures fun c => hfailure c.failure
  · exact map_counts_record h.serials hm h.processed fun c => rfl
  · rw [hcounts, tally_append, ← h.success, ← hsuccess, SourceCounts.record]
    split <;> rfl
  · rw [hcounts, tally_append, UInt64.add_assoc, UInt64.add_comm (tally _ [⟨worker, outcome⟩]),
      ← UInt64.add_assoc, ← h.failure, ← hfailure, SourceCounts.record]
    split <;> rfl
  · rw [hcounts, ← h.allocationFailures, SourceCounts.record]
    split <;> rfl

/-- **A call that finds no worker is counted at the desk alone.** -/
theorem Tallies.recordAllocationFailure (h : d.Tallies members runs refusals) :
    d.recordAllocationFailure.Tallies members runs (refusals + 1) := by
  refine ⟨h.same, h.serials, h.successes, h.failures, h.processed, h.success, ?_, ?_⟩
  · rw [UInt64.ofNat_add, ← UInt64.add_assoc, ← h.failure]
    rfl
  · rw [UInt64.ofNat_add, ← h.allocationFailures]
    rfl

/-- No counter changes. -/
structure Still (d d' : Desk) : Prop where
  members : d'.crew.members = d.crew.members
  workers : d'.crew.counts = d.crew.counts
  source : d'.counts = d.counts

/-- **What a move records**: that a run is over, or that no worker was found, or neither. -/
inductive Recorded (d : Desk) : List EndedRun → Nat → Desk → Prop
  | nothing {d' : Desk} (h : d.Still d') : Recorded d [] 0 d'
  | run (worker : Worker) (outcome : Outcome) {d' : Desk} (h : (d.recordRun worker outcome).Still d') :
      Recorded d [⟨worker, outcome⟩] 0 d'
  | refusal {d' : Desk} (h : d.recordAllocationFailure.Still d') : Recorded d [] 1 d'

theorem recorded_refl (d : Desk) : d.Recorded [] 0 d := .nothing ⟨rfl, rfl, rfl⟩

/-- What is recorded is tallied. -/
theorem Tallies.recorded (h : d.Tallies members runs refusals) {ended : List EndedRun} {refused : Nat}
    (hr : d.Recorded ended refused d') (hm : ∀ run ∈ ended, run.worker ∈ members) :
    d'.Tallies members (runs ++ ended) (refusals + refused) := by
  cases hr with
  | nothing hstill =>
    rw [List.append_nil]
    exact h.of_counts hstill.members hstill.workers hstill.source
  | run worker outcome hstill =>
    have hrecorded := h.recordRun (hm _ (List.mem_singleton_self _)) outcome
    exact hrecorded.of_counts hstill.members hstill.workers hstill.source
  | refusal hstill =>
    rw [List.append_nil]
    exact h.recordAllocationFailure.of_counts hstill.members hstill.workers hstill.source

end Desk

/-! ### What a move of a call does to the counters -/

/-- The refusals in which a move ends: one or none. -/
def Move.refusals {μ ρ : Type} (refused : ρ → Bool) : Move μ ρ → Nat
  | .goes _ => 0
  | .ends result => (refused result).toNat

theorem Move.refusals_map {μ μ' ρ ρ' : Type} (f : μ → μ') (g : ρ → ρ') (refused : ρ' → Bool)
    (m : Move μ ρ) : (m.map f g).refusals refused = m.refusals (refused ∘ g) := by
  cases m <;> rfl

/-- No worker was found. -/
def SubmitOutcome.refused : SubmitOutcome → Bool
  | .noWorker _ => true
  | _ => false

/-- No worker was found. -/
def BatchOutcome.refused : BatchOutcome → Bool
  | .noWorker _ => true
  | _ => false

/-- No worker was found. -/
def Acquire.refused (result : Except Error Worker) : Bool := !result.isOk

section Calls

variable {a a' : Ambient} {d d' : Desk}

/-- Taking a worker records a refusal, if it ends in one. -/
theorem Desk.recorded_of_stepAcquire {acquire : Acquire} {m : Move Acquire (Except Error Worker)}
    (hs : d.stepAcquire a acquire = some (m, d')) : d.Recorded [] (m.refusals Acquire.refused) d' := by
  rw [stepAcquire] at hs
  split at hs
  · cases hs
  · cases hs
    exact .nothing ⟨rfl, rfl, rfl⟩
  · cases hs
    exact .nothing ⟨rfl, rfl, rfl⟩
  · cases hs
    exact .refusal ⟨rfl, rfl, rfl⟩

/-- The run of the function that a submission has in progress. The submission moves when it is over. -/
def Submission.inProgress : Submission → List EndedRun
  | .running worker _ run => [⟨worker, run.outcome⟩]
  | _ => []

/-- **One move of a submission** records the run that was in progress, or a refusal. -/
theorem Submission.recorded_of_step {call : Submission} {m : Move Submission (SubmitOutcome × Event)}
    (hs : call.step a d = some (m, a', d')) :
    d.Recorded call.inProgress (m.refusals (SubmitOutcome.refused ·.1)) d' := by
  cases call with
  | ready event limit =>
    cases hs
    exact d.recorded_refl
  | acquiring event acquire =>
    rw [step] at hs
    split at hs
    · cases hs
    next hacquire =>
      cases hs
      exact Desk.recorded_of_stepAcquire hacquire
    next hacquire =>
      cases hs
      exact Desk.recorded_of_stepAcquire hacquire
    next hacquire =>
      cases hs
      exact Desk.recorded_of_stepAcquire hacquire
  | running worker event run =>
    rw [step] at hs
    split at hs
    · cases hs
      have hanswered : (SubmitOutcome.ofOutcome run.outcome).refused = false := by
        cases run.outcome <;> rfl
      simp only [Move.refusals, hanswered]
      exact .run worker run.outcome ⟨rfl, rfl, rfl⟩
    · cases hs

/-- The run of the function that a batch has in progress. The batch moves when it is over. -/
def Batch.inProgress : Batch → List EndedRun
  | .running worker _ _ _ run => [⟨worker, run.outcome⟩]
  | _ => []

/-- **One move of a batch** records the run that was in progress, or a refusal. -/
theorem Batch.recorded_of_step {call : Batch} {m : Move Batch (BatchOutcome × List Event)}
    (hs : call.step a d = some (m, a', d')) :
    d.Recorded call.inProgress (m.refusals (BatchOutcome.refused ·.1)) d' := by
  cases call with
  | ready events limit =>
    cases hs
    exact d.recorded_refl
  | acquiring events acquire =>
    rw [step] at hs
    split at hs
    · cases hs
    next hacquire =>
      cases hs
      exact Desk.recorded_of_stepAcquire hacquire
    next hacquire =>
      cases hs
      exact Desk.recorded_of_stepAcquire hacquire
    next hacquire =>
      cases hs
      exact Desk.recorded_of_stepAcquire hacquire
  | between worker done events rest =>
    cases rest with
    | nil =>
      cases hs
      exact .nothing ⟨rfl, rfl, rfl⟩
    | cons event rest =>
      cases hs
      exact d.recorded_refl
  | running worker done events rest run =>
    rw [step] at hs
    split at hs
    · cases hs
      exact .run worker run.outcome ⟨rfl, rfl, rfl⟩
    · cases hs

/-- The run of the function that an assignment has in progress. The assignment moves when it is over. -/
def Assignment.inProgress : Assignment → List EndedRun
  | .running worker _ run => [⟨worker, run.outcome⟩]
  | _ => []

/-- A run in progress is on the worker that the assignment was given. -/
theorem Assignment.worker_of_inProgress {call : Assignment} {run : EndedRun} (h : run ∈ call.inProgress) :
    run.worker = call.worker := by
  cases call with
  | ready worker event => cases h
  | prepared worker event => cases h
  | running worker event ran =>
    rw [List.mem_singleton.mp h]
    rfl

/-- **One move of an assignment** records the run that was in progress. -/
theorem Assignment.recorded_of_step {call : Assignment} {m : Move Assignment (Outcome × Event)}
    (hs : call.step a d = some (m, a', d')) : d.Recorded call.inProgress 0 d' := by
  cases call with
  | ready worker event =>
    cases hs
    exact d.recorded_refl
  | prepared worker event =>
    cases hs
    exact d.recorded_refl
  | running worker event run =>
    rw [step] at hs
    split at hs
    · cases hs
      exact .run worker run.outcome ⟨rfl, rfl, rfl⟩
    · cases hs

end Calls

/-! ### Calls and their answers -/

/-- What a call at a desk answers. -/
inductive DeskAnswer where
  | submitted (outcome : SubmitOutcome)
  | processed (outcome : BatchOutcome)
  | allocated (result : Except Error Worker)

namespace DeskAnswer

/-- No worker was found. -/
def refused : DeskAnswer → Bool
  | .submitted outcome => outcome.refused
  | .processed outcome => outcome.refused
  | .allocated result => Acquire.refused result

/-- The worker that the caller keeps from then on. -/
def kept : DeskAnswer → Option Worker
  | .allocated result => result.toOption
  | _ => none

end DeskAnswer

namespace DeskCall

/-- The next move of a call, with its answer. -/
def serve (a : Ambient) (d : Desk) : DeskCall → Option (Move DeskCall DeskAnswer × Ambient × Desk)
  | .submit call => (call.step a d).map fun (m, a, d) => (m.map .submit (.submitted ·.1), a, d)
  | .batch call => (call.step a d).map fun (m, a, d) => (m.map .batch (.processed ·.1), a, d)
  | .allocate call => (call.step a d).map fun (m, d) => (m.map .allocate .allocated, a, d)

/-- The run of the function that a call has in progress. The call moves when it is over. -/
def inProgress : DeskCall → List EndedRun
  | .submit call => call.inProgress
  | .batch call => call.inProgress
  | .allocate _ => []

variable {members : List Worker} {runs : List EndedRun} {refusals : Nat} {a a' : Ambient} {d d' : Desk}
  {call : DeskCall} {m : Move DeskCall DeskAnswer}

/-- A run in progress is on a worker that the call holds. -/
theorem leased_of_inProgress {run : EndedRun} (h : run ∈ call.inProgress) : run.worker ∈ call.leased := by
  rcases call with ⟨_ | _ | _⟩ | ⟨_ | _ | _ | _⟩ | _ <;>
    simp_all [inProgress, Submission.inProgress, Batch.inProgress, leased, Submission.leased, Batch.leased]

/-- What a caller keeps is a part of the answer. -/
theorem step_eq_serve (call : DeskCall) :
    call.step a d = (call.serve a d).map fun (m, a, d) => (m.map id DeskAnswer.kept, a, d) := by
  cases call with
  | submit call | batch call | allocate call =>
    rw [step, serve, Option.map_map]
    congr 1
    funext x
    rcases x with ⟨next | result, rest⟩ <;> rfl

/-- **One move of a call** among others takes what was idle, and keeps, hands on or gives back what it
had. -/
theorem accounts_of_serve (hd : (members.map Worker.serial).Nodup) {pre post : List DeskCall} {kept : List Worker}
    (h : d.Accounts members (call.leased ++ ((pre ++ post).flatMap leased ++ kept))
      (call.tickets ++ (pre ++ post).flatMap tickets))
    (hs : call.serve a d = some (m, a', d')) :
    d'.Accounts members
      ((pre ++ (m.next?.toList ++ post)).flatMap leased ++ (m.after (fun _ => []) (·.kept.toList) ++ kept))
      ((pre ++ (m.next?.toList ++ post)).flatMap tickets) := by
  have hstep : call.step a d = some (m.map id DeskAnswer.kept, a', d') := by
    rw [step_eq_serve, hs]
    rfl
  refine (step_accounts hd h hstep).of_perm ?_ ?_
  · rw [Move.after_map, ← List.append_assoc, ← List.append_assoc]
    exact (Move.perm_after leased (fun answer => answer.kept.toList) m pre post).append_right _
  · rw [Move.after_map]
    refine (Move.perm_after tickets (fun _ : DeskAnswer => []) m pre post).trans (.of_eq ?_)
    cases m <;> exact List.append_nil _

/-- **One move of a call** records the run that was in progress, or a refusal. -/
theorem recorded_of_serve (hs : call.serve a d = some (m, a', d')) :
    d.Recorded call.inProgress (m.refusals DeskAnswer.refused) d' := by
  cases call with
  | submit call =>
    obtain ⟨⟨m, a₁, d₁⟩, hq, heq⟩ := Option.map_eq_some_iff.mp hs
    cases heq
    rw [Move.refusals_map]
    exact Submission.recorded_of_step hq
  | batch call =>
    obtain ⟨⟨m, a₁, d₁⟩, hq, heq⟩ := Option.map_eq_some_iff.mp hs
    cases heq
    rw [Move.refusals_map]
    exact Batch.recorded_of_step hq
  | allocate call =>
    obtain ⟨⟨m, d₁⟩, hq, heq⟩ := Option.map_eq_some_iff.mp hs
    cases heq
    rw [Move.refusals_map]
    exact Desk.recorded_of_stepAcquire hq

/-- A call that is given up records nothing. -/
theorem recorded_drop (call : DeskCall) (d : Desk) : d.Recorded [] 0 (call.drop d) := by
  rcases call with ⟨_ | _ | _⟩ | ⟨_ | _ | _ | _⟩ | _ <;> exact .nothing ⟨rfl, rfl, rfl⟩

/-- **One move of a call** counts the run that was in progress, or a refusal. -/
theorem tallies_of_serve (h : d.Tallies members runs refusals) (hm : ∀ w ∈ call.leased, w ∈ members)
    (hs : call.serve a d = some (m, a', d')) :
    d'.Tallies members (runs ++ call.inProgress) (refusals + m.refusals DeskAnswer.refused) :=
  h.recorded (recorded_of_serve hs) fun _ hr => hm _ (leased_of_inProgress hr)

/-- A call that is given up is not counted. -/
theorem tallies_drop (h : d.Tallies members runs refusals) (call : DeskCall) :
    (call.drop d).Tallies members runs refusals := by
  have hdropped := h.recorded (recorded_drop call d) fun _ hr => absurd hr List.not_mem_nil
  rwa [List.append_nil] at hdropped

end DeskCall

/-! ### All that goes on -/

/-- A desk, what is going on at it, and what has ended there. -/
structure CountedDesk where
  ambient : Ambient
  desk : Desk
  /-- The calls that are open. -/
  calls : List DeskCall
  /-- The workers that callers keep. -/
  kept : List Worker
  /-- The events that callers gave to a worker by name, as many as they like at once. -/
  errands : List Assignment
  /-- The runs of the function that are over and whose calls were not given up. -/
  runs : List EndedRun
  /-- The calls that failed to obtain a worker. -/
  refusals : Nat

namespace CountedDesk

/-- A source that nobody has used. -/
def opened (ambient : Ambient) (info : SourceInfo) (crew : Crew) : CountedDesk :=
  ⟨ambient, .new info crew, [], [], [], [], 0⟩

/-- One move of anybody. -/
inductive Step : CountedDesk → CountedDesk → Prop
  /-- Somebody submits an event, with a limit for the wait or without. -/
  | submits (s : CountedDesk) (event : Event) (limit : Option Nat) :
      Step s { s with calls := .submit (.ready event limit) :: s.calls }
  /-- Somebody submits several events. -/
  | submitsAll (s : CountedDesk) (events : List Event) (limit : Option Nat) :
      Step s { s with calls := .batch (.ready events limit) :: s.calls }
  /-- Somebody asks for a worker to keep. -/
  | allocates (s : CountedDesk) (limit : Option Nat) :
      Step s { s with calls := .allocate (.asking limit) :: s.calls }
  /-- An open call moves: a run that it had in progress is over, and it may end in a refusal. -/
  | moves {s : CountedDesk} {pre post : List DeskCall} {call : DeskCall} {m : Move DeskCall DeskAnswer}
      {ambient : Ambient} {desk : Desk} (hc : s.calls = pre ++ call :: post)
      (hs : call.serve s.ambient s.desk = some (m, ambient, desk)) :
      Step s ⟨ambient, desk, pre ++ (m.next?.toList ++ post),
        m.after (fun _ => []) (·.kept.toList) ++ s.kept, s.errands, s.runs ++ call.inProgress,
        s.refusals + m.refusals DeskAnswer.refused⟩
  /-- An open call is given up. -/
  | drops {s : CountedDesk} {pre post : List DeskCall} {call : DeskCall}
      (hc : s.calls = pre ++ call :: post) :
      Step s { s with desk := call.drop s.desk, calls := pre ++ post }
  /-- Somebody gives an event to one of the workers, held or not. -/
  | assigns (s : CountedDesk) {worker : Worker} (event : Event) (hw : worker ∈ s.desk.crew.members) :
      Step s { s with errands := .ready worker event :: s.errands }
  /-- A call on one of the workers moves: a run that it had in progress is over. -/
  | works {s : CountedDesk} {pre post : List Assignment} {call : Assignment}
      {m : Move Assignment (Outcome × Event)} {ambient : Ambient} {desk : Desk}
      (hc : s.errands = pre ++ call :: post)
      (hs : call.step s.ambient s.desk = some (m, ambient, desk)) :
      Step s { s with ambient, desk, errands := pre ++ (m.next?.toList ++ post),
                      runs := s.runs ++ call.inProgress }
  /-- A call on one of the workers is given up. -/
  | stopsWork {s : CountedDesk} {pre post : List Assignment} {call : Assignment}
      (hc : s.errands = pre ++ call :: post) : Step s { s with errands := pre ++ post }
  /-- A caller drops the lease on a worker that it keeps. -/
  | returns {s : CountedDesk} {pre post : List Worker} {worker : Worker}
      (hk : s.kept = pre ++ worker :: post) :
      Step s { s with desk := s.desk.release worker, kept := pre ++ post }
  /-- Time passes, and the function is entered elsewhere. -/
  | passes (s : CountedDesk) (ambient : Ambient) : Step s { s with ambient }

/-- The counters of the source and those of its workers agree with each other, and with what has ended. -/
structure Agrees (members : List Worker) (s : CountedDesk) : Prop where
  /-- The successes of the workers are those of the source. -/
  success : (s.desk.crew.counts.map WorkerCounts.success).sum = s.desk.counts.success
  /-- The failures of the workers are those of the source, but for the calls that found no worker. -/
  failure : (s.desk.crew.counts.map WorkerCounts.failure).sum =
    s.desk.counts.failure - s.desk.counts.allocationFailures
  /-- What a worker processed ended well or badly. -/
  processed : ∀ c ∈ s.desk.crew.counts, c.count = c.success + c.failure
  /-- Every call that found no worker is counted, and no other. -/
  refused : s.desk.counts.allocationFailures = .ofNat s.refusals
  /-- Each worker counts its own runs, and the source counts all of them. -/
  tallies : s.desk.Tallies members s.runs s.refusals

/-! ### What every move keeps -/

/-- The accounts of the desk are those of the calls and of the callers who keep workers, and the counters
are those of what has ended. -/
structure Sound (members : List Worker) (s : CountedDesk) : Prop where
  accounts : s.desk.Accounts members (s.calls.flatMap DeskCall.leased ++ s.kept)
    (s.calls.flatMap DeskCall.tickets)
  tallies : s.desk.Tallies members s.runs s.refusals
  /-- The runs were on the workers of the source. -/
  known : ∀ run ∈ s.runs, run.worker ∈ members
  /-- Events were given to the workers of the source. -/
  bound : ∀ call ∈ s.errands, call.worker ∈ members

theorem sound_opened {ambient : Ambient} {info : SourceInfo} {crew : Crew} (h : crew.Unused) :
    Sound crew.members (opened ambient info crew) :=
  ⟨Desk.accounts_of_fresh (d := .new info crew) h.toFresh, Desk.tallies_new h info, fun _ hr => (by cases hr),
    fun _ hc => (by cases hc)⟩

variable {members : List Worker} {s s' : CountedDesk}

/-- The serials tell the workers apart. -/
theorem Sound.distinct (h : Sound members s) : (members.map Worker.serial).Nodup :=
  h.tallies.serials ▸ List.nodup_range

/-- The accounts with one open call taken apart from all else. -/
theorem Sound.split_call (h : Sound members s) {pre post : List DeskCall} {call : DeskCall}
    (hc : s.calls = pre ++ call :: post) :
    s.desk.Accounts members (call.leased ++ ((pre ++ post).flatMap DeskCall.leased ++ s.kept))
      (call.tickets ++ (pre ++ post).flatMap DeskCall.tickets) :=
  DeskCall.split_accounts h.accounts hc

/-- A call holds a worker of the source. -/
theorem Sound.mem_of_leased (h : Sound members s) {pre post : List DeskCall} {call : DeskCall}
    (hc : s.calls = pre ++ call :: post) : ∀ w ∈ call.leased, w ∈ members := fun _ hw =>
  (h.split_call hc).workers.mem_iff.mp (List.mem_append_right _ (List.mem_append_left _ hw))

/-- A new call holds nothing. -/
theorem Sound.cons_call (h : Sound members s) {call : DeskCall} (hw : call.leased = [])
    (ht : call.tickets = []) : Sound members { s with calls := call :: s.calls } := by
  refine ⟨?_, h.tallies, h.known, h.bound⟩
  simpa [hw, ht] using h.accounts

/-- The accounts with one worker that is kept taken apart from all else. -/
theorem Sound.split_kept (h : Sound members s) {pre post : List Worker} {worker : Worker}
    (hk : s.kept = pre ++ worker :: post) :
    s.desk.Accounts members (worker :: (s.calls.flatMap DeskCall.leased ++ (pre ++ post)))
      (s.calls.flatMap DeskCall.tickets) := by
  refine h.accounts.of_perm ?_ (.refl _)
  rw [hk, ← List.append_assoc, ← List.append_assoc]
  exact List.perm_middle

/-- **What one move of anybody keeps.** -/
theorem Sound.step (h : Sound members s) (hs : Step s s') : Sound members s' := by
  cases hs with
  | submits event limit => exact h.cons_call rfl rfl
  | submitsAll events limit => exact h.cons_call rfl rfl
  | allocates limit => exact h.cons_call rfl rfl
  | moves hc hq =>
    rename_i pre post call m ambient desk
    refine ⟨DeskCall.accounts_of_serve h.distinct (h.split_call hc) hq,
      DeskCall.tallies_of_serve h.tallies (h.mem_of_leased hc) hq, fun run hr => ?_, h.bound⟩
    rcases List.mem_append.mp hr with hr | hr
    · exact h.known run hr
    · exact h.mem_of_leased hc _ (DeskCall.leased_of_inProgress hr)
  | drops hc =>
    exact ⟨DeskCall.drop_accounts h.distinct (h.split_call hc), DeskCall.tallies_drop h.tallies _, h.known,
      h.bound⟩
  | assigns event hw =>
    exact ⟨h.accounts, h.tallies, h.known, List.forall_mem_cons.mpr ⟨h.tallies.same ▸ hw, h.bound⟩⟩
  | works hc hq =>
    rename_i pre post call m ambient desk
    obtain ⟨hpre, hrest⟩ := List.forall_mem_append.mp (hc ▸ h.bound)
    obtain ⟨hcall, hpost⟩ := List.forall_mem_cons.mp hrest
    obtain ⟨hpool, hnext⟩ := Assignment.step_pool hq
    have hknown : ∀ run ∈ call.inProgress, run.worker ∈ members := fun run hr =>
      Assignment.worker_of_inProgress hr ▸ hcall
    refine ⟨h.accounts.of_pool hpool, h.tallies.recorded (Assignment.recorded_of_step hq) hknown, fun run hr => ?_,
      List.forall_mem_append.mpr ⟨hpre, List.forall_mem_append.mpr ⟨fun next hn => ?_, hpost⟩⟩⟩
    · rcases List.mem_append.mp hr with hr | hr
      · exact h.known run hr
      · exact hknown run hr
    · exact hnext next (Move.mem_next?.mp (Option.mem_toList.mp hn)) ▸ hcall
  | stopsWork hc =>
    refine ⟨h.accounts, h.tallies, h.known, fun other hm => h.bound other (hc ▸ ?_)⟩
    exact ((List.sublist_cons_self _ _).append_left _).subset hm
  | returns hk =>
    exact ⟨(h.split_kept hk).release h.distinct, h.tallies.of_counts rfl rfl rfl, h.known, h.bound⟩
  | passes ambient => exact ⟨h.accounts, h.tallies, h.known, h.bound⟩

/-! ### The law -/

theorem Sound.agrees (h : Sound members s) : Agrees members s where
  success := by
    rw [h.tallies.successes, h.tallies.success]
    exact EndedRun.sum_tally_on (h.distinct.of_map _) h.known
  failure := by
    rw [h.tallies.failures, h.tallies.failure, h.tallies.allocationFailures, UInt64.add_sub_cancel]
    exact EndedRun.sum_tally_on (h.distinct.of_map _) h.known
  processed c hc := by
    obtain ⟨w, -, hsuccess, hfailure, hcount⟩ := h.tallies.exists_of_mem_counts hc
    rw [hsuccess, hfailure, hcount, EndedRun.tally_all]
  refused := h.tallies.allocationFailures
  tallies := h.tallies

theorem Sound.of_reachable (h : Sound members s) (hr : Relation.ReflTransGen Step s s') :
    Sound members s' := by
  induction hr with
  | refl => exact h
  | tail _ hs ih => exact ih.step hs

/-- **The counters tell the same.** However events are submitted at a source, one or several at a time or
to workers by name, whatever becomes of them, and whichever calls are given up, the counters of its
workers together are those of the source, but for the calls that found no worker; and these are counted,
each one. -/
theorem agrees_of_reachable {ambient : Ambient} {info : SourceInfo} {crew : Crew} (hu : crew.Unused)
    (hr : Relation.ReflTransGen Step (opened ambient info crew) s) : Agrees crew.members s :=
  ((sound_opened hu).of_reachable hr).agrees

/-- A worker that a caller keeps panics, while a submission that does not wait finds no worker; then the
worker is given back, and a submission takes it and is given up in the midst of its run. -/
theorem agrees_panic_and_refusal :
    let crew : Crew := .ofIndices .single [0]
    let ambient : Ambient := .start ⟨0, 0⟩ fun _ _ => ⟨5, .panics none⟩
    crew.Unused ∧ ∃ s : CountedDesk,
      Relation.ReflTransGen Step (opened ambient ⟨"desk", "panics", .async⟩ crew) s ∧
        s.runs.length = 1 ∧ s.refusals = 1 ∧ s.desk.counts = ⟨0, 2, 1⟩ ∧ Agrees crew.members s := by
  intro crew ambient
  have hu : crew.Unused := Crew.unused_ofIndices .single [0]
  have hlent := (((Relation.ReflTransGen.refl.tail
    (Step.allocates (opened ambient ⟨"desk", "panics", .async⟩ crew) none)).tail
    (@Step.moves _ [] [] _ _ _ _ rfl rfl)).tail
    (@Step.moves _ [] [] _ _ _ _ rfl rfl))
  have hrefused := ((hlent.tail
    (Step.submits _ (.blank ⟨0, 0⟩) (some 0))).tail
    (@Step.moves _ [] [] _ _ _ _ rfl rfl)).tail
    (@Step.moves _ [] [] _ _ _ _ rfl rfl)
  have hpanicked := ((((hrefused.tail
    (@Step.assigns _ ⟨0, 0, 0⟩ (.blank ⟨0, 0⟩) List.mem_cons_self)).tail
    (@Step.works _ [] [] _ _ _ _ rfl rfl)).tail
    (@Step.works _ [] [] _ _ _ _ rfl rfl)).tail
    (Step.passes _ { ambient with now := 5 })).tail
    (@Step.works _ [] [] _ _ _ _ rfl rfl)
  have hdropped := (((((hpanicked.tail
    (@Step.returns _ [] [] _ rfl)).tail
    (Step.submits _ (.blank ⟨0, 0⟩) none)).tail
    (@Step.moves _ [] [] _ _ _ _ rfl rfl)).tail
    (@Step.moves _ [] [] _ _ _ _ rfl rfl)).tail
    (@Step.moves _ [] [] _ _ _ _ rfl rfl)).tail
    (@Step.drops _ [] [] _ rfl)
  exact ⟨hu, _, hdropped, rfl, rfl, rfl, agrees_of_reachable hu hdropped⟩

end CountedDesk

end EventDispatch
