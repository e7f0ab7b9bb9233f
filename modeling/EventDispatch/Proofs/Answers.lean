import EventDispatch.Proofs.Counters
import EventDispatch.Proofs.Isolation

/-!
# What the answer to a submission tells

Callers submit events, one or several at a time, and are told what became of them. An answer is one of two
things. A refusal says that no worker was found, and then the function was never entered for the call. Any
other answer gives an outcome for each event, and then the function was entered exactly once for each, in
order, and the outcomes are what these runs ended with.

Between a permit and the worker that it stands for lies a moment in which the pool could come out empty;
that would be an answer of a third kind. It does not arise, since every permit has its idle item
(`Pool.Balanced`), however the calls move and whichever of them are given up.

## What is deliberately absent

Which worker ran an event is not said here, nor how long a call waits. Nothing is assumed of the crew, but
that all its workers are idle at first: the same worker may be in it more than once.

## Main definitions

* `EnteredRun`, `Ambient.runsSince`: the runs of the function that a move begins.
* `Event.PreparedBy`: an event as the function gets it.
* `DeskAnswer.Tells`: an answer is borne out by the runs that were begun for its call.
* `CallLog`: a desk, the calls at it with what was done for each, and their answers; `CallLog.Step` is one
  move of anybody.
* `CallLog.Told`: the law.
* `HttpService.Excuses`: what a request is told for which no worker is found.

## Main results

* `Acquire.unavailable_of_step`: why a call does not obtain an item.
* `DeskCall.followsAfter_of_serve`: what one move of a call does for it.
* `CallLog.Sound.step`: what one move of anybody keeps.
* `CallLog.borne_out_of_reachable`: the law, for every run.
-/

namespace EventDispatch

/-! ### Runs of the function -/

/-- An entry into the function, and the run that it starts. -/
structure EnteredRun where
  entry : Entry
  run : Run

namespace EnteredRun

/-- The event with which the function was entered. -/
def event (r : EnteredRun) : Event := r.entry.event

/-- What the worker makes of the end of the run. -/
def outcome (r : EnteredRun) : Outcome := r.run.conclusion.outcome

end EnteredRun

namespace Ambient

/-- The runs of the function that were begun since an earlier moment, in order. -/
def runsSince (earlier a : Ambient) : List EnteredRun :=
  (a.entries.toList.zipIdx.drop earlier.entries.size).map fun (entry, before) =>
    ⟨entry, a.function (a.entries.take before) entry⟩

theorem runsSince_of_entries {a a' : Ambient} (h : a'.entries = a.entries) : a.runsSince a' = [] := by
  have hdrop : a'.entries.toList.zipIdx.drop a.entries.size = [] := by
    refine List.drop_eq_nil_of_le ?_
    rw [List.length_zipIdx, Array.length_toList, h]
  rw [runsSince, hdrop, List.map_nil]

/-- To enter the function is to begin one run. -/
theorem runsSince_enter (worker : Nat) (event : Event) (a : Ambient) : a.runsSince (a.enter worker event).2 =
    [⟨⟨worker, event⟩, a.function a.entries ⟨worker, event⟩⟩] := by
  have hall : (a.entries.push ⟨worker, event⟩).take a.entries.size = a.entries := by
    rw [← Array.toList_inj]
    simp
  have hdrop : (a.entries.push ⟨worker, event⟩).toList.zipIdx.drop a.entries.size =
      [(⟨worker, event⟩, a.entries.size)] := by
    rw [Array.toList_push, List.zipIdx_append, List.drop_left' (by simp)]
    simp
  simp only [runsSince, enter, hdrop, List.map_cons, List.map_nil, hall]

end Ambient

/-! ### Events as the function gets them -/

/-- The event that was given, marked with its source and with an id; an id that it had is kept. -/
structure Event.PreparedBy (info : SourceInfo) (given event : Event) : Prop where
  same : event = { given with id := event.id, source := some info }
  id : given.id ≠ "" → event.id = given.id
  named : event.id ≠ ""

theorem Ambient.idText_ne_empty (n : Nat) : idText n ≠ "" := by
  intro h
  have hlist := congrArg String.toList h
  simp [idText, String.toList_append] at hlist

theorem Desk.preparedBy_prepare (d : Desk) (event : Event) (a : Ambient) :
    event.PreparedBy d.info (d.prepare event a).1 := by
  rw [Desk.prepare]
  dsimp only
  split
  next hempty =>
    have hid : event.id = "" := String.isEmpty_iff.mp hempty
    exact ⟨rfl, fun hne => absurd hid hne, Ambient.idText_ne_empty _⟩
  next hnamed => exact ⟨rfl, fun _ => rfl, fun hid => hnamed (String.isEmpty_iff.mpr hid)⟩

theorem Desk.preparedBy_prepareAll (d : Desk) (events : List Event) (a : Ambient) :
    List.Forall₂ (Event.PreparedBy d.info) events (d.prepareAll events a).1 := by
  induction events generalizing a with
  | nil => exact .nil
  | cons event events ih => exact .cons (d.preparedBy_prepare event a) (ih _)

theorem Desk.entries_prepare (d : Desk) (event : Event) (a : Ambient) :
    (d.prepare event a).2.entries = a.entries := by
  rw [Desk.prepare]
  dsimp only
  split <;> rfl

theorem Desk.entries_prepareAll (d : Desk) (events : List Event) (a : Ambient) :
    (d.prepareAll events a).2.entries = a.entries := by
  induction events generalizing a with
  | nil => rfl
  | cons event events ih =>
    have hstep : (d.prepareAll (event :: events) a).2 = (d.prepareAll events (d.prepare event a).2).2 := rfl
    rw [hstep, ih, d.entries_prepare]

/-! ### Why no worker is found -/

/-- No item was idle, for a caller who does not wait, or none became idle in time. -/
def Error.Unavailable (e : Error) : Prop := e = .noAvailableWorkers ∨ ∃ ms, e = .allocationTimeout ms

theorem Error.Unavailable.isAllocationFailure {e : Error} (h : e.Unavailable) : e.isAllocationFailure = true := by
  rcases h with rfl | ⟨ms, rfl⟩ <;> rfl

/-- **Why a call does not obtain an item**: as long as every idle item has its permit, there is no other
reason. -/
theorem Acquire.unavailable_of_step {α : Type} {p p' : Pool α} {now : Nat} {acquire : Acquire} {e : Error}
    (hb : p.Balanced) (hs : acquire.step now p = some (.ends (.error e), p')) : e.Unavailable := by
  cases acquire with
  | asking limit =>
    rcases limit with _ | _ | t
    · cases hs
    · cases hfree : p.free with
      | zero =>
        simp only [step, Pool.tryTake, hfree, Option.some.injEq, Prod.mk.injEq, Move.ends.injEq,
          Except.error.injEq] at hs
        exact .inl hs.1.symm
      | succ free =>
        -- A free permit has its item.
        cases hidle : p.idle with
        | nil =>
          rw [Pool.Balanced, hidle, hfree, List.length_nil] at hb
          omega
        | cons item rest => simp [step, Pool.tryTake, Pool.popIdle, hfree, hidle] at hs
    · cases hs
  | waiting ticket limit =>
    cases hredeem : p.redeem ticket with
    | some x =>
      obtain ⟨r, pool⟩ := x
      obtain ⟨item, rfl, -⟩ := Pool.redeem_balanced hb hredeem
      simp [step, hredeem] at hs
    | none =>
      rcases limit with _ | ⟨deadline, t⟩
      · simp [step, hredeem] at hs
      · by_cases hover : deadline ≤ now
        · simp only [step, hredeem, if_pos hover, Option.some.injEq, Prod.mk.injEq, Move.ends.injEq,
            Except.error.injEq] at hs
          exact .inr ⟨_, hs.1.symm⟩
        · simp [step, hredeem, hover] at hs

/-- To take a worker from a desk is to take it from the pool of its crew. -/
theorem Desk.pool_of_stepAcquire {a : Ambient} {d d' : Desk} {acquire : Acquire}
    {m : Move Acquire (Except Error Worker)} (hs : d.stepAcquire a acquire = some (m, d')) :
    acquire.step a.now d.crew.pool = some (m, d'.crew.pool) := by
  cases hq : acquire.step a.now d.crew.pool with
  | none => simp [stepAcquire, hq] at hs
  | some x =>
    obtain ⟨m', pool⟩ := x
    rcases m' with next | (e | worker) <;>
      · simp only [stepAcquire, hq, Option.some.injEq, Prod.mk.injEq] at hs
        obtain ⟨rfl, rfl⟩ := hs
        rfl

/-- To take a worker keeps the pool in balance. -/
theorem Desk.balanced_of_stepAcquire {a : Ambient} {d d' : Desk} {acquire : Acquire}
    {m : Move Acquire (Except Error Worker)} (hb : d.crew.pool.Balanced)
    (hs : d.stepAcquire a acquire = some (m, d')) : d'.crew.pool.Balanced ∧ d'.info = d.info :=
  ⟨(Acquire.step_balanced hb (pool_of_stepAcquire hs)).2.1, info_stepAcquire hs⟩

theorem Desk.unavailable_of_stepAcquire {a : Ambient} {d d' : Desk} {acquire : Acquire} {e : Error}
    (hb : d.crew.pool.Balanced) (hs : d.stepAcquire a acquire = some (.ends (.error e), d')) : e.Unavailable :=
  Acquire.unavailable_of_step hb (pool_of_stepAcquire hs)

/-! ### What is done for a call -/

namespace DeskCall

/-- The events that were submitted with a call. -/
def events : DeskCall → List Event
  | .submit call => [call.event]
  | .batch (.ready events _) | .batch (.acquiring events _) => events
  | .batch (.between _ _ events _) | .batch (.running _ _ events _ _) => events
  | .allocate _ => []

/-- The events of a call with which the function is still to be entered. -/
def ahead : DeskCall → List Event
  | .submit (.ready event _) | .submit (.acquiring event _) => [event]
  | .batch (.ready events _) | .batch (.acquiring events _) => events
  | .batch (.between _ _ _ rest) | .batch (.running _ _ _ rest _) => rest
  | _ => []

/-- What becomes of the events with which the function was entered. -/
def outcomes : DeskCall → List Outcome
  | .submit (.running _ _ run) => [run.outcome]
  | .batch (.between _ done _ _) => done
  | .batch (.running _ done _ _ run) => done ++ [run.outcome]
  | _ => []

/-- The call has not prepared its events. -/
def IsReady : DeskCall → Prop
  | .submit (.ready _ _) | .batch (.ready _ _) | .allocate _ => True
  | _ => False

end DeskCall

/-- How the end of a run is told: a panic is told as a failure. -/
inductive Conclusion.Reports : Conclusion → Outcome → Prop
  | answers (response : Response) : Reports (.answers response) (.ok response)
  | fails (failure : Failure) : Reports (.fails failure) (.error failure)
  | panics (text : Option String) :
      Reports (.panics text) (.error ⟨"Function panicked: " ++ text.getD "unknown panic", none⟩)

theorem Conclusion.reports_outcome (c : Conclusion) : c.Reports c.outcome := by
  cases c with
  | answers response => exact .answers response
  | fails failure => exact .fails failure
  | panics text => exact .panics text

/-- **An answer is borne out** by the runs that were begun for a call with some events: after a refusal
there were none, and else one for each event, in order, each of which ended as the answer tells. -/
def DeskAnswer.Tells (info : SourceInfo) (given : List Event) (runs : List EnteredRun) : DeskAnswer → Prop
  | .submitted (.noWorker e) | .processed (.noWorker e) | .allocated (.error e) => runs = [] ∧ e.Unavailable
  | .submitted (.completed response) => ∃ event run, given = [event] ∧ runs = [run] ∧
      event.PreparedBy info run.event ∧ run.run.conclusion.Reports (.ok response)
  | .submitted (.failed failure) => ∃ event run, given = [event] ∧ runs = [run] ∧
      event.PreparedBy info run.event ∧ run.run.conclusion.Reports (.error failure)
  | .processed (.processed outcomes) =>
      List.Forall₂ (Event.PreparedBy info) given (runs.map EnteredRun.event) ∧
        List.Forall₂ (fun run outcome => run.run.conclusion.Reports outcome) runs outcomes
  | .allocated (.ok _) => runs = []

namespace DeskCall

/-- What was done so far for a call with some events. -/
structure Follows (info : SourceInfo) (given : List Event) (runs : List EnteredRun) (call : DeskCall) :
    Prop where
  ready : call.IsReady → call.events = given
  prepared : ¬call.IsReady → List.Forall₂ (Event.PreparedBy info) given call.events
  /-- The function was entered with the first of the events, and the others are to come. -/
  entered : runs.map EnteredRun.event ++ call.ahead = call.events
  outcomes : runs.map EnteredRun.outcome = call.outcomes

/-- What was done for a call by the end of a move. -/
def FollowsAfter (info : SourceInfo) (given : List Event) (runs : List EnteredRun) :
    Move DeskCall DeskAnswer → Prop
  | .goes next => next.Follows info given runs
  | .ends answer => answer.Tells info given runs

variable {info : SourceInfo} {given : List Event} {runs : List EnteredRun} {a a' : Ambient} {d d' : Desk}

/-- As long as all events are to come, there was no run. -/
theorem Follows.runs_eq_nil {call : DeskCall} (h : call.Follows info given runs)
    (hahead : call.ahead = call.events) : runs = [] := by
  have hentered := h.entered
  rw [hahead] at hentered
  exact List.map_eq_nil_iff.mp (List.append_left_eq_self.mp hentered)

/-- **One move of a submission.** -/
theorem followsAfter_of_submission {call : Submission} {m : Move Submission (SubmitOutcome × Event)}
    (hb : d.crew.pool.Balanced) (h : (submit call).Follows d.info given runs)
    (hs : call.step a d = some (m, a', d')) : d'.crew.pool.Balanced ∧ d'.info = d.info ∧
      FollowsAfter d.info given (runs ++ a.runsSince a') (m.map .submit (.submitted ·.1)) := by
  cases call with
  | ready event limit =>
    simp only [Submission.step, Option.some.injEq, Prod.mk.injEq] at hs
    obtain ⟨rfl, rfl, rfl⟩ := hs
    obtain rfl := h.runs_eq_nil rfl
    obtain rfl : [event] = given := h.ready trivial
    rw [Ambient.runsSince_of_entries (d.entries_prepare event a)]
    exact ⟨hb, rfl, False.elim, fun _ => .cons (d.preparedBy_prepare event a) .nil, rfl, rfl⟩
  | acquiring event acquire =>
    obtain rfl := h.runs_eq_nil rfl
    have hprepared : List.Forall₂ (Event.PreparedBy d.info) given [event] := h.prepared id
    rw [Submission.step] at hs
    split at hs
    · cases hs
    next next d₁ hacquire =>
      cases hs
      obtain ⟨hbalanced, hinfo⟩ := Desk.balanced_of_stepAcquire hb hacquire
      rw [Ambient.runsSince_of_entries rfl]
      exact ⟨hbalanced, hinfo, False.elim, fun _ => hprepared, rfl, rfl⟩
    next e d₁ hacquire =>
      cases hs
      obtain ⟨hbalanced, hinfo⟩ := Desk.balanced_of_stepAcquire hb hacquire
      rw [Ambient.runsSince_of_entries rfl]
      exact ⟨hbalanced, hinfo, rfl, Desk.unavailable_of_stepAcquire hb hacquire⟩
    next worker d₁ hacquire =>
      simp only [Option.some.injEq, Prod.mk.injEq] at hs
      obtain ⟨rfl, rfl, rfl⟩ := hs
      obtain ⟨hbalanced, hinfo⟩ := Desk.balanced_of_stepAcquire hb hacquire
      rw [Ambient.runsSince_enter]
      exact ⟨hbalanced, hinfo, False.elim, fun _ => hprepared, rfl, rfl⟩
  | running worker event run =>
    rw [Submission.step] at hs
    split at hs
    · cases hs
      obtain ⟨ran, rfl, hevent⟩ : ∃ ran, runs = [ran] ∧ ran.event = event := by
        have hentered : runs.map EnteredRun.event ++ [] = [event] := h.entered
        rw [List.append_nil] at hentered
        exact List.map_eq_singleton_iff.mp hentered
      have houtcome : [ran.outcome] = [run.outcome] := h.outcomes
      have hprepared : List.Forall₂ (Event.PreparedBy d.info) given [event] := h.prepared id
      obtain ⟨first, hfirst, rfl⟩ : ∃ first, first.PreparedBy d.info event ∧ given = [first] := by
        cases hprepared with
        | cons hfirst hrest =>
          cases hrest
          exact ⟨_, hfirst, rfl⟩
      have hreports := ran.run.conclusion.reports_outcome
      rw [← hevent] at hfirst
      rw [Ambient.runsSince_of_entries rfl]
      refine ⟨Pool.giveBack_balanced hb _ _, rfl, ?_⟩
      change ran.run.conclusion.Reports ran.outcome at hreports
      rw [List.singleton_inj.mp houtcome] at hreports
      cases hrun : run.outcome with
      | ok response => exact ⟨first, ran, rfl, rfl, hfirst, hrun ▸ hreports⟩
      | error failure => exact ⟨first, ran, rfl, rfl, hfirst, hrun ▸ hreports⟩
    · cases hs

/-- **One move of a batch.** -/
theorem followsAfter_of_batch {call : Batch} {m : Move Batch (BatchOutcome × List Event)}
    (hb : d.crew.pool.Balanced) (h : (batch call).Follows d.info given runs)
    (hs : call.step a d = some (m, a', d')) : d'.crew.pool.Balanced ∧ d'.info = d.info ∧
      FollowsAfter d.info given (runs ++ a.runsSince a') (m.map .batch (.processed ·.1)) := by
  cases call with
  | ready events limit =>
    simp only [Batch.step, Option.some.injEq, Prod.mk.injEq] at hs
    obtain ⟨rfl, rfl, rfl⟩ := hs
    obtain rfl := h.runs_eq_nil rfl
    obtain rfl : events = given := h.ready trivial
    rw [Ambient.runsSince_of_entries (d.entries_prepareAll events a)]
    exact ⟨hb, rfl, False.elim, fun _ => d.preparedBy_prepareAll events a, rfl, rfl⟩
  | acquiring events acquire =>
    obtain rfl := h.runs_eq_nil rfl
    have hprepared : List.Forall₂ (Event.PreparedBy d.info) given events := h.prepared id
    rw [Batch.step] at hs
    split at hs
    · cases hs
    next next d₁ hacquire =>
      cases hs
      obtain ⟨hbalanced, hinfo⟩ := Desk.balanced_of_stepAcquire hb hacquire
      rw [Ambient.runsSince_of_entries rfl]
      exact ⟨hbalanced, hinfo, False.elim, fun _ => hprepared, rfl, rfl⟩
    next e d₁ hacquire =>
      cases hs
      obtain ⟨hbalanced, hinfo⟩ := Desk.balanced_of_stepAcquire hb hacquire
      rw [Ambient.runsSince_of_entries rfl]
      exact ⟨hbalanced, hinfo, rfl, Desk.unavailable_of_stepAcquire hb hacquire⟩
    next worker d₁ hacquire =>
      cases hs
      obtain ⟨hbalanced, hinfo⟩ := Desk.balanced_of_stepAcquire hb hacquire
      rw [Ambient.runsSince_of_entries rfl]
      exact ⟨hbalanced, hinfo, False.elim, fun _ => hprepared, rfl, rfl⟩
  | between worker done events rest =>
    have hprepared : List.Forall₂ (Event.PreparedBy d.info) given events := h.prepared id
    have hentered : runs.map EnteredRun.event ++ rest = events := h.entered
    have houtcomes : runs.map EnteredRun.outcome = done := h.outcomes
    cases rest with
    | nil =>
      cases hs
      rw [List.append_nil] at hentered
      rw [Ambient.runsSince_of_entries rfl, List.append_nil]
      refine ⟨Pool.giveBack_balanced hb _ _, rfl, ?_, ?_⟩
      · rw [hentered]
        exact hprepared
      · rw [← houtcomes, List.forall₂_map_right_iff, List.forall₂_same]
        exact fun run _ => run.run.conclusion.reports_outcome
    | cons event rest =>
      simp only [Batch.step, Option.some.injEq, Prod.mk.injEq] at hs
      obtain ⟨rfl, rfl, rfl⟩ := hs
      rw [Ambient.runsSince_enter]
      refine ⟨hb, rfl, False.elim, fun _ => hprepared, ?_, ?_⟩
      · rw [List.map_append, List.append_assoc]
        exact hentered
      · rw [List.map_append, houtcomes]
        rfl
  | running worker done events rest run =>
    rw [Batch.step] at hs
    split at hs
    · cases hs
      rw [Ambient.runsSince_of_entries rfl, List.append_nil]
      exact ⟨hb, rfl, False.elim, fun _ => h.prepared id, h.entered, h.outcomes⟩
    · cases hs

/-- **One move of a call**: what was done for it is told by its answer. -/
theorem followsAfter_of_serve {call : DeskCall} {m : Move DeskCall DeskAnswer} (hb : d.crew.pool.Balanced)
    (h : call.Follows d.info given runs) (hs : call.serve a d = some (m, a', d')) :
    d'.crew.pool.Balanced ∧ d'.info = d.info ∧
      FollowsAfter d.info given (runs ++ a.runsSince a') m := by
  cases call with
  | submit call =>
    obtain ⟨⟨m, a₁, d₁⟩, hq, heq⟩ := Option.map_eq_some_iff.mp hs
    cases heq
    exact followsAfter_of_submission hb h hq
  | batch call =>
    obtain ⟨⟨m, a₁, d₁⟩, hq, heq⟩ := Option.map_eq_some_iff.mp hs
    cases heq
    exact followsAfter_of_batch hb h hq
  | allocate call =>
    obtain ⟨⟨m, d₁⟩, hq, heq⟩ := Option.map_eq_some_iff.mp hs
    cases heq
    obtain ⟨hbalanced, hinfo⟩ := Desk.balanced_of_stepAcquire hb hq
    obtain rfl := h.runs_eq_nil rfl
    rw [Ambient.runsSince_of_entries rfl]
    refine ⟨hbalanced, hinfo, ?_⟩
    rcases m with next | (e | worker)
    · exact ⟨fun _ => h.ready trivial, fun hnot => absurd trivial hnot, rfl, rfl⟩
    · exact ⟨rfl, Desk.unavailable_of_stepAcquire hb hq⟩
    · exact rfl

/-- A call that is given up keeps the pool in balance. -/
theorem balanced_drop (hb : d.crew.pool.Balanced) (call : DeskCall) :
    (call.drop d).crew.pool.Balanced ∧ (call.drop d).info = d.info := by
  have hacquire : ∀ acquire : Acquire, (d.dropAcquire acquire).crew.pool.Balanced :=
    fun acquire => (Acquire.drop_balanced acquire hb).2.1
  have hrelease : ∀ worker, (d.release worker).crew.pool.Balanced :=
    fun worker => Pool.giveBack_balanced hb _ worker
  rcases call with ⟨_ | _ | _⟩ | ⟨_ | _ | _ | _⟩ | _ <;>
    first
    | exact ⟨hb, rfl⟩
    | exact ⟨hacquire _, rfl⟩
    | exact ⟨hrelease _, rfl⟩

end DeskCall

theorem Assignment.info_of_step {a a' : Ambient} {d d' : Desk} {call : Assignment}
    {m : Move Assignment (Outcome × Event)} (hs : call.step a d = some (m, a', d')) : d'.info = d.info := by
  cases call with
  | ready worker event | prepared worker event =>
    cases hs
    rfl
  | running worker event run =>
    rw [step] at hs
    split at hs
    · cases hs
      rfl
    · cases hs

/-! ### All that goes on -/

/-- A call that is open: its number, the events that were submitted with it, and how far it is. -/
structure Errand where
  number : Nat
  given : List Event
  call : DeskCall

/-- A call that has its answer. -/
structure Answered where
  number : Nat
  given : List Event
  answer : DeskAnswer

/-- A desk, the calls at it with what was done for each, and their answers. -/
structure CallLog where
  ambient : Ambient
  desk : Desk
  /-- The calls that are open. -/
  calls : List Errand
  /-- The workers that callers keep. -/
  kept : List Worker
  /-- Calls so far. -/
  made : Nat
  /-- The runs of the function, each with the number of the call for which it was begun. -/
  log : List (Nat × EnteredRun)
  answers : List Answered

namespace CallLog

/-- A desk at which nobody has called. -/
def opened (ambient : Ambient) (info : SourceInfo) (crew : Crew) : CallLog :=
  ⟨ambient, .new info crew, [], [], 0, [], []⟩

/-- The runs that were begun for a call, in order. -/
def runsFor (number : Nat) (log : List (Nat × EnteredRun)) : List EnteredRun :=
  (log.filter (·.1 = number)).map Prod.snd

/-- The numbers of the calls that are open or have an answer. -/
def numbers (s : CallLog) : List Nat := s.calls.map Errand.number ++ s.answers.map Answered.number

/-- One move of anybody. -/
inductive Step : CallLog → CallLog → Prop
  /-- Somebody submits an event, with a limit for the wait or without. -/
  | submits (s : CallLog) (event : Event) (limit : Option Nat) :
      Step s { s with calls := ⟨s.made, [event], .submit (.ready event limit)⟩ :: s.calls, made := s.made + 1 }
  /-- Somebody submits several events. -/
  | submitsAll (s : CallLog) (events : List Event) (limit : Option Nat) :
      Step s { s with calls := ⟨s.made, events, .batch (.ready events limit)⟩ :: s.calls, made := s.made + 1 }
  /-- Somebody asks for a worker to keep. -/
  | allocates (s : CallLog) (limit : Option Nat) :
      Step s { s with calls := ⟨s.made, [], .allocate (.asking limit)⟩ :: s.calls, made := s.made + 1 }
  /-- An open call moves: it may begin runs of the function, and it may end with an answer. -/
  | moves {s : CallLog} {pre post : List Errand} {errand : Errand} {m : Move DeskCall DeskAnswer}
      {ambient : Ambient} {desk : Desk} (hc : s.calls = pre ++ errand :: post)
      (hs : errand.call.serve s.ambient s.desk = some (m, ambient, desk)) :
      Step s { s with
        ambient, desk
        calls := pre ++ (m.next?.toList.map (⟨errand.number, errand.given, ·⟩) ++ post)
        kept := m.after (fun _ => []) (·.kept.toList) ++ s.kept
        log := s.log ++ (s.ambient.runsSince ambient).map (errand.number, ·)
        answers := m.after (fun _ => []) (fun answer => [⟨errand.number, errand.given, answer⟩]) ++ s.answers }
  /-- An open call is given up. -/
  | drops {s : CallLog} {pre post : List Errand} {errand : Errand} (hc : s.calls = pre ++ errand :: post) :
      Step s { s with desk := errand.call.drop s.desk, calls := pre ++ post }
  /-- A call on one of the workers moves. -/
  | works {s : CallLog} {call : Assignment} {m : Move Assignment (Outcome × Event)} {ambient : Ambient}
      {desk : Desk} (hs : call.step s.ambient s.desk = some (m, ambient, desk)) :
      Step s { s with ambient, desk }
  /-- A caller drops the lease on a worker that it keeps. -/
  | returns {s : CallLog} {pre post : List Worker} {worker : Worker} (hk : s.kept = pre ++ worker :: post) :
      Step s { s with desk := s.desk.release worker, kept := pre ++ post }
  /-- Time passes, and the function is entered elsewhere. -/
  | passes (s : CallLog) (ambient : Ambient) : Step s { s with ambient }

/-- Every answer is borne out by what was done for its call. -/
structure Told (info : SourceInfo) (s : CallLog) : Prop where
  /-- The runs that were begun for a call are those that its answer tells of. -/
  borne : ∀ x ∈ s.answers, x.answer.Tells info x.given (runsFor x.number s.log)
  /-- A call has a number of its own, and one answer at most. -/
  numbered : s.numbers.Nodup

/-! ### What every move keeps -/

section Log

variable {number other : Nat} {log : List (Nat × EnteredRun)}

theorem runsFor_append (number : Nat) (log : List (Nat × EnteredRun)) (runs : List EnteredRun) :
    runsFor number (log ++ runs.map (number, ·)) = runsFor number log ++ runs := by
  have hall : (runs.map (number, ·)).filter (·.1 = number) = runs.map (number, ·) :=
    List.filter_eq_self.mpr fun x hx => by
      obtain ⟨run, -, rfl⟩ := List.mem_map.mp hx
      exact decide_eq_true rfl
  have hsnd : (runs.map (number, ·)).map Prod.snd = runs := by
    rw [List.map_map]
    exact List.map_id _
  rw [runsFor, List.filter_append, List.map_append, hall, hsnd]
  rfl

theorem runsFor_append_of_ne (hne : number ≠ other) (log : List (Nat × EnteredRun))
    (runs : List EnteredRun) : runsFor other (log ++ runs.map (number, ·)) = runsFor other log := by
  have hnone : (runs.map (number, ·)).filter (·.1 = other) = [] :=
    List.filter_eq_nil_iff.mpr fun x hx => by
      obtain ⟨run, -, rfl⟩ := List.mem_map.mp hx
      exact fun heq => hne (of_decide_eq_true heq)
  rw [runsFor, List.filter_append, hnone, List.append_nil]
  rfl

theorem runsFor_eq_nil (h : ∀ x ∈ log, x.1 < number) : runsFor number log = [] := by
  have hnone : log.filter (·.1 = number) = [] :=
    List.filter_eq_nil_iff.mpr fun x hx heq => (h x hx).ne (of_decide_eq_true heq)
  rw [runsFor, hnone, List.map_nil]

end Log

/-- Every open call has had done what it shows, every answer is borne out, and a call that is still to
come has a number that none has. -/
structure Sound (info : SourceInfo) (s : CallLog) : Prop where
  same : s.desk.info = info
  balanced : s.desk.crew.pool.Balanced
  numbered : s.numbers.Nodup
  fresh : ∀ n ∈ s.numbers, n < s.made
  logged : ∀ x ∈ s.log, x.1 < s.made
  follows : ∀ errand ∈ s.calls, errand.call.Follows info errand.given (runsFor errand.number s.log)
  borne : ∀ x ∈ s.answers, x.answer.Tells info x.given (runsFor x.number s.log)

theorem sound_opened (ambient : Ambient) (info : SourceInfo) {crew : Crew} (h : crew.Fresh) :
    Sound info (opened ambient info crew) where
  same := rfl
  balanced := by
    rw [opened, Desk.new, h.full]
    exact Pool.balanced_full _ _
  numbered := List.nodup_nil
  fresh _ hm := by cases hm
  logged _ hm := by cases hm
  follows _ hm := by cases hm
  borne _ hm := by cases hm

variable {info : SourceInfo} {s s' : CallLog}

/-- A new call, with the next number. -/
theorem Sound.cons_call (h : Sound info s) {given : List Event} {call : DeskCall} (hready : call.IsReady)
    (hevents : call.events = given) (hahead : call.ahead = given) (hnone : call.outcomes = []) :
    Sound info { s with calls := ⟨s.made, given, call⟩ :: s.calls, made := s.made + 1 } where
  same := h.same
  balanced := h.balanced
  numbered := List.nodup_cons.mpr ⟨fun hm => (h.fresh _ hm).false, h.numbered⟩
  fresh := List.forall_mem_cons.mpr ⟨Nat.lt_succ_self _, fun n hm => (h.fresh n hm).trans (Nat.lt_succ_self _)⟩
  logged x hm := (h.logged x hm).trans (Nat.lt_succ_self _)
  follows := by
    refine List.forall_mem_cons.mpr ⟨?_, h.follows⟩
    have hruns : runsFor s.made s.log = [] := runsFor_eq_nil h.logged
    dsimp only
    rw [hruns]
    exact ⟨fun _ => hevents, fun hnot => absurd hready hnot, hahead.trans hevents.symm, hnone.symm⟩
  borne := h.borne

/-- The numbers with that of one open call in front. -/
theorem perm_numbers {pre post : List Errand} {errand : Errand} (hc : s.calls = pre ++ errand :: post) :
    s.numbers.Perm (errand.number :: ((pre ++ post).map Errand.number ++ s.answers.map Answered.number)) := by
  rw [numbers, hc]
  exact (List.perm_middle.map Errand.number).append_right _

/-- Whatever other call moves, what was done for a call stays. -/
theorem Sound.ne_number (h : Sound info s) {pre post : List Errand} {errand : Errand}
    (hc : s.calls = pre ++ errand :: post) :
    (∀ other ∈ pre ++ post, errand.number ≠ other.number) ∧ ∀ x ∈ s.answers, errand.number ≠ x.number := by
  have hnot := (List.nodup_cons.mp ((perm_numbers hc).nodup_iff.mp h.numbered)).1
  rw [List.mem_append, not_or] at hnot
  exact ⟨fun other hm heq => hnot.1 (heq ▸ List.mem_map_of_mem hm),
    fun x hm heq => hnot.2 (heq ▸ List.mem_map_of_mem hm)⟩

/-- An open call moves: what it has had done is told by its answer, if it ends with one. -/
theorem Sound.moves (h : Sound info s) {pre post : List Errand} {errand : Errand}
    {m : Move DeskCall DeskAnswer} {ambient : Ambient} {desk : Desk} {kept : List Worker}
    (hc : s.calls = pre ++ errand :: post)
    (hs : errand.call.serve s.ambient s.desk = some (m, ambient, desk)) :
    Sound info { s with
      ambient, desk, kept
      calls := pre ++ (m.next?.toList.map (⟨errand.number, errand.given, ·⟩) ++ post)
      log := s.log ++ (s.ambient.runsSince ambient).map (errand.number, ·)
      answers := m.after (fun _ => []) (fun answer => [⟨errand.number, errand.given, answer⟩]) ++
        s.answers } := by
  have hsplit := perm_numbers hc
  have hnumber : errand.number < s.made := h.fresh _ (hsplit.mem_iff.mpr List.mem_cons_self)
  obtain ⟨hcalls, hanswers⟩ := h.ne_number hc
  have hsub : (pre ++ post).Sublist s.calls := hc ▸ (List.sublist_cons_self _ _).append_left _
  have hbefore : errand.call.Follows s.desk.info errand.given (runsFor errand.number s.log) :=
    h.same ▸ h.follows errand (hc ▸ List.mem_append_right _ List.mem_cons_self)
  obtain ⟨hbalanced, hinfo, hafter⟩ := DeskCall.followsAfter_of_serve h.balanced hbefore hs
  rw [h.same, ← runsFor_append] at hafter
  have hlogged : ∀ x ∈ s.log ++ (s.ambient.runsSince ambient).map (errand.number, ·), x.1 < s.made :=
    List.forall_mem_append.mpr ⟨h.logged, List.forall_mem_map.mpr fun _ _ => hnumber⟩
  -- All other calls, and all earlier answers, are about runs of other numbers.
  have hfollows : ∀ other ∈ pre ++ post, other.call.Follows info other.given
      (runsFor other.number (s.log ++ (s.ambient.runsSince ambient).map (errand.number, ·))) := fun other hm => by
    rw [runsFor_append_of_ne (hcalls other hm)]
    exact h.follows other (hsub.subset hm)
  have hborne : ∀ x ∈ s.answers, x.answer.Tells info x.given
      (runsFor x.number (s.log ++ (s.ambient.runsSince ambient).map (errand.number, ·))) := fun x hm => by
    rw [runsFor_append_of_ne (hanswers x hm)]
    exact h.borne x hm
  obtain ⟨hpre, hpost⟩ := List.forall_mem_append.mp hfollows
  cases m with
  | goes next =>
    have hsame : numbers { s with calls := pre ++ ⟨errand.number, errand.given, next⟩ :: post } = s.numbers := by
      rw [numbers, numbers, hc, List.map_append, List.map_append]
      rfl
    exact ⟨hinfo.trans h.same, hbalanced, hsame ▸ h.numbered, hsame ▸ h.fresh, hlogged,
      List.forall_mem_append.mpr ⟨hpre, List.forall_mem_cons.mpr ⟨hafter, hpost⟩⟩, hborne⟩
  | ends answer =>
    have hsame := hsplit.trans (List.perm_middle.symm :
      (errand.number :: ((pre ++ post).map Errand.number ++ s.answers.map Answered.number)).Perm _)
    exact ⟨hinfo.trans h.same, hbalanced, hsame.nodup_iff.mp h.numbered,
      fun n hm => h.fresh n (hsame.mem_iff.mpr hm), hlogged, hfollows, List.forall_mem_cons.mpr ⟨hafter, hborne⟩⟩

/-- **What one move of anybody keeps.** -/
theorem Sound.step (h : Sound info s) (hs : Step s s') : Sound info s' := by
  cases hs with
  | submits event limit => exact h.cons_call trivial rfl rfl rfl
  | submitsAll events limit => exact h.cons_call trivial rfl rfl rfl
  | allocates limit => exact h.cons_call trivial rfl rfl rfl
  | moves hc hq => exact h.moves hc hq
  | drops hc =>
    rename_i pre post errand
    obtain ⟨hbalanced, hinfo⟩ := DeskCall.balanced_drop h.balanced errand.call
    have hsub : (pre ++ post).Sublist s.calls := hc ▸ (List.sublist_cons_self _ _).append_left _
    have hnumbers := (hsub.map Errand.number).append_right (s.answers.map Answered.number)
    exact ⟨hinfo.trans h.same, hbalanced, hnumbers.nodup h.numbered,
      fun n hm => h.fresh n (hnumbers.subset hm), h.logged, fun other hm => h.follows other (hsub.subset hm),
      h.borne⟩
  | works hq =>
    obtain ⟨hpool, -⟩ := Assignment.step_pool hq
    exact ⟨(Assignment.info_of_step hq).trans h.same, hpool ▸ h.balanced, h.numbered, h.fresh, h.logged,
      h.follows, h.borne⟩
  | returns hk =>
    exact ⟨h.same, Pool.giveBack_balanced h.balanced _ _, h.numbered, h.fresh, h.logged, h.follows, h.borne⟩
  | passes ambient => exact ⟨h.same, h.balanced, h.numbered, h.fresh, h.logged, h.follows, h.borne⟩

theorem Sound.of_reachable (h : Sound info s) (hr : Relation.ReflTransGen Step s s') : Sound info s' := by
  induction hr with
  | refl => exact h
  | tail _ hs ih => exact ih.step hs

end CallLog

/-! ### What a request is told -/

/-- **A request for which no worker is found** is told that there is none at the moment, and no other error
of a submission is told. -/
def HttpService.Excuses (g : HttpService) : Prop :=
  ∀ request submission, ⟨request, .submitting submission⟩ ∈ g.visits →
    ∀ e event ambient desk, submission.step g.ambient g.source.desk =
      some (.ends (.noWorker e, event), ambient, desk) →
    e.Unavailable ∧ ∃ source, (Serving.submitting submission).step g.ambient g.source =
      some (.ends (HttpReply.plain 503 e.message).withLength, ambient.readClock.2, source)

/-- A submission finds no worker for no other reason than that none is idle, or none becomes idle in time. -/
theorem Submission.unavailable_of_step {a a' : Ambient} {d d' : Desk} {call : Submission} {e : Error}
    {event : Event} (hb : d.crew.pool.Balanced)
    (hs : call.step a d = some (.ends (.noWorker e, event), a', d')) : e.Unavailable := by
  cases call with
  | ready event limit => cases hs
  | acquiring event acquire =>
    rw [step] at hs
    split at hs
    · cases hs
    · cases hs
    next hacquire =>
      cases hs
      exact Desk.unavailable_of_stepAcquire hb hacquire
    · cases hs
  | running worker event run =>
    rw [step] at hs
    split at hs
    · cases houtcome : run.outcome <;> simp [houtcome, SubmitOutcome.ofOutcome] at hs
    · cases hs

theorem HttpService.excuses_of_balanced {g : HttpService} (hb : g.source.desk.crew.pool.Balanced) : g.Excuses := by
  intro request submission _ e event ambient desk hs
  have hunavailable := Submission.unavailable_of_step hb hs
  refine ⟨hunavailable, Serving.giveBack { g.source with desk } event ambient.readClock.1, ?_⟩
  simp only [Serving.step, hs, HttpReply.ofOutcome, hunavailable.isAllocationFailure, if_true]

/-! ### The law -/

/-- **What the answers tell.** However events are submitted at a desk, one or several at a time, whichever of
the calls are given up, and whoever keeps workers meanwhile: a call that is answered that there is no worker
had no run of the function, and none was idle for it, or none in time; any other call had one run for each of
its events, in order, and is told how they ended, of a panic as of a failure. A request that is refused so
gets the status that tells it to come again. -/
theorem CallLog.borne_out_of_reachable {info : SourceInfo} {crew : Crew} (hfresh : crew.Fresh) :
    (∀ (ambient : Ambient) (s : CallLog), Relation.ReflTransGen Step (opened ambient info crew) s → Told info s) ∧
      ∀ (ambient : Ambient) (settings : HttpSettings) (limit : Nat) (g : HttpService),
        Relation.ReflTransGen HttpService.Step (HttpService.opened ambient (.new info settings limit crew)) g →
          g.Excuses := by
  refine ⟨fun ambient s hr => ?_, fun ambient settings limit g hr => ?_⟩
  · have hsound := (sound_opened ambient info hfresh).of_reachable hr
    exact ⟨hsound.borne, hsound.numbered⟩
  · have hlends := HttpService.lends_of_reachable hfresh.distinct
      (HttpSource.lends_new hfresh info settings limit) hr
    exact HttpService.excuses_of_balanced hlends.desk.balanced

/-- A submission panics, and one that does not wait is refused meanwhile; then two events run one after the
other. At a source of requests the second of two requests is told to come again. -/
theorem CallLog.told_panic_refusal_and_batch :
    let info : SourceInfo := ⟨"desk", "panics", .async⟩
    let crew : Crew := .ofIndices .shared [0]
    let ambient : Ambient := .start ⟨0, 0⟩ fun earlier _ =>
      if earlier.isEmpty then ⟨0, .panics none⟩ else ⟨0, .answers .empty⟩
    let event : Event := .blank ⟨0, 0⟩
    crew.Fresh ∧
      (∃ s : CallLog, Relation.ReflTransGen Step (opened ambient info crew) s ∧
        s.answers = [⟨2, [event, event], .processed (.processed [.ok .empty, .ok .empty])⟩,
          ⟨0, [event], .submitted (.failed ⟨"Function panicked: unknown panic", none⟩)⟩,
          ⟨1, [event], .submitted (.noWorker .noAvailableWorkers)⟩] ∧ Told info s) ∧
      ∃ g : HttpService,
        Relation.ReflTransGen HttpService.Step (.opened ambient (.new info ⟨"0.0.0.0:8080", 2⟩ 0 crew)) g ∧
        (∃ serving ∈ g.servings, ∃ source, serving.step g.ambient g.source =
          some (.ends (HttpReply.plain 503 Error.noAvailableWorkers.message).withLength,
            g.ambient.readClock.2, source)) ∧ g.Excuses := by
  intro info crew ambient event
  have hfresh : crew.Fresh := Crew.fresh_ofIndices .shared [0]
  have hrunning := (((Relation.ReflTransGen.refl.tail
    (Step.submits (opened ambient info crew) event none)).tail
    (@Step.moves _ [] [] _ _ _ _ rfl rfl)).tail
    (@Step.moves _ [] [] _ _ _ _ rfl rfl)).tail
    (@Step.moves _ [] [] _ _ _ _ rfl rfl)
  have hrefused := ((hrunning.tail
    (Step.submits _ event (some 0))).tail
    (@Step.moves _ [] [_] _ _ _ _ rfl rfl)).tail
    (@Step.moves _ [] [_] _ _ _ _ rfl rfl)
  have hpanicked := hrefused.tail
    (@Step.moves _ [] [] _ _ _ _ rfl rfl)
  have hstarted := (((hpanicked.tail
    (Step.submitsAll _ [event, event] none)).tail
    (@Step.moves _ [] [] _ _ _ _ rfl rfl)).tail
    (@Step.moves _ [] [] _ _ _ _ rfl rfl)).tail
    (@Step.moves _ [] [] _ _ _ _ rfl rfl)
  have hdone := ((((hstarted.tail
    (@Step.moves _ [] [] _ _ _ _ rfl rfl)).tail
    (@Step.moves _ [] [] _ _ _ _ rfl rfl)).tail
    (@Step.moves _ [] [] _ _ _ _ rfl rfl)).tail
    (@Step.moves _ [] [] _ _ _ _ rfl rfl)).tail
    (@Step.moves _ [] [] _ _ _ _ rfl rfl)
  let request : HttpRequest := ⟨"GET", ⟨"/", none⟩, [], .empty⟩
  have hserved := (((((Relation.ReflTransGen.refl.tail
    (HttpService.Step.arrives (.opened ambient (.new info ⟨"0.0.0.0:8080", 2⟩ 0 crew)) request)).tail
    (@HttpService.Step.moves _ [] [] _ _ _ _ _ rfl rfl)).tail
    (@HttpService.Step.moves _ [] [] _ _ _ _ _ rfl rfl)).tail
    (@HttpService.Step.moves _ [] [] _ _ _ _ _ rfl rfl)).tail
    (@HttpService.Step.moves _ [] [] _ _ _ _ _ rfl rfl)).tail
    (@HttpService.Step.moves _ [] [] _ _ _ _ _ rfl rfl)
  have hturned := ((((hserved.tail
    (HttpService.Step.arrives _ request)).tail
    (@HttpService.Step.moves _ [] [_] _ _ _ _ _ rfl rfl)).tail
    (@HttpService.Step.moves _ [] [_] _ _ _ _ _ rfl rfl)).tail
    (@HttpService.Step.moves _ [] [_] _ _ _ _ _ rfl rfl)).tail
    (@HttpService.Step.moves _ [] [_] _ _ _ _ _ rfl rfl)
  exact ⟨hfresh, ⟨_, hdone, rfl, (borne_out_of_reachable hfresh).1 _ _ hdone⟩,
    ⟨_, hturned, ⟨_, List.mem_cons_self, _, rfl⟩, (borne_out_of_reachable hfresh).2 _ _ _ _ hturned⟩⟩

end EventDispatch
