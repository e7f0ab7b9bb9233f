import EventDispatch.Proofs.Answers

/-!
# What runs on a worker, one after the other

Events that are submitted together run on one worker, in their order, and nothing else runs on it between
the first and the last of them: not the event of another submission, and not one that somebody gives to a
worker that he keeps. For the worker is held by the call from its first run to its last, and no two hold one
worker (`Desk.Accounts`). So the outcomes can be matched with the events by their places.

## Who may give a worker an event

A caller that keeps a worker may give it events, as many at once as it likes, as long as it keeps the worker.
With a worker that somebody else holds it may do nothing.

## What is deliberately absent

Time is not scheduled, as for `Leases`. A call that is given up in the midst of its runs is not answered, and
nothing is claimed of it; its runs are on one worker all the same.

## Main definitions

* `Stint`: a run of the function on a worker, and the call for which it was begun.
* `StintLog`: a desk with its calls (`CallLog`), the events that are given to kept workers, and all stints;
  `StintLog.Step` is one move of anybody.
* `Stint.Undivided`: the runs for a call are on one worker, with no other run between them.

## Main results

* `DeskCall.begins_of_serve`: on which worker a move of a call begins a run.
* `StintLog.Sound.step`: what one move of anybody keeps.
* `StintLog.in_one_piece_of_reachable`: the law, for every batch that is answered with outcomes.
-/

namespace EventDispatch

/-! ### Where a call runs its events -/

theorem Ambient.worker_of_enter (worker : Nat) (event : Event) (a : Ambient) :
    ∀ run ∈ a.runsSince (a.enter worker event).2, run.entry.worker = worker := by
  intro run hm
  rw [runsSince_enter, List.mem_singleton] at hm
  rw [hm]

namespace DeskCall

variable {a a' : Ambient} {d d' : Desk}

/-- A call holds no worker, or one. -/
theorem leased_cases (call : DeskCall) : call.leased = [] ∨ ∃ worker, call.leased = [worker] := by
  rcases call with ⟨_ | _ | _⟩ | ⟨_ | _ | _ | _⟩ | _ <;>
    first
    | exact .inl rfl
    | exact .inr ⟨_, rfl⟩

/-- A call that holds no worker has had no outcome. -/
theorem outcomes_of_leased {call : DeskCall} (h : call.leased = []) : call.outcomes = [] := by
  rcases call with ⟨_ | _ | _⟩ | ⟨_ | _ | _ | _⟩ | _ <;>
    first
    | rfl
    | exact absurd h (List.cons_ne_nil _ _)

/-- What a move leaves to a call: the worker that it held, if it goes on, and a run of the function on it, if
it began one. -/
structure Begins (call : DeskCall) (runs : List EnteredRun) (m : Move DeskCall DeskAnswer) : Prop where
  stays : ∀ next, m = .goes next → next.leased = call.leased ∨ call.leased = []
  begun : runs = [] ∨ ∃ next worker, m = .goes next ∧ next.leased = [worker] ∧ next.busy = [worker] ∧
    ∀ run ∈ runs, run.entry.worker = worker.knownAs

theorem begins_of_submission {call : Submission} {m : Move Submission (SubmitOutcome × Event)}
    (hs : call.step a d = some (m, a', d')) :
    (submit call).Begins (a.runsSince a') (m.map .submit (.submitted ·.1)) := by
  cases call with
  | ready event limit =>
    cases hs
    exact ⟨fun _ _ => .inr rfl, .inl (Ambient.runsSince_of_entries (d.entries_prepare event a))⟩
  | acquiring event acquire =>
    refine ⟨fun _ _ => .inr rfl, ?_⟩
    rw [Submission.step] at hs
    split at hs
    · cases hs
    · cases hs
      exact .inl (Ambient.runsSince_of_entries rfl)
    · cases hs
      exact .inl (Ambient.runsSince_of_entries rfl)
    next worker d₁ _ =>
      cases hs
      exact .inr ⟨_, worker, rfl, rfl, rfl, a.worker_of_enter worker.knownAs event⟩
  | running worker event run =>
    rw [Submission.step] at hs
    split at hs
    · cases hs
      exact ⟨fun _ heq => (by cases heq), .inl (Ambient.runsSince_of_entries rfl)⟩
    · cases hs

theorem begins_of_batch {call : Batch} {m : Move Batch (BatchOutcome × List Event)}
    (hs : call.step a d = some (m, a', d')) :
    (batch call).Begins (a.runsSince a') (m.map .batch (.processed ·.1)) := by
  cases call with
  | ready events limit =>
    cases hs
    exact ⟨fun _ _ => .inr rfl, .inl (Ambient.runsSince_of_entries (d.entries_prepareAll events a))⟩
  | acquiring events acquire =>
    refine ⟨fun _ _ => .inr rfl, .inl ?_⟩
    rw [Batch.step] at hs
    split at hs
    · cases hs
    all_goals
      cases hs
      exact Ambient.runsSince_of_entries rfl
  | between worker done events rest =>
    cases rest with
    | nil =>
      cases hs
      exact ⟨fun _ heq => (by cases heq), .inl (Ambient.runsSince_of_entries rfl)⟩
    | cons event rest =>
      cases hs
      exact ⟨fun next heq => .inl (by cases heq; rfl),
        .inr ⟨_, worker, rfl, rfl, rfl, a.worker_of_enter worker.knownAs event⟩⟩
  | running worker done events rest run =>
    rw [Batch.step] at hs
    split at hs
    · cases hs
      exact ⟨fun next heq => .inl (by cases heq; rfl), .inl (Ambient.runsSince_of_entries rfl)⟩
    · cases hs

/-- **Where a move of a call begins a run**: on the one worker that the call holds then. -/
theorem begins_of_serve {call : DeskCall} {m : Move DeskCall DeskAnswer}
    (hs : call.serve a d = some (m, a', d')) : call.Begins (a.runsSince a') m := by
  cases call with
  | submit call =>
    obtain ⟨⟨m, a₁, d₁⟩, hq, heq⟩ := Option.map_eq_some_iff.mp hs
    cases heq
    exact begins_of_submission hq
  | batch call =>
    obtain ⟨⟨m, a₁, d₁⟩, hq, heq⟩ := Option.map_eq_some_iff.mp hs
    cases heq
    exact begins_of_batch hq
  | allocate call =>
    obtain ⟨⟨m, d₁⟩, hq, heq⟩ := Option.map_eq_some_iff.mp hs
    cases heq
    exact ⟨fun _ _ => .inr rfl, .inl (Ambient.runsSince_of_entries rfl)⟩

end DeskCall

/-- An event that is given to a worker runs on that one. -/
theorem Assignment.knownAs_of_step {a a' : Ambient} {d d' : Desk} {call : Assignment}
    {m : Move Assignment (Outcome × Event)} (hs : call.step a d = some (m, a', d')) :
    ∀ run ∈ a.runsSince a', run.entry.worker = call.worker.knownAs := by
  cases call with
  | ready worker event =>
    simp only [step, Option.some.injEq, Prod.mk.injEq] at hs
    obtain ⟨-, rfl, -⟩ := hs
    rw [Ambient.runsSince_of_entries (d.entries_prepare event a)]
    exact fun _ hm => (by cases hm)
  | prepared worker event =>
    cases hs
    exact a.worker_of_enter worker.knownAs event
  | running worker event run =>
    rw [step] at hs
    split at hs
    · cases hs
      rw [Ambient.runsSince_of_entries rfl]
      exact fun _ hm => (by cases hm)
    · cases hs

/-! ### Stints -/

/-- A run of the function on a worker, and the number of the call for which it was begun; none if whoever
keeps the worker gave it the event. -/
structure Stint where
  worker : Worker
  number : Option Nat
  run : EnteredRun

namespace Stint

variable {stints more : List Stint} {number : Nat} {worker : Worker}

/-- The stints on one worker. -/
def on (worker : Worker) (stints : List Stint) : List Stint := stints.filter (·.worker = worker)

/-- The stints for one call. -/
def forCall (number : Nat) (stints : List Stint) : List Stint := stints.filter (·.number = some number)

theorem on_append (worker : Worker) (stints more : List Stint) :
    on worker (stints ++ more) = on worker stints ++ on worker more := List.filter_append ..

theorem forCall_append (number : Nat) (stints more : List Stint) :
    forCall number (stints ++ more) = forCall number stints ++ forCall number more := List.filter_append ..

theorem on_eq_self (h : ∀ x ∈ more, x.worker = worker) : on worker more = more :=
  List.filter_eq_self.mpr fun x hx => decide_eq_true (h x hx)

theorem on_eq_nil (h : ∀ x ∈ more, x.worker ≠ worker) : on worker more = [] :=
  List.filter_eq_nil_iff.mpr fun x hx heq => h x hx (of_decide_eq_true heq)

theorem forCall_eq_self (h : ∀ x ∈ more, x.number = some number) : forCall number more = more :=
  List.filter_eq_self.mpr fun x hx => decide_eq_true (h x hx)

theorem forCall_eq_nil (h : ∀ x ∈ more, x.number ≠ some number) : forCall number more = [] :=
  List.filter_eq_nil_iff.mpr fun x hx heq => h x hx (of_decide_eq_true heq)

/-- The runs with the numbers of their calls, as the log of the calls holds them. -/
def logged (stints : List Stint) : List (Nat × EnteredRun) := stints.filterMap fun x => x.number.map (·, x.run)

theorem logged_append (stints more : List Stint) : logged (stints ++ more) = logged stints ++ logged more :=
  List.filterMap_append ..

/-- What the log of the calls holds for a call are the runs of its stints. -/
theorem runsFor_logged (number : Nat) (stints : List Stint) :
    CallLog.runsFor number (logged stints) = (forCall number stints).map Stint.run := by
  induction stints with
  | nil => rfl
  | cons x stints ih =>
    have hcons : logged (x :: stints) = logged [x] ++ logged stints := logged_append [x] stints
    have hsplit : forCall number (x :: stints) = forCall number [x] ++ forCall number stints :=
      forCall_append number [x] stints
    rw [hcons, hsplit, CallLog.runsFor, List.filter_append, List.map_append, List.map_append, ← ih]
    congr 1
    obtain ⟨worker, _ | other, run⟩ := x
    · rfl
    · by_cases heq : other = number
      · simp [logged, forCall, heq]
      · simp [logged, forCall, heq]

/-- The stints for a call are on one worker, and no other stint on it lies between them. -/
def Undivided (number : Nat) (stints : List Stint) : Prop := ∃ worker, forCall number stints <:+: on worker stints

/-- Stints of others are behind those for a call. -/
theorem Undivided.append (h : Undivided number stints) (hne : ∀ x ∈ more, x.number ≠ some number) :
    Undivided number (stints ++ more) := by
  obtain ⟨worker, hpart⟩ := h
  refine ⟨worker, ?_⟩
  rw [forCall_append, forCall_eq_nil hne, List.append_nil, on_append]
  exact hpart.trans (List.prefix_append _ _).isInfix

/-- The stints for a call are the latest on a worker, as long as nobody else gets it. -/
theorem latest_append_of_ne (h : forCall number stints <:+ on worker stints)
    (hne : ∀ x ∈ more, x.number ≠ some number) (hother : ∀ x ∈ more, x.worker ≠ worker) :
    forCall number (stints ++ more) <:+ on worker (stints ++ more) := by
  rw [forCall_append, forCall_eq_nil hne, on_append, on_eq_nil hother, List.append_nil, List.append_nil]
  exact h

/-- A further stint for a call follows those that it had. -/
theorem latest_append (h : forCall number stints <:+ on worker stints) (hown : ∀ x ∈ more, x.number = some number)
    (hsame : ∀ x ∈ more, x.worker = worker) :
    forCall number (stints ++ more) <:+ on worker (stints ++ more) := by
  rw [forCall_append, forCall_eq_self hown, on_append, on_eq_self hsame]
  exact (List.suffix_append_inj_of_length_eq rfl).mpr ⟨h, rfl⟩

end Stint

/-! ### All that goes on -/

/-- A desk with its calls, the events that are given to kept workers, and all stints so far. -/
structure StintLog where
  callLog : CallLog
  /-- The calls with which those who keep workers give them events. -/
  assignments : List Assignment
  stints : List Stint

namespace StintLog

/-- A desk at which nobody has called. -/
def opened (ambient : Ambient) (info : SourceInfo) (crew : Crew) : StintLog := ⟨.opened ambient info crew, [], []⟩

/-- The calls that are open. -/
def calls (s : StintLog) : List DeskCall := s.callLog.calls.map Errand.call

/-- What a move of a call begins, on the worker on which the call runs its event then. -/
def begun (number : Nat) (runs : List EnteredRun) (m : Move DeskCall DeskAnswer) : List Stint :=
  (m.after DeskCall.busy fun _ => []).flatMap fun worker => runs.map (⟨worker, some number, ·⟩)

/-- What a move of a call leads to. -/
def served (pre post : List Errand) (errand : Errand) (m : Move DeskCall DeskAnswer) (ambient : Ambient)
    (desk : Desk) (s : StintLog) : StintLog :=
  { s with
    callLog := { s.callLog with
      ambient, desk
      calls := pre ++ (m.next?.toList.map (⟨errand.number, errand.given, ·⟩) ++ post)
      kept := m.after (fun _ => []) (·.kept.toList) ++ s.callLog.kept
      log := s.callLog.log ++ (s.callLog.ambient.runsSince ambient).map (errand.number, ·)
      answers := m.after (fun _ => []) (fun answer => [⟨errand.number, errand.given, answer⟩]) ++
        s.callLog.answers }
    stints := s.stints ++ begun errand.number (s.callLog.ambient.runsSince ambient) m }

/-- What a move of a call on a worker that is kept leads to. -/
def worked (pre post : List Assignment) (call : Assignment) (m : Move Assignment (Outcome × Event))
    (ambient : Ambient) (desk : Desk) (s : StintLog) : StintLog :=
  { s with
    callLog := { s.callLog with ambient, desk }
    assignments := pre ++ (m.next?.toList ++ post)
    stints := s.stints ++ (s.callLog.ambient.runsSince ambient).map (⟨call.worker, none, ·⟩) }

/-- One move of anybody. -/
inductive Step : StintLog → StintLog → Prop
  /-- Somebody submits an event, with a limit for the wait or without. -/
  | submits (s : StintLog) (event : Event) (limit : Option Nat) :
      Step s { s with callLog := { s.callLog with
        calls := ⟨s.callLog.made, [event], .submit (.ready event limit)⟩ :: s.callLog.calls
        made := s.callLog.made + 1 } }
  /-- Somebody submits several events. -/
  | submitsAll (s : StintLog) (events : List Event) (limit : Option Nat) :
      Step s { s with callLog := { s.callLog with
        calls := ⟨s.callLog.made, events, .batch (.ready events limit)⟩ :: s.callLog.calls
        made := s.callLog.made + 1 } }
  /-- Somebody asks for a worker to keep. -/
  | allocates (s : StintLog) (limit : Option Nat) :
      Step s { s with callLog := { s.callLog with
        calls := ⟨s.callLog.made, [], .allocate (.asking limit)⟩ :: s.callLog.calls
        made := s.callLog.made + 1 } }
  /-- An open call moves: it may begin a run of the function, and it may end with an answer. -/
  | moves {s : StintLog} {pre post : List Errand} {errand : Errand} {m : Move DeskCall DeskAnswer}
      {ambient : Ambient} {desk : Desk} (hc : s.callLog.calls = pre ++ errand :: post)
      (hs : errand.call.serve s.callLog.ambient s.callLog.desk = some (m, ambient, desk)) :
      Step s (s.served pre post errand m ambient desk)
  /-- An open call is given up. -/
  | drops {s : StintLog} {pre post : List Errand} {errand : Errand} (hc : s.callLog.calls = pre ++ errand :: post) :
      Step s { s with callLog := { s.callLog with desk := errand.call.drop s.callLog.desk, calls := pre ++ post } }
  /-- Somebody gives an event to a worker that he keeps. -/
  | assigns (s : StintLog) {worker : Worker} (event : Event) (hw : worker ∈ s.callLog.kept) :
      Step s { s with assignments := .ready worker event :: s.assignments }
  /-- A call on a worker that is kept moves: it may begin a run of the function. -/
  | works {s : StintLog} {pre post : List Assignment} {call : Assignment} {m : Move Assignment (Outcome × Event)}
      {ambient : Ambient} {desk : Desk} (hc : s.assignments = pre ++ call :: post)
      (hs : call.step s.callLog.ambient s.callLog.desk = some (m, ambient, desk)) :
      Step s (s.worked pre post call m ambient desk)
  /-- A call on a worker that is kept is given up. -/
  | stopsWork {s : StintLog} {pre post : List Assignment} {call : Assignment}
      (hc : s.assignments = pre ++ call :: post) : Step s { s with assignments := pre ++ post }
  /-- A caller drops the lease on a worker that it keeps, and its calls on it. -/
  | returns {s : StintLog} {pre post : List Worker} {worker : Worker} (hk : s.callLog.kept = pre ++ worker :: post) :
      Step s { s with
        callLog := { s.callLog with desk := s.callLog.desk.release worker, kept := pre ++ post }
        assignments := s.assignments.filter (·.worker ≠ worker) }
  /-- Time passes, and the function is entered elsewhere. -/
  | passes (s : StintLog) (ambient : Ambient) : Step s { s with callLog := { s.callLog with ambient } }

/-! ### What every move keeps -/

/-- Each worker is idle, or held by one call or by one who keeps it; the stints for an open call are the
latest on the worker that it holds. -/
structure Sound (info : SourceInfo) (members : List Worker) (s : StintLog) : Prop where
  callLog : s.callLog.Sound info
  accounts : s.callLog.desk.Accounts members (s.calls.flatMap DeskCall.leased ++ s.callLog.kept)
    (s.calls.flatMap DeskCall.tickets)
  /-- Events are given to workers that are kept. -/
  bound : ∀ call ∈ s.assignments, call.worker ∈ s.callLog.kept
  recorded : Stint.logged s.stints = s.callLog.log
  known : ∀ x ∈ s.stints, x.run.entry.worker = x.worker.knownAs
  undivided : ∀ number, Stint.Undivided number s.stints
  latest : ∀ errand ∈ s.callLog.calls, ∀ worker ∈ errand.call.leased,
    Stint.forCall errand.number s.stints <:+ Stint.on worker s.stints

theorem sound_opened (ambient : Ambient) (info : SourceInfo) {crew : Crew} (h : crew.Fresh) :
    Sound info crew.members (opened ambient info crew) where
  callLog := CallLog.sound_opened ambient info h
  accounts := Desk.accounts_of_fresh (d := .new info crew) h
  bound _ hm := by cases hm
  recorded := rfl
  known _ hm := by cases hm
  undivided _ := ⟨default, List.infix_rfl⟩
  latest _ hm := by cases hm

/-- Every move is one of the calls at the desk, or of those who keep workers. -/
theorem callLog_step {s s' : StintLog} (hs : Step s s') :
    CallLog.Step s.callLog s'.callLog ∨ s'.callLog = s.callLog := by
  cases hs with
  | submits event limit => exact .inl (.submits _ event limit)
  | submitsAll events limit => exact .inl (.submitsAll _ events limit)
  | allocates limit => exact .inl (.allocates _ limit)
  | moves hc hq => exact .inl (.moves hc hq)
  | drops hc => exact .inl (.drops hc)
  | assigns event hw => exact .inr rfl
  | works hc hq => exact .inl (.works hq)
  | stopsWork hc => exact .inr rfl
  | returns hk => exact .inl (.returns hk)
  | passes ambient => exact .inl (.passes _ ambient)

variable {info : SourceInfo} {members : List Worker} {s s' : StintLog}

theorem Sound.callLog_of_step (h : Sound info members s) (hs : Step s s') : s'.callLog.Sound info := by
  rcases callLog_step hs with hstep | hsame
  · exact h.callLog.step hstep
  · rw [hsame]
    exact h.callLog

/-- The accounts with one open call taken apart from all else. -/
theorem Sound.split_call (h : Sound info members s) {pre post : List Errand} {errand : Errand}
    (hc : s.callLog.calls = pre ++ errand :: post) :
    s.callLog.desk.Accounts members
      (errand.call.leased ++ ((pre.map Errand.call ++ post.map Errand.call).flatMap DeskCall.leased ++
        s.callLog.kept))
      (errand.call.tickets ++ (pre.map Errand.call ++ post.map Errand.call).flatMap DeskCall.tickets) :=
  DeskCall.split_accounts h.accounts (by rw [calls, hc, List.map_append, List.map_cons])

/-- What a call holds is held by no other, and kept by nobody. -/
theorem not_held_of_accounts (hd : (members.map Worker.serial).Nodup) {d : Desk} {pre post : List Errand}
    {call : DeskCall} {kept : List Worker} {tickets : List Nat}
    (h : d.Accounts members
      (call.leased ++ ((pre.map Errand.call ++ post.map Errand.call).flatMap DeskCall.leased ++ kept)) tickets)
    {worker : Worker} (hw : worker ∈ call.leased) :
    (∀ other ∈ pre ++ post, worker ∉ other.call.leased) ∧ worker ∉ kept := by
  have hdisjoint := List.disjoint_of_nodup_append (h.nodup_held hd) hw
  rw [← List.map_append] at hdisjoint
  exact ⟨fun other hm hother => hdisjoint (List.mem_append_left _
    (List.mem_flatMap.mpr ⟨_, List.mem_map_of_mem hm, hother⟩)), fun hk => hdisjoint (List.mem_append_right _ hk)⟩

section Begun

variable {number : Nat} {runs : List EnteredRun} {m : Move DeskCall DeskAnswer}

/-- What a move begins is for its call. -/
theorem number_of_begun : ∀ x ∈ begun number runs m, x.number = some number := by
  intro x hx
  obtain ⟨worker, -, hx⟩ := List.mem_flatMap.mp hx
  obtain ⟨run, -, rfl⟩ := List.mem_map.mp hx
  rfl

/-- What a move begins is on the worker that its call holds then. -/
theorem worker_of_begun : ∀ x ∈ begun number runs m, ∃ next, m = .goes next ∧ x.worker ∈ next.leased := by
  intro x hx
  obtain ⟨worker, hworker, hx⟩ := List.mem_flatMap.mp hx
  obtain ⟨run, -, rfl⟩ := List.mem_map.mp hx
  cases m with
  | goes next => exact ⟨next, rfl, next.busy_sublist_leased.subset hworker⟩
  | ends answer => cases hworker

/-- Every run that a move begins is on record, with the worker. -/
theorem begun_of_begins (number : Nat) {call : DeskCall} (h : call.Begins runs m) :
    Stint.logged (begun number runs m) = runs.map (number, ·) ∧
      ∀ x ∈ begun number runs m, x.run.entry.worker = x.worker.knownAs := by
  rcases h.begun with rfl | ⟨next, worker, rfl, -, hbusy, hknown⟩
  · have hnone : begun number [] m = [] := List.flatMap_eq_nil_iff.mpr fun _ _ => rfl
    rw [hnone]
    exact ⟨rfl, fun _ hm => (by cases hm)⟩
  · have hall : begun number runs (.goes next) = runs.map (⟨worker, some number, ·⟩) := by
      rw [begun, Move.after, hbusy, List.flatMap_singleton]
    rw [hall]
    refine ⟨?_, List.forall_mem_map.mpr hknown⟩
    rw [Stint.logged, List.filterMap_map]
    exact congrFun List.filterMap_eq_map runs

end Begun

/-- A call that holds no worker has had no run. -/
theorem Sound.forCall_of_leased (h : Sound info members s) {errand : Errand} (hm : errand ∈ s.callLog.calls)
    (hnone : errand.call.leased = []) : Stint.forCall errand.number s.stints = [] := by
  have houtcomes := (h.callLog.follows errand hm).outcomes
  rw [DeskCall.outcomes_of_leased hnone, ← h.recorded, Stint.runsFor_logged] at houtcomes
  exact List.map_eq_nil_iff.mp (List.map_eq_nil_iff.mp houtcomes)

section Moves

variable {pre post : List Errand} {errand : Errand} {m : Move DeskCall DeskAnswer} {ambient : Ambient} {desk : Desk}

/-- The stints for a call that moves stay the latest on its worker. -/
theorem Sound.latest_served (h : Sound info members s) (hc : s.callLog.calls = pre ++ errand :: post)
    (hs : errand.call.serve s.callLog.ambient s.callLog.desk = some (m, ambient, desk)) {next : DeskCall}
    (hnext : m = .goes next) : ∀ worker ∈ next.leased,
      Stint.forCall errand.number (s.served pre post errand m ambient desk).stints <:+
        Stint.on worker (s.served pre post errand m ambient desk).stints := by
  intro worker hw
  have hm : errand ∈ s.callLog.calls := by rw [hc]; exact List.mem_append_right _ List.mem_cons_self
  have hlatest : Stint.forCall errand.number s.stints <:+ Stint.on worker s.stints := by
    rcases (DeskCall.begins_of_serve hs).stays next hnext with hsame | hnone
    · exact h.latest errand hm worker (hsame ▸ hw)
    · rw [h.forCall_of_leased hm hnone]
      exact List.nil_suffix
  refine Stint.latest_append hlatest number_of_begun fun x hx => ?_
  obtain ⟨other, hother, hx⟩ := worker_of_begun x hx
  cases hnext.symm.trans hother
  rcases next.leased_cases with hnone | ⟨only, honly⟩
  · rw [hnone] at hw
    cases hw
  · rw [honly, List.mem_singleton] at hw hx
    rw [hw, hx]

/-- **An open call moves.** -/
theorem Sound.moves (hd : (members.map Worker.serial).Nodup) (h : Sound info members s)
    (hc : s.callLog.calls = pre ++ errand :: post)
    (hs : errand.call.serve s.callLog.ambient s.callLog.desk = some (m, ambient, desk)) :
    Sound info members (s.served pre post errand m ambient desk) := by
  have hbegins := DeskCall.begins_of_serve hs
  obtain ⟨hlogged, hknown⟩ := begun_of_begins errand.number hbegins
  obtain ⟨hcalls, -⟩ := h.callLog.ne_number hc
  have hsub : (pre ++ post).Sublist s.callLog.calls := hc ▸ (List.sublist_cons_self _ _).append_left _
  have haccounts := DeskCall.accounts_of_serve hd (h.split_call hc) hs
  have hsame : (s.served pre post errand m ambient desk).calls =
      pre.map Errand.call ++ (m.next?.toList ++ post.map Errand.call) := by
    simp [calls, served, Function.comp_def]
  refine ⟨h.callLog_of_step (.moves hc hs), hsame ▸ haccounts,
    fun call hm => List.mem_append_right _ (h.bound call hm), ?_, List.forall_mem_append.mpr ⟨h.known, hknown⟩,
    fun number => ?_, ?_⟩
  · exact (Stint.logged_append _ _).trans (congrArg₂ _ h.recorded hlogged)
  · rcases eq_or_ne errand.number number with rfl | hne
    · cases hbegun : begun errand.number (s.callLog.ambient.runsSince ambient) m with
      | nil =>
        rw [served, hbegun, List.append_nil]
        exact h.undivided _
      | cons x more =>
        obtain ⟨next, hnext, hx⟩ := worker_of_begun x (hbegun ▸ List.mem_cons_self)
        exact ⟨x.worker, (h.latest_served hc hs hnext _ hx).isInfix⟩
    · refine (h.undivided number).append fun x hx => ?_
      rw [number_of_begun x hx]
      exact fun heq => hne (Option.some.inj heq)
  · -- Another call holds another worker, and had its runs there.
    have hothers : ∀ other ∈ pre ++ post, ∀ worker ∈ other.call.leased,
        Stint.forCall other.number (s.served pre post errand m ambient desk).stints <:+
          Stint.on worker (s.served pre post errand m ambient desk).stints := fun other hm worker hw => by
      refine Stint.latest_append_of_ne (h.latest other (hsub.subset hm) worker hw) (fun x hx => ?_) fun x hx heq => ?_
      · rw [number_of_begun x hx]
        exact fun heq => hcalls other hm (Option.some.inj heq)
      · obtain ⟨next, rfl, hleased⟩ := worker_of_begun x hx
        have hsplit := DeskCall.split_accounts haccounts rfl
        exact (not_held_of_accounts hd hsplit hleased).1 other hm (heq ▸ hw)
    obtain ⟨hpre, hpost⟩ := List.forall_mem_append.mp hothers
    refine List.forall_mem_append.mpr ⟨hpre, List.forall_mem_append.mpr ⟨?_, hpost⟩⟩
    refine List.forall_mem_map.mpr fun next hnext => ?_
    exact h.latest_served hc hs (Move.mem_next?.mp (Option.mem_toList.mp hnext))

end Moves

/-- A worker that is kept is held by no call. -/
theorem Sound.not_leased_of_kept (hd : (members.map Worker.serial).Nodup) (h : Sound info members s)
    {worker : Worker} (hw : worker ∈ s.callLog.kept) : ∀ errand ∈ s.callLog.calls, worker ∉ errand.call.leased :=
  fun _ hm hleased => List.disjoint_of_nodup_append (h.accounts.nodup_held hd)
    (List.mem_flatMap.mpr ⟨_, List.mem_map_of_mem hm, hleased⟩) hw

/-- **A call on a worker that is kept moves**: no call at the desk has that worker. -/
theorem Sound.works (hd : (members.map Worker.serial).Nodup) (h : Sound info members s)
    {pre post : List Assignment} {call : Assignment} {m : Move Assignment (Outcome × Event)} {ambient : Ambient}
    {desk : Desk} (hc : s.assignments = pre ++ call :: post)
    (hs : call.step s.callLog.ambient s.callLog.desk = some (m, ambient, desk)) :
    Sound info members (s.worked pre post call m ambient desk) := by
  obtain ⟨hpre, hrest⟩ := List.forall_mem_append.mp (hc ▸ h.bound)
  obtain ⟨hcall, hpost⟩ := List.forall_mem_cons.mp hrest
  obtain ⟨hpool, hnext⟩ := Assignment.step_pool hs
  have hnone : ∀ number, ∀ x ∈ (s.callLog.ambient.runsSince ambient).map (Stint.mk call.worker none),
      x.number ≠ some number := fun number =>
    List.forall_mem_map.mpr fun run _ => (by simp)
  have hlogged : Stint.logged ((s.callLog.ambient.runsSince ambient).map (Stint.mk call.worker none)) = [] :=
    List.filterMap_eq_nil_iff.mpr (List.forall_mem_map.mpr fun run _ => rfl)
  refine ⟨h.callLog_of_step (.works hc hs), h.accounts.of_pool hpool,
    List.forall_mem_append.mpr ⟨hpre, List.forall_mem_append.mpr ⟨fun next hm => ?_, hpost⟩⟩, ?_,
    List.forall_mem_append.mpr ⟨h.known, List.forall_mem_map.mpr (Assignment.knownAs_of_step hs)⟩,
    fun number => (h.undivided number).append (hnone number), fun errand hm worker hw => ?_⟩
  · exact hnext next (Move.mem_next?.mp (Option.mem_toList.mp hm)) ▸ hcall
  · exact (Stint.logged_append _ _).trans (by rw [hlogged, List.append_nil, h.recorded]; rfl)
  · refine Stint.latest_append_of_ne (h.latest errand hm worker hw) (hnone _) ?_
    refine List.forall_mem_map.mpr fun run _ heq => ?_
    have hsame : call.worker = worker := heq
    exact h.not_leased_of_kept hd hcall errand hm (hsame ▸ hw)

/-- A new call holds nothing. -/
theorem Sound.cons_call (h : Sound info members s) {errand : Errand} (hw : errand.call.leased = [])
    (ht : errand.call.tickets = []) {callLog : CallLog} (hcallLog : callLog.Sound info)
    (hcalls : callLog.calls = errand :: s.callLog.calls) (hdesk : callLog.desk = s.callLog.desk)
    (hkept : callLog.kept = s.callLog.kept) (hlog : callLog.log = s.callLog.log) :
    Sound info members { s with callLog } := by
  refine ⟨hcallLog, ?_, hkept ▸ h.bound, hlog ▸ h.recorded, h.known, h.undivided, ?_⟩
  · have hall : calls { s with callLog } = errand.call :: s.calls := by rw [calls, hcalls]; rfl
    rw [hall, hdesk, hkept, List.flatMap_cons, List.flatMap_cons, hw, ht]
    exact h.accounts
  · rw [hcalls]
    refine List.forall_mem_cons.mpr ⟨fun worker hm => ?_, h.latest⟩
    rw [hw] at hm
    cases hm

/-- **What one move of anybody keeps.** -/
theorem Sound.step (hd : (members.map Worker.serial).Nodup) (h : Sound info members s) (hs : Step s s') :
    Sound info members s' := by
  have hcallLog := h.callLog_of_step hs
  cases hs with
  | submits event limit | submitsAll events limit | allocates limit =>
    exact h.cons_call rfl rfl hcallLog rfl rfl rfl rfl
  | moves hc hq => exact h.moves hd hc hq
  | drops hc =>
    rename_i pre post errand
    have hsub : (pre ++ post).Sublist s.callLog.calls := hc ▸ (List.sublist_cons_self _ _).append_left _
    have haccounts := DeskCall.drop_accounts hd (h.split_call hc)
    rw [← List.map_append] at haccounts
    exact ⟨hcallLog, haccounts, h.bound, h.recorded, h.known, h.undivided,
      fun other hm => h.latest other (hsub.subset hm)⟩
  | assigns event hw =>
    exact ⟨hcallLog, h.accounts, List.forall_mem_cons.mpr ⟨hw, h.bound⟩, h.recorded, h.known, h.undivided, h.latest⟩
  | works hc hq => exact h.works hd hc hq
  | stopsWork hc =>
    refine ⟨hcallLog, h.accounts, fun other hm => h.bound other (hc ▸ ?_), h.recorded, h.known, h.undivided, h.latest⟩
    exact ((List.sublist_cons_self _ _).append_left _).subset hm
  | returns hk =>
    rename_i pre post worker
    have hsplit : s.callLog.desk.Accounts members
        (worker :: (s.calls.flatMap DeskCall.leased ++ (pre ++ post))) (s.calls.flatMap DeskCall.tickets) := by
      refine h.accounts.of_perm ?_ (.refl _)
      rw [hk, ← List.append_assoc, ← List.append_assoc]
      exact List.perm_middle
    refine ⟨hcallLog, hsplit.release hd, fun call hm => ?_, h.recorded, h.known, h.undivided, h.latest⟩
    obtain ⟨hcall, hother⟩ := List.mem_filter.mp hm
    have hkept := h.bound call hcall
    rw [hk] at hkept
    exact (List.mem_cons.mp (List.perm_middle.mem_iff.mp hkept)).resolve_left (of_decide_eq_true hother)
  | passes ambient => exact ⟨hcallLog, h.accounts, h.bound, h.recorded, h.known, h.undivided, h.latest⟩

theorem Sound.of_reachable (hd : (members.map Worker.serial).Nodup) (h : Sound info members s)
    (hr : Relation.ReflTransGen Step s s') : Sound info members s' := by
  induction hr with
  | refl => exact h
  | tail _ hs ih => exact ih.step hd hs

/-! ### The law -/

/-- **Events that are submitted together run in one piece.** Whatever else is submitted at a desk meanwhile,
whichever calls are given up, and whatever those who keep workers give them: if a batch is answered with
outcomes, there are as many as it has events; the function was entered with the events in their order, each
marked with the source and with an id; all runs were on one worker, on which nothing else ran between the
first and the last of them; and each outcome is what the run in its place ended with, of a panic as of a
failure. -/
theorem in_one_piece_of_reachable {crew : Crew} (hfresh : crew.Fresh) {ambient : Ambient}
    (hr : Relation.ReflTransGen Step (opened ambient info crew) s) {number : Nat} {given : List Event}
    {outcomes : List Outcome} (hanswer : ⟨number, given, .processed (.processed outcomes)⟩ ∈ s.callLog.answers) :
    outcomes.length = given.length ∧
      ∃ (worker : Worker) (runs : List Stint),
        s.stints.filter (·.number = some number) = runs ∧
        runs <:+: s.stints.filter (·.worker = worker) ∧
        (∀ x ∈ runs, x.run.entry.worker = worker.knownAs) ∧
        List.Forall₂ (Event.PreparedBy info) given (runs.map fun x => x.run.event) ∧
        List.Forall₂ (fun x outcome => x.run.run.conclusion.Reports outcome) runs outcomes := by
  have hsound := (sound_opened ambient info hfresh).of_reachable hfresh.distinct hr
  obtain ⟨hevents, houtcomes⟩ := hsound.callLog.borne _ hanswer
  rw [← hsound.recorded, Stint.runsFor_logged] at hevents houtcomes
  rw [List.map_map] at hevents
  rw [List.forall₂_map_left_iff] at houtcomes
  obtain ⟨worker, hpart⟩ := hsound.undivided number
  refine ⟨?_, worker, _, rfl, hpart, fun x hx => ?_, hevents, houtcomes⟩
  · have hlength := hevents.length_eq
    rw [List.length_map] at hlength
    rw [hlength, houtcomes.length_eq]
  · obtain ⟨hmem, hworker⟩ := List.mem_filter.mp (hpart.subset hx)
    rw [hsound.known x hmem, of_decide_eq_true hworker]

/-- Two events are submitted together; the first panics. A submission comes in between, waits for the only
worker, and runs on it after both. -/
theorem in_one_piece_with_another :
    let info : SourceInfo := ⟨"desk", "panics", .async⟩
    let crew : Crew := .ofIndices .shared [0]
    let ambient : Ambient := .start ⟨0, 0⟩ fun earlier _ =>
      if earlier.isEmpty then ⟨0, .panics none⟩ else ⟨0, .answers .empty⟩
    let event : Event := .blank ⟨0, 0⟩
    let outcomes : List Outcome := [.error ⟨"Function panicked: unknown panic", none⟩, .ok .empty]
    crew.Fresh ∧ ∃ s : StintLog, Relation.ReflTransGen Step (opened ambient info crew) s ∧
      s.callLog.answers.map Answered.number = [1, 0] ∧
      ⟨0, [event, event], .processed (.processed outcomes)⟩ ∈ s.callLog.answers ∧
      outcomes.length = 2 ∧
      ∃ (worker : Worker) (runs : List Stint),
        s.stints.filter (·.number = some 0) = runs ∧
        runs <:+: s.stints.filter (·.worker = worker) ∧
        (∀ x ∈ runs, x.run.entry.worker = worker.knownAs) ∧
        List.Forall₂ (Event.PreparedBy info) [event, event] (runs.map fun x => x.run.event) ∧
        List.Forall₂ (fun x outcome => x.run.run.conclusion.Reports outcome) runs outcomes := by
  intro info crew ambient event outcomes
  have hfresh : crew.Fresh := Crew.fresh_ofIndices .shared [0]
  have hrunning := ((((Relation.ReflTransGen.refl.tail
    (Step.submitsAll (opened ambient info crew) [event, event] none)).tail
    (@Step.moves _ [] [] _ _ _ _ rfl rfl)).tail
    (@Step.moves _ [] [] _ _ _ _ rfl rfl)).tail
    (@Step.moves _ [] [] _ _ _ _ rfl rfl)).tail
    (@Step.moves _ [] [] _ _ _ _ rfl rfl)
  have hwaiting := ((hrunning.tail
    (Step.submits _ event none)).tail
    (@Step.moves _ [] [_] _ _ _ _ rfl rfl)).tail
    (@Step.moves _ [] [_] _ _ _ _ rfl rfl)
  have hanswered := (((hwaiting.tail
    (@Step.moves _ [_] [] _ _ _ _ rfl rfl)).tail
    (@Step.moves _ [_] [] _ _ _ _ rfl rfl)).tail
    (@Step.moves _ [_] [] _ _ _ _ rfl rfl)).tail
    (@Step.moves _ [_] [] _ _ _ _ rfl rfl)
  have hdone := (hanswered.tail
    (@Step.moves _ [] [] _ _ _ _ rfl rfl)).tail
    (@Step.moves _ [] [] _ _ _ _ rfl rfl)
  exact ⟨hfresh, _, hdone, rfl, .tail _ List.mem_cons_self,
    in_one_piece_of_reachable hfresh hdone (.tail _ List.mem_cons_self)⟩

end StintLog

end EventDispatch
