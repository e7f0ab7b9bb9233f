import EventDispatch.Proofs.PollHistory
import EventDispatch.Proofs.StreamHistory
import EventDispatch.Proofs.StreamMoves
import EventDispatch.Proofs.TaskMoves
import EventDispatch.Source

/-!
# The lifecycle of a source of any kind

Whatever a source does, its background work is a lifecycle that only starts and stops reach. The tasks
differ from kind to kind, but to a lifecycle a task is no more than the run that it belongs to. So the
sources of all kinds are seen here through one view: their lifecycle, with the signal of its run in place
of each task.

## Main definitions

* `TaskRules.Sealed`: no task reaches the lifecycle of its source.
* `Lifecycle.signals`: a lifecycle that tells of each task only the run that it belongs to.
* `Source.runs`: that view of a source.

## Main results

* `Source.runs_of_start`, `Source.runs_of_stepStop`, `Source.runs_of_stepTask`: what a start, a move of a
  stop and a move of a task do to a source, seen through that view.
-/

namespace EventDispatch

/-! ### Tasks that keep to themselves -/

/-- The lifecycle of a source is out of reach of its tasks: neither a move of a task nor giving it up
changes it. -/
structure TaskRules.Sealed {σ τ : Type} (r : TaskRules σ τ) : Prop extends r.Lawful where
  get_step : ∀ {signal task w s m w' s'}, r.step signal task w s = some (m, w', s') →
    r.lifecycle s' = r.lifecycle s

theorem HttpSource.rules_sealed : rules.Sealed where
  get_set _ _ := rfl
  get_drop _ _ _ := rfl
  get_step h := by
    simp only [rules] at h
    split at h
    · cases h
      rfl
    · cases h

namespace Generator

theorem lifecycle_of_step {signal : Signal} {task : Generation} {w w' : World} {g g' : Generator}
    {m : Move Generation Unit} (h : g.step signal task w = some (m, w', g')) :
    g'.lifecycle = g.lifecycle := by
  cases moves_of_step h <;> rfl

theorem rules_sealed : rules.Sealed where
  get_set _ _ := rfl
  get_drop task w s := by
    rw [rules]
    dsimp only
    split <;> rfl
  get_step h := lifecycle_of_step h

end Generator

namespace QueueSource

theorem lifecycle_of_step {signal : Signal} {task : Listener} {w w' : World} {q q' : QueueSource}
    {m : Move Listener Unit} (h : q.step signal task w = some (m, w', q')) :
    q'.lifecycle = q.lifecycle := by
  cases moves_of_step h <;> rfl

theorem rules_sealed : rules.Sealed where
  get_set _ _ := rfl
  get_drop task w s := by
    change (drop task w s).2.lifecycle = s.lifecycle
    unfold drop
    split <;> rfl
  get_step h := lifecycle_of_step h

end QueueSource

namespace StreamSource

theorem lifecycle_of_step {signal : Signal} {task : Reader} {w w' : World} {s s' : StreamSource}
    {m : Move Reader Unit} (h : s.step signal task w = some (m, w', s')) :
    s'.lifecycle = s.lifecycle := by
  cases moves_of_step h <;> rfl

theorem rules_sealed : rules.Sealed where
  toLawful := rules_lawful
  get_step h := lifecycle_of_step h

end StreamSource

namespace PollSource

theorem lifecycle_of_stepConsumer {signal : Signal} {c c' : Channel} {w w' : World} {s s' : PollSource}
    {consumer next : Consumer} (h : s.stepConsumer signal c w consumer = some (next, c', w', s')) :
    s'.lifecycle = s.lifecycle := by
  cases Consumer.moves_of_step h <;> rfl

theorem lifecycle_of_step {signal : Signal} {task : PollTask} {w w' : World} {s s' : PollSource}
    {m : Move PollTask Unit} (h : s.step signal task w = some (m, w', s')) :
    s'.lifecycle = s.lifecycle := by
  cases moves_of_step h with
  | receives hsubmit => exact lifecycle_of_stepConsumer hsubmit
  | _ => rfl

theorem rules_sealed : rules.Sealed where
  toLawful := rules_lawful
  get_step h := lifecycle_of_step h

end PollSource

/-! ### Lifecycles that tell runs apart -/

namespace Lifecycle

variable {τ : Type} {l l' : Lifecycle (Task τ)}

/-- The lifecycle with the signal of its run in place of each task. -/
def signals (l : Lifecycle (Task τ)) : Lifecycle Signal :=
  { running := l.running, signal := l.signal, sent := l.sent,
    live := l.live.map fun t => (t.1, t.2.signal), handles := l.handles, nextHandle := l.nextHandle }

@[simp] theorem alive_signals : l.signals.alive = l.alive := by
  simp [alive, signals]

theorem task?_signals (handle : Nat) : l.signals.task? handle = (l.task? handle).map Task.signal := by
  rw [task?, task?, signals]
  dsimp only
  induction l.live with
  | nil => rfl
  | cons t live ih =>
    rw [List.map_cons, List.lookup_cons, List.lookup_cons, ih]
    split <;> rfl

theorem signals_replace (handle : Nat) (task : Task τ) :
    (l.replace handle task).signals = l.signals.replace handle task.signal := by
  simp only [signals, replace, List.map_map, mk.injEq, true_and, and_true]
  refine List.map_congr_left fun t _ => ?_
  dsimp only [Function.comp]
  split <;> rfl

theorem signals_finish (handle : Nat) : (l.finish handle).signals = l.signals.finish handle := by
  simp only [signals, finish, List.filter_map]
  rfl

theorem signals_spawnAll (tasks : List (Task τ)) :
    (l.spawnAll tasks).signals = l.signals.spawnAll (tasks.map Task.signal) := by
  induction tasks generalizing l with
  | nil => rfl
  | cons task tasks ih =>
    have hspawn : (l.spawn task).signals = l.signals.spawn task.signal := by
      simp [signals, spawn]
    calc ((l.spawn task).spawnAll tasks).signals
      _ = (l.spawn task).signals.spawnAll (tasks.map Task.signal) := ih
      _ = (l.signals.spawn task.signal).spawnAll (tasks.map Task.signal) := by rw [hspawn]

theorem signals_halted (force : Bool) : (l.halted force).signals = l.signals.halted force := by
  cases force with
  | false => rfl
  | true =>
    simp only [signals, halted, if_true, List.filter_map]
    rfl

/-- A stop does not look at the tasks. -/
theorem afterStop_signals {stop : Stop} {m : Move Stop Unit} (h : l.afterStop stop = some (m, l')) :
    l.signals.afterStop stop = some (m, l'.signals) := by
  rcases afterStop_cases h with ⟨force, rfl, hrun, rfl, rfl⟩ | ⟨force, rfl, hrun, rfl, rfl⟩ |
    ⟨handles, rfl, hall, rfl, rfl⟩
  · have hsame : l'.signals.running = false := hrun
    simp [afterStop, hsame]
  · have hsame : l.signals.running = true := hrun
    rw [signals_halted, afterStop, if_pos hsame]
    rfl
  · have hsame : l'.signals.allEnded handles = true := by
      rw [allEnded_iff, alive_signals]
      exact allEnded_iff.mp hall
    simp [afterStop, hsame]

end Lifecycle

/-- What a start does to a lifecycle that tells runs apart, with the result of the start. -/
inductive Lifecycle.Started (l : Lifecycle Signal) : Except Error Unit → Lifecycle Signal → Prop
  /-- The start fails, and nothing changes. -/
  | refused (e : Error) : Started l (.error e) l
  /-- A run begins, and its tasks are started. -/
  | begun (hrun : l.running = false) (count : Nat) :
      Started l (.ok ()) (l.begin.2.spawnAll (List.replicate count (l.signal + 1)))
  /-- The run that has begun is over before it has tasks. -/
  | failed (hrun : l.running = false) (e : Error) : Started l (.error e) (l.begin.2.halted false)
  /-- The source has no tasks. -/
  | noted (hrun : l.running = false) : Started l (.ok ()) l

/-- A source that starts with the tasks given begins a run, unless one is going on. -/
theorem TaskRules.Lawful.started {σ τ : Type} {r : TaskRules σ τ} (hr : r.Lawful) (tasks : List τ)
    (s : σ) : (r.lifecycle s).signals.Started (r.start tasks s).1
      (r.lifecycle (r.start tasks s).2).signals := by
  cases hrun : (r.lifecycle s).running with
  | true =>
    rw [start_running hrun]
    exact .refused _
  | false =>
    have hmap : (tasks.map (Task.mk ((r.lifecycle s).signal + 1))).map Task.signal =
        List.replicate tasks.length ((r.lifecycle s).signal + 1) := by
      rw [List.map_map]
      exact List.map_const' ..
    have hbegin : (r.lifecycle s).signals.begin.2 =
        { r.lifecycle s with running := true, signal := (r.lifecycle s).signal + 1 }.signals := by
      simp [Lifecycle.begin, Lifecycle.signals, hrun]
    rw [start_eq hrun, hr.get_set, Lifecycle.signals_spawnAll, hmap, ← hbegin]
    exact .begun hrun tasks.length

/-- A stop treats a source as it treats its lifecycle. -/
theorem TaskRules.Lawful.signals_of_stop {σ τ : Type} {r : TaskRules σ τ} (hr : r.Lawful) {stop : Stop}
    {m : Move Stop Unit} {w w' : World} {s s' : σ} (h : r.stop stop w s = some (m, w', s')) :
    (r.lifecycle s).signals.afterStop stop = some (m, (r.lifecycle s').signals) :=
  Lifecycle.afterStop_signals (afterStop_of_stop hr h)

/-- A move of a task leaves the task in its run, or ends it. -/
theorem TaskRules.Sealed.signals_of_stepLive {σ τ : Type} {r : TaskRules σ τ} (hr : r.Sealed)
    {handle : Nat} {w w' : World} {s s' : σ} (h : r.stepLive handle w s = some (w', s')) :
    ∃ signal, (r.lifecycle s).signals.task? handle = some signal ∧
      ((r.lifecycle s').signals = (r.lifecycle s).signals.replace handle signal ∨
        (r.lifecycle s').signals = (r.lifecycle s).signals.finish handle) := by
  obtain ⟨task, m, s₁, htask, hstep, rfl⟩ := stepLive_cases h
  rw [hr.get_set, hr.get_step hstep]
  refine ⟨task.signal, by rw [Lifecycle.task?_signals, htask, Option.map_some], ?_⟩
  cases m with
  | goes next => exact .inl (Lifecycle.signals_replace handle ⟨task.signal, next⟩)
  | ends result => exact .inr (Lifecycle.signals_finish handle)

/-! ### Sources -/

theorem HttpSource.started (s : HttpSource) :
    s.lifecycle.signals.Started s.start.1 s.start.2.lifecycle.signals := by
  rw [start]
  split
  · exact .refused _
  · split
    · have hstart := rules_sealed.started [()] s
      split
      next heq =>
        rw [heq] at hstart
        exact hstart
      next heq =>
        rw [heq] at hstart
        exact hstart
    · cases hrun : s.lifecycle.running with
      | true =>
        have hkept : (rules.lifecycle s).running = true := hrun
        rw [TaskRules.start_running hkept]
        exact .refused _
      | false =>
        -- The run that has begun has no tasks, and is halted at once.
        have hstart := TaskRules.start_eq (r := rules) (s := s) hrun []
        rw [hstart]
        have hhalt : ({ s.lifecycle with running := true, signal := s.lifecycle.signal + 1 } :
            Lifecycle (Task Unit)).halt.2.signals = s.lifecycle.signals.begin.2.halted false := by
          simp [Lifecycle.halt, Lifecycle.begin, Lifecycle.halted, Lifecycle.signals, hrun]
        exact (congrArg (s.lifecycle.signals.Started _) hhalt).mpr (.failed hrun _)

theorem Generator.started (g : Generator) :
    g.lifecycle.signals.Started g.start.1 g.start.2.lifecycle.signals := by
  rw [start]
  split
  · exact .refused _
  · exact rules_sealed.started _ g

/-- A checkpoint moves the positions, and does not touch the tasks. -/
theorem StreamSource.exists_positions_of_restore {token : Option String} {s restored : StreamSource}
    (h : s.restore token = .ok restored) : ∃ positions, restored = { s with positions } := by
  unfold restore at h
  split at h
  · cases h
    exact ⟨_, rfl⟩
  · split at h
    · cases h
    · cases h
      exact ⟨_, rfl⟩

theorem StreamSource.started (token : Option String) (s : StreamSource) :
    s.lifecycle.signals.Started (s.start token).1 (s.start token).2.lifecycle.signals := by
  rw [start]
  split
  · exact .refused _
  next hrestore =>
    obtain ⟨positions, rfl⟩ := exists_positions_of_restore hrestore
    exact rules_sealed.started _ { s with positions }

namespace Source

variable {w w' : World} {s s' : Source}

/-- The background work of a source, with the signal of its run in place of each task. -/
def runs : Source → Lifecycle Signal
  | http s => s.lifecycle.signals
  | generator s => s.lifecycle.signals
  | queue s => s.lifecycle.signals
  | stream s => s.lifecycle.signals
  | poll s => s.lifecycle.signals
  | probe _ => .new

/-- A start of a source of any kind. -/
theorem runs_of_start {token : Option String} {result : Except Error Unit}
    (h : s.start token w = (result, w', s')) : s.runs.Started result s'.runs := by
  cases s with
  | http s =>
    cases h
    exact s.started
  | generator s =>
    cases h
    exact s.started
  | queue s =>
    cases h
    exact QueueSource.rules_sealed.started _ s
  | stream s =>
    cases h
    exact s.started token
  | poll s =>
    cases h
    exact PollSource.rules_sealed.started _ s
  | probe s =>
    simp only [start] at h
    split at h
    · cases h
      exact .refused _
    · cases h
      exact .noted rfl

/-- Where a source is made of one with tasks, a stop of the one comes from a stop of the other, after which
something may be finished. -/
theorem exists_stop_of_map {σ τ : Type} {r : TaskRules σ τ} (wrap : σ → Source)
    (finish : σ → Option String × σ) {s : σ} {stop : Stop} {m : Move Stop (Except Error (Option String))}
    (h : ((r.stop stop w s).map fun (m, w, s) =>
      match m with
      | .goes next => (Move.goes next, w, wrap s)
      | .ends () => (.ends (.ok (finish s).1), w, wrap (finish s).2)) = some (m, w', s')) :
    ∃ s₁, r.stop stop w s = some (m.map id fun _ => (), w', s₁) ∧ (s' = wrap s₁ ∨ s' = wrap (finish s₁).2) := by
  obtain ⟨⟨m', w₁, s₁⟩, hstop, heq⟩ := Option.map_eq_some_iff.mp h
  cases m' with
  | goes next =>
    cases heq
    exact ⟨s₁, hstop, .inl rfl⟩
  | ends result =>
    cases heq
    exact ⟨s₁, hstop, .inr rfl⟩

/-- A stop treats both alike. -/
theorem runs_of_stop {σ τ : Type} {r : TaskRules σ τ} (hr : r.Lawful) (wrap : σ → Source)
    (hwrap : ∀ s, (wrap s).runs = (r.lifecycle s).signals) (finish : σ → Option String × σ)
    (hfinish : ∀ s, r.lifecycle (finish s).2 = r.lifecycle s) {s : σ} {stop : Stop}
    {m : Move Stop (Except Error (Option String))}
    (h : ((r.stop stop w s).map fun (m, w, s) =>
      match m with
      | .goes next => (Move.goes next, w, wrap s)
      | .ends () => (.ends (.ok (finish s).1), w, wrap (finish s).2)) = some (m, w', s')) :
    (wrap s).runs.afterStop stop = some (m.map id fun _ => (), s'.runs) := by
  obtain ⟨s₁, hstop, hs'⟩ := exists_stop_of_map wrap finish h
  have hsame : s'.runs = (r.lifecycle s₁).signals := by
    rcases hs' with rfl | rfl
    · exact hwrap s₁
    · rw [hwrap, hfinish]
  rw [hwrap, hsame]
  exact hr.signals_of_stop hstop

/-- A stop of a source of any kind. -/
theorem runs_of_stepStop {stop : Stop} {m : Move Stop (Except Error (Option String))}
    (h : s.stepStop stop w = some (m, w', s')) :
    s.runs.afterStop stop = some (m.map id fun _ => (), s'.runs) := by
  cases s with
  | http s =>
    exact runs_of_stop HttpSource.rules_sealed.toLawful http (fun _ => rfl)
      (fun s => (none, { s with bound := false })) (fun _ => rfl) h
  | generator s =>
    exact runs_of_stop Generator.rules_sealed.toLawful generator (fun _ => rfl)
      (none, ·) (fun _ => rfl) h
  | queue s =>
    exact runs_of_stop QueueSource.rules_sealed.toLawful queue (fun _ => rfl)
      (none, ·) (fun _ => rfl) h
  | stream s =>
    exact runs_of_stop StreamSource.rules_sealed.toLawful stream (fun _ => rfl)
      (fun s => (s.checkpoint, s)) (fun _ => rfl) h
  | poll s =>
    exact runs_of_stop PollSource.rules_sealed.toLawful poll (fun _ => rfl)
      (none, ·) (fun _ => rfl) h
  | probe p =>
    have hprobe : (∃ result, m = .ends result) ∧ s' = .probe p := by
      simp only [stepStop] at h
      split at h
      · split at h <;> · cases h; exact ⟨⟨_, rfl⟩, rfl⟩
      · cases h
        exact ⟨⟨_, rfl⟩, rfl⟩
    obtain ⟨⟨result, rfl⟩, rfl⟩ := hprobe
    cases stop with
    | ready force => rfl
    | joining handles =>
      have hended : (Lifecycle.new : Lifecycle Signal).allEnded handles = true := by
        rw [Lifecycle.allEnded_iff]
        exact fun _ _ => List.not_mem_nil
      rw [runs, Lifecycle.afterStop, if_pos hended]
      rfl

/-- A task of a source of any kind: it stays in its run, or ends. -/
theorem runs_of_stepTask {handle : Nat} (h : s.stepTask handle w = some (w', s')) :
    ∃ signal, s.runs.task? handle = some signal ∧
      (s'.runs = s.runs.replace handle signal ∨ s'.runs = s.runs.finish handle) := by
  cases s with
  | http s =>
    obtain ⟨_, hs, heq⟩ := Option.map_eq_some_iff.mp h
    cases heq
    exact HttpSource.rules_sealed.signals_of_stepLive hs
  | generator s =>
    obtain ⟨_, hs, heq⟩ := Option.map_eq_some_iff.mp h
    cases heq
    exact Generator.rules_sealed.signals_of_stepLive hs
  | queue s =>
    obtain ⟨_, hs, heq⟩ := Option.map_eq_some_iff.mp h
    cases heq
    exact QueueSource.rules_sealed.signals_of_stepLive hs
  | stream s =>
    obtain ⟨_, hs, heq⟩ := Option.map_eq_some_iff.mp h
    cases heq
    exact StreamSource.rules_sealed.signals_of_stepLive hs
  | poll s =>
    obtain ⟨_, hs, heq⟩ := Option.map_eq_some_iff.mp h
    cases heq
    exact PollSource.rules_sealed.signals_of_stepLive hs
  | probe s => cases h

/-- The desk has no part in it. -/
@[simp] theorem runs_setDesk (desk : Desk) : (s.setDesk desk).runs = s.runs := by
  cases s <;> rfl

end Source

end EventDispatch
