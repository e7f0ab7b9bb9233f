import EventDispatch.Proofs.Shutdown
import EventDispatch.Proofs.TaskKinds

/-!
# Runs of one source

A source may be started again once it does not run, and one expects a run to find the tasks of the runs
before it ended. Starts and stops may come in any order, from anybody, and a start may come while a stop
is waiting.

A source no longer counts as running as soon as a stop has begun, however long the stop has to wait for
the tasks. So a start that comes then succeeds, and the two runs go on side by side: two readers on one
shard, or two polls of one store. What holds is that nothing else lets runs meet. A start finds a task of
an earlier run alive only if a stop has taken that task and has not returned.

## One move at a time

A start begins its run and starts the tasks without waiting in between, and so does a stop that sends the
signal and takes the handles. Each of them is one move here.

## What is deliberately absent

Time is not scheduled, and nothing is said of what the tasks do. Between any two moves the world may
change in any way, and so may the desk of the source, where others submit events too.

## Main definitions

* `SuccessiveRuns`: a source with the stops that were ever made.
* `SuccessiveRuns.Step`: one move of anybody.
* `Ranked`: which run the tasks of a source belong to.
* `SuccessiveRuns.Succession`: the law.

## Main results

* `SuccessiveRuns.Sound.step`: what one move of anybody keeps.
* `SuccessiveRuns.succession_of_reachable`: the law, for every source and every run.
-/

namespace EventDispatch

/-! ### The moves -/

/-- A source, the world around it, and the stops made so far, in the order in which they were made. -/
structure SuccessiveRuns where
  world : World
  source : Source
  shutdowns : List Shutdown

namespace SuccessiveRuns

/-- One move of anybody. -/
inductive Step : SuccessiveRuns → SuccessiveRuns → Prop
  /-- Somebody starts the source, from a checkpoint or without one. -/
  | starts (s : SuccessiveRuns) (token : Option String) {result : Except Error Unit} {world : World}
      {source : Source} (hs : s.source.start token s.world = (result, world, source)) :
      Step s { s with world, source }
  /-- A task moves or ends. -/
  | works (s : SuccessiveRuns) (handle : Nat) {world : World} {source : Source}
      (hs : s.source.stepTask handle s.world = some (world, source)) : Step s { s with world, source }
  /-- Somebody stops the source. -/
  | shuts (s : SuccessiveRuns) (force : Bool) :
      Step s { s with shutdowns :=
        s.shutdowns ++ [⟨s.source.runs.nextHandle, [], .waiting (.ready force)⟩] }
  /-- A stop sends the signal and takes the handles. -/
  | halts {world world' : World} {source source' : Source} {pre post : List Shutdown} {call : Shutdown}
      {stop next : Stop} (hf : call.fate = .waiting stop)
      (hs : source.stepStop stop world = some (.goes next, world', source')) :
      Step ⟨world, source, pre ++ call :: post⟩
        ⟨world', source', pre ++ { call with took := next.handles, fate := .waiting next } :: post⟩
  /-- A stop returns. -/
  | returns {world world' : World} {source source' : Source} {pre post : List Shutdown}
      {call : Shutdown} {stop : Stop} {result : Except Error (Option String)}
      (hf : call.fate = .waiting stop)
      (hs : source.stepStop stop world = some (.ends result, world', source')) :
      Step ⟨world, source, pre ++ call :: post⟩
        ⟨world', source', pre ++ { call with fate := .returned } :: post⟩
  /-- A stop is given up while it waits. -/
  | drops {world : World} {source : Source} {pre post : List Shutdown} {call : Shutdown} {stop : Stop}
      (hf : call.fate = .waiting stop) :
      Step ⟨world, source, pre ++ call :: post⟩
        ⟨world, source, pre ++ { call with fate := .givenUp } :: post⟩
  /-- Anything else happens around the source, or at its desk. -/
  | passes (s : SuccessiveRuns) (world : World) (desk : Desk) :
      Step s { s with world, source := s.source.setDesk desk }

/-- **The law.** Starts and stops let two runs meet only through a stop that has not returned. -/
structure Succession (s : SuccessiveRuns) : Prop where
  /-- A start that succeeds finds all tasks ended exactly if those have ended that were taken by stops
  that have not returned. -/
  starts_iff : ∀ token world source, s.source.start token s.world = (.ok (), world, source) →
    (s.source.runs.live = [] ↔
      ∀ call ∈ s.shutdowns, call.fate ≠ .returned → ∀ h ∈ call.took, h ∉ s.source.runs.alive)
  /-- Of two tasks of different runs, the earlier was taken by a stop that has not returned. -/
  meets : ∀ t ∈ s.source.runs.live, ∀ later ∈ s.source.runs.live, t.2 < later.2 →
    ∃ call ∈ s.shutdowns, call.fate ≠ .returned ∧ t.1 ∈ call.took

end SuccessiveRuns

/-! ### The runs of the tasks -/

/-- The tasks belong to runs that have begun, and those whose handles no stop has taken to the last
one. -/
structure Ranked (l : Lifecycle Signal) : Prop where
  begun : ∀ t ∈ l.live, t.2 ≤ l.signal
  latest : ∀ t ∈ l.live, t.1 ∈ l.handles → t.2 = l.signal

namespace Ranked

variable {l l' : Lifecycle Signal} {handle : Nat} {signal : Signal}

theorem replace (h : Ranked l) (htask : l.task? handle = some signal) :
    Ranked (l.replace handle signal) := by
  have hmem : (handle, signal) ∈ l.live := by
    rw [Lifecycle.task?] at htask
    obtain ⟨pre, post, hsplit, -⟩ := List.lookup_eq_some_iff.mp htask
    rw [hsplit]
    simp
  refine ⟨fun t ht => ?_, fun t ht hkept => ?_⟩
  · rcases Lifecycle.mem_live_replace.mp ht with ⟨hold, -⟩ | ⟨rfl, -⟩
    · exact h.begun t hold
    · exact h.begun _ hmem
  · rcases Lifecycle.mem_live_replace.mp ht with ⟨hold, -⟩ | ⟨rfl, -⟩
    · exact h.latest t hold hkept
    · exact h.latest _ hmem hkept

theorem finish (h : Ranked l) (handle : Nat) : Ranked (l.finish handle) :=
  ⟨fun t ht => h.begun t (Lifecycle.mem_live_finish.mp ht).1,
    fun t ht hkept => h.latest t (Lifecycle.mem_live_finish.mp ht).1 hkept⟩

theorem halted (h : Ranked l) (force : Bool) : Ranked (l.halted force) := by
  refine ⟨fun t ht => h.begun t ?_, fun t _ hkept => by cases hkept⟩
  cases force with
  | false => exact ht
  | true => exact List.mem_of_mem_filter ht

/-- A run that begins is later than all tasks, whose handles have been taken. -/
theorem begin (h : Ranked l) (hrun : l.running = false) (hidle : l.handles = []) :
    Ranked l.begin.2 := by
  have hbegin : l.begin.2 = { l with running := true, signal := l.signal + 1 } := by
    simp [Lifecycle.begin, hrun]
  rw [hbegin]
  refine ⟨fun t ht => (h.begun t ht).trans (Nat.le_succ _), fun t _ hkept => ?_⟩
  rw [hidle] at hkept
  cases hkept

/-- Tasks are started for the run that began last. -/
theorem spawnAll (h : Ranked l) (hissued : ∀ x ∈ l.alive, x < l.nextHandle) (count : Nat) :
    Ranked (l.spawnAll (List.replicate count l.signal)) := by
  rw [Lifecycle.spawnAll_eq]
  have hnew : ∀ t ∈ ((List.replicate count l.signal).zipIdx l.nextHandle).map Prod.swap,
      t.2 = l.signal := by
    intro t ht
    obtain ⟨x, hx, rfl⟩ := List.mem_map.mp ht
    exact List.eq_of_mem_replicate (List.fst_mem_of_mem_zipIdx hx)
  refine ⟨fun t ht => ?_, fun t ht hkept => ?_⟩
  · rcases List.mem_append.mp ht with hold | ht
    · exact h.begun t hold
    · exact (hnew t ht).le
  · rcases List.mem_append.mp ht with hold | ht
    · refine h.latest t hold ((List.mem_append.mp hkept).resolve_right fun hrange => ?_)
      exact absurd (hissued t.1 (List.mem_map_of_mem hold))
        (Nat.not_lt.mpr (List.mem_range'_1.mp hrange).1)
    · exact hnew t ht

theorem afterStop (h : Ranked l) {stop : Stop} {m : Move Stop Unit}
    (hs : l.afterStop stop = some (m, l')) : Ranked l' := by
  rcases Lifecycle.afterStop_cases hs with ⟨_, -, -, -, rfl⟩ | ⟨force, -, -, -, rfl⟩ | ⟨_, -, -, -, rfl⟩
  · exact h
  · exact h.halted force
  · exact h

end Ranked

/-! ### What every move keeps -/

namespace LifecycleStops

variable {l : Lifecycle Signal} {calls : List Shutdown}

theorem Sound.begin (h : Sound ⟨l, calls⟩) : Sound ⟨l.begin.2, calls⟩ := h.step (.begins ⟨l, calls⟩)

theorem Sound.spawnAll (h : Sound ⟨l, calls⟩) (hrun : l.running = true) (tasks : List Signal) :
    Sound ⟨l.spawnAll tasks, calls⟩ := by
  induction tasks generalizing l with
  | nil => exact h
  | cons task tasks ih => exact ih (h.step (.spawns ⟨l, calls⟩ task hrun)) hrun

/-- A run without tasks is over: no handle was kept. -/
theorem Sound.halted (h : Sound ⟨l, calls⟩) (hidle : l.handles = []) :
    Sound ⟨l.halted false, calls⟩ := by
  refine h.follows (follows_halted l false) (h.issued.halted false) (fun x hx => ?_)
    (fun x hx hnot => absurd (Lifecycle.alive_halted_subset false hx) hnot)
  rw [hidle] at hx
  cases hx

end LifecycleStops

namespace SuccessiveRuns

variable {s s' : SuccessiveRuns}

/-- The state is in order. -/
structure Sound (s : SuccessiveRuns) : Prop where
  stops : LifecycleStops.Sound ⟨s.source.runs, s.shutdowns⟩
  ranked : Ranked s.source.runs

theorem Sound.of_new {world : World} {source : Source} (hnew : source.runs = .new) :
    Sound ⟨world, source, []⟩ := by
  refine ⟨?_, ?_⟩
  · rw [hnew]
    exact LifecycleStops.sound_quiet
  · rw [hnew]
    exact ⟨fun t ht => by (cases ht), fun t ht => by (cases ht)⟩

/-- A source is started. -/
theorem Sound.starts (h : Sound s) {token : Option String} {result : Except Error Unit} {world : World}
    {source : Source} (hs : s.source.start token s.world = (result, world, source)) :
    Sound { s with world, source } := by
  have hstarted := Source.runs_of_start hs
  have hidle : s.source.runs.running = false → s.source.runs.handles = [] := h.stops.issued.idle
  rcases s with ⟨world₀, source₀, shutdowns⟩
  have key : LifecycleStops.Sound ⟨source.runs, shutdowns⟩ ∧ Ranked source.runs := by
    generalize source.runs = l' at hstarted
    cases hstarted with
    | refused e => exact ⟨h.stops, h.ranked⟩
    | begun hrun count =>
      have hbegin : source₀.runs.begin.2.running = true ∧
          source₀.runs.begin.2.signal = source₀.runs.signal + 1 := by
        simp [Lifecycle.begin, hrun]
      have hbegun := h.stops.begin
      rw [← hbegin.2]
      exact ⟨hbegun.spawnAll hbegin.1 _,
        (h.ranked.begin hrun (hidle hrun)).spawnAll hbegun.issued.alive count⟩
    | failed hrun e =>
      have hhandles : source₀.runs.begin.2.handles = [] := by
        simpa [Lifecycle.begin, hrun] using hidle hrun
      exact ⟨h.stops.begin.halted hhandles, (h.ranked.begin hrun (hidle hrun)).halted false⟩
    | noted hrun => exact ⟨h.stops, h.ranked⟩
  exact ⟨key.1, key.2⟩

/-- **One move of anybody** keeps the state in order. -/
theorem Sound.step (h : Sound s) (hs : Step s s') : Sound s' := by
  cases hs with
  | starts _ token hs => exact h.starts hs
  | works _ handle hs =>
    obtain ⟨signal, htask, hruns | hruns⟩ := Source.runs_of_stepTask hs
    · refine ⟨?_, ?_⟩
      · rw [hruns]
        exact h.stops.step (.works ⟨s.source.runs, s.shutdowns⟩ handle signal)
      · rw [hruns]
        exact h.ranked.replace htask
    · refine ⟨?_, ?_⟩
      · rw [hruns]
        exact h.stops.step (.ends ⟨s.source.runs, s.shutdowns⟩ handle)
      · rw [hruns]
        exact h.ranked.finish handle
  | shuts _ force => exact ⟨h.stops.step (.shuts ⟨s.source.runs, s.shutdowns⟩ force), h.ranked⟩
  | halts hf hs =>
    have hafter := Source.runs_of_stepStop hs
    exact ⟨h.stops.halts hf hafter, h.ranked.afterStop hafter⟩
  | returns hf hs =>
    have hafter := Source.runs_of_stepStop hs
    exact ⟨h.stops.returns hf hafter, h.ranked.afterStop hafter⟩
  | drops hf => exact ⟨h.stops.drops, h.ranked⟩
  | passes _ world desk =>
    refine ⟨?_, ?_⟩
    · rw [Source.runs_setDesk]
      exact h.stops
    · rw [Source.runs_setDesk]
      exact h.ranked

theorem Sound.of_reachable {world : World} {source : Source} (hnew : source.runs = .new)
    (hr : Relation.ReflTransGen Step ⟨world, source, []⟩ s) : Sound s := by
  induction hr with
  | refl => exact .of_new hnew
  | tail _ hs ih => exact ih.step hs

/-! ### What a start finds -/

/-- A task that lives, and whose handle is not kept, was taken by a stop that has not returned. -/
theorem Sound.exists_call (h : Sound s) {handle : Nat} (hlive : handle ∈ s.source.runs.alive)
    (hnot : handle ∉ s.source.runs.handles) :
    ∃ call ∈ s.shutdowns, call.fate ≠ .returned ∧ handle ∈ call.took := by
  obtain ⟨call, hm, htook⟩ := (h.stops.kept handle hlive).resolve_left hnot
  exact ⟨call, hm, fun hover => (h.stops.calls call hm).settled hover handle htook hlive, htook⟩

theorem Sound.succession (h : Sound s) : Succession s := by
  refine ⟨fun token world source hs => ⟨fun hnil call _ _ x _ hx => ?_, fun hall => ?_⟩,
    fun t ht later hlater hlt => ?_⟩
  · rw [Lifecycle.alive, hnil] at hx
    cases hx
  · have hrun : s.source.runs.running = false := by
      generalize hruns : source.runs = l
      have hstarted := Source.runs_of_start hs
      rw [hruns] at hstarted
      cases hstarted with
      | begun hrun count => exact hrun
      | noted hrun => exact hrun
    refine List.eq_nil_iff_forall_not_mem.mpr fun t ht => ?_
    have hlive : t.1 ∈ s.source.runs.alive := List.mem_map_of_mem ht
    have hidle : t.1 ∉ s.source.runs.handles := by
      rw [h.stops.issued.idle hrun]
      exact List.not_mem_nil
    obtain ⟨call, hm, hopen, htook⟩ := h.exists_call hlive hidle
    exact hall call hm hopen t.1 htook hlive
  · refine h.exists_call (List.mem_map_of_mem ht) fun hkept => ?_
    -- A task whose handle is kept belongs to the last run, and no task to a later one.
    have hlast := h.ranked.latest t ht hkept
    exact absurd (hlt.trans_le (h.ranked.begun later hlater)) (hlast ▸ Nat.lt_irrefl _)

/-- **What runs of one source share.** However starts and stops meet, a start finds a task of an earlier
run alive, and tasks of two runs live side by side, only as long as a stop that has taken the earlier
task has not returned. -/
theorem succession_of_reachable {world : World} {source : Source} (hnew : source.runs = .new)
    (hr : Relation.ReflTransGen Step ⟨world, source, []⟩ s) : Succession s :=
  (Sound.of_reachable hnew hr).succession

/-- A source with one task is stopped and, while the stop waits for the task, started again. -/
theorem succession_overlap :
    ∃ s : SuccessiveRuns, Relation.ReflTransGen Step ⟨default, .queue (.new ⟨"jobs", "rabbit-mq", .async⟩
        ⟨"jobs", none⟩ .onSubmitSuccess 1000 (.ofCount .single 1)), []⟩ s ∧
      s.source.runs.live = [(0, 1), (1, 2)] ∧ Succession s := by
  have hr := (((Relation.ReflTransGen.refl.tail
    (Step.starts ⟨default, .queue (.new ⟨"jobs", "rabbit-mq", .async⟩ ⟨"jobs", none⟩ .onSubmitSuccess
      1000 (.ofCount .single 1)), []⟩ none rfl)).tail
    (.shuts _ false)).tail
    (@Step.halts _ _ _ _ [] [] _ _ _ rfl rfl)).tail
    (.starts _ none rfl)
  exact ⟨_, hr, rfl, succession_of_reachable rfl hr⟩

/-- A start that comes while a stop waits succeeds, though the task of the earlier run is alive. -/
theorem not_ended_of_started :
    ¬ ∀ (world : World) (source : Source) (s : SuccessiveRuns), source.runs = .new →
      Relation.ReflTransGen Step ⟨world, source, []⟩ s → ∀ token world' source',
        s.source.start token s.world = (.ok (), world', source') → s.source.runs.live = [] := by
  intro hlaw
  have hr := ((Relation.ReflTransGen.refl.tail
    (Step.starts ⟨default, .queue (.new ⟨"jobs", "rabbit-mq", .async⟩ ⟨"jobs", none⟩ .onSubmitSuccess
      1000 (.ofCount .single 1)), []⟩ none rfl)).tail
    (.shuts _ false)).tail
    (@Step.halts _ _ _ _ [] [] _ _ _ rfl rfl)
  have hnil := hlaw _ _ _ rfl hr none _ _ rfl
  cases hnil

end SuccessiveRuns

end EventDispatch
