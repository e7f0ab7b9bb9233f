import EventDispatch.Lifecycle.Drill
import EventDispatch.Proofs.Tasks
import Mathlib.Logic.Relation
import Mathlib.Order.Nat

/-!
# Stops that meet

Anybody may begin a run, start tasks while a source runs, and stop it; several stops may be open at a
time, and a stop may be given up while it waits. Once a stop returns, one expects that no task that was
started before it was made still lives.

A stop that finds nothing running returns at once, though, and a source no longer counts as running as
soon as an earlier stop has begun, not when that stop is through. So the expectation holds for a stop
only as far as no other stop holds it up: the tasks that still live are those that another stop has
taken and is still waiting for, or was given up over.

## What is deliberately absent

What tasks do is left open: one may move or end at any moment, and whatever it becomes is a task again.
Time does not occur, since no stop looks at the clock.

## Main definitions

* `Shutdown`: a stop, with the tasks that there were when it was made and those that it has taken.
* `LifecycleStops`: a lifecycle with all stops that were ever made.
* `LifecycleStops.Step`: one move of anybody.

## Main results

* `LifecycleStops.Sound.step`: what one move of anybody keeps.
* `LifecycleStops.returns_clean_iff`: when a stop that returns leaves no task behind.
-/

namespace EventDispatch

/-- What has become of a stop. -/
inductive Fate where
  | waiting (stop : Stop)
  | returned
  | givenUp
deriving DecidableEq, Repr, Inhabited

/-- A call that stops a source, as one remembers it. -/
structure Shutdown where
  /-- The tasks started before the call was made are those with smaller handles. -/
  before : Nat
  /-- The handles that it took. -/
  took : List Nat
  fate : Fate
deriving DecidableEq, Repr, Inhabited

/-- The handles that a stop waits for. -/
def Stop.handles : Stop → List Nat
  | .ready _ => []
  | .joining handles => handles

/-- A lifecycle and the stops made so far, in the order in which they were made. -/
structure LifecycleStops (τ : Type) where
  tasks : Lifecycle τ
  shutdowns : List Shutdown

namespace LifecycleStops

variable {τ : Type} {s s' : LifecycleStops τ} {l l' : Lifecycle τ}

/-- Nothing has happened yet. -/
def quiet : LifecycleStops τ := ⟨.new, []⟩

/-- One move of anybody. -/
inductive Step : LifecycleStops τ → LifecycleStops τ → Prop
  /-- Somebody begins a run, or is told that one is going on. -/
  | begins (s : LifecycleStops τ) : Step s { s with tasks := s.tasks.begin.2 }
  /-- A task is started while the source runs. -/
  | spawns (s : LifecycleStops τ) (task : τ) (hrun : s.tasks.running = true) :
      Step s { s with tasks := s.tasks.spawn task }
  /-- A task moves. -/
  | works (s : LifecycleStops τ) (handle : Nat) (task : τ) :
      Step s { s with tasks := s.tasks.replace handle task }
  /-- A task ends, whatever the reason. -/
  | ends (s : LifecycleStops τ) (handle : Nat) : Step s { s with tasks := s.tasks.finish handle }
  /-- Somebody stops the source. -/
  | shuts (s : LifecycleStops τ) (force : Bool) :
      Step s { s with shutdowns :=
        s.shutdowns ++ [⟨s.tasks.nextHandle, [], .waiting (.ready force)⟩] }
  /-- A stop sends the signal and takes the handles. -/
  | halts {l l' : Lifecycle τ} {pre post : List Shutdown} {call : Shutdown} {stop next : Stop}
      (hf : call.fate = .waiting stop)
      (hs : stop.step id (fun l _ => l) (fun _ l => l) l = some (.goes next, l')) :
      Step ⟨l, pre ++ call :: post⟩
        ⟨l', pre ++ { call with took := next.handles, fate := .waiting next } :: post⟩
  /-- A stop returns. -/
  | returns {l l' : Lifecycle τ} {pre post : List Shutdown} {call : Shutdown} {stop : Stop}
      (hf : call.fate = .waiting stop)
      (hs : stop.step id (fun l _ => l) (fun _ l => l) l = some (.ends (), l')) :
      Step ⟨l, pre ++ call :: post⟩ ⟨l', pre ++ { call with fate := .returned } :: post⟩
  /-- A stop is given up while it waits. -/
  | drops {l : Lifecycle τ} {pre post : List Shutdown} {call : Shutdown} {stop : Stop}
      (hf : call.fate = .waiting stop) :
      Step ⟨l, pre ++ call :: post⟩ ⟨l, pre ++ { call with fate := .givenUp } :: post⟩

/-! ### What every move keeps -/

/-- What a move may do to the tasks: whoever lives, and whose handle no stop has taken, did so before or
was started since. -/
structure Follows (l l' : Lifecycle τ) : Prop where
  next : l.nextHandle ≤ l'.nextHandle
  alive : ∀ h ∈ l'.alive, h ∈ l.alive ∨ l.nextHandle ≤ h
  handles : ∀ h ∈ l'.handles, h ∈ l.handles ∨ l.nextHandle ≤ h

/-- The handles in use were given out. -/
structure Issued (l : Lifecycle τ) : Prop where
  alive : ∀ h ∈ l.alive, h < l.nextHandle
  handles : ∀ h ∈ l.handles, h < l.nextHandle
  /-- A source that does not run keeps no handles. -/
  idle : l.running = false → l.handles = []

theorem follows_begin (l : Lifecycle τ) : Follows l l.begin.2 := by
  rw [Lifecycle.begin]
  split
  · exact ⟨le_rfl, fun _ h => .inl h, fun _ h => .inl h⟩
  · exact ⟨le_rfl, fun _ h => .inl h, fun _ h => .inl h⟩

theorem follows_spawn (l : Lifecycle τ) (task : τ) : Follows l (l.spawn task) := by
  refine ⟨Nat.le_succ _, fun h hm => ?_, fun h hm => ?_⟩
  · rw [Lifecycle.alive_spawn, List.mem_append, List.mem_singleton] at hm
    exact hm.imp_right fun heq => heq.ge
  · rw [Lifecycle.spawn, List.mem_append, List.mem_singleton] at hm
    exact hm.imp_right fun heq => heq.ge

theorem follows_replace (l : Lifecycle τ) (handle : Nat) (task : τ) :
    Follows l (l.replace handle task) :=
  ⟨le_rfl, fun h hm => .inl (by rwa [Lifecycle.alive_replace] at hm), fun _ hm => .inl hm⟩

theorem follows_finish (l : Lifecycle τ) (handle : Nat) : Follows l (l.finish handle) :=
  ⟨le_rfl, fun _ hm => .inl (Lifecycle.mem_alive_finish.mp hm).1, fun _ hm => .inl hm⟩

theorem follows_halted (l : Lifecycle τ) (force : Bool) : Follows l (l.halted force) :=
  ⟨le_rfl, fun _ hm => .inl (Lifecycle.alive_halted_subset force hm), fun _ hm => by cases hm⟩

end LifecycleStops

/-- A stop is in order: it has taken no handle before its first move, those that it waits for are those
that it took, and once it has returned they have ended. -/
structure Shutdown.Sound {τ : Type} (l : Lifecycle τ) (call : Shutdown) : Prop where
  before_le : call.before ≤ l.nextHandle
  took_lt : ∀ h ∈ call.took, h < l.nextHandle
  unmoved : ∀ force, call.fate = .waiting (.ready force) → call.took = []
  /-- After it has taken the handles there were, all others belong to tasks started later. -/
  joins : ∀ handles, call.fate = .waiting (.joining handles) →
    call.took = handles ∧ ∀ h ∈ l.handles, call.before ≤ h
  settled : call.fate = .returned → ∀ h ∈ call.took, h ∉ l.alive

theorem Shutdown.Sound.follows {τ : Type} {l l' : Lifecycle τ} {call : Shutdown}
    (h : call.Sound l) (hf : LifecycleStops.Follows l l') : call.Sound l' := by
  refine ⟨h.before_le.trans hf.next, fun x hx => (h.took_lt x hx).trans_le hf.next, h.unmoved,
    fun handles hw => ?_, fun hr x hx hlive => ?_⟩
  · obtain ⟨htook, hlater⟩ := h.joins handles hw
    refine ⟨htook, fun x hx => ?_⟩
    rcases hf.handles x hx with hold | hnew
    · exact hlater x hold
    · exact h.before_le.trans hnew
  · rcases hf.alive x hlive with hold | hnew
    · exact h.settled hr x hx hold
    · exact absurd (h.took_lt x hx) (Nat.not_lt.mpr hnew)

namespace LifecycleStops

variable {τ : Type} {s s' : LifecycleStops τ} {l l' : Lifecycle τ}

/-- The state is in order: no task that lives is lost, for its handle is kept or was taken by a stop. -/
structure Sound (s : LifecycleStops τ) : Prop where
  issued : Issued s.tasks
  kept : ∀ h ∈ s.tasks.alive, h ∈ s.tasks.handles ∨ ∃ call ∈ s.shutdowns, h ∈ call.took
  calls : ∀ call ∈ s.shutdowns, call.Sound s.tasks

theorem sound_quiet : Sound (quiet : LifecycleStops τ) :=
  ⟨⟨by simp [quiet, Lifecycle.new, Lifecycle.alive], by simp [quiet, Lifecycle.new], fun _ => rfl⟩,
    by simp [quiet, Lifecycle.new, Lifecycle.alive], by simp [quiet]⟩

theorem Issued.begin (h : Issued l) : Issued l.begin.2 := by
  rw [Lifecycle.begin]
  split
  · exact h
  · exact ⟨h.alive, h.handles, fun hrun => by cases hrun⟩

theorem Issued.spawn (h : Issued l) (hrun : l.running = true) (task : τ) : Issued (l.spawn task) := by
  refine ⟨fun x hx => ?_, fun x hx => ?_, fun hnot => ?_⟩
  · rw [Lifecycle.alive_spawn, List.mem_append, List.mem_singleton] at hx
    rcases hx with hx | rfl
    · exact Nat.lt_succ_of_lt (h.alive x hx)
    · exact Nat.lt_succ_self _
  · rw [Lifecycle.spawn, List.mem_append, List.mem_singleton] at hx
    rcases hx with hx | rfl
    · exact Nat.lt_succ_of_lt (h.handles x hx)
    · exact Nat.lt_succ_self _
  · exact absurd (hnot.symm.trans hrun) Bool.false_ne_true

theorem Issued.halted (h : Issued l) (force : Bool) : Issued (l.halted force) :=
  ⟨fun x hx => h.alive x (Lifecycle.alive_halted_subset force hx), fun _ hx => by (cases hx), fun _ => rfl⟩

theorem Issued.finish (h : Issued l) (handle : Nat) : Issued (l.finish handle) :=
  ⟨fun x hx => h.alive x (Lifecycle.mem_alive_finish.mp hx).1, h.handles, h.idle⟩

theorem Issued.replace (h : Issued l) (handle : Nat) (task : τ) : Issued (l.replace handle task) :=
  ⟨fun x hx => h.alive x (by rwa [Lifecycle.alive_replace] at hx), h.handles, h.idle⟩

/-- A task that lives is kept through a move that only changes the tasks and forgets no handle. -/
theorem Sound.follows {calls : List Shutdown} (h : Sound ⟨l, calls⟩) (hf : Follows l l')
    (hi : Issued l') (hk : ∀ x ∈ l.handles, x ∈ l'.handles)
    (hnew : ∀ x ∈ l'.alive, x ∉ l.alive → x ∈ l'.handles) : Sound ⟨l', calls⟩ := by
  refine ⟨hi, fun x hx => ?_, fun call hm => (h.calls call hm).follows hf⟩
  by_cases hold : x ∈ l.alive
  · exact (h.kept x hold).imp_left (hk x)
  · exact .inl (hnew x hx hold)

/-- A stop moves on without a change to the tasks. -/
theorem Sound.set_call {pre post : List Shutdown} {call call' : Shutdown}
    (h : Sound ⟨l, pre ++ call :: post⟩) (htook : call'.took = call.took) (hc : call'.Sound l) :
    Sound ⟨l, pre ++ call' :: post⟩ := by
  refine ⟨h.issued, fun x hx => (h.kept x hx).imp_right ?_, fun c hm => ?_⟩
  · rintro ⟨c, hc, hxc⟩
    rcases List.mem_cons.mp (List.perm_middle.mem_iff.mp hc) with rfl | hc
    · exact ⟨call', by simp, htook ▸ hxc⟩
    · exact ⟨c, List.perm_middle.mem_iff.mpr (List.mem_cons_of_mem _ hc), hxc⟩
  · rcases List.mem_cons.mp (List.perm_middle.mem_iff.mp hm) with rfl | hm
    · exact hc
    · exact h.calls c (List.perm_middle.mem_iff.mpr (List.mem_cons_of_mem _ hm))

theorem afterStop_of_step {stop : Stop} {m : Move Stop Unit}
    (hs : stop.step id (fun l _ => l) (fun _ l => l) l = some (m, l')) :
    l.afterStop stop = some (m, l') := by
  have key := @Stop.step_get τ (Lifecycle τ) id (fun l _ => l) (fun _ l => l) (fun _ _ => rfl)
    (fun _ _ => rfl) stop l
  rw [hs] at key
  exact key.symm

/-- A stop takes the handles. -/
theorem Sound.halts {pre post : List Shutdown} {call : Shutdown} {stop next : Stop}
    (h : Sound ⟨l, pre ++ call :: post⟩) (hf : call.fate = .waiting stop)
    (hs : l.afterStop stop = some (.goes next, l')) :
    Sound ⟨l', pre ++ { call with took := next.handles, fate := .waiting next } :: post⟩ := by
  have hcall : call.Sound l := h.calls call (by simp)
  rcases Lifecycle.afterStop_cases hs with
    ⟨force, -, -, hm, -⟩ | ⟨force, rfl, -, hm, rfl⟩ | ⟨handles, -, -, hm, -⟩
  · cases hm
  · cases hm
    have hfollows := follows_halted l force
    refine ⟨h.issued.halted force, fun x hx => .inr ?_, fun c hm => ?_⟩
    · -- Whose handle was kept has it taken now; what others took, they have still taken.
      rcases h.kept x (Lifecycle.alive_halted_subset force hx) with hkept | ⟨c, hm, hxc⟩
      · exact ⟨{ call with took := l.handles, fate := .waiting (.joining l.handles) },
          by simp [Stop.handles], hkept⟩
      · rcases List.mem_cons.mp (List.perm_middle.mem_iff.mp hm) with rfl | hm
        · rw [hcall.unmoved force hf] at hxc
          cases hxc
        · exact ⟨c, List.perm_middle.mem_iff.mpr (List.mem_cons_of_mem _ hm), hxc⟩
    · rcases List.mem_cons.mp (List.perm_middle.mem_iff.mp hm) with rfl | hm
      · refine ⟨hcall.before_le, h.issued.handles, fun force hw => ?_, fun handles hw => ?_, fun hw => ?_⟩
        · cases hw
        · cases hw
          exact ⟨rfl, fun x hx => by cases hx⟩
        · cases hw
      · exact (h.calls c (List.perm_middle.mem_iff.mpr (List.mem_cons_of_mem _ hm))).follows hfollows
  · cases hm

/-- A stop returns when all that it waits for have ended. -/
theorem Sound.returns {pre post : List Shutdown} {call : Shutdown} {stop : Stop}
    (h : Sound ⟨l, pre ++ call :: post⟩) (hf : call.fate = .waiting stop)
    (hs : l.afterStop stop = some (.ends (), l')) :
    Sound ⟨l', pre ++ { call with fate := .returned } :: post⟩ := by
  have hcall : call.Sound l := h.calls call (by simp)
  have hsame : l' = l ∧ ∀ x ∈ call.took, x ∉ l.alive := by
    rcases Lifecycle.afterStop_cases hs with
      ⟨force, rfl, -, -, rfl⟩ | ⟨force, -, -, hm, -⟩ | ⟨handles, rfl, hall, -, rfl⟩
    · exact ⟨rfl, by simp [hcall.unmoved force hf]⟩
    · cases hm
    · rw [(hcall.joins handles hf).1]
      exact ⟨rfl, Lifecycle.allEnded_iff.mp hall⟩
  obtain ⟨rfl, hended⟩ := hsame
  refine h.set_call rfl ⟨hcall.before_le, hcall.took_lt, fun force hw => ?_, fun handles hw => ?_,
    fun _ => hended⟩
  · cases hw
  · cases hw

/-- A stop is given up. -/
theorem Sound.drops {pre post : List Shutdown} {call : Shutdown} (h : Sound ⟨l, pre ++ call :: post⟩) :
    Sound ⟨l, pre ++ { call with fate := .givenUp } :: post⟩ := by
  have hcall : call.Sound l := h.calls call (by simp)
  refine h.set_call rfl ⟨hcall.before_le, hcall.took_lt, fun force hw => ?_, fun handles hw => ?_,
    fun hw => ?_⟩
  · cases hw
  · cases hw
  · cases hw

/-- **One move of anybody** keeps the state in order. -/
theorem Sound.step (h : Sound s) (hs : Step s s') : Sound s' := by
  cases hs with
  | begins =>
    refine h.follows (follows_begin _) h.issued.begin (fun x hx => ?_) (fun x hx hnot => ?_)
    · rw [Lifecycle.begin]
      split <;> exact hx
    · refine absurd ?_ hnot
      rw [Lifecycle.begin] at hx
      split at hx <;> exact hx
  | spawns _ task hrun =>
    refine h.follows (follows_spawn _ task) (h.issued.spawn hrun task)
      (fun x hx => List.mem_append_left _ hx) (fun x hx hnot => ?_)
    rw [Lifecycle.alive_spawn] at hx
    exact List.mem_append_right _ ((List.mem_append.mp hx).resolve_left hnot)
  | works _ handle task =>
    refine h.follows (follows_replace _ handle task) (h.issued.replace handle task) (fun _ hx => hx)
      (fun x hx hnot => ?_)
    rw [Lifecycle.alive_replace] at hx
    exact absurd hx hnot
  | ends _ handle =>
    exact h.follows (follows_finish _ handle) (h.issued.finish handle) (fun _ hx => hx)
      (fun x hx hnot => absurd (Lifecycle.mem_alive_finish.mp hx).1 hnot)
  | shuts _ force =>
    refine ⟨h.issued, fun x hx => (h.kept x hx).imp_right ?_, fun call hm => ?_⟩
    · rintro ⟨c, hc, hxc⟩
      exact ⟨c, List.mem_append_left _ hc, hxc⟩
    · rcases List.mem_append.mp hm with hm | hm
      · exact h.calls call hm
      · rw [List.mem_singleton] at hm
        subst hm
        exact ⟨le_rfl, by simp, fun _ _ => rfl, by simp, by simp⟩
  | halts hf hq => exact h.halts hf (afterStop_of_step hq)
  | returns hf hq => exact h.returns hf (afterStop_of_step hq)
  | drops hf => exact h.drops

theorem Sound.of_reachable (hr : Relation.ReflTransGen Step quiet s) : Sound s := by
  induction hr with
  | refl => exact sound_quiet
  | tail _ hs ih => exact ih.step hs

/-! ### What a stop leaves behind -/

/-- A task that was started before a stop was made, and that lives when the stop returns, was taken by
another one, which has not returned. -/
theorem exists_rival_of_alive {pre post : List Shutdown} {call : Shutdown} {stop : Stop}
    (hr : Relation.ReflTransGen Step quiet ⟨l, pre ++ call :: post⟩) (hf : call.fate = .waiting stop)
    (hs : stop.step id (fun l _ => l) (fun _ l => l) l = some (.ends (), l')) {h : Nat}
    (hlt : h < call.before) (hlive : h ∈ l'.alive) :
    ∃ rival ∈ pre ++ post, rival.fate ≠ .returned ∧ h ∈ rival.took := by
  have hsound : Sound ⟨l, pre ++ call :: post⟩ := .of_reachable hr
  have hcall : call.Sound l := hsound.calls call (by simp)
  -- Neither is its handle among those that no stop has taken, nor among those of this stop.
  have hnot : l' = l ∧ h ∉ l.handles ∧ h ∉ call.took := by
    rcases Lifecycle.afterStop_cases (afterStop_of_step hs) with
      ⟨force, rfl, hrun, -, rfl⟩ | ⟨force, -, -, hm, -⟩ | ⟨handles, rfl, hall, -, rfl⟩
    · rw [hsound.issued.idle hrun, hcall.unmoved force hf]
      exact ⟨rfl, List.not_mem_nil, List.not_mem_nil⟩
    · cases hm
    · obtain ⟨htook, hlater⟩ := hcall.joins handles hf
      refine ⟨rfl, fun hm => absurd hlt (Nat.not_lt.mpr (hlater h hm)), fun hm => ?_⟩
      exact Lifecycle.allEnded_iff.mp hall h (htook ▸ hm) hlive
  obtain ⟨rfl, hhandles, htook⟩ := hnot
  obtain ⟨rival, hm, hrival⟩ := (hsound.kept h hlive).resolve_left hhandles
  refine ⟨rival, ?_, fun hover => (hsound.calls rival hm).settled hover h hrival hlive, hrival⟩
  rcases List.mem_cons.mp (List.perm_middle.mem_iff.mp hm) with rfl | hm
  · exact absurd hrival htook
  · exact hm

/-- **What a stop leaves behind.** When a stop returns, all tasks that were started before it was made have
ended exactly if this is so for those that were taken by the other stops that still wait or were given
up. -/
theorem returns_clean_iff {pre post : List Shutdown} {call : Shutdown} {stop : Stop}
    (hr : Relation.ReflTransGen Step quiet ⟨l, pre ++ call :: post⟩) (hf : call.fate = .waiting stop)
    (hs : stop.step id (fun l _ => l) (fun _ l => l) l = some (.ends (), l')) :
    (∀ h < call.before, h ∉ l'.alive) ↔
      ∀ rival ∈ pre ++ post, rival.fate ≠ .returned →
        ∀ h ∈ rival.took, h < call.before → h ∉ l'.alive := by
  constructor
  · intro hclean rival _ _ h _ hlt
    exact hclean h hlt
  · intro hrivals h hlt hlive
    obtain ⟨rival, hm, hopen, htook⟩ := exists_rival_of_alive hr hf hs hlt hlive
    exact hrivals rival hm hopen h htook hlt hlive

/-- A stop of a source with one task, which ends; nothing is left. -/
theorem returns_clean_single :
    ∃ l : Lifecycle (Task Chore), Relation.ReflTransGen Step quiet
        ⟨l, [⟨1, [0], .waiting (.joining [0])⟩]⟩ ∧
      (Stop.joining [0]).step id (fun l _ => l) (fun _ l => l) l = some (.ends (), l) ∧
      ∀ h < 1, h ∉ l.alive := by
  have hr := (((((Relation.ReflTransGen.refl.tail
    (Step.begins (quiet : LifecycleStops (Task Chore)))).tail
    (.spawns _ ⟨1, .tired 1000⟩ rfl)).tail
    (.shuts _ false)).tail
    (@Step.halts _ _ _ [] [] _ _ _ rfl rfl)).tail
    (.ends _ 0))
  exact ⟨_, hr, rfl, (@returns_clean_iff _ _ _ [] [] _ _ hr rfl rfl).mpr (by simp)⟩

/-- A second stop returns while the first still waits for a task that was started before both. -/
theorem not_returns_clean :
    ¬ ∀ (l l' : Lifecycle (Task Chore)) (pre post : List Shutdown) (call : Shutdown) (stop : Stop),
      Relation.ReflTransGen Step quiet ⟨l, pre ++ call :: post⟩ → call.fate = .waiting stop →
      stop.step id (fun l _ => l) (fun _ l => l) l = some (.ends (), l') →
      ∀ h < call.before, h ∉ l'.alive := by
  intro hlaw
  have hr := (((((Relation.ReflTransGen.refl.tail
    (Step.begins (quiet : LifecycleStops (Task Chore)))).tail
    (.spawns _ ⟨1, .tired 1000⟩ rfl)).tail
    (.shuts _ false)).tail
    (@Step.halts _ _ _ [] [] _ _ _ rfl rfl)).tail
    (.shuts _ false))
  exact hlaw _ _ [_] [] _ _ hr rfl rfl 0 (by decide) (by decide)

end LifecycleStops

end EventDispatch
