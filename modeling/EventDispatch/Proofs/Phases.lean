import EventDispatch.Proofs.Staffing

/-!
# The phase of a source that polls

A source tells what it is at: its first cycle is not over, or it polls, or its driver takes note of a batch.
While it takes note the task has put the phase by, and lays it back in the end. So a task that is given up in
between takes the phase along, and nobody lays it back: the source is left as if a driver took note of a batch,
also when it is stopped, until a cycle is completed again.

That is all that can go wrong as long as tasks do not come between each other. It is known then from what happened
what the phase is (`Phasing.Phased`). The source polls only after a cycle in any case.

## Drivers

A driver has two activities: a search that sends what it likes, and the work after a batch. Here both of them may
at any moment do anything, and the driver may be any other. Only the task itself keeps to its code, and with it
the phase that was put by.

## What is deliberately absent

Nothing is said of what is found and submitted. A call of the function that fails is an outcome and no end of a
task.

## Main definitions

* `Lifecycle.saved`: the phases that tasks have put by, one for each driver that takes note of a batch.
* `PollSource.Turns`: what a move of a task does to the phase.
* `Phasing`, `Phasing.Step`: a source with what happened to its phases, and one move of anybody.
* `Phasing.Phased`: the law.

## Main results

* `PollSource.turns_of_step`: a move of the task does just that.
* `Phasing.Sound.step`: what one move of anybody keeps.
* `Phasing.phased_of_reachable`: the law, for every run.
* `Phasing.checkpointing_of_stopped`: how a source may be left by a stop with force.
-/

namespace EventDispatch

/-- The phase while no driver takes note of a batch, after so many cycles: if a task was given up while it did, the
source is left as if it still did. -/
def PollPhase.resting (abandoned : Bool) (cycles : Nat) : PollPhase :=
  if abandoned then .checkpointing else if cycles = 0 then .coldStart else .polling

/-- The phase that was put by, while the driver takes note of a batch. -/
def Consumer.saved? : Consumer → Option PollPhase
  | .wrapping _ previous _ => some previous
  | _ => none

/-- The phase that a task has put by. -/
def PollTask.saved? : PollTask → Option PollPhase
  | .cycling _ _ _ consumer => consumer.saved?
  | _ => none

theorem PollTask.saved?_cycling (turn : CycleHalf) (c : Channel) (producer : Producer) (consumer : Consumer) :
    (cycling turn c producer consumer).saved? = consumer.saved? := rfl

/-- The phases that tasks have put by. -/
def Lifecycle.saved (l : Lifecycle (Task PollTask)) : List PollPhase :=
  l.live.filterMap fun t => t.2.state.saved?

/-- What runs right after a run has begun. -/
def Lifecycle.begun {τ : Type} (l : Lifecycle τ) : Lifecycle τ := { l with running := true, signal := l.signal + 1 }

/-- The half of a cycle that submits, at any other point of what the driver does after a batch. -/
inductive Consumer.Like : Consumer → Consumer → Prop
  | same (consumer : Consumer) : Like consumer consumer
  | wraps (isLast : Bool) (previous : PollPhase) (wrapup wrapup' : Wrapup) :
      Like (.wrapping isLast previous wrapup) (.wrapping isLast previous wrapup')

/-- Every task has a handle of its own, out of those that were given out. -/
structure Lifecycle.Numbered {τ : Type} (l : Lifecycle τ) : Prop where
  distinct : l.alive.Nodup
  issued : ∀ h ∈ l.alive, h < l.nextHandle

/-! ### Handles -/

namespace Lifecycle.Numbered

variable {τ : Type} {l l' : Lifecycle τ}

/-- Fewer tasks, with the handles that they had. -/
theorem of_sublist (h : l.Numbered) (hlive : l'.live.Sublist l.live) (hnext : l'.nextHandle = l.nextHandle) :
    l'.Numbered := by
  have halive := hlive.map Prod.fst
  exact ⟨h.distinct.sublist halive, fun x hx => hnext ▸ h.issued x (halive.subset hx)⟩

theorem replace (h : l.Numbered) (handle : Nat) (task : τ) : (l.replace handle task).Numbered := by
  have halive : (l.replace handle task).alive = l.alive := alive_replace ..
  exact ⟨halive ▸ h.distinct, fun x hx => h.issued x (halive ▸ hx)⟩

theorem moved {l : Lifecycle (Task τ)} (h : l.Numbered) (handle : Nat) (signal : Signal) (m : Move τ Unit) :
    (l.moved handle signal m).Numbered := by
  cases m with
  | goes next => exact h.replace handle _
  | ends result => exact h.of_sublist List.filter_sublist rfl

theorem spawn (h : l.Numbered) (task : τ) : (l.spawn task).Numbered := by
  have halive : (l.spawn task).alive = l.alive ++ [l.nextHandle] := List.map_append
  refine ⟨?_, ?_⟩
  · rw [halive]
    refine List.nodup_append.mpr ⟨h.distinct, List.nodup_singleton _, fun x hx y hy heq => ?_⟩
    rw [heq, List.mem_singleton.mp hy] at hx
    exact lt_irrefl _ (h.issued _ hx)
  · rw [halive]
    intro x hx
    rcases List.mem_append.mp hx with hx | hx
    · exact Nat.lt_succ_of_lt (h.issued x hx)
    · exact Nat.lt_succ_of_le (List.mem_singleton.mp hx).le

end Lifecycle.Numbered

/-! ### What tasks have put by -/

namespace Lifecycle

variable {l : Lifecycle (Task PollTask)} {handle : Nat} {task : Task PollTask}

/-- What a task has put by, and what the others have, before and after a move of the task. -/
theorem perm_saved (hd : l.alive.Nodup) (ht : l.task? handle = some task) :
    l.saved.Perm (task.state.saved?.toList ++ (l.finish handle).saved) ∧
      ∀ m : Move PollTask Unit, (l.moved handle task.signal m).saved.Perm
        ((m.next?.bind PollTask.saved?).toList ++ (l.finish handle).saved) := by
  obtain ⟨pre, post, hlive, hfinish, hreplace⟩ := exists_split hd ht
  have hsplit : ∀ next : Task PollTask, ((pre ++ (handle, next) :: post).filterMap fun t => t.2.state.saved?).Perm
      (next.state.saved?.toList ++ (l.finish handle).saved) := by
    intro next
    rw [saved, hfinish, List.filterMap_append, List.filterMap_append, List.filterMap_cons]
    cases next.state.saved? with
    | none => exact .refl _
    | some previous => exact List.perm_middle
  refine ⟨?_, fun m => ?_⟩
  · rw [saved, hlive]
    exact hsplit task
  · cases m with
    | goes next =>
      rw [saved, moved, hreplace]
      exact hsplit _
    | ends result => exact .refl _

end Lifecycle

/-! ### One move of a task -/

namespace PollSource

/-- What a move of a task does to the phase, by what the task has put by before and after. -/
inductive Turns (s s' : PollSource) : Option PollPhase → Option PollPhase → Prop
  | keeps (saved : Option PollPhase) (hphase : s'.phase = s.phase) (hcycles : s'.cycles = s.cycles) :
      Turns s s' saved saved
  /-- The driver begins to take note. -/
  | opens (hphase : s'.phase = .checkpointing) (hcycles : s'.cycles = s.cycles) : Turns s s' none (some s.phase)
  /-- The driver has taken note. -/
  | closes (hcycles : s'.cycles = s.cycles) : Turns s s' (some s'.phase) none
  /-- The cycle is over. -/
  | completes (hphase : s'.phase = .polling) (hcycles : s'.cycles = s.cycles + 1) : Turns s s' none none

variable {signal : Signal} {task : PollTask} {w w' : World} {s s' : PollSource} {m : Move PollTask Unit}

theorem Turns.congr {t : PollSource} {before after : Option PollPhase} (h : Turns s s' before after)
    (hphase : t.phase = s'.phase) (hcycles : t.cycles = s'.cycles) : Turns s t before after := by
  cases h with
  | keeps _ hphase' hcycles' => exact .keeps _ (hphase.trans hphase') (hcycles.trans hcycles')
  | opens hphase' hcycles' => exact .opens (hphase.trans hphase') (hcycles.trans hcycles')
  | closes hcycles' =>
    rw [← hphase]
    exact .closes (hcycles.trans hcycles')
  | completes hphase' hcycles' => exact .completes (hphase.trans hphase') (hcycles.trans hcycles')

theorem saved?_afterBatch (isLast : Bool) : (afterBatch isLast).saved? = none := by
  cases isLast <;> rfl

/-- **What a move of the task does to the phase.** -/
theorem turns_of_step (hs : s.step signal task w = some (m, w', s')) :
    Turns s s' task.saved? (m.next?.bind PollTask.saved?) := by
  cases moves_of_step hs with
  | stops | begins | wakes | breaks => exact .keeps none rfl rfl
  | searches => exact .keeps _ rfl rfl
  | rests | retires => exact .completes rfl rfl
  | receives hreceive =>
    cases Consumer.moves_of_step hreceive with
    | gathers | fills | leaves | finishes | closes | submits => exact .keeps none rfl rfl
    | misses =>
      simp only [Move.next?, Option.bind_some, PollTask.saved?_cycling, saved?_afterBatch]
      exact .keeps none rfl rfl
    | handles => exact .opens rfl rfl
    | wraps => exact .keeps _ rfl rfl
    | returns =>
      simp only [Move.next?, Option.bind_some, PollTask.saved?_cycling, saved?_afterBatch]
      exact .closes rfl

/-- **What a move of a task among others does to the phase**, by what the task has put by and the others. -/
theorem exists_turns_of_stepLive {handle : Nat} (hd : s.lifecycle.alive.Nodup)
    (hs : rules.stepLive handle w s = some (w', s')) : ∃ before after others, Turns s s' before after ∧
      s.lifecycle.saved.Perm (before.toList ++ others) ∧ s'.lifecycle.saved.Perm (after.toList ++ others) ∧
        (s.lifecycle.live.length ≤ 1 → others = []) := by
  obtain ⟨task, m, moved, htask, hstep, rfl⟩ := TaskRules.stepLive_cases hs
  change s.lifecycle.task? handle = some task at htask
  have hlifecycle : moved.lifecycle = s.lifecycle := lifecycle_of_step hstep
  obtain ⟨hbefore, hafter⟩ := Lifecycle.perm_saved hd htask
  refine ⟨task.state.saved?, m.next?.bind PollTask.saved?, (s.lifecycle.finish handle).saved,
    (turns_of_step hstep).congr rfl rfl, hbefore, ?_, fun hone => ?_⟩
  · change (moved.lifecycle.moved handle task.signal m).saved.Perm _
    rw [hlifecycle]
    exact hafter m
  · have hlength := Lifecycle.length_live_finish hd htask
    have hnone : (s.lifecycle.finish handle).live = [] := List.length_eq_zero_iff.mp (by omega)
    rw [Lifecycle.saved, hnone, List.filterMap_nil]

/-- A move of a task starts none. -/
theorem tasks_of_stepLive {handle : Nat} (hn : s.lifecycle.Numbered)
    (hs : rules.stepLive handle w s = some (w', s')) :
    s'.lifecycle.Numbered ∧ s'.lifecycle.live.length ≤ s.lifecycle.live.length := by
  obtain ⟨task, m, moved, -, hstep, rfl⟩ := TaskRules.stepLive_cases hs
  have hlifecycle : moved.lifecycle = s.lifecycle := lifecycle_of_step hstep
  change (moved.lifecycle.moved handle task.signal m).Numbered ∧
    (moved.lifecycle.moved handle task.signal m).live.length ≤ _
  rw [hlifecycle]
  exact ⟨hn.moved _ _ _, Lifecycle.length_live_moved _ _⟩

/-- A source that does not run starts one task. -/
theorem start_eq (hrun : s.lifecycle.running = false) : s.start = (.ok (), { s with
    lifecycle := s.lifecycle.begun.spawn ⟨s.lifecycle.begun.signal, .checking⟩ }) := TaskRules.start_eq hrun _

/-- A stop leaves the phase and the cycles as they are. -/
theorem stop_phase {stop : Stop} {m : Move Stop Unit} (hs : rules.stop stop w s = some (m, w', s')) :
    s'.phase = s.phase ∧ s'.cycles = s.cycles := by
  refine TaskRules.stop_keeps (P := fun _ s' => s'.phase = s.phase ∧ s'.cycles = s.cycles) (fun _ _ _ h => h)
    (fun task w' s' h => ?_) hs ⟨rfl, rfl⟩
  rw [rules]
  dsimp only
  split <;> exact h

end PollSource

/-! ### Sources with what happened to their phases -/

/-- A source that polls, and what happened to its phases. -/
structure Phasing where
  world : World
  source : PollSource
  /-- Since a cycle was completed, a task was given up while the driver took note of a batch. -/
  abandoned : Bool
  /-- While a driver took note for one task, another one began to or completed a cycle; and since then no cycle
  was completed with nobody taking note. -/
  mingled : Bool
  /-- A start succeeded while a task of an earlier run was alive. -/
  overlapped : Bool

namespace Phasing

/-- A source to which nothing happened. -/
def opened (world : World) (source : PollSource) : Phasing := ⟨world, source, false, false, false⟩

/-- Somebody started the source; while it ran that failed. -/
def started (s : Phasing) : Phasing :=
  { s with
    source := s.source.start.2
    overlapped := s.overlapped || s.source.start.1.toBool && !s.source.lifecycle.live.isEmpty }

/-- A task moved or ended. -/
def noted (world : World) (source : PollSource) (s : Phasing) : Phasing :=
  let alone := s.source.lifecycle.saved.isEmpty
  let completed := decide (s.source.cycles < source.cycles)
  let began := decide (s.source.lifecycle.saved.length < source.lifecycle.saved.length)
  { s with
    world, source
    abandoned := s.abandoned && !completed
    mingled := if alone then s.mingled && !completed else s.mingled || completed || began }

/-- Tasks were given up. -/
def dropped (world : World) (source : PollSource) (s : Phasing) : Phasing :=
  { s with
    world, source
    abandoned := s.abandoned || decide (source.lifecycle.saved.length < s.source.lifecycle.saved.length) }

/-- One move of anybody. -/
inductive Step : Phasing → Phasing → Prop
  /-- Anything else happens around the source, or at its desk. -/
  | passes (s : Phasing) (world : World) (desk : Desk) : Step s { s with world, source := { s.source with desk } }
  | starts (s : Phasing) : Step s s.started
  /-- A stop moves, of anybody, at any point, with force or without. -/
  | stops (s : Phasing) (stop : Stop) {m : Move Stop Unit} {world : World} {source : PollSource}
      (hs : PollSource.rules.stop stop s.world s.source = some (m, world, source)) : Step s (s.dropped world source)
  /-- A task moves or ends. -/
  | works (s : Phasing) (handle : Nat) {world : World} {source : PollSource}
      (hs : PollSource.rules.stepLive handle s.world s.source = some (world, source)) :
      Step s (s.noted world source)
  /-- A task breaks off. -/
  | breaks (s : Phasing) (handle : Nat) : Step s (s.dropped s.world
      { s.source with lifecycle := s.source.lifecycle.finish handle })
  /-- The driver of the source does anything, or is any other. -/
  | drives (s : Phasing) (handle : Nat) {signal : Signal} {turn : CycleHalf} {c : Channel} {producer : Producer}
      {consumer : Consumer} (htask : s.source.lifecycle.task? handle = some ⟨signal, .cycling turn c producer consumer⟩)
      (driver : PollDriver) (c' : Channel) (producer' : Producer) {consumer' : Consumer}
      (hlike : consumer.Like consumer') : Step s { s with source := { s.source with
        driver
        lifecycle := s.source.lifecycle.replace handle ⟨signal, .cycling turn c' producer' consumer'⟩ } }

/-- **The law.** -/
structure Phased (s : Phasing) : Prop where
  /-- It polls only after a cycle was completed, whatever happened. -/
  polling : s.source.phase = .polling → 0 < s.source.cycles
  /-- As long as tasks do not come between each other, its driver takes note of a batch, or a task was given up
  while it did, since a cycle was completed. -/
  checkpointing_iff : s.mingled = false →
    (s.source.phase = .checkpointing ↔ s.source.lifecycle.saved ≠ [] ∨ s.abandoned = true)
  /-- Otherwise it has completed a cycle, or not. -/
  coldStart_iff : s.mingled = false → (s.source.phase = .coldStart ↔
    s.source.lifecycle.saved = [] ∧ s.abandoned = false ∧ s.source.cycles = 0)
  polling_iff : s.mingled = false → (s.source.phase = .polling ↔
    s.source.lifecycle.saved = [] ∧ s.abandoned = false ∧ 0 < s.source.cycles)
  /-- A source without tasks is left so only by a task that was given up. -/
  rested : s.mingled = false → s.source.lifecycle.live = [] →
    (s.source.phase = .checkpointing ↔ s.abandoned = true)
  /-- Tasks come between each other only where a start found a task of an earlier run alive. -/
  apart : s.mingled = true → s.overlapped = true

/-- What is in order between any two moves. -/
structure Sound (s : Phasing) : Prop where
  numbered : s.source.lifecycle.Numbered
  polling : .polling ∈ s.source.phase :: s.source.lifecycle.saved → 0 < s.source.cycles
  phase : s.mingled = false →
    s.source.lifecycle.saved = [] ∧ s.source.phase = .resting s.abandoned s.source.cycles ∨
      s.source.lifecycle.saved = [.resting s.abandoned s.source.cycles] ∧ s.source.phase = .checkpointing
  single : s.overlapped = false → s.source.lifecycle.live.length ≤ 1 ∧ s.mingled = false

variable {s s' : Phasing}

theorem sound_opened (world : World) (info : SourceInfo) (driver : PollDriver) (settings : PollSettings)
    (limit : Nat) (crew : Crew) : Sound (opened world (.new info driver settings limit crew)) where
  numbered := ⟨.nil, fun _ hh => absurd hh List.not_mem_nil⟩
  polling hh := by
    rcases List.mem_cons.mp hh with hphase | hsaved
    · cases hphase
    · cases hsaved
  phase _ := .inl ⟨rfl, rfl⟩
  single _ := ⟨Nat.zero_le _, rfl⟩

section Moves

variable {world : World} {source : PollSource} {overlapped : Bool}

/-- Whatever leaves the phase, the cycles and what tasks have put by as they are keeps the order. -/
theorem Sound.frame (h : Sound s) (hnumbered : source.lifecycle.Numbered)
    (hphase : source.phase = s.source.phase) (hcycles : source.cycles = s.source.cycles)
    (hsaved : source.lifecycle.saved.Perm s.source.lifecycle.saved)
    (hsingle : overlapped = false → s.overlapped = false ∧ source.lifecycle.live.length ≤ 1) :
    Sound { s with world, source, overlapped } where
  numbered := hnumbered
  polling hpolling := by
    change PollPhase.polling ∈ source.phase :: source.lifecycle.saved at hpolling
    rw [hphase] at hpolling
    exact hcycles.symm ▸ h.polling ((hsaved.cons _).mem_iff.mp hpolling)
  phase hapart := by
    dsimp only
    rw [hphase, hcycles]
    refine (h.phase hapart).imp (fun hrests => ⟨?_, hrests.2⟩) fun hnotes => ⟨?_, hnotes.2⟩
    · exact (hrests.1 ▸ hsaved).eq_nil
    · exact List.perm_singleton.mp (hnotes.1 ▸ hsaved)
  single hapart := ⟨(hsingle hapart).2, (h.single (hsingle hapart).1).2⟩

theorem noted_keeps (hcycles : source.cycles = s.source.cycles)
    (hsaved : source.lifecycle.saved.length ≤ s.source.lifecycle.saved.length) :
    s.noted world source = { s with world, source } := by
  rw [noted, hcycles, decide_eq_false (lt_irrefl _), decide_eq_false (not_lt.mpr hsaved)]
  simp

theorem noted_opens (hcycles : source.cycles = s.source.cycles)
    (hsaved : s.source.lifecycle.saved.length < source.lifecycle.saved.length) : s.noted world source =
      { s with world, source, mingled := s.mingled || !s.source.lifecycle.saved.isEmpty } := by
  rw [noted, hcycles, decide_eq_false (lt_irrefl _), decide_eq_true hsaved]
  cases s.source.lifecycle.saved.isEmpty <;> simp

theorem noted_completes (hcycles : source.cycles = s.source.cycles + 1) : s.noted world source =
    { s with world, source, abandoned := false, mingled := !s.source.lifecycle.saved.isEmpty } := by
  rw [noted, hcycles, decide_eq_true (Nat.lt_succ_self _)]
  cases s.source.lifecycle.saved.isEmpty <;> simp

section Works

variable {others : List PollPhase}

/-- The driver begins to take note, for a task among others. -/
theorem Sound.opens (h : Sound s) (hnumbered : source.lifecycle.Numbered)
    (hfew : source.lifecycle.live.length ≤ s.source.lifecycle.live.length)
    (hothers : s.source.lifecycle.live.length ≤ 1 → others = []) (hphase : source.phase = .checkpointing)
    (hcycles : source.cycles = s.source.cycles) (hbefore : s.source.lifecycle.saved.Perm others)
    (hafter : source.lifecycle.saved.Perm (s.source.phase :: others)) : Sound (s.noted world source) := by
  have hmore : s.source.lifecycle.saved.length < source.lifecycle.saved.length := by
    rw [hbefore.length_eq, hafter.length_eq]
    exact Nat.lt_succ_self _
  rw [noted_opens hcycles hmore]
  refine ⟨hnumbered, fun hpolling => ?_, fun hapart => ?_, fun hapart => ?_⟩
  · dsimp only at hpolling ⊢
    rw [hphase] at hpolling
    rw [hcycles]
    have hmem := hafter.mem_iff.mp ((List.mem_cons.mp hpolling).resolve_left (by decide))
    exact h.polling ((hbefore.cons _).mem_iff.mpr hmem)
  · -- Nobody took note so far, and so the phase is the one of a source at rest.
    obtain ⟨hold, halone⟩ := Bool.or_eq_false_iff.mp hapart
    have hnone : s.source.lifecycle.saved = [] := by simpa using halone
    obtain ⟨-, hrests⟩ := (h.phase hold).resolve_right fun hnotes => by
      rw [hnone] at hnotes
      cases hnotes.1
    have hempty : others = [] := (hnone ▸ hbefore).symm.eq_nil
    rw [hempty] at hafter
    refine .inr ⟨?_, hphase⟩
    dsimp only
    rw [hcycles, ← hrests]
    exact List.perm_singleton.mp hafter
  · obtain ⟨hone, hold⟩ := h.single hapart
    rw [hothers hone] at hbefore
    refine ⟨hfew.trans hone, ?_⟩
    dsimp only
    rw [hold, hbefore.eq_nil]
    rfl

/-- The driver has taken note, for a task among others. -/
theorem Sound.closes (h : Sound s) (hnumbered : source.lifecycle.Numbered)
    (hfew : source.lifecycle.live.length ≤ s.source.lifecycle.live.length)
    (hcycles : source.cycles = s.source.cycles) (hbefore : s.source.lifecycle.saved.Perm (source.phase :: others))
    (hafter : source.lifecycle.saved.Perm others) : Sound (s.noted world source) := by
  have hfewer : source.lifecycle.saved.length ≤ s.source.lifecycle.saved.length := by
    rw [hbefore.length_eq, hafter.length_eq]
    exact Nat.le_succ _
  rw [noted_keeps hcycles hfewer]
  refine ⟨hnumbered, fun hpolling => ?_, fun hapart => ?_, fun hapart => ?_⟩
  · dsimp only at hpolling ⊢
    rw [hcycles]
    refine h.polling (List.mem_cons_of_mem _ (hbefore.mem_iff.mpr ?_))
    exact (hafter.cons _).mem_iff.mp hpolling
  · obtain ⟨hone, -⟩ := (h.phase hapart).resolve_left fun hrests => by
      rw [hrests.1] at hbefore
      cases hbefore.symm.eq_nil
    rw [hone] at hbefore
    obtain ⟨hsame, hempty⟩ := List.cons.inj (List.singleton_perm.mp hbefore)
    rw [← hempty] at hafter
    refine .inl ⟨hafter.eq_nil, ?_⟩
    dsimp only
    rw [hcycles]
    exact hsame.symm
  · obtain ⟨hone, hold⟩ := h.single hapart
    exact ⟨hfew.trans hone, hold⟩

/-- A cycle is over, for a task among others. -/
theorem Sound.completes (h : Sound s) (hnumbered : source.lifecycle.Numbered)
    (hfew : source.lifecycle.live.length ≤ s.source.lifecycle.live.length)
    (hothers : s.source.lifecycle.live.length ≤ 1 → others = []) (hphase : source.phase = .polling)
    (hcycles : source.cycles = s.source.cycles + 1) (hbefore : s.source.lifecycle.saved.Perm others)
    (hafter : source.lifecycle.saved.Perm others) : Sound (s.noted world source) := by
  rw [noted_completes hcycles]
  refine ⟨hnumbered, fun _ => ?_, fun hapart => ?_, fun hapart => ?_⟩
  · dsimp only
    rw [hcycles]
    exact Nat.succ_pos _
  · have hnone : s.source.lifecycle.saved = [] := by simpa using hapart
    refine .inl ⟨(hnone ▸ hafter.trans hbefore.symm).eq_nil, ?_⟩
    dsimp only
    rw [hphase, hcycles]
    rfl
  · have hone := (h.single hapart).1
    rw [hothers hone] at hbefore
    refine ⟨hfew.trans hone, ?_⟩
    dsimp only
    rw [hbefore.eq_nil]
    rfl

/-- **A task moves or ends.** -/
theorem Sound.works (h : Sound s) {handle : Nat}
    (hs : PollSource.rules.stepLive handle s.world s.source = some (world, source)) :
    Sound (s.noted world source) := by
  obtain ⟨hnumbered, hfew⟩ := PollSource.tasks_of_stepLive h.numbered hs
  obtain ⟨before, after, others, hturns, hbefore, hafter, hothers⟩ :=
    PollSource.exists_turns_of_stepLive h.numbered.distinct hs
  cases hturns with
  | keeps _ hphase hcycles =>
    have hsame := hafter.trans hbefore.symm
    rw [noted_keeps hcycles hsame.length_eq.le]
    exact h.frame hnumbered hphase hcycles hsame fun hapart => ⟨hapart, hfew.trans (h.single hapart).1⟩
  | opens hphase hcycles => exact h.opens hnumbered hfew hothers hphase hcycles hbefore hafter
  | closes hcycles => exact h.closes hnumbered hfew hcycles hbefore hafter
  | completes hphase hcycles => exact h.completes hnumbered hfew hothers hphase hcycles hbefore hafter

end Works

/-- **Tasks are given up**: what they have put by is lost. -/
theorem Sound.dropped (h : Sound s) (hphase : source.phase = s.source.phase)
    (hcycles : source.cycles = s.source.cycles)
    (hlive : source.lifecycle.live.Sublist s.source.lifecycle.live)
    (hnext : source.lifecycle.nextHandle = s.source.lifecycle.nextHandle) : Sound (s.dropped world source) := by
  have hsaved : source.lifecycle.saved.Sublist s.source.lifecycle.saved := hlive.filterMap _
  refine ⟨h.numbered.of_sublist hlive hnext, fun hpolling => ?_, fun hapart => ?_, fun hapart => ?_⟩
  · change PollPhase.polling ∈ source.phase :: source.lifecycle.saved at hpolling
    rw [hphase] at hpolling
    exact hcycles.symm ▸ h.polling ((hsaved.cons_cons _).subset hpolling)
  · have hold := h.phase hapart
    change source.lifecycle.saved = [] ∧ source.phase = .resting (s.abandoned || _) source.cycles ∨
      source.lifecycle.saved = [.resting (s.abandoned || _) source.cycles] ∧ source.phase = .checkpointing
    rw [hphase, hcycles]
    rcases hold with ⟨hnone, hrests⟩ | ⟨hone, hnotes⟩
    · rw [hnone] at hsaved ⊢
      have hempty := List.sublist_nil.mp hsaved
      rw [hempty, decide_eq_false (lt_irrefl _), Bool.or_false]
      exact .inl ⟨rfl, hrests⟩
    · rw [hone] at hsaved ⊢
      rcases List.sublist_singleton.mp hsaved with hlost | hkept
      · rw [hlost, List.length_nil, List.length_singleton, decide_eq_true Nat.zero_lt_one, Bool.or_true]
        exact .inl ⟨rfl, hnotes⟩
      · rw [hkept, decide_eq_false (lt_irrefl _), Bool.or_false]
        exact .inr ⟨rfl, hnotes⟩
  · exact ⟨hlive.length_le.trans (h.single hapart).1, (h.single hapart).2⟩

end Moves

/-- **Somebody starts the source.** -/
theorem Sound.starts (h : Sound s) : Sound s.started := by
  rw [started]
  cases hrun : s.source.lifecycle.running with
  | true =>
    rw [PollSource.start, TaskRules.start_running hrun]
    refine h.frame h.numbered rfl rfl (.refl _) fun hapart => ?_
    have hold := (Bool.or_eq_false_iff.mp hapart).1
    exact ⟨hold, (h.single hold).1⟩
  | false =>
    rw [PollSource.start_eq hrun]
    have hbegun : s.source.lifecycle.begun.Numbered := ⟨h.numbered.distinct, h.numbered.issued⟩
    refine h.frame (hbegun.spawn _) rfl rfl ?_ fun hapart => ?_
    · rw [Lifecycle.saved, Lifecycle.spawn, List.filterMap_append]
      exact .of_eq (List.append_nil _)
    · obtain ⟨hold, hnobody⟩ := Bool.or_eq_false_iff.mp hapart
      have hempty : s.source.lifecycle.live = [] := by simpa [Except.toBool] using hnobody
      refine ⟨hold, ?_⟩
      rw [Lifecycle.spawn, Lifecycle.begun, hempty]
      exact Nat.le_refl 1

/-- **A stop moves**: with force, the tasks whose handles it takes are given up. -/
theorem Sound.stops (h : Sound s) {stop : Stop} {m : Move Stop Unit} {world : World} {source : PollSource}
    (hs : PollSource.rules.stop stop s.world s.source = some (m, world, source)) :
    Sound (s.dropped world source) := by
  obtain ⟨hphase, hcycles⟩ := PollSource.stop_phase hs
  have hstop : s.source.lifecycle.afterStop stop = some (m, source.lifecycle) :=
    TaskRules.afterStop_of_stop PollSource.rules_lawful hs
  have hkeeps : source.lifecycle.live.Sublist s.source.lifecycle.live ∧
      source.lifecycle.nextHandle = s.source.lifecycle.nextHandle := by
    rcases Lifecycle.afterStop_cases hstop with ⟨_, -, -, -, hsame⟩ | ⟨force, -, -, -, hhalted⟩ | ⟨_, -, -, -, hsame⟩
    · exact hsame ▸ ⟨.refl _, rfl⟩
    · rw [hhalted]
      cases force with
      | false => exact ⟨.refl _, rfl⟩
      | true => exact ⟨List.filter_sublist, rfl⟩
    · exact hsame ▸ ⟨.refl _, rfl⟩
  exact h.dropped hphase hcycles hkeeps.1 hkeeps.2

/-- **The driver does anything**: what the task has put by is out of its reach. -/
theorem Sound.drives (h : Sound s) {handle : Nat} {signal : Signal} {turn : CycleHalf} {c : Channel}
    {producer : Producer} {consumer : Consumer}
    (htask : s.source.lifecycle.task? handle = some ⟨signal, .cycling turn c producer consumer⟩)
    (driver : PollDriver) (c' : Channel) (producer' : Producer) {consumer' : Consumer}
    (hlike : consumer.Like consumer') : Sound { s with source := { s.source with
      driver
      lifecycle := s.source.lifecycle.replace handle ⟨signal, .cycling turn c' producer' consumer'⟩ } } := by
  obtain ⟨hbefore, hafter⟩ := Lifecycle.perm_saved h.numbered.distinct htask
  have hsaved : consumer'.saved? = consumer.saved? := by
    cases hlike with
    | same => rfl
    | wraps => rfl
  refine h.frame (h.numbered.replace _ _) rfl rfl ?_ fun hapart => ?_
  · refine (hafter (.goes (.cycling turn c' producer' consumer'))).trans (.trans ?_ hbefore.symm)
    simp only [Move.next?, Option.bind_some, PollTask.saved?_cycling, hsaved]
    exact .refl _
  · exact ⟨hapart, (Nat.le_of_eq (List.length_map _)).trans (h.single hapart).1⟩

/-- **What one move of anybody keeps.** -/
theorem Sound.step (h : Sound s) (hs : Step s s') : Sound s' := by
  cases hs with
  | passes world desk =>
    exact h.frame h.numbered rfl rfl (.refl _) fun hapart => ⟨hapart, (h.single hapart).1⟩
  | starts => exact h.starts
  | stops stop hs => exact h.stops hs
  | works handle hs => exact h.works hs
  | breaks handle => exact h.dropped rfl rfl List.filter_sublist rfl
  | drives handle htask driver c' producer' hlike => exact h.drives htask driver c' producer' hlike

theorem Sound.of_reachable (h : Sound s) (hr : Relation.ReflTransGen Step s s') : Sound s' := by
  induction hr with
  | refl => exact h
  | tail _ hs ih => exact ih.step hs

end Phasing

/-! ### The law -/

namespace PollPhase

variable {abandoned : Bool} {cycles : Nat}

theorem resting_eq_checkpointing : resting abandoned cycles = .checkpointing ↔ abandoned = true := by
  cases abandoned with
  | true => simp [resting]
  | false => cases cycles <;> simp [resting]

theorem resting_eq_coldStart : resting abandoned cycles = .coldStart ↔ abandoned = false ∧ cycles = 0 := by
  cases abandoned with
  | true => simp [resting]
  | false => cases cycles <;> simp [resting]

theorem resting_eq_polling : resting abandoned cycles = .polling ↔ abandoned = false ∧ 0 < cycles := by
  cases abandoned with
  | true => simp [resting]
  | false => cases cycles <;> simp [resting]

end PollPhase

namespace Phasing

variable {s s' : Phasing}

theorem Sound.phased (h : Sound s) : Phased s where
  polling hpolling := h.polling (hpolling ▸ List.mem_cons_self)
  checkpointing_iff hapart := by
    rcases h.phase hapart with ⟨hnone, hrests⟩ | ⟨hone, hnotes⟩
    · simp [hnone, hrests, PollPhase.resting_eq_checkpointing]
    · simp [hone, hnotes]
  coldStart_iff hapart := by
    rcases h.phase hapart with ⟨hnone, hrests⟩ | ⟨hone, hnotes⟩
    · simp [hnone, hrests, PollPhase.resting_eq_coldStart]
    · simp [hone, hnotes]
  polling_iff hapart := by
    rcases h.phase hapart with ⟨hnone, hrests⟩ | ⟨hone, hnotes⟩
    · simp [hnone, hrests, PollPhase.resting_eq_polling]
    · simp [hone, hnotes]
  rested hapart hlive := by
    have hnone : s.source.lifecycle.saved = [] := by rw [Lifecycle.saved, hlive, List.filterMap_nil]
    rcases h.phase hapart with ⟨-, hrests⟩ | ⟨hone, -⟩
    · rw [hrests, PollPhase.resting_eq_checkpointing]
    · rw [hnone] at hone
      cases hone
  apart hmingled := by
    by_contra hapart
    exact Bool.noConfusion (hmingled.symm.trans (h.single (Bool.eq_false_iff.mpr hapart)).2)

/-! ### Runs -/

/-- What a stop does next. -/
def stopped (stop : Stop) (s : Phasing) : Option Phasing :=
  (PollSource.rules.stop stop s.world s.source).map fun (_, world, source) => s.dropped world source

/-- The state after some moves of a task. -/
def after (handle : Nat) : Nat → Phasing → Option Phasing
  | 0, s => some s
  | moves + 1, s => (PollSource.rules.stepLive handle s.world s.source).bind fun (world, source) =>
    after handle moves (s.noted world source)

theorem reachable_of_stopped {stop : Stop} (hs : s.stopped stop = some s') : Relation.ReflTransGen Step s s' := by
  obtain ⟨⟨m, world, source⟩, hstop, rfl⟩ := Option.map_eq_some_iff.mp hs
  exact .single (.stops s stop hstop)

theorem reachable_of_after {handle moves : Nat} (hs : s.after handle moves = some s') :
    Relation.ReflTransGen Step s s' := by
  induction moves generalizing s with
  | zero => exact Option.some.inj hs ▸ .refl
  | succ moves ih =>
    obtain ⟨⟨world, source⟩, hmove, hrest⟩ := Option.bind_eq_some_iff.mp hs
    exact (ih hrest).head (.works s handle hmove)

/-- A source whose driver finds an event in its first cycle and nothing later, and takes its time after a
batch. -/
def slowNoting : PollSource :=
  .new ⟨"p", "k", .async⟩ (.feed ⟨[[⟨none, .event (.blank ⟨0, 0⟩)⟩, ⟨none, .cycleComplete⟩], [⟨none, .cycleComplete⟩]],
    0, some 1000, []⟩) {} 10 (.ofIndices .shared [0])

/-- The source is stopped with force while its driver takes note of a batch, and is started again; the task of the
second run completes a cycle. -/
def restarted : Option Phasing := do
  let noting ← (opened (.start ⟨0, 0⟩ .echo) slowNoting).started.after 0 15
  let halted ← noting.stopped (.ready true)
  halted.started.after 1 7

theorem reachable_of_restarted (hs : restarted = some s) :
    Relation.ReflTransGen Step (opened (.start ⟨0, 0⟩ .echo) slowNoting) s := by
  rw [restarted, Option.bind_eq_bind] at hs
  obtain ⟨noting, hnoting, hs⟩ := Option.bind_eq_some_iff.mp hs
  obtain ⟨halted, hhalted, hs⟩ := Option.bind_eq_some_iff.mp hs
  exact (((reachable_of_after hnoting).head (.starts _)).trans (reachable_of_stopped hhalted)).trans
    ((reachable_of_after hs).head (.starts _))

/-- **The phase of a source that polls.** Whatever its driver does and however often it is started and stopped,
with force or without: it polls only after a cycle was completed. As long as tasks do not come between each
other, it has completed no cycle where it is in its first, and it is checkpointing exactly while its driver takes
note of a batch, or after a task was given up while it did, until a cycle is completed; that is also how a source
without tasks is left. -/
theorem phased_of_reachable {world : World} {info : SourceInfo} {driver : PollDriver} {settings : PollSettings}
    {limit : Nat} {crew : Crew}
    (hr : Relation.ReflTransGen Step (opened world (.new info driver settings limit crew)) s) : Phased s :=
  ((sound_opened world info driver settings limit crew).of_reachable hr).phased

/-- The task is given up while its driver takes note of a batch, and the source is started again: once a cycle is
completed, it polls. -/
theorem phased_after_restart : ∃ s, Relation.ReflTransGen Step (opened (.start ⟨0, 0⟩ .echo) slowNoting) s ∧
    s.mingled = false ∧ s.source.phase = .polling ∧ s.source.cycles = 1 ∧ Phased s := by
  obtain ⟨s, hs, hholds⟩ := Option.any_eq_true _ _ |>.mp (show restarted.any (fun s =>
    s.mingled = false ∧ s.source.phase = .polling ∧ s.source.cycles = 1) = true by decide +kernel)
  obtain ⟨hmingled, hphase, hcycles⟩ := of_decide_eq_true hholds
  exact ⟨s, reachable_of_restarted hs, hmingled, hphase, hcycles, phased_of_reachable (reachable_of_restarted hs)⟩

/-- **A stop with force may leave a source checkpointing**: it gives the only task up while its driver takes note
of a batch, and returns. -/
theorem checkpointing_of_stopped : ∃ s world source,
    Relation.ReflTransGen Step (opened (.start ⟨0, 0⟩ .echo) slowNoting) s ∧
    PollSource.rules.stop (.ready true) s.world s.source = some (.goes (.joining [0]), world, source) ∧
    PollSource.rules.stop (.joining [0]) world source = some (.ends (), world, source) ∧
    source.lifecycle.live = [] ∧ source.lifecycle.saved = [] ∧ source.phase = .checkpointing := by
  obtain ⟨s, hs, hholds⟩ := Option.any_eq_true _ _ |>.mp
    (show ((opened (.start ⟨0, 0⟩ .echo) slowNoting).started.after 0 15).any (fun s =>
      (PollSource.rules.stop (.ready true) s.world s.source).isSome ∧ s.source.lifecycle.running = true ∧
        s.source.lifecycle.handles = [0] ∧ (s.source.lifecycle.halted true).live.isEmpty ∧
          s.source.phase = .checkpointing) = true by decide +kernel)
  obtain ⟨hsome, hrun, hhandles, hempty, hphase⟩ := of_decide_eq_true hholds
  obtain ⟨⟨m, world, source⟩, hstop⟩ := Option.isSome_iff_exists.mp hsome
  have hafter : s.source.lifecycle.afterStop (.ready true) = some (m, source.lifecycle) :=
    TaskRules.afterStop_of_stop PollSource.rules_lawful hstop
  rw [Lifecycle.afterStop, if_pos hrun, hhandles] at hafter
  obtain ⟨rfl, hhalted⟩ := Prod.mk.inj (Option.some.inj hafter)
  have hlive : source.lifecycle.live = [] := hhalted ▸ List.isEmpty_iff.mp hempty
  refine ⟨s, world, source, (reachable_of_after hs).head (.starts _), hstop, ?_, hlive, ?_,
    (PollSource.stop_phase hstop).1.trans hphase⟩
  · have hended : source.lifecycle.allEnded [0] = true := by simp [Lifecycle.allEnded, Lifecycle.task?, hlive]
    simp [TaskRules.stop, Stop.step, PollSource.rules, hended]
  · rw [Lifecycle.saved, hlive, List.filterMap_nil]

end Phasing

end EventDispatch
