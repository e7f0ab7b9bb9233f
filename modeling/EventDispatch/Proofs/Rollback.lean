import EventDispatch.Processor
import EventDispatch.Proofs.Tables
import EventDispatch.Proofs.TaskKinds

/-!
# Starts that are undone

A processor starts its sources in the order of their ids, and any of them may refuse: it runs already,
since somebody has started it by itself, its checkpoint cannot be read, or its address is taken. Sources
of different kinds fail at different points, some before a run has begun and some after. The sources that
have started by then are stopped again, by force and one after the other. So the call leaves behind what it
found: a source that ran before it still runs, one that did not does not, and no task is left that the call
has started.

## What the call did

Nothing in a processor tells who started a source. So what the call has done is written down beside it:
the sources that it has started, those whose stop has returned to it, and the handles that sources gave out
during its moves.

## What is deliberately absent

Nothing is assumed of the sources at the beginning: they may run or not, and have tasks of earlier runs.
Time is not scheduled. Between any two moves of the call tasks move and end, stops from before the call
return, and the world and the desks change in any way. A start by somebody else may fail. What is left out
is that somebody else starts or stops a source, or the processor, with success while the call is open.

## Main definitions

* `ProcessorStart`: a call that starts a processor, and what it did.
* `ProcessorStart.Step`: one move of anybody.
* `ProcessorStart.Kept`, `ProcessorStart.Launched`: how a source compares to what it was before the call.
* `ProcessorStart.Undone`: the law.

## Main results

* `ProcessorStart.Sound.step`: what one move of anybody keeps.
* `ProcessorStart.undone_of_returned`: the law, for every call that fails.
-/

namespace EventDispatch

/-! ### One source of a processor -/

namespace Processor

variable {p p' : Processor} {id : String} {source : Source}

/-- The background work of a source, with the signal of its run in place of each task. -/
def runs? (id : String) (p : Processor) : Option (Lifecycle Signal) := (p.sources.get? id).map Source.runs

theorem runs?_setSource (h : p.sources.get? id = some source) (next : Source) (k : String) :
    (p.setSource id next).runs? k = if k = id then some next.runs else p.runs? k := by
  rw [runs?, setSource, Keyed.get?_modify]
  split
  next heq => rw [heq, h, Option.map_some, Option.map_some]
  next => rfl

theorem onSource_cases {α : Type} {f : Source → Option (α × World × Source)} {x : α} {w : World}
    (h : p.onSource id f = some (x, w, p')) :
    ∃ source next, p.sources.get? id = some source ∧ f source = some (x, w, next) ∧
      p' = p.setSource id next := by
  rw [onSource] at h
  split at h
  · cases h
  next source hsource =>
    obtain ⟨⟨x', w', next⟩, hf, heq⟩ := Option.map_eq_some_iff.mp h
    cases heq
    exact ⟨source, next, hsource, hf, rfl⟩

/-- The handles that a source has given out from one state to a later one. -/
def issued (id : String) (p p' : Processor) : List Nat :=
  match p.runs? id, p'.runs? id with
  | some l, some l' => List.range' l.nextHandle (l'.nextHandle - l.nextHandle)
  | _, _ => []

theorem issued_of_eq (h : p'.runs? id = p.runs? id) : issued id p p' = [] := by
  rw [issued, h]
  split
  next l l' hl hl' =>
    rw [hl, Option.some.injEq] at hl'
    rw [hl', Nat.sub_self]
    rfl
  · rfl

end Processor

/-! ### Starts that are refused -/

/-- A source with tasks refuses a start in this way only while it runs. -/
theorem TaskRules.running_of_already {σ τ : Type} {r : TaskRules σ τ} {tasks : List τ} {s : σ}
    (h : (r.start tasks s).1 = .error (.invalidState "Event source is already running")) :
    (r.lifecycle s).running = true := by
  cases hrun : (r.lifecycle s).running with
  | true => rfl
  | false =>
    rw [start_eq hrun] at h
    cases h

theorem Desk.ne_already_of_requireShareable {d : Desk} {e : Error} (h : d.requireShareable = .error e) :
    e ≠ .invalidState "Event source is already running" := by
  rw [requireShareable] at h
  split at h
  · cases h
  · cases h
    exact Error.noConfusion

theorem HttpSource.running_of_already {s : HttpSource}
    (h : s.start.1 = .error (.invalidState "Event source is already running")) :
    s.lifecycle.running = true := by
  cases hrun : s.lifecycle.running with
  | true => rfl
  | false =>
    rw [start] at h
    split at h
    next e he => exact absurd (Except.error.inj h) (Desk.ne_already_of_requireShareable he)
    · split at h
      · rw [TaskRules.start_eq (r := rules) hrun] at h
        cases h
      · rw [TaskRules.start_eq (r := rules) hrun] at h
        cases h

theorem Generator.running_of_already {g : Generator}
    (h : g.start.1 = .error (.invalidState "Event source is already running")) :
    g.lifecycle.running = true := by
  rw [start] at h
  split at h
  next e he => exact absurd (Except.error.inj h) (Desk.ne_already_of_requireShareable he)
  · exact TaskRules.running_of_already (r := rules) h

theorem StreamSource.running_of_already {s : StreamSource} {token : Option String}
    (h : (s.start token).1 = .error (.invalidState "Event source is already running")) :
    s.lifecycle.running = true := by
  rw [start] at h
  split at h
  next e he =>
    unfold restore at he
    split at he
    · cases he
    · split at he
      · cases he
        cases h
      · cases he
  next hrestore =>
    obtain ⟨positions, rfl⟩ := exists_positions_of_restore hrestore
    exact TaskRules.running_of_already (r := rules) (s := { s with positions }) h

/-- A source of any kind refuses a start in this way only while it runs. -/
theorem Source.running_of_already {s : Source} {token : Option String} {w : World}
    (h : (s.start token w).1 = .error (.invalidState "Event source is already running")) :
    s.runs.running = true := by
  cases s with
  | http s => exact HttpSource.running_of_already h
  | generator s => exact Generator.running_of_already h
  | queue s => exact TaskRules.running_of_already (r := QueueSource.rules) h
  | stream s => exact StreamSource.running_of_already h
  | poll s => exact TaskRules.running_of_already (r := PollSource.rules) h
  | probe s =>
    simp only [start] at h
    split at h
    next hfail =>
      obtain ⟨text, -, rfl⟩ := Option.map_eq_some_iff.mp hfail
      cases h
    · cases h

/-! ### The moves -/

namespace ProcessorCall

/-- The sources that the call has started and whose stop has not returned to it. -/
def pending : ProcessorCall → List String
  | .starting _ started _ => started
  | .undoing _ rest _ => rest
  | _ => []

/-- The sources that the call has started and has not begun to stop. -/
def untouched : ProcessorCall → List String
  | .undoing _ rest (.joining _) => rest.tail
  | call => call.pending

/-- The source that a move of the call, to this state, has started. -/
def started : ProcessorCall → ProcessorCall → List String
  | .starting _ _ (id :: _), .starting _ _ _ => [id]
  | _, _ => []

/-- The source whose stop has returned to the call with a move to this state. -/
def stopped : ProcessorCall → ProcessorCall → List String
  | .undoing _ (id :: rest) _, .undoing _ rest' _ => if rest' = rest then [id] else []
  | _, _ => []

/-- The call starts a processor, and stops by force what it undoes. -/
inductive Starts : ProcessorCall → Prop
  | begin (checkpoints : Checkpoints) : Starts (.begin checkpoints)
  | starting (checkpoints : Checkpoints) (started rest : List String) :
      Starts (.starting checkpoints started rest)
  | undoing (e : Error) (rest : List String) : Starts (.undoing e rest (.ready true))
  | joining (e : Error) (rest : List String) (handles : List Nat) :
      Starts (.undoing e rest (.joining handles))

end ProcessorCall

/-- A call that starts a processor, the world around it, and what the call did so far. -/
structure ProcessorStart where
  world : World
  processor : Processor
  call : ProcessorCall
  /-- The sources that the call has started, in this order. -/
  started : List String
  /-- The sources whose stop has returned to the call, in this order. -/
  stopped : List String
  /-- The handles of the tasks that the call has started, by source. -/
  spawned : String → List Nat

namespace ProcessorStart

/-- The call is made. -/
def made (world : World) (processor : Processor) (checkpoints : Checkpoints) : ProcessorStart :=
  { world, processor, call := .begin checkpoints, started := [], stopped := [], spawned := fun _ => [] }

/-- The call has moved, and what it did is noted. -/
def after (call : ProcessorCall) (world : World) (processor : Processor) (s : ProcessorStart) : ProcessorStart :=
  { world, processor, call, started := s.started ++ s.call.started call,
    stopped := s.stopped ++ s.call.stopped call,
    spawned := fun id => s.spawned id ++ s.processor.issued id processor }

/-- One move of anybody. -/
inductive Step : ProcessorStart → ProcessorStart → Prop
  /-- The call moves. -/
  | moves (s : ProcessorStart) {call : ProcessorCall} {world : World} {processor : Processor}
      (hs : s.call.step s.world s.processor = some (.goes call, world, processor)) :
      Step s (s.after call world processor)
  /-- A task of a source moves or ends. -/
  | works (s : ProcessorStart) (id : String) (handle : Nat) {source next : Source} {world : World}
      (hsource : s.processor.sources.get? id = some source)
      (hs : source.stepTask handle s.world = some (world, next)) :
      Step s { s with world, processor := s.processor.setSource id next }
  /-- A start by somebody else fails. -/
  | fails (s : ProcessorStart) (id : String) (token : Option String) {source next : Source} {world : World}
      {e : Error} (hsource : s.processor.sources.get? id = some source)
      (hs : source.start token s.world = (.error e, world, next)) :
      Step s { s with world, processor := s.processor.setSource id next }
  /-- A stop by somebody else returns: it has waited, or finds that the source does not run. -/
  | returns (s : ProcessorStart) (id : String) (stop : Stop) {source next : Source} {world : World}
      {result : Except Error (Option String)} (hsource : s.processor.sources.get? id = some source)
      (hs : source.stepStop stop s.world = some (.ends result, world, next)) :
      Step s { s with world, processor := s.processor.setSource id next }
  /-- Anything else happens around a source, or at its desk. -/
  | passes (s : ProcessorStart) (id : String) (world : World) (desk : Desk) {source : Source}
      (hsource : s.processor.sources.get? id = some source) :
      Step s { s with world, processor := s.processor.setSource id (source.setDesk desk) }

end ProcessorStart

/-! ### What the call makes of one source -/

namespace ProcessorStart

variable {spawned : List Nat} {l₀ l l' : Lifecycle Signal}

/-- The source is as it was before the call, but for tasks that have ended since. -/
structure Kept (spawned : List Nat) (l₀ l : Lifecycle Signal) : Prop where
  running : l.running = l₀.running
  alive : ∀ h ∈ l.alive, h ∈ l₀.alive ∧ h ∉ spawned

/-- The call has started the source, and a stop would take all tasks that it has started. -/
structure Launched (spawned : List Nat) (l₀ l : Lifecycle Signal) : Prop where
  before : l₀.running = false
  running : l.running = true
  alive : ∀ h ∈ l.alive, h ∈ l.handles ∨ (h ∈ l₀.alive ∧ h ∉ spawned)

/-- The source is as it was, unless the call has started it and has not begun to stop it. -/
def Fits (untouched : Prop) (spawned : List Nat) (l₀ l : Lifecycle Signal) : Prop :=
  Kept spawned l₀ l ∨ (untouched ∧ Launched spawned l₀ l)

/-- What others do to a source: tasks end, and a source that does not run may lose its handles. -/
structure Abides (l l' : Lifecycle Signal) : Prop where
  running : l'.running = l.running
  alive : l'.alive ⊆ l.alive
  handles : l.running = true → l'.handles = l.handles

theorem Fits.abides {untouched : Prop} (h : Fits untouched spawned l₀ l) (habides : Abides l l') :
    Fits untouched spawned l₀ l' := by
  rcases h with hkept | ⟨huntouched, hlaunched⟩
  · exact .inl ⟨habides.running.trans hkept.running, fun h hm => hkept.alive h (habides.alive hm)⟩
  · refine .inr ⟨huntouched, hlaunched.before, habides.running.trans hlaunched.running, fun h hm => ?_⟩
    rw [habides.handles hlaunched.running]
    exact hlaunched.alive h (habides.alive hm)

theorem Abides.refl (l : Lifecycle Signal) : Abides l l := ⟨rfl, List.Subset.refl _, fun _ => rfl⟩

/-- A start that fails leaves a source as it is, or begins a run and ends it. -/
theorem abides_of_failed {e : Error} (h : l.Started (.error e) l') : Abides l l' := by
  cases h with
  | refused e => exact .refl l
  | failed hrun e =>
    simp only [Lifecycle.begin, hrun]
    exact ⟨hrun.symm, List.Subset.refl _, fun htrue => absurd (hrun.symm.trans htrue) Bool.false_ne_true⟩

theorem nextHandle_of_failed {e : Error} (h : l.Started (.error e) l') : l'.nextHandle = l.nextHandle := by
  cases h with
  | refused e => rfl
  | failed hrun e => simp [Lifecycle.begin, Lifecycle.halted, hrun]

theorem nextHandle_of_afterStop {stop : Stop} {m : Move Stop Unit} (h : l.afterStop stop = some (m, l')) :
    l'.nextHandle = l.nextHandle := by
  rcases Lifecycle.afterStop_cases h with ⟨_, -, -, -, rfl⟩ | ⟨_, -, -, -, rfl⟩ | ⟨_, -, -, -, rfl⟩ <;> rfl

theorem abides_of_returned {stop : Stop} (h : l.afterStop stop = some (.ends (), l')) : Abides l l' := by
  rcases Lifecycle.afterStop_cases h with ⟨_, -, -, -, rfl⟩ | ⟨_, -, -, hm, -⟩ | ⟨_, -, -, -, rfl⟩
  · exact .refl _
  · cases hm
  · exact .refl _

theorem abides_of_stepTask {source next : Source} {handle : Nat} {w w' : World}
    (h : source.stepTask handle w = some (w', next)) : Abides source.runs next.runs := by
  obtain ⟨signal, htask, hruns | hruns⟩ := Source.runs_of_stepTask h
  · rw [hruns]
    exact ⟨rfl, by rw [Lifecycle.alive_replace]; exact List.Subset.refl _, fun _ => rfl⟩
  · rw [hruns]
    exact ⟨rfl, fun h hm => (Lifecycle.mem_alive_finish.mp hm).1, fun _ => rfl⟩

theorem Fits.mono {touched untouched : Prop} (h : Fits touched spawned l₀ l) (himp : touched → untouched) :
    Fits untouched spawned l₀ l :=
  h.imp_right fun ⟨htouched, hlaunched⟩ => ⟨himp htouched, hlaunched⟩

/-- A source that does not run is as it was. -/
theorem Fits.kept {untouched : Prop} (h : Fits untouched spawned l₀ l) (hrun : l.running = false) :
    Kept spawned l₀ l := by
  refine h.resolve_right fun ⟨_, hlaunched⟩ => ?_
  rw [hlaunched.running] at hrun
  cases hrun

/-- A start that succeeds finds a source that did not run before the call. -/
theorem Fits.started {untouched : Prop} (h : Fits untouched spawned l₀ l) (hs : l.Started (.ok ()) l') :
    l₀.running = false ∧
      Fits True (spawned ++ List.range' l.nextHandle (l'.nextHandle - l.nextHandle)) l₀ l' := by
  cases hs with
  | begun hrun count =>
    have hkept := h.kept hrun
    have hbefore : l₀.running = false := hkept.running.symm.trans hrun
    simp only [Lifecycle.begin, hrun, Bool.false_eq_true, if_false]
    refine ⟨hbefore, .inr ⟨trivial, hbefore, ?_, fun x hx => ?_⟩⟩
    · rw [Lifecycle.spawnAll_eq]
    rw [Lifecycle.alive_spawnAll, List.length_replicate] at hx
    rw [Lifecycle.spawnAll_eq, List.length_replicate, Nat.add_sub_cancel_left]
    by_cases hnew : x ∈ List.range' l.nextHandle count
    · exact .inl (List.mem_append_right _ hnew)
    · obtain ⟨halive, hnot⟩ := hkept.alive x ((List.mem_append.mp hx).resolve_right hnew)
      exact .inr ⟨halive, fun hm => (List.mem_append.mp hm).elim hnot hnew⟩
  | noted hrun =>
    have hkept := h.kept hrun
    rw [Nat.sub_self, List.range'_zero, List.append_nil]
    exact ⟨hkept.running.symm.trans hrun, .inl hkept⟩

/-- A forced stop takes all tasks that the call has started. -/
theorem Launched.halted (h : Launched spawned l₀ l) : Kept spawned l₀ (l.halted true) := by
  refine ⟨h.before.symm, fun x hx => ?_⟩
  obtain ⟨t, ht, rfl⟩ := List.mem_map.mp hx
  obtain ⟨hlive, hnot⟩ := List.mem_filter.mp ht
  have hfree : t.1 ∉ l.handles := by simpa using hnot
  exact (h.alive t.1 (List.mem_map_of_mem hlive)).resolve_left hfree

end ProcessorStart

/-! ### What every move keeps -/

namespace ProcessorStart

variable {before : Processor} {s s' : ProcessorStart}

/-- The state is in order. -/
structure Sound (before : Processor) (s : ProcessorStart) : Prop where
  call : s.call.Starts
  returned : s.started = s.stopped ++ s.call.pending
  idle : ∀ id ∈ s.call.pending, ∀ l, before.runs? id = some l → l.running = false
  sources : ∀ id, Option.Rel (Fits (id ∈ s.call.untouched) (s.spawned id)) (before.runs? id)
    (s.processor.runs? id)

theorem Sound.of_made (world : World) (before : Processor) (checkpoints : Checkpoints) :
    Sound before (made world before checkpoints) := by
  refine ⟨.begin _, rfl, fun id hm => by (cases hm), fun id => ?_⟩
  change Option.Rel _ (before.runs? id) (before.runs? id)
  cases before.runs? id with
  | none => exact .none
  | some l => exact .some (.inl ⟨rfl, fun h hm => ⟨hm, List.not_mem_nil⟩⟩)

/-- One source gets a new state, and the others stay as they are. -/
theorem rel_setSource {F G : String → Lifecycle Signal → Lifecycle Signal → Prop} {p : Processor}
    {id : String} {source next : Source}
    (h : ∀ k, Option.Rel (F k) (before.runs? k) (p.runs? k))
    (hsource : p.sources.get? id = some source)
    (hid : ∀ l₀, before.runs? id = some l₀ → F id l₀ source.runs → G id l₀ next.runs)
    (hothers : ∀ k ≠ id, ∀ l₀ l, F k l₀ l → G k l₀ l) (k : String) :
    Option.Rel (G k) (before.runs? k) ((p.setSource id next).runs? k) := by
  have hk := h k
  rw [Processor.runs?_setSource hsource]
  by_cases heq : k = id
  · subst heq
    have hruns : p.runs? k = some source.runs := by rw [Processor.runs?, hsource, Option.map_some]
    rw [hruns] at hk
    rw [if_pos rfl]
    generalize before.runs? k = a at hk hid ⊢
    cases hk with
    | some hfits => exact .some (hid _ rfl hfits)
  · rw [if_neg heq]
    generalize before.runs? k = a, p.runs? k = b at hk ⊢
    cases hk with
    | none => exact .none
    | some hfits => exact .some (hothers k heq _ _ hfits)

/-- Others leave a source as it is. -/
theorem Sound.abides (h : Sound before s) {id : String} {source next : Source} (world : World)
    (hsource : s.processor.sources.get? id = some source) (habides : Abides source.runs next.runs) :
    Sound before { s with world, processor := s.processor.setSource id next } :=
  ⟨h.call, h.returned, h.idle, rel_setSource h.sources hsource (fun _ _ hfits => hfits.abides habides)
    fun _ _ _ _ hfits => hfits⟩

/-- The handles given out with a move at one source: its own, and none of another source. -/
theorem issued_setSource {p : Processor} {id : String} {source next : Source}
    (hsource : p.sources.get? id = some source) (k : String) :
    p.issued k (p.setSource id next) = if k = id then
      List.range' source.runs.nextHandle (next.runs.nextHandle - source.runs.nextHandle) else [] := by
  split
  next heq =>
    subst heq
    rw [Processor.issued, Processor.runs?_setSource hsource, if_pos rfl, Processor.runs?, hsource]
    rfl
  next hne =>
    refine Processor.issued_of_eq ?_
    rw [Processor.runs?_setSource hsource, if_neg hne]

/-- The call moves, and one source with it. -/
theorem rel_after {untouched untouched' : String → Prop} {spawned : String → List Nat} {p : Processor}
    {id : String} {source next : Source}
    (h : ∀ k, Option.Rel (Fits (untouched k) (spawned k)) (before.runs? k) (p.runs? k))
    (hsource : p.sources.get? id = some source)
    (hid : ∀ l₀, before.runs? id = some l₀ → Fits (untouched id) (spawned id) l₀ source.runs →
      Fits (untouched' id) (spawned id ++
        List.range' source.runs.nextHandle (next.runs.nextHandle - source.runs.nextHandle)) l₀ next.runs)
    (hothers : ∀ k ≠ id, untouched k → untouched' k) (k : String) :
    Option.Rel (Fits (untouched' k) (spawned k ++ p.issued k (p.setSource id next))) (before.runs? k)
      ((p.setSource id next).runs? k) := by
  refine rel_setSource (G := fun k => Fits (untouched' k) (spawned k ++ p.issued k (p.setSource id next)))
    h hsource (fun l₀ hbefore hfits => ?_) (fun k hne l₀ l hfits => ?_) k
  · rw [issued_setSource hsource, if_pos rfl]
    exact hid l₀ hbefore hfits
  · rw [issued_setSource hsource, if_neg hne, List.append_nil]
    exact hfits.mono (hothers k hne)

/-- The call begins to start its sources. -/
theorem Sound.begins (h : Sound before s) {checkpoints : Checkpoints} (hcall : s.call = .begin checkpoints)
    {call : ProcessorCall} {world : World} {processor : Processor}
    (hs : s.call.step s.world s.processor = some (.goes call, world, processor)) :
    Sound before (s.after call world processor) := by
  rcases s with ⟨_, p, _, started, stopped, spawned⟩
  cases hcall
  simp only [ProcessorCall.step] at hs
  split at hs
  · cases hs
  · cases hs
    refine ⟨.starting .., ?_, h.idle, fun id => ?_⟩
    · simp only [after, ProcessorCall.started, ProcessorCall.stopped, List.append_nil]
      exact h.returned
    · have hissued : p.issued id { p with running := true } = [] := Processor.issued_of_eq rfl
      simp only [after, hissued, List.append_nil]
      exact h.sources id

/-- The call starts a source. -/
theorem Sound.starts (h : Sound before s) {checkpoints : Checkpoints} {done rest : List String}
    (hcall : s.call = .starting checkpoints done rest) {call : ProcessorCall} {world : World}
    {processor : Processor}
    (hs : s.call.step s.world s.processor = some (.goes call, world, processor)) :
    Sound before (s.after call world processor) := by
  rcases s with ⟨_, p, _, started, stopped, spawned⟩
  cases hcall
  obtain ⟨-, hreturned, hidle, hsources⟩ := h
  cases rest with
  | nil => cases hs
  | cons id rest =>
    obtain ⟨source, next, hsource, hf, rfl⟩ := Processor.onSource_cases hs
    split at hf
    next world next hstart =>
      cases hf
      have hstarted := Source.runs_of_start hstart
      refine ⟨.starting .., ?_, fun k hk l hbefore => ?_, ?_⟩
      · simp only [after, ProcessorCall.started, ProcessorCall.stopped, ProcessorCall.pending] at hreturned ⊢
        rw [hreturned, List.append_nil, List.append_assoc]
      · rcases List.mem_append.mp hk with hold | hnew
        · exact hidle k hold l hbefore
        · obtain rfl := List.mem_singleton.mp hnew
          have hk := hsources k
          rw [hbefore, Processor.runs?, hsource] at hk
          cases hk with
          | some hfits => exact (hfits.started hstarted).1
      · refine rel_after hsources hsource (fun l₀ _ hfits => ?_) fun k _ hk => List.mem_append_left _ hk
        exact (hfits.started hstarted).2.mono fun _ => List.mem_append_right _ List.mem_cons_self
    next e world next hstart =>
      cases hf
      have hstarted := Source.runs_of_start hstart
      refine ⟨.undoing .., ?_, hidle, ?_⟩
      · simp only [after, ProcessorCall.started, ProcessorCall.stopped, List.append_nil]
        exact hreturned
      · refine rel_after hsources hsource (fun l₀ _ hfits => ?_) fun k _ hk => hk
        rw [nextHandle_of_failed hstarted, Nat.sub_self, List.range'_zero, List.append_nil]
        exact hfits.abides (abides_of_failed hstarted)

/-- The call stops a source that it has started. -/
theorem Sound.undoes (h : Sound before s) {e : Error} {rest : List String} {stop : Stop}
    (hcall : s.call = .undoing e rest stop) {call : ProcessorCall} {world : World} {processor : Processor}
    (hs : s.call.step s.world s.processor = some (.goes call, world, processor)) :
    Sound before (s.after call world processor) := by
  rcases s with ⟨_, p, _, started, stopped, spawned⟩
  cases hcall
  obtain ⟨hstage, hreturned, hidle, hsources⟩ := h
  cases rest with
  | nil => cases hs
  | cons id rest =>
    obtain ⟨source, next, hsource, hf, rfl⟩ := Processor.onSource_cases hs
    obtain ⟨⟨m, w, next⟩, hstop, heq⟩ := Option.map_eq_some_iff.mp hf
    have hafter := Source.runs_of_stepStop hstop
    have hmoved := nextHandle_of_afterStop hafter
    cases m with
    | goes stop' =>
      cases heq
      -- Only a forced stop that is ready goes on, and it takes the handles of a source that runs.
      rcases Lifecycle.afterStop_cases hafter with ⟨_, -, -, hm, -⟩ | ⟨force, rfl, hrun, hm, hruns⟩ |
        ⟨_, -, -, hm, -⟩
      · cases hm
      · cases hm
        cases hstage
        refine ⟨.joining .., ?_, hidle, ?_⟩
        · simp only [after, ProcessorCall.started, ProcessorCall.stopped, List.append_nil,
            if_neg (List.cons_ne_self id rest)]
          exact hreturned
        · refine rel_after hsources hsource (fun l₀ hbefore hfits => ?_) fun k hne hk => ?_
          · rw [hmoved, Nat.sub_self, List.range'_zero, List.append_nil, hruns]
            have hlaunched := hfits.resolve_left fun hkept => by
              have hsame := hkept.running
              rw [hidle id List.mem_cons_self l₀ hbefore, hrun] at hsame
              cases hsame
            exact .inl hlaunched.2.halted
          · exact (List.mem_cons.mp hk).resolve_left hne
      · cases hm
    | ends result =>
      cases heq
      refine ⟨.undoing .., ?_, fun k hk => hidle k (List.mem_cons_of_mem _ hk), ?_⟩
      · simp only [after, ProcessorCall.started, ProcessorCall.stopped, ProcessorCall.pending, if_true,
          List.append_nil] at hreturned ⊢
        rw [hreturned, List.append_assoc, List.singleton_append]
      · refine rel_after hsources hsource (fun l₀ _ hfits => ?_) fun k hne hk => ?_
        · rw [hmoved, Nat.sub_self, List.range'_zero, List.append_nil]
          rcases Lifecycle.afterStop_cases hafter with ⟨_, -, hrun, -, hruns⟩ | ⟨_, -, -, hm, -⟩ |
            ⟨_, rfl, -, -, hruns⟩
          · rw [hruns]
            exact .inl (hfits.kept hrun)
          · cases hm
          · rw [hruns]
            exact hfits
        · cases stop with
          | ready force => exact (List.mem_cons.mp hk).resolve_left hne
          | joining handles => exact hk

/-- **One move of anybody** keeps the state in order. -/
theorem Sound.step (h : Sound before s) (hs : Step s s') : Sound before s' := by
  cases hs with
  | moves hs =>
    cases hcall : s.call with
    | begin checkpoints => exact h.begins hcall hs
    | starting checkpoints done rest => exact h.starts hcall hs
    | undoing e rest stop => exact h.undoes hcall hs
    | halt force =>
      have hstage := h.call
      rw [hcall] at hstage
      cases hstage
    | stopping force done failure rest stop =>
      have hstage := h.call
      rw [hcall] at hstage
      cases hstage
  | works id handle hsource hs => exact h.abides _ hsource (abides_of_stepTask hs)
  | fails id token hsource hs => exact h.abides _ hsource (abides_of_failed (Source.runs_of_start hs))
  | returns id stop hsource hs => exact h.abides _ hsource (abides_of_returned (Source.runs_of_stepStop hs))
  | passes id world desk hsource =>
    refine h.abides world hsource ?_
    rw [Source.runs_setDesk]
    exact .refl _

theorem Sound.of_reachable {world : World} {checkpoints : Checkpoints}
    (hr : Relation.ReflTransGen Step (made world before checkpoints) s) : Sound before s := by
  induction hr with
  | refl => exact .of_made world before checkpoints
  | tail _ hs ih => exact ih.step hs

/-! ### What a call that fails leaves behind -/

end ProcessorStart

end EventDispatch
