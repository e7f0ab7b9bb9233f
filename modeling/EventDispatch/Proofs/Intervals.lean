import EventDispatch.Proofs.Rollback
import EventDispatch.Proofs.Settlements
import EventDispatch.Station
import Mathlib.Algebra.Order.Monoid.Prod
import Mathlib.Algebra.Order.Sub.Basic
import Mathlib.Algebra.Order.Sub.Prod

/-!
# Intervals

Somebody looks at the counters of a processor now and then, and takes the difference of each two looks. Meanwhile the
processor is started and stopped, as a whole or one source at a time; events are submitted to any source, one or several
at a time, and requests are served; workers are taken and given back; tasks move, and calls are given up. As long as no
counter runs out of room, a difference counts what was settled between its two looks: for each source the events that
were handled with success, those that were not, calls that found no worker among them, and these calls by themselves;
for each worker what it handled. No counter of the earlier look is ahead of the later one, so that no difference stops
at zero. And the differences of each look and the next add up to that of the first and the last.

## What was settled

All that is settled is written down beside the processor, with the id of its source. What a move settles is told by the
call that moves (`Operation.settles`, `Station.settles`); no counter is read for it. Counters and this log start at any
state of the processor: its sources may run, and have handled events before.

## Where the induction is

A move keeps that the counters are ahead of those at the beginning by what was settled (`Sound.after`). A look keeps it
too, and remembers how far the log had come. So each look tells the counters at the beginning and a prefix of the log,
and two looks tell the part in between.

## What is deliberately absent

That a look is taken between two moves is an assumption: nobody reads one counter before a move and the next one after
it, nor in the course of a move, where a run may be counted on its worker and not yet for the source. How long a run
took is told to the processor at any time and by anybody; nothing relates it to the run.

## Main definitions

* `Processor.Counted`: the counters of all sources are ahead of those that they had by what was settled.
* `Operation.settles`, `Station.settles`: what a move of an operation settles, and one of a task.
* `Look`, `Look.Tells`: a look at a processor, and what two of them are to tell.
* `Metering`, `Metering.Step`: a processor and what is settled at it; one move of anybody.
* `Processor.HasRoom`: no counter passes the greatest number that it holds.
* `Metering.Metered`: the law.

## Main results

* `Station.counted_of_step`, `Station.counted_of_stepTask`: operations and tasks add what they settle.
* `Look.tells_of_counted`: two looks tell what happened between them.
* `sum_gains`: differences add up.
* `Metering.Sound.step`: what one move of anybody keeps.
* `Metering.metered_of_reachable`: the law, for every run.
-/

namespace EventDispatch

/-! ### What is settled at a processor -/

/-- What was settled at one source. -/
def Settled.atSource (id : String) (log : List (String × Settled)) : List Settled :=
  log.filterMap fun e => if e.1 = id then some e.2 else none

namespace Settled

theorem atSource_append (id : String) (log more : List (String × Settled)) :
    atSource id (log ++ more) = atSource id log ++ atSource id more := List.filterMap_append

theorem atSource_map_self (id : String) (settled : List Settled) : atSource id (settled.map (id, ·)) = settled := by
  simp [atSource, List.filterMap_map]

theorem atSource_map_of_ne {id other : String} (h : other ≠ id) (settled : List Settled) :
    atSource other (settled.map (id, ·)) = [] := by
  simp [atSource, List.filterMap_map, h.symm]

end Settled

/-- **The counters of all sources are ahead** of those that they had by what was settled at them. -/
def Processor.Counted (p p' : Processor) (log : List (String × Settled)) : Prop :=
  ∀ id, Option.Rel (fun source source' => source.desk.Counted source'.desk (Settled.atSource id log))
    (p.sources.get? id) (p'.sources.get? id)

namespace Processor.Counted

variable {p p' p'' : Processor} {log more : List (String × Settled)} {id : String} {source next : Source}
  {settled : List Settled}

/-- Nothing is settled. -/
theorem of_sources (h : p'.sources = p.sources) : Counted p p' [] := by
  intro id
  rw [h]
  cases p.sources.get? id with
  | none => exact .none
  | some source => exact .some (.refl _)

theorem refl (p : Processor) : Counted p p [] := of_sources rfl

/-- First one thing is settled, and then another. -/
theorem trans (h : Counted p p' log) (h' : Counted p' p'' more) : Counted p p'' (log ++ more) := by
  intro id
  have hid := h id
  have hid' := h' id
  rw [Settled.atSource_append]
  generalize p.sources.get? id = a, p'.sources.get? id = b, p''.sources.get? id = c at hid hid' ⊢
  cases hid with
  | none =>
    cases hid'
    exact .none
  | some hfirst =>
    cases hid' with
    | some hthen => exact .some (hfirst.trans hthen)

/-- Two later states have the same sources, each with the counters that it had and what was settled at it. -/
theorem both (h : Counted p p' log) (h' : Counted p p'' more) (id : String) :
    Option.Rel (fun source source' => ∃ source₀, p.sources.get? id = some source₀ ∧
        source₀.desk.Counted source.desk (Settled.atSource id log) ∧
        source₀.desk.Counted source'.desk (Settled.atSource id more))
      (p'.sources.get? id) (p''.sources.get? id) := by
  have hid := h id
  have hid' := h' id
  generalize p.sources.get? id = a, p'.sources.get? id = b, p''.sources.get? id = c at hid hid' ⊢
  cases hid with
  | none =>
    cases hid'
    exact .none
  | some hcounted =>
    cases hid' with
    | some hcounted' => exact .some ⟨_, rfl, hcounted, hcounted'⟩

/-- Something is settled at one source, if there is one with the id. -/
theorem modify {f : Source → Source} (h : p'.sources = p.sources.modify id f)
    (hf : ∀ source, p.sources.get? id = some source → source.desk.Counted (f source).desk settled) :
    Counted p p' (settled.map (id, ·)) := by
  intro other
  rw [h, Keyed.get?_modify]
  by_cases heq : other = id
  · subst heq
    rw [if_pos rfl, Settled.atSource_map_self]
    cases hget : p.sources.get? other with
    | none => exact .none
    | some source => exact .some (hf source hget)
  · rw [if_neg heq, Settled.atSource_map_of_ne heq]
    cases p.sources.get? other with
    | none => exact .none
    | some source => exact .some (.refl _)

/-- Something is settled at a source, which gets a new state. -/
theorem setSource (hsource : p.sources.get? id = some source) (h : source.desk.Counted next.desk settled) :
    Counted p (p.setSource id next) (settled.map (id, ·)) := by
  refine modify (f := fun _ => next) rfl fun s hs => ?_
  rw [hsource, Option.some.injEq] at hs
  rwa [← hs]

/-- A source gets a new state, and nothing is settled. -/
theorem setSource_still (hsource : p.sources.get? id = some source) (h : source.desk.Counted next.desk []) :
    Counted p (p.setSource id next) [] := setSource hsource h

end Processor.Counted

/-- Starting and stopping a processor settles nothing. -/
theorem ProcessorCall.counted_of_step {call : ProcessorCall} {m : Move ProcessorCall ProcessorAnswer} {w w' : World}
    {p p' : Processor} (h : call.step w p = some (m, w', p')) : p.Counted p' [] := by
  cases call with
  | begin checkpoints =>
    rw [step] at h
    split at h <;> · cases h; exact .of_sources rfl
  | starting checkpoints started rest =>
    cases rest with
    | nil =>
      cases h
      exact .refl p
    | cons id rest =>
      obtain ⟨source, source', hsource, hf, rfl⟩ := Processor.onSource_cases h
      split at hf
      next hstart =>
        cases hf
        exact .setSource_still hsource (Source.counted_of_start hstart)
      next hstart =>
        cases hf
        exact .setSource_still hsource (Source.counted_of_start hstart)
  | undoing e rest stop =>
    cases rest with
    | nil =>
      cases h
      exact .of_sources rfl
    | cons id rest =>
      obtain ⟨source, source', hsource, hf, rfl⟩ := Processor.onSource_cases h
      obtain ⟨⟨m₁, w₁, source₁⟩, hstep, heq⟩ := Option.map_eq_some_iff.mp hf
      cases m₁ <;> · cases heq; exact .setSource_still hsource (Source.counted_of_stepStop hstep)
  | halt force =>
    cases h
    exact .of_sources rfl
  | stopping force done failure rest stop =>
    cases rest with
    | nil =>
      cases h
      exact .refl p
    | cons id rest =>
      obtain ⟨source, source', hsource, hf, rfl⟩ := Processor.onSource_cases h
      obtain ⟨⟨m₁, w₁, source₁⟩, hstep, heq⟩ := Option.map_eq_some_iff.mp hf
      dsimp only at heq
      split at heq <;> · cases heq; exact .setSource_still hsource (Source.counted_of_stepStop hstep)

/-! ### Operations -/

/-- What is settled at one source of a station, where there is one with the id. -/
def Station.settlesAt (id : String) (f : Source → List Settled) (s : Station) : List (String × Settled) :=
  (s.source? id).elim [] fun source => (f source).map (id, ·)

/-- The call at a desk that a request moves. -/
def Serving.work? : Serving → Option Work
  | submitting c => some (.call (.submit c))
  | _ => none

/-- The call at a desk that an operation moves, with the id of the source. -/
def Operation.work? : Operation → Option (String × Work)
  | submit id c => some (id, .call (.submit c))
  | batch id c => some (id, .call (.batch c))
  | allocate id _ _ c => some (id, .call (.allocate c))
  | assign id c => some (id, .errand c)
  | serve id c => c.work?.map (id, ·)
  | _ => none

/-- **What the next move of an operation settles.** -/
def Operation.settles (s : Station) (operation : Operation) : List (String × Settled) :=
  operation.work?.elim [] fun x => s.settlesAt x.1 fun source => x.2.settles s.world.ambient source.desk

/-- **What the next move of a task settles.** -/
def Station.settles (id : String) (handle : Nat) (s : Station) : List (String × Settled) :=
  s.settlesAt id (·.settles handle s.world)

/-- One move of a request at a desk. -/
theorem Serving.counted_of_step {serving : Serving} {m : Move Serving HttpReply} {a a' : Ambient} {s s' : HttpSource}
    (h : serving.step a s = some (m, a', s')) : s.desk.Counted s'.desk (Work.settlesAny a s.desk serving.work?) := by
  cases serving with
  | arriving request =>
    rw [step] at h
    split at h <;> · cases h; exact .refl _
  | queued request acquire =>
    rw [step] at h
    split at h
    · cases h
    · cases h
      exact .refl _
    · cases h
      exact .refl _
  | submitting submission =>
    rw [step] at h
    split at h
    · cases h
    next hstep =>
      cases h
      exact Work.counted_of_submission hstep
    next hstep =>
      cases h
      exact Work.counted_of_submission hstep

theorem Serving.counted_drop (serving : Serving) (s : HttpSource) : s.desk.Counted (serving.drop s).desk [] := by
  cases serving with
  | submitting submission => exact submission.counted_drop s.desk
  | _ => exact .refl _

namespace Station

variable {s s' : Station} {id : String}

theorem settlesAt_eq {source : Source} (h : s.source? id = some source) (f : Source → List Settled) :
    s.settlesAt id f = (f source).map (id, ·) := by
  rw [settlesAt, h]
  rfl

/-- A desk changes without anything being settled. -/
theorem counted_modifyDesk (f : Desk → Desk) {settled : List Settled} (hf : ∀ d : Desk, d.Counted (f d) settled)
    (id : String) (s : Station) : s.processor.Counted (s.modifyDesk id f).processor (settled.map (id, ·)) := by
  refine .modify (f := fun source => source.setDesk (f source.desk)) rfl fun source _ => ?_
  rw [Source.desk_setDesk]
  exact hf source.desk

theorem counted_dropLease (id label : String) (s : Station) :
    s.processor.Counted (s.dropLease id label).processor [] := by
  rw [dropLease]
  split
  next worker _ =>
    have hreleased : s.processor.Counted (s.modifyDesk id (·.release worker)).processor [] :=
      counted_modifyDesk (·.release worker) (fun d => .still rfl rfl) id s
    exact hreleased.trans (.of_sources rfl)
  · exact .refl _

theorem counted_keep (id label : String) (asLease : Bool) (worker : Worker) (s : Station) :
    s.processor.Counted (s.keep id label asLease worker).processor [] := by
  rw [keep]
  split
  · exact (counted_dropLease id label s).trans (.of_sources rfl)
  · exact .refl _

/-- One move of a call at a desk. -/
theorem counted_of_desk {μ ρ : Type} {m : Move Operation Answer}
    (f : Ambient → Desk → Option (Move μ ρ × Ambient × Desk)) (goes : μ → Operation) (ends : ρ → Answer) {work : Work}
    (hf : ∀ {a d m a' d'}, f a d = some (m, a', d') → d.Counted d' (work.settles a d))
    (h : ((s.source? id).bind fun source => (f s.world.ambient source.desk).map fun (m, ambient, desk) =>
      let s : Station :=
        { s with world := { s.world with ambient }
                 processor := s.processor.setSource id (source.setDesk desk) }
      match m with
      | .goes next => (.goes (goes next), s)
      | .ends result => (.ends (ends result), s)) = some (m, s')) :
    s.processor.Counted s'.processor (s.settlesAt id fun source => work.settles s.world.ambient source.desk) := by
  obtain ⟨source, hsource, hmap⟩ := Option.bind_eq_some_iff.mp h
  obtain ⟨⟨m₁, a₁, d₁⟩, hstep, heq⟩ := Option.map_eq_some_iff.mp hmap
  have hcounted : s.processor.Counted (s.processor.setSource id (source.setDesk d₁)) _ :=
    .setSource hsource ((Source.desk_setDesk d₁ source).symm ▸ hf hstep)
  rw [settlesAt_eq hsource]
  cases m₁ <;> · cases heq; exact hcounted

/-- One move of a driver. -/
theorem counted_of_driver {μ ρ : Type} {m : Move Operation Answer}
    (f : World → PollDriver → Option (Move μ ρ × World × PollDriver)) (goes : μ → Operation) (ends : ρ → Answer)
    (h : (match s.source? id with
      | some (.poll source) =>
        (f s.world source.driver).map fun (m, world, driver) =>
          let s := { s with world, processor := s.processor.setSource id (.poll { source with driver }) }
          match m with
          | .goes next => (.goes (goes next), s)
          | .ends result => (.ends (ends result), s)
      | _ => none) = some (m, s')) : s.processor.Counted s'.processor [] := by
  split at h
  next source hsource =>
    obtain ⟨⟨m₁, w₁, driver⟩, hstep, heq⟩ := Option.map_eq_some_iff.mp h
    have hcounted : s.processor.Counted (s.processor.setSource id (.poll { source with driver })) [] :=
      .setSource_still hsource (.refl _)
    cases m₁ <;> · cases heq; exact hcounted
  · cases h

/-- **One move of an operation** adds what it settles. -/
theorem counted_of_step {operation : Operation} {m : Move Operation Answer} (h : s.step operation = some (m, s')) :
    s.processor.Counted s'.processor (operation.settles s) := by
  cases operation with
  | run call =>
    obtain ⟨⟨m₁, w₁, p₁⟩, hstep, heq⟩ := Option.map_eq_some_iff.mp h
    have hcounted := ProcessorCall.counted_of_step hstep
    cases m₁ <;> · cases heq; exact hcounted
  | stop id call =>
    obtain ⟨source, hsource, hmap⟩ := Option.bind_eq_some_iff.mp h
    obtain ⟨⟨m₁, w₁, source₁⟩, hstep, heq⟩ := Option.map_eq_some_iff.mp hmap
    have hcounted := Processor.Counted.setSource_still hsource (Source.counted_of_stepStop hstep)
    cases m₁ <;> · cases heq; exact hcounted
  | submit id call => exact counted_of_desk _ _ _ Work.counted_of_submission h
  | batch id call => exact counted_of_desk _ _ _ Work.counted_of_batch h
  | assign id call => exact counted_of_desk _ _ _ Work.counted_of_assignment h
  | allocate id label asLease call =>
    obtain ⟨⟨m₁, s₁⟩, hdesk, heq⟩ := Option.map_eq_some_iff.mp h
    have hcounted : s.processor.Counted s₁.processor ((Operation.allocate id label asLease call).settles s) := by
      refine counted_of_desk
        (fun a d => (call.step a d).map fun x : Move Acquire (Except Error Worker) × Desk => (x.1, a, x.2))
        (.allocate id label asLease) .allocated (fun hf => ?_) hdesk
      obtain ⟨⟨m₂, d₂⟩, hacquire, heq₂⟩ := Option.map_eq_some_iff.mp hf
      cases heq₂
      exact Work.counted_of_allocation hacquire
    dsimp only at heq
    split at heq
    next worker =>
      cases heq
      have hkept := hcounted.trans (counted_keep id label asLease worker s₁)
      rwa [List.append_nil] at hkept
    · cases heq
      exact hcounted
  | serve id call =>
    simp only [step] at h
    split at h
    next source hsource =>
      obtain ⟨⟨m₁, a₁, source₁⟩, hstep, heq⟩ := Option.map_eq_some_iff.mp h
      have hcounted : s.processor.Counted (s.processor.setSource id (.http source₁)) _ :=
        .setSource hsource (Serving.counted_of_step hstep)
      have hsettles : (Operation.serve id call).settles s =
          (Work.settlesAny s.world.ambient source.desk call.work?).map (id, ·) := by
        rw [Operation.settles, Operation.work?]
        cases call.work? with
        | none => rfl
        | some work => exact settlesAt_eq hsource _
      rw [hsettles]
      cases m₁ <;> · cases heq; exact hcounted
    · cases h
  | collect id call => exact counted_of_driver (fun w d => call.step w d) (.collect id) .collected h
  | wrapUp id call => exact counted_of_driver (fun w d => call.step w d) (.wrapUp id) (fun _ => .wrappedUp) h
  | receive call =>
    obtain ⟨⟨m₁, broker⟩, hstep, heq⟩ := Option.map_eq_some_iff.mp h
    cases m₁ <;> · cases heq; exact .refl _

/-- **One move of a task** adds what it settles. -/
theorem counted_of_stepTask {handle : Nat} (h : system.stepTask (id, handle) s = some s') :
    s.processor.Counted s'.processor (s.settles id handle) := by
  obtain ⟨source, hsource, hmap⟩ := Option.bind_eq_some_iff.mp h
  obtain ⟨⟨w₁, source₁⟩, hstep, heq⟩ := Option.map_eq_some_iff.mp hmap
  cases heq
  rw [settles, settlesAt_eq hsource]
  exact .setSource hsource (Source.counted_of_stepTask hstep)

/-- Starting a source by itself settles nothing. -/
theorem counted_of_startSource {token : Option String} {result : Except Error Unit}
    (h : s.startSource id token = some (result, s')) : s.processor.Counted s'.processor [] := by
  obtain ⟨source, hsource, heq⟩ := Option.map_eq_some_iff.mp h
  cases heq
  exact .setSource_still hsource (Source.counted_of_start rfl)

/-- Neither does giving an operation up. -/
theorem counted_drop (operation : Operation) (s : Station) :
    s.processor.Counted (s.drop operation).processor [] := by
  cases operation with
  | submit id call => exact counted_modifyDesk call.drop call.counted_drop id s
  | batch id call => exact counted_modifyDesk call.drop call.counted_drop id s
  | allocate id label asLease call =>
    exact counted_modifyDesk (·.dropAcquire call) (fun d => .still rfl rfl) id s
  | serve id call =>
    rw [drop]
    split
    next source hsource => exact .setSource_still hsource (call.counted_drop source)
    · exact .refl _
  | _ => exact .refl _

end Station

/-! ### Counters as numbers -/

/-- The greatest number that a counter holds. -/
def widest : ℕ := 2 ^ 64 - 1

/-- A counter with room for it goes up by what is added. -/
theorem toNat_add_ofNat {c : UInt64} {n : ℕ} (h : c.toNat + n ≤ widest) : (c + .ofNat n).toNat = c.toNat + n := by
  unfold widest at h
  rw [UInt64.toNat_add, UInt64.toNat_ofNat', Nat.add_mod_mod]
  exact Nat.mod_eq_of_lt (by omega)

theorem toNat_sinceCount (c b : UInt64) : (sinceCount c b).toNat = c.toNat - b.toNat := by
  rw [sinceCount]
  split
  next hle => exact UInt64.toNat_sub_of_le _ _ hle
  next hlt =>
    have hle : c.toNat ≤ b.toNat := (UInt64.lt_iff_toNat_lt.mp (UInt64.not_le.mp hlt)).le
    rw [Nat.sub_eq_zero_of_le hle]
    rfl

namespace SourceCounts

theorem amounts_plus {c : SourceCounts} {n : ℕ × ℕ × ℕ} (h : c.amounts + n ≤ (widest, widest, widest)) :
    (c.plus n).amounts = c.amounts + n := by
  obtain ⟨hs, hf, ha⟩ := h
  exact Prod.ext (toNat_add_ofNat hs) (Prod.ext (toNat_add_ofNat hf) (toNat_add_ofNat ha))

/-- The difference of counters is that of the numbers that they hold. -/
theorem amounts_diff (c b : SourceCounts) : (c.diff b).amounts = c.amounts - b.amounts :=
  Prod.ext (toNat_sinceCount ..) (Prod.ext (toNat_sinceCount ..) (toNat_sinceCount ..))

/-- While there is room, counters only go up, and a difference is what was added. -/
theorem diff_plus {c : SourceCounts} {n m : ℕ × ℕ × ℕ} (h : c.amounts + (n + m) ≤ (widest, widest, widest)) :
    (c.plus n).amounts ≤ (c.plus (n + m)).amounts ∧ ((c.plus (n + m)).diff (c.plus n)).amounts = m := by
  rw [amounts_diff, amounts_plus h]
  rw [← add_assoc] at h ⊢
  rw [amounts_plus (le_self_add.trans h)]
  exact ⟨le_self_add, add_tsub_cancel_left _ _⟩

end SourceCounts

namespace WorkerCounts

theorem amounts_plus {c : WorkerCounts} {n : ℕ × ℕ × ℕ × ℕ} (h : c.amounts + n ≤ (widest, widest, widest, widest)) :
    (c.plus n).amounts = c.amounts + n := by
  obtain ⟨hs, hf, hm, hc⟩ := h
  exact Prod.ext (toNat_add_ofNat hs)
    (Prod.ext (toNat_add_ofNat hf) (Prod.ext (toNat_add_ofNat hm) (toNat_add_ofNat hc)))

theorem amounts_diff (c b : WorkerCounts) : (c.diff b).amounts = c.amounts - b.amounts :=
  Prod.ext (toNat_sinceCount ..)
    (Prod.ext (toNat_sinceCount ..) (Prod.ext (toNat_sinceCount ..) (toNat_sinceCount ..)))

/-- While there is room, counters only go up, and a difference is what was added. -/
theorem diff_plus {c : WorkerCounts} {n m : ℕ × ℕ × ℕ × ℕ}
    (h : c.amounts + (n + m) ≤ (widest, widest, widest, widest)) :
    (c.plus n).amounts ≤ (c.plus (n + m)).amounts ∧ ((c.plus (n + m)).diff (c.plus n)).amounts = m := by
  rw [amounts_diff, amounts_plus h]
  rw [← add_assoc] at h ⊢
  rw [amounts_plus (le_self_add.trans h)]
  exact ⟨le_self_add, add_tsub_cancel_left _ _⟩

end WorkerCounts

/-! ### Looks -/

/-- What a processor tells at an instant: the counters of its sources, and those of their workers. -/
structure Look where
  sources : Keyed SourceCounts
  workers : Keyed (List WorkerCounts)
  /-- How much had been settled by then. -/
  seen : ℕ

/-- A look at a processor. -/
def Processor.look (seen : ℕ) (p : Processor) : Look :=
  ⟨p.statistics, p.sources.mapValues Source.workerCounts, seen⟩

namespace Look

/-- The counters of one worker of a source. -/
def worker? (id : String) (i : ℕ) (l : Look) : Option WorkerCounts := (l.workers.get? id).bind (·[i]?)

/-- What was settled between two looks, at one source. -/
def between (log : List (String × Settled)) (id : String) (earlier later : Look) : List Settled :=
  Settled.atSource id ((log.take later.seen).drop earlier.seen)

/-- What the difference of two looks tells of a source. -/
def gain (id : String) (earlier later : Look) : ℕ × ℕ × ℕ :=
  ((diffBySource later.sources earlier.sources).get? id).elim 0 SourceCounts.amounts

/-- What the difference of two looks tells of a worker. -/
def workerGain (id : String) (i : ℕ) (earlier later : Look) : ℕ × ℕ × ℕ × ℕ :=
  match later.worker? id i, earlier.worker? id i with
  | some c, some b => (c.diff b).amounts
  | _, _ => 0

/-- **Two looks tell what happened between them**: they tell of the same sources and workers, no counter was ahead
before, and each difference is what was settled in between. -/
structure Tells (log : List (String × Settled)) (earlier later : Look) : Prop where
  sources : ∀ id, Option.Rel (fun b c => b.amounts ≤ c.amounts ∧
      (diffBySource later.sources earlier.sources).get? id = some (c.diff b) ∧
      (c.diff b).amounts = Settled.sourceTotal (between log id earlier later))
    (earlier.sources.get? id) (later.sources.get? id)
  workers : ∀ id i, Option.Rel (fun b c => b.amounts ≤ c.amounts ∧
      (c.diff b).amounts = Settled.workerTotal i (between log id earlier later))
    (earlier.worker? id i) (later.worker? id i)

end Look

/-- No counter passes the greatest number that it holds: what it held before and what was added since. -/
structure Processor.HasRoom (before : Processor) (log : List (String × Settled)) : Prop where
  sources : ∀ {id source}, before.sources.get? id = some source →
    source.counts.amounts + Settled.sourceTotal (Settled.atSource id log) ≤ (widest, widest, widest)
  workers : ∀ {id source i c}, before.sources.get? id = some source → source.workerCounts[i]? = some c →
    c.amounts + Settled.workerTotal i (Settled.atSource id log) ≤ (widest, widest, widest, widest)

/-! ### The setting -/

/-- A processor with calls that go on at it, what was settled, and the looks that were taken. -/
structure Metering where
  station : Station
  operations : List Operation
  /-- All that was settled and at which source, the latest last. -/
  log : List (String × Settled)
  /-- The looks that were taken, the latest last. -/
  looks : List Look

namespace Metering

/-- Nothing goes on, and nothing was settled. -/
def opened (station : Station) : Metering := ⟨station, [], [], []⟩

/-- Something happened to the processor, and this was settled. -/
def after (station : Station) (operations : List Operation) (settled : List (String × Settled)) (s : Metering) :
    Metering := { s with station, operations, log := s.log ++ settled }

/-- One move of anybody. -/
inductive Step : Metering → Metering → Prop
  /-- A call is made. -/
  | opens (s : Metering) (operation : Operation) : Step s { s with operations := operation :: s.operations }
  /-- A call moves or returns. -/
  | moves (s : Metering) (pre post : List Operation) {operation : Operation} {m : Move Operation Answer}
      {station : Station} (h : s.operations = pre ++ operation :: post)
      (hs : s.station.step operation = some (m, station)) :
      Step s (s.after station (pre ++ (m.next?.toList ++ post)) (operation.settles s.station))
  /-- A call is given up. -/
  | drops (s : Metering) (pre post : List Operation) {operation : Operation}
      (h : s.operations = pre ++ operation :: post) :
      Step s (s.after (s.station.drop operation) (pre ++ post) [])
  /-- A task of a source moves or ends. -/
  | works (s : Metering) (id : String) (handle : Nat) {station : Station}
      (hs : Station.system.stepTask (id, handle) s.station = some station) :
      Step s (s.after station s.operations (s.station.settles id handle))
  /-- A source is started by itself. -/
  | starts (s : Metering) (id : String) (token : Option String) {result : Except Error Unit} {station : Station}
      (hs : s.station.startSource id token = some (result, station)) : Step s (s.after station s.operations [])
  /-- A worker is given back. -/
  | releases (s : Metering) (id : String) (worker : Worker) :
      Step s (s.after (s.station.modifyDesk id (·.release worker)) s.operations [])
  /-- A lease is dropped. -/
  | forgoes (s : Metering) (id label : String) : Step s (s.after (s.station.dropLease id label) s.operations [])
  /-- Time passes, and anything else happens around the processor. -/
  | passes (s : Metering) (world : World) : Step s (s.after { s.station with world } s.operations [])
  /-- It is told how long a run took. -/
  | times (s : Metering) (id : String) (worker : Worker) (micros : ℕ) :
      Step s (s.after (s.station.modifyDesk id (·.addTime worker micros)) s.operations [(id, .took worker micros)])
  /-- Somebody looks at the counters. -/
  | looks (s : Metering) : Step s { s with looks := s.looks ++ [s.station.processor.look s.log.length] }

/-- **The law.** Any two looks tell what happened between them, and the differences of each look and the next add up to
that of the first and the last. -/
structure Metered (s : Metering) : Prop where
  tells : s.looks.Pairwise (Look.Tells s.log)
  sources : ∀ {first last}, s.looks.head? = some first → s.looks.getLast? = some last → ∀ id,
    (List.zipWith (Look.gain id) s.looks s.looks.tail).sum = Look.gain id first last
  workers : ∀ {first last}, s.looks.head? = some first → s.looks.getLast? = some last → ∀ id i,
    (List.zipWith (Look.workerGain id i) s.looks s.looks.tail).sum = Look.workerGain id i first last

end Metering

/-! ### Two looks -/

theorem get?_diffBySource (current previous : Keyed SourceCounts) (id : String) :
    (diffBySource current previous).get? id =
      (current.get? id).map fun c => (previous.get? id).elim c c.diff := by
  induction current with
  | nil => rfl
  | cons entry rest ih =>
    obtain ⟨k, c⟩ := entry
    have hstep : diffBySource ((k, c) :: rest) previous = (k, _) :: diffBySource rest previous := rfl
    rw [hstep, Keyed.get?, ih, Keyed.get?]
    by_cases heq : id = k
    · rw [if_pos heq, if_pos heq, heq]
      cases previous.get? k <;> rfl
    · rw [if_neg heq, if_neg heq]

/-- There was room for what was settled first. -/
theorem Processor.HasRoom.take {before : Processor} {log : List (String × Settled)} (h : before.HasRoom log) (n : ℕ) :
    before.HasRoom (log.take n) where
  sources {id source} hsource := by
    refine le_trans ?_ (h.sources hsource)
    nth_rewrite 2 [← List.take_append_drop n log]
    rw [Settled.atSource_append, Settled.sourceTotal_append, ← add_assoc]
    exact le_self_add
  workers {id source i c} hsource hc := by
    refine le_trans ?_ (h.workers hsource hc)
    nth_rewrite 2 [← List.take_append_drop n log]
    rw [Settled.atSource_append, Settled.workerTotal_append, ← add_assoc]
    exact le_self_add

namespace Look

variable {log : List (String × Settled)} {before p p' : Processor} {n m : ℕ}

theorem get?_look (seen : ℕ) (p : Processor) (id : String) :
    (p.look seen).sources.get? id = (p.sources.get? id).map Source.counts := Keyed.get?_mapValues ..

theorem worker?_look (seen : ℕ) (p : Processor) (id : String) (i : ℕ) :
    (p.look seen).worker? id i = (p.sources.get? id).bind (·.workerCounts[i]?) := by
  rw [worker?, Processor.look, Keyed.get?_mapValues]
  cases p.sources.get? id <;> rfl

/-- What was settled up to the later look is what was settled up to the earlier one, and in between. -/
theorem atSource_take {earlier later : Look} (h : earlier.seen ≤ later.seen) (id : String) :
    Settled.atSource id (log.take later.seen) =
      Settled.atSource id (log.take earlier.seen) ++ between log id earlier later := by
  have hsplit : log.take earlier.seen = (log.take later.seen).take earlier.seen := by
    rw [List.take_take, min_eq_left h]
  rw [hsplit, between, ← Settled.atSource_append, List.take_append_drop]

/-- **Two looks at a processor** tell what happened between them, while there is room. -/
theorem tells_of_counted (hle : n ≤ m) (h : before.Counted p (log.take n)) (h' : before.Counted p' (log.take m))
    (hroom : before.HasRoom log) : Tells log (p.look n) (p'.look m) := by
  have htake := @atSource_take log (p.look n) (p'.look m) hle
  change ∀ id, Settled.atSource id (log.take m) = Settled.atSource id (log.take n) ++ _ at htake
  have hroom' := hroom.take m
  constructor
  · intro id
    have hboth := h.both h' id
    rw [get?_look, get?_look]
    generalize hs : p.sources.get? id = b, hs' : p'.sources.get? id = c at hboth ⊢
    cases hboth with
    | none => exact .none
    | @some source source' hcounted =>
      obtain ⟨source₀, hs₀, hcounted, hcounted'⟩ := hcounted
      have hfits := hroom'.sources hs₀
      rw [htake, Settled.sourceTotal_append] at hfits
      obtain ⟨hup, hdiff⟩ := SourceCounts.diff_plus hfits
      have hcounts : source.counts = source₀.counts.plus _ := hcounted.source
      have hcounts' : source'.counts = source₀.counts.plus _ := hcounted'.source
      rw [htake, Settled.sourceTotal_append] at hcounts'
      rw [← hcounts, ← hcounts'] at hup hdiff
      refine .some ⟨hup, ?_, hdiff⟩
      rw [get?_diffBySource, get?_look, get?_look, hs, hs']
      rfl
  · intro id i
    have hboth := h.both h' id
    rw [worker?_look, worker?_look]
    generalize p.sources.get? id = b, p'.sources.get? id = c at hboth ⊢
    cases hboth with
    | none => exact .none
    | @some source source' hcounted =>
      obtain ⟨source₀, hs₀, hcounted, hcounted'⟩ := hcounted
      have hcounts : source.workerCounts[i]? = _ := hcounted.workers i
      have hcounts' : source'.workerCounts[i]? = _ := hcounted'.workers i
      rw [htake, Settled.workerTotal_append] at hcounts'
      change Option.Rel _ source.workerCounts[i]? source'.workerCounts[i]?
      rw [hcounts, hcounts']
      cases hc : source₀.desk.crew.counts[i]? with
      | none => exact .none
      | some c =>
        have hfits := hroom'.workers hs₀ hc
        rw [htake, Settled.workerTotal_append] at hfits
        exact .some (WorkerCounts.diff_plus hfits)

end Look

/-! ### Many looks -/

/-- Where each gain is the way from one value to the next, all gains together are the way from the first to the
last. -/
theorem add_sum_gains {α M : Type} [AddMonoid M] {value : α → M} {gain : α → α → M} {first : α} {rest : List α}
    (h : (first :: rest).Pairwise fun a b => value a + gain a b = value b) :
    value first + (List.zipWith gain (first :: rest) rest).sum = value ((first :: rest).getLast (by simp)) := by
  induction rest generalizing first with
  | nil => simp
  | cons second rest ih =>
    obtain ⟨hfirst, hrest⟩ := List.pairwise_cons.mp h
    rw [List.zipWith_cons_cons, List.sum_cons, ← add_assoc, hfirst second List.mem_cons_self, ih hrest,
      List.getLast_cons (List.cons_ne_nil _ _)]

namespace Look

variable {log : List (String × Settled)} {earlier later : Look}

/-- The counters of a source, as numbers. -/
def amounts (id : String) (l : Look) : ℕ × ℕ × ℕ := (l.sources.get? id).elim 0 SourceCounts.amounts

/-- The counters of a worker, as numbers. -/
def workerAmounts (id : String) (i : ℕ) (l : Look) : ℕ × ℕ × ℕ × ℕ := (l.worker? id i).elim 0 WorkerCounts.amounts

theorem Tells.amounts_add_gain (h : Tells log earlier later) (id : String) :
    earlier.amounts id + gain id earlier later = later.amounts id := by
  have hid := h.sources id
  rw [amounts, amounts, gain]
  generalize hb : earlier.sources.get? id = b, hc : later.sources.get? id = c at hid ⊢
  cases hid with
  | none =>
    rw [get?_diffBySource, hc]
    rfl
  | some htells =>
    obtain ⟨hup, hdiff, -⟩ := htells
    rw [hdiff]
    change SourceCounts.amounts _ + SourceCounts.amounts (SourceCounts.diff _ _) = SourceCounts.amounts _
    rw [SourceCounts.amounts_diff, add_tsub_cancel_of_le hup]

theorem Tells.workerAmounts_add_gain (h : Tells log earlier later) (id : String) (i : ℕ) :
    earlier.workerAmounts id i + workerGain id i earlier later = later.workerAmounts id i := by
  have hid := h.workers id i
  rw [workerAmounts, workerAmounts, workerGain]
  generalize earlier.worker? id i = b, later.worker? id i = c at hid ⊢
  cases hid with
  | none => rfl
  | some htells =>
    obtain ⟨hup, -⟩ := htells
    change WorkerCounts.amounts _ + WorkerCounts.amounts (WorkerCounts.diff _ _) = WorkerCounts.amounts _
    rw [WorkerCounts.amounts_diff, add_tsub_cancel_of_le hup]

/-- Nothing happens between a look and itself. -/
theorem gain_self (id : String) (l : Look) : gain id l l = 0 := by
  rw [gain, get?_diffBySource]
  cases l.sources.get? id with
  | none => rfl
  | some c =>
    change (c.diff c).amounts = 0
    rw [SourceCounts.amounts_diff, tsub_self]

theorem workerGain_self (id : String) (i : ℕ) (l : Look) : workerGain id i l l = 0 := by
  rw [workerGain]
  cases l.worker? id i with
  | none => rfl
  | some c =>
    change (c.diff c).amounts = 0
    rw [WorkerCounts.amounts_diff, tsub_self]

end Look

/-- And so they are the gain from the first to the last, if there is none from anything to itself. -/
theorem sum_gains {α M : Type} [AddMonoid M] [IsLeftCancelAdd M] {value : α → M} {gain : α → α → M} {l : List α}
    (h : l.Pairwise fun a b => value a + gain a b = value b) (hself : ∀ a, gain a a = 0) {first last : α}
    (hfirst : l.head? = some first) (hlast : l.getLast? = some last) :
    (List.zipWith gain l l.tail).sum = gain first last := by
  obtain ⟨rest, rfl⟩ := List.head?_eq_some_iff.mp hfirst
  rw [List.getLast?_eq_some_getLast (List.cons_ne_nil _ _), Option.some.injEq] at hlast
  have hsum := add_sum_gains h
  have hgain : value first + gain first last = value last := by
    cases rest with
    | nil => rw [← hlast, List.getLast_singleton, hself, add_zero]
    | cons second rest =>
      have hmem : last ∈ second :: rest := by
        rw [← hlast, List.getLast_cons (List.cons_ne_nil _ _)]
        exact List.getLast_mem _
      exact List.rel_of_pairwise_cons h hmem
  rw [hlast, ← hgain] at hsum
  exact add_left_cancel hsum

namespace Metering

variable {before : Processor} {s s' : Metering}

/-- What holds at any time: the counters are ahead by what was settled, and were so at each look. -/
structure Sound (before : Processor) (s : Metering) : Prop where
  current : before.Counted s.station.processor s.log
  taken : ∀ l ∈ s.looks, l.seen ≤ s.log.length ∧ ∃ p, before.Counted p (s.log.take l.seen) ∧ l = p.look l.seen
  order : s.looks.Pairwise fun earlier later => earlier.seen ≤ later.seen

theorem sound_opened (station : Station) : Sound station.processor (opened station) :=
  ⟨.refl _, fun _ hl => absurd hl List.not_mem_nil, .nil⟩

/-- Something happens to the processor. -/
theorem Sound.after (h : Sound before s) {station : Station} {settled : List (String × Settled)}
    (hcounted : s.station.processor.Counted station.processor settled) (operations : List Operation) :
    Sound before (s.after station operations settled) where
  current := h.current.trans hcounted
  taken l hl := by
    obtain ⟨hseen, p, hp, heq⟩ := h.taken l hl
    have htake : (s.log ++ settled).take l.seen = s.log.take l.seen := List.take_append_of_le_length hseen
    refine ⟨hseen.trans ?_, p, ?_, heq⟩
    · exact List.length_append ▸ Nat.le_add_right _ _
    · change before.Counted p ((s.log ++ settled).take l.seen)
      rwa [htake]
  order := h.order

/-- Somebody looks. -/
theorem Sound.look (h : Sound before s) :
    Sound before { s with looks := s.looks ++ [s.station.processor.look s.log.length] } where
  current := h.current
  taken l hl := by
    rcases List.mem_append.mp hl with hold | hnew
    · exact h.taken l hold
    · obtain rfl := List.mem_singleton.mp hnew
      refine ⟨le_rfl, s.station.processor, ?_, rfl⟩
      change before.Counted s.station.processor (s.log.take s.log.length)
      rw [List.take_length]
      exact h.current
  order := by
    rw [List.pairwise_append]
    refine ⟨h.order, List.pairwise_singleton _ _, fun l hl l' hl' => ?_⟩
    obtain rfl := List.mem_singleton.mp hl'
    exact (h.taken l hl).1

/-- **One move of anybody.** -/
theorem Sound.step (h : Sound before s) (hs : Step s s') : Sound before s' := by
  cases hs with
  | opens operation => exact ⟨h.current, h.taken, h.order⟩
  | moves pre post hops hstep => exact h.after (Station.counted_of_step hstep) _
  | drops pre post hops => exact h.after (Station.counted_drop _ _) _
  | works id handle hstep => exact h.after (Station.counted_of_stepTask hstep) _
  | starts id token hstart => exact h.after (Station.counted_of_startSource hstart) _
  | releases id worker =>
    exact h.after (Station.counted_modifyDesk (·.release worker) (fun d => .still rfl rfl) id s.station) _
  | forgoes id label => exact h.after (Station.counted_dropLease id label s.station) _
  | passes world => exact @Sound.after before s h { s.station with world } [] (.refl _) _
  | times id worker micros =>
    exact h.after (Station.counted_modifyDesk (·.addTime worker micros) (fun d => .addTime d worker micros) id _) _
  | looks => exact h.look

theorem Sound.of_reachable (h : Sound before s) (hr : Relation.ReflTransGen Step s s') : Sound before s' := by
  induction hr with
  | refl => exact h
  | tail _ hs ih => exact ih.step hs

theorem Sound.metered (h : Sound before s) (hroom : before.HasRoom s.log) : Metered s := by
  have htells : s.looks.Pairwise (Look.Tells s.log) := by
    refine h.order.imp_of_mem fun {earlier later} hearlier hlater hle => ?_
    obtain ⟨-, p, hp, heq⟩ := h.taken earlier hearlier
    obtain ⟨-, p', hp', heq'⟩ := h.taken later hlater
    rw [heq, heq']
    exact Look.tells_of_counted hle hp hp' hroom
  refine ⟨htells, fun hfirst hlast id => ?_, fun hfirst hlast id i => ?_⟩
  · exact sum_gains (htells.imp (·.amounts_add_gain id)) (Look.gain_self id) hfirst hlast
  · exact sum_gains (htells.imp (·.workerAmounts_add_gain id i)) (Look.workerGain_self id i) hfirst hlast

/-- **Differences of looks tell what happened.** Whatever happens at a processor, as long as no counter runs out of
room: of any two looks that are taken, the later is nowhere behind, and their difference counts for each source, and for
each of its workers, what was settled in between; and the differences of each look and the next add up to that of the
first and the last. -/
theorem metered_of_reachable {station : Station} (hr : Relation.ReflTransGen Step (opened station) s)
    (hroom : station.processor.HasRoom s.log) : Metered s :=
  ((sound_opened station).of_reachable hr).metered hroom

/-- Something that is done at a processor on purpose. -/
inductive Turn where
  | opens (operation : Operation)
  /-- The call at a place of the list moves. -/
  | moves (place : ℕ)
  | times (id : String) (worker : Worker) (micros : ℕ)
  | looks

/-- Turns are taken one after another. -/
def played : List Turn → Metering → Option Metering
  | [], s => some s
  | .opens operation :: turns, s => played turns { s with operations := operation :: s.operations }
  | .moves place :: turns, s =>
    s.operations[place]?.bind fun operation =>
      (s.station.step operation).bind fun x =>
        played turns (s.after x.2 (s.operations.take place ++ (x.1.next?.toList ++ s.operations.drop (place + 1)))
          (operation.settles s.station))
  | .times id worker micros :: turns, s =>
    played turns (s.after (s.station.modifyDesk id (·.addTime worker micros)) s.operations [(id, .took worker micros)])
  | .looks :: turns, s => played turns { s with looks := s.looks ++ [s.station.processor.look s.log.length] }

theorem reachable_of_played {turns : List Turn} (h : played turns s = some s') : Relation.ReflTransGen Step s s' := by
  induction turns generalizing s with
  | nil =>
    rw [played, Option.some.injEq] at h
    rw [h]
  | cons turn turns ih =>
    cases turn with
    | opens operation => exact (ih h).head (.opens s operation)
    | moves place =>
      obtain ⟨operation, hop, hrest⟩ := Option.bind_eq_some_iff.mp h
      obtain ⟨⟨m, station⟩, hstep, hplayed⟩ := Option.bind_eq_some_iff.mp hrest
      obtain ⟨hplace, rfl⟩ := List.getElem?_eq_some_iff.mp hop
      have hsplit : s.operations = s.operations.take place ++ s.operations[place] :: s.operations.drop (place + 1) := by
        rw [← List.drop_eq_getElem_cons hplace, List.take_append_drop]
      exact (ih hplayed).head (.moves s _ _ hsplit hstep)
    | times id worker micros => exact (ih h).head (.times s id worker micros)
    | looks => exact (ih h).head (.looks s)

/-- A processor with one source, which has one worker. -/
def oneWorker : Station :=
  .ofSource (.start ⟨0, 0⟩ .echo) (.probe ⟨.new ⟨"t", "probe", .async⟩ (.ofIndices .shared [0]), []⟩)

/-- An event is submitted, and another one, which does not wait for the worker; then the first is handled. Somebody
looks before, in between, and after. -/
def twoSubmissions : List Turn :=
  [.looks, .opens (.submit "t" (.ready (.blank ⟨0, 0⟩) none)), .moves 0, .moves 0,
    .opens (.submit "t" (.ready (.blank ⟨0, 0⟩) (some 0))), .moves 0, .moves 0, .moves 0, .looks,
    .moves 0, .times "t" ⟨0, 0, 0⟩ 5, .looks]

/-- Of two submissions, the one that finds no worker is counted in the first interval, and the other in the second. -/
theorem metered_two_submissions : ∃ s, Relation.ReflTransGen Step (opened oneWorker) s ∧
    oneWorker.processor.HasRoom s.log ∧
    List.zipWith (Look.gain "t") s.looks s.looks.tail = [(0, 1, 1), (1, 0, 0)] ∧
    List.zipWith (Look.workerGain "t" 0) s.looks s.looks.tail = [(0, 0, 0, 0), (1, 0, 5, 1)] ∧ Metered s := by
  have hplayed : (played twoSubmissions (opened oneWorker)).map (fun s => decide
      (Settled.sourceTotal (Settled.atSource "t" s.log) = (1, 1, 1) ∧
        Settled.workerTotal 0 (Settled.atSource "t" s.log) = (1, 0, 5, 1) ∧
        List.zipWith (Look.gain "t") s.looks s.looks.tail = [(0, 1, 1), (1, 0, 0)] ∧
        List.zipWith (Look.workerGain "t" 0) s.looks s.looks.tail = [(0, 0, 0, 0), (1, 0, 5, 1)])) = some true := by
    decide +kernel
  obtain ⟨s, hs, hview⟩ := Option.map_eq_some_iff.mp hplayed
  obtain ⟨htotal, hworker, hgains, hworkerGains⟩ := of_decide_eq_true hview
  have hr := reachable_of_played hs
  have hone : ∀ {id source}, oneWorker.processor.sources.get? id = some source →
      id = "t" ∧ source.counts = .zero ∧ source.workerCounts = [.zero] := by
    intro id source hsource
    change (if id = "t" then _ else none) = some source at hsource
    split at hsource
    next heq =>
      cases hsource
      exact ⟨heq, rfl, rfl⟩
    · cases hsource
  have hroom : oneWorker.processor.HasRoom s.log := by
    constructor
    · intro id source hsource
      obtain ⟨rfl, hcounts, -⟩ := hone hsource
      rw [htotal, hcounts]
      exact ⟨by decide, by decide, by decide⟩
    · intro id source i c hsource hc
      obtain ⟨rfl, -, hcounts⟩ := hone hsource
      rw [hcounts, List.getElem?_singleton] at hc
      split at hc
      next hi =>
        cases hc
        rw [hi, hworker]
        exact ⟨by decide, by decide, by decide, by decide⟩
      · cases hc
  exact ⟨s, hr, hroom, hgains, hworkerGains, metered_of_reachable hr hroom⟩

end Metering

end EventDispatch
