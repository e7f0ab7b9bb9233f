import EventDispatch.Proofs.Leases
import Mathlib.Data.List.Perm.Subperm
import Mathlib.Order.Nat

/-!
# Workers released twice

Who obtains a worker from a crew is expected to release it once. One who keeps the worker at hand may
release it again, and at any later time. The crew refuses a worker that is idle, so the second of two
releases in a row does nothing. It does not know who a worker is with, though: where the worker has been
handed on in between, a repeated release takes it from its new holder, and the next allocation may hand it
out while that holder still has it.

That is the only way in which a worker comes to have two holders. As long as nobody releases a worker
twice it is with the one who obtained it last, until that one releases it.

## Holders

Each allocation that obtains a worker makes a holder, and holders are told apart by number. One who
obtains several workers counts as several holders.

## Main definitions

* `Deed`, `Deed.last?`: what was done to the workers, the latest first.
* `CrewHolders`: a crew, the calls that allocate, and the deeds.
* `CrewHolders.Step`: one move of anybody.
* `CrewHolders.Kept`: the law.

## Main results

* `CrewHolders.Sound.step`: what one move of anybody keeps.
* `CrewHolders.kept_of_reachable`: the law, for every run.
-/

namespace EventDispatch

/-! ### Deeds -/

/-- Something that a holder did to a worker. -/
inductive Deed where
  | obtains (holder : Nat) (worker : Worker)
  | releases (holder : Nat) (worker : Worker)
deriving DecidableEq, Repr

namespace Deed

/-- The worker that it was done to. -/
def worker : Deed → Worker
  | obtains _ worker | releases _ worker => worker

/-- The holder that did it. -/
def holder : Deed → Nat
  | obtains holder _ | releases holder _ => holder

/-- What was done to a worker last. -/
def last? (worker : Worker) (deeds : List Deed) : Option Deed := deeds.find? (·.worker = worker)

/-- The holder has obtained the worker and has not released it yet. -/
def Holds (deeds : List Deed) (holder : Nat) (worker : Worker) : Prop :=
  obtains holder worker ∈ deeds ∧ releases holder worker ∉ deeds

variable {deeds : List Deed} {d : Deed} {holder : Nat} {w : Worker}

theorem last?_cons_self (d : Deed) (deeds : List Deed) : last? d.worker (d :: deeds) = some d := by
  simp [last?]

theorem last?_cons_of_ne (h : d.worker ≠ w) : last? w (d :: deeds) = last? w deeds := by
  simp [last?, h]

theorem worker_of_last? (h : last? w deeds = some d) : d.worker = w := by
  simpa using List.find?_some h

/-- A worker that was obtained was obtained or released last. -/
theorem exists_last? (h : obtains holder w ∈ deeds) : ∃ d, last? w deeds = some d := by
  cases hlast : last? w deeds with
  | some d => exact ⟨d, rfl⟩
  | none => simpa [worker] using List.find?_eq_none.mp hlast _ h

/-- A deed of another holder, or to another worker, leaves a holder what it has. -/
theorem Holds.of_cons (h : Holds (d :: deeds) holder w) (hne : d ≠ obtains holder w) :
    Holds deeds holder w :=
  ⟨(List.mem_cons.mp h.1).resolve_left (Ne.symm hne), fun hm => h.2 (List.mem_cons_of_mem _ hm)⟩

end Deed

/-! ### The moves -/

/-- A crew, the calls that allocate a worker, and what was done so far, the latest first. -/
structure CrewHolders where
  now : Nat
  crew : Crew
  calls : List Acquire
  deeds : List Deed

namespace CrewHolders

open Deed

/-- Nobody has called yet. -/
def quiet (now : Nat) (crew : Crew) : CrewHolders := ⟨now, crew, [], []⟩

/-- One move of anybody. -/
inductive Step : CrewHolders → CrewHolders → Prop
  /-- Somebody calls for a worker, with a limit or without one. -/
  | asks (s : CrewHolders) (limit : Option Nat) : Step s { s with calls := s.calls ++ [.asking limit] }
  /-- A call gets a ticket. -/
  | queues {now : Nat} {crew : Crew} {pre post : List Acquire} {call next : Acquire} {deeds : List Deed}
      {pool : Pool Worker} (hs : call.step now crew.pool = some (.goes next, pool)) :
      Step ⟨now, crew, pre ++ call :: post, deeds⟩ ⟨now, { crew with pool }, pre ++ next :: post, deeds⟩
  /-- A call obtains a worker, for a holder of its own. -/
  | obtains {now : Nat} {crew : Crew} {pre post : List Acquire} {call : Acquire} {deeds : List Deed}
      {worker : Worker} {pool : Pool Worker}
      (hs : call.step now crew.pool = some (.ends (.ok worker), pool)) :
      Step ⟨now, crew, pre ++ call :: post, deeds⟩
        ⟨now, { crew with pool }, pre ++ post, .obtains deeds.length worker :: deeds⟩
  /-- A call fails. -/
  | fails {now : Nat} {crew : Crew} {pre post : List Acquire} {call : Acquire} {deeds : List Deed}
      {e : Error} {pool : Pool Worker} (hs : call.step now crew.pool = some (.ends (.error e), pool)) :
      Step ⟨now, crew, pre ++ call :: post, deeds⟩ ⟨now, { crew with pool }, pre ++ post, deeds⟩
  /-- A call is given up while it waits. -/
  | drops {now : Nat} {crew : Crew} {pre post : List Acquire} {call : Acquire} {deeds : List Deed} :
      Step ⟨now, crew, pre ++ call :: post, deeds⟩
        ⟨now, { crew with pool := call.drop crew.pool }, pre ++ post, deeds⟩
  /-- A holder releases the worker that it has obtained, for the first time or again. -/
  | releases (s : CrewHolders) (holder : Nat) (worker : Worker) (h : .obtains holder worker ∈ s.deeds) :
      Step s { s with crew := s.crew.release worker, deeds := .releases holder worker :: s.deeds }
  /-- Time passes. -/
  | passes (s : CrewHolders) (now : Nat) : Step s { s with now }

/-- **The law.** A worker has two holders only after a holder that had it before has released it again. -/
structure Kept (s : CrewHolders) : Prop where
  /-- A worker that a holder has is idle exactly if another holder has released it last. -/
  idle_iff : ∀ holder worker, Holds s.deeds holder worker →
    (worker ∈ s.crew.pool.idle ↔ ∃ other ≠ holder, last? worker s.deeds = some (.releases other worker))
  /-- If a call obtains a worker that a holder has, another holder has released it last, and one has
  released it twice. -/
  handed : ∀ call ∈ s.calls, ∀ worker pool,
    call.step s.now s.crew.pool = some (.ends (.ok worker), pool) → ∀ holder, Holds s.deeds holder worker →
      (∃ other ≠ holder, last? worker s.deeds = some (.releases other worker)) ∧
        ∃ other, 2 ≤ s.deeds.count (.releases other worker)

end CrewHolders

/-! ### What every move keeps -/

namespace CrewHolders

open Deed

variable {s s' : CrewHolders} {w x : Worker}

/-- The state is in order. -/
structure Sound (s : CrewHolders) : Prop where
  distinct : (s.crew.members.map Worker.serial).Nodup
  balanced : s.crew.pool.Balanced
  capacity : s.crew.pool.capacity = s.crew.members.length
  nodup : s.crew.pool.idle.Nodup
  members : s.crew.pool.idle ⊆ s.crew.members
  /-- The deeds are about members. -/
  about : ∀ d ∈ s.deeds, d.worker ∈ s.crew.members
  /-- The next holder has a new number. -/
  numbered : ∀ d ∈ s.deeds, d.holder < s.deeds.length
  /-- Those are idle that were not obtained last. -/
  idle_iff : ∀ w ∈ s.crew.members, w ∈ s.crew.pool.idle ↔ ∀ holder, last? w s.deeds ≠ some (.obtains holder w)
  /-- Unless somebody has released a worker twice, only the one has it that has obtained it last. -/
  once : ∀ w, (∀ holder, s.deeds.count (.releases holder w) ≤ 1) →
    ∀ holder, Holds s.deeds holder w → last? w s.deeds = some (.obtains holder w)

theorem sound_quiet {now : Nat} {crew : Crew} (h : crew.Fresh) : Sound (quiet now crew) := by
  have hidle : crew.pool.idle = crew.members.reverse := by
    rw [h.full]
    rfl
  refine ⟨h.distinct, ?_, ?_, ?_, fun w hw => ?_, fun d hd => by (cases hd), fun d hd => by (cases hd),
    fun w hw => ?_, fun w _ holder hh => by (cases hh.1)⟩
  · change crew.pool.Balanced
    rw [h.full]
    exact Pool.balanced_full _ _
  · change crew.pool.capacity = _
    rw [h.full]
    rfl
  · change crew.pool.idle.Nodup
    rw [hidle, List.nodup_reverse]
    exact h.distinct.of_map _
  · change w ∈ crew.pool.idle at hw
    rw [hidle, List.mem_reverse] at hw
    exact hw
  · change w ∈ crew.pool.idle ↔ _
    rw [hidle, List.mem_reverse]
    exact ⟨fun _ _ hlast => by (cases hlast), fun _ => hw⟩

/-- A call that does not obtain a worker leaves the idle ones where they are. -/
theorem Sound.of_idle {now now' : Nat} {crew : Crew} {calls calls' : List Acquire} {deeds : List Deed}
    {pool : Pool Worker} (h : Sound ⟨now, crew, calls, deeds⟩) (hb : pool.Balanced)
    (hidle : pool.idle = crew.pool.idle) (hcap : pool.capacity = crew.pool.capacity) :
    Sound ⟨now', { crew with pool }, calls', deeds⟩ where
  distinct := h.distinct
  balanced := hb
  capacity := hcap.trans h.capacity
  nodup := hidle ▸ h.nodup
  members := hidle ▸ h.members
  about := h.about
  numbered := h.numbered
  idle_iff := hidle ▸ h.idle_iff
  once := h.once

/-- A worker is obtained: it was idle, and so nobody has it that has obtained it last. -/
theorem Sound.obtains {now : Nat} {crew : Crew} {calls calls' : List Acquire} {deeds : List Deed}
    {pool : Pool Worker} (h : Sound ⟨now, crew, calls, deeds⟩) (hb : pool.Balanced)
    (hidle : crew.pool.idle = w :: pool.idle) (hcap : pool.capacity = crew.pool.capacity) :
    Sound ⟨now, { crew with pool }, calls', .obtains deeds.length w :: deeds⟩ := by
  obtain ⟨hdistinct, -, hcapacity, hnodup, hmembers, habout, hnumbered, hiff, honce⟩ := h
  simp only at hcapacity hnodup hmembers habout hnumbered hiff honce
  rw [hidle] at hnodup hmembers hiff
  have hmember : w ∈ crew.members := hmembers List.mem_cons_self
  obtain ⟨hout, hnodup⟩ := List.nodup_cons.mp hnodup
  refine ⟨hdistinct, hb, hcap.trans hcapacity, hnodup, fun x hx => hmembers (List.mem_cons_of_mem _ hx),
    fun d hd => ?_, fun d hd => ?_, fun x hx => ?_, fun x hcount holder hholds => ?_⟩
  · rcases List.mem_cons.mp hd with rfl | hd
    · exact hmember
    · exact habout d hd
  · rcases List.mem_cons.mp hd with rfl | hd
    · exact Nat.lt_succ_self _
    · exact (hnumbered d hd).trans (Nat.lt_succ_self _)
  · by_cases heq : w = x
    · subst heq
      exact ⟨fun hm => absurd hm hout, fun hnot => absurd (last?_cons_self _ _) (hnot _)⟩
    · rw [last?_cons_of_ne (d := .obtains _ w) heq, ← hiff x hx, List.mem_cons]
      exact ⟨.inr, fun hm => hm.resolve_left (Ne.symm heq)⟩
  · have hcount' : ∀ i, deeds.count (.releases i x) ≤ 1 := fun i =>
      List.count_le_count_cons.trans (hcount i)
    by_cases heq : w = x
    · subst heq
      by_cases hnew : holder = deeds.length
      · rw [hnew]
        exact last?_cons_self _ _
      · have hold := hholds.of_cons fun heq => hnew (Deed.obtains.inj heq).1.symm
        exact absurd (honce w hcount' holder hold) ((hiff w hmember).mp List.mem_cons_self holder)
    · rw [last?_cons_of_ne (d := .obtains _ w) heq]
      exact honce x hcount' holder (hholds.of_cons fun h => heq (Deed.obtains.inj h).2)

/-- The idle workers after a release: the worker is one of them, whether it was before or not. -/
theorem Sound.release (h : Sound s) (hw : w ∈ s.crew.members) :
    (∀ x, x ∈ (s.crew.release w).pool.idle ↔ x = w ∨ x ∈ s.crew.pool.idle) ∧
      (s.crew.release w).pool.idle.Nodup := by
  have hsame : ∀ x ∈ s.crew.pool.idle, x.serial = w.serial → x = w := fun x hx heq =>
    List.inj_on_of_nodup_map h.distinct (h.members hx) hw heq
  by_cases hin : w ∈ s.crew.pool.idle
  · have hany : s.crew.pool.idle.any (fun x => x.serial == w.serial) = true :=
      List.any_eq_true.mpr ⟨w, hin, beq_self_eq_true _⟩
    have hidle : (s.crew.release w).pool.idle = s.crew.pool.idle := by
      rw [Crew.release, Pool.giveBack, if_pos hany]
    rw [hidle]
    exact ⟨fun x => ⟨.inr, fun hx => hx.elim (fun heq => heq ▸ hin) id⟩, h.nodup⟩
  · have hnodup : (w :: s.crew.pool.idle).Nodup := List.nodup_cons.mpr ⟨hin, h.nodup⟩
    have hsubset : w :: s.crew.pool.idle ⊆ s.crew.members := List.cons_subset.mpr ⟨hw, h.members⟩
    have hroom : s.crew.pool.idle.length < s.crew.pool.capacity := by
      rw [h.capacity]
      exact (List.subperm_of_subset hnodup hsubset).length_le
    have hnew : ∀ x ∈ s.crew.pool.idle, ¬ (x.serial == w.serial) = true := fun x hx heq =>
      hin (hsame x hx (beq_iff_eq.mp heq) ▸ hx)
    have hidle : (s.crew.release w).pool.idle = w :: s.crew.pool.idle := by
      rw [Crew.release, Pool.giveBack_of_room hnew hroom, Pool.idle_addPermit]
    rw [hidle]
    exact ⟨fun x => List.mem_cons, hnodup⟩

/-- A worker is released, for the first time or again. -/
theorem Sound.releases (h : Sound s) {holder : Nat} (hobtained : .obtains holder w ∈ s.deeds) :
    Sound { s with crew := s.crew.release w, deeds := .releases holder w :: s.deeds } := by
  have hmember : w ∈ s.crew.members := h.about _ hobtained
  obtain ⟨hidle, hnodup⟩ := h.release hmember
  refine ⟨h.distinct, Pool.giveBack_balanced h.balanced _ w, (Pool.capacity_giveBack ..).trans h.capacity,
    hnodup, fun x hx => ?_, fun d hd => ?_, fun d hd => ?_, fun x hx => ?_, fun x hcount i hholds => ?_⟩
  · exact ((hidle x).mp hx).elim (fun heq => heq ▸ hmember) (h.members ·)
  · rcases List.mem_cons.mp hd with rfl | hd
    · exact hmember
    · exact h.about d hd
  · rcases List.mem_cons.mp hd with rfl | hd
    · exact (h.numbered _ hobtained).trans (Nat.lt_succ_self _)
    · exact (h.numbered d hd).trans (Nat.lt_succ_self _)
  · refine (hidle x).trans ?_
    by_cases heq : w = x
    · subst heq
      refine ⟨fun _ i hlast => ?_, fun _ => .inl rfl⟩
      cases (last?_cons_self (.releases holder w) s.deeds).symm.trans hlast
    · rw [last?_cons_of_ne (d := .releases _ w) heq, ← h.idle_iff x hx]
      exact ⟨fun hm => hm.resolve_left (Ne.symm heq), .inr⟩
  · have hcount' : ∀ i, s.deeds.count (.releases i x) ≤ 1 := fun i =>
      List.count_le_count_cons.trans (hcount i)
    have hold : Holds s.deeds i x := hholds.of_cons Deed.noConfusion
    by_cases heq : w = x
    · -- It is the first release, so the worker was with this holder, and with no other.
      subst heq
      have hfirst : .releases holder w ∉ s.deeds := by
        have hone := hcount holder
        rw [List.count_cons_self] at hone
        exact List.count_eq_zero.mp (by omega)
      have hmine := h.once w hcount' holder ⟨hobtained, hfirst⟩
      have htheirs := h.once w hcount' i hold
      rw [hmine, Option.some.injEq, Deed.obtains.injEq] at htheirs
      exact absurd (htheirs.1 ▸ List.mem_cons_self) hholds.2
    · rw [last?_cons_of_ne (d := .releases _ w) heq]
      exact h.once x hcount' i hold

/-- **One move of anybody** keeps the state in order. -/
theorem Sound.step (h : Sound s) (hs : Step s s') : Sound s' := by
  cases hs with
  | asks _ limit => exact h.of_idle h.balanced rfl rfl
  | queues hs =>
    obtain ⟨hidle, hb, hcap, -⟩ := Acquire.step_balanced h.balanced hs
    exact h.of_idle hb hidle.symm hcap
  | obtains hs =>
    obtain ⟨hidle, hb, hcap, -⟩ := Acquire.step_balanced h.balanced hs
    exact h.obtains hb hidle hcap
  | fails hs =>
    obtain ⟨hidle, hb, hcap, -⟩ := Acquire.step_balanced h.balanced hs
    exact h.of_idle hb hidle.symm hcap
  | @drops _ _ _ _ call _ =>
    obtain ⟨hidle, hb, hcap, -⟩ := Acquire.drop_balanced call h.balanced
    exact h.of_idle hb hidle hcap
  | releases _ _ _ hobtained => exact h.releases hobtained
  | passes _ now => exact h.of_idle h.balanced rfl rfl

theorem Sound.of_reachable (h : Sound s) (hr : Relation.ReflTransGen Step s s') : Sound s' := by
  induction hr with
  | refl => exact h
  | tail _ hs ih => exact ih.step hs

/-! ### Who has a worker -/

/-- A worker that a holder has is idle exactly if another holder has released it last. -/
theorem Sound.held_idle_iff (h : Sound s) {holder : Nat} (hholds : Holds s.deeds holder w) :
    w ∈ s.crew.pool.idle ↔ ∃ other ≠ holder, last? w s.deeds = some (.releases other w) := by
  rw [h.idle_iff w (h.about _ hholds.1)]
  constructor
  · intro hnot
    obtain ⟨d, hlast⟩ := exists_last? hholds.1
    have hworker := worker_of_last? hlast
    cases d with
    | obtains other x =>
      obtain rfl : x = w := hworker
      exact absurd hlast (hnot other)
    | releases other x =>
      obtain rfl : x = w := hworker
      refine ⟨other, fun heq => hholds.2 ?_, hlast⟩
      rw [← heq]
      exact List.mem_of_find?_eq_some hlast
  · rintro ⟨other, -, hlast⟩ i hi
    rw [hlast] at hi
    cases hi

theorem Sound.kept (h : Sound s) : Kept s := by
  refine ⟨fun holder worker hholds => h.held_idle_iff hholds, fun call _ worker pool hs holder hholds => ?_⟩
  have hidle : worker ∈ s.crew.pool.idle := by
    rw [(Acquire.step_balanced h.balanced hs).1]
    exact List.mem_append_left _ List.mem_cons_self
  refine ⟨(h.held_idle_iff hholds).mp hidle, ?_⟩
  by_contra hnone
  have hcount : ∀ i, s.deeds.count (.releases i worker) ≤ 1 := fun i =>
    Nat.le_of_lt_succ (not_le.mp fun hle => hnone ⟨i, hle⟩)
  exact (h.idle_iff worker (h.about _ hholds.1)).mp hidle holder (h.once worker hcount holder hholds)

/-- **Who has a worker.** However calls and releases interleave, and however often a worker is released, a
call obtains a worker that somebody has only if another holder has released it last, and somebody has
released it twice; and a worker that is released in this way is idle until it is handed out again. -/
theorem kept_of_reachable {now : Nat} {crew : Crew} (hf : crew.Fresh)
    (hr : Relation.ReflTransGen Step (quiet now crew) s) : Kept s :=
  ((sound_quiet hf).of_reachable hr).kept

/-- The only worker is obtained and released, handed on, and released by its first holder once more. -/
theorem kept_handed_on :
    ∃ s : CrewHolders, Relation.ReflTransGen Step (quiet 0 (.ofCount .single 1)) s ∧
      s.deeds = [.releases 0 ⟨0, 0, 0⟩, .obtains 2 ⟨0, 0, 0⟩, .releases 0 ⟨0, 0, 0⟩, .obtains 0 ⟨0, 0, 0⟩] ∧
      s.crew.pool.idle = [⟨0, 0, 0⟩] ∧ Kept s := by
  have hr := (((((Relation.ReflTransGen.refl.tail
    (Step.asks (quiet 0 (.ofCount .single 1)) (some 0))).tail
    (@Step.obtains _ _ [] [] _ _ _ _ rfl)).tail
    (.releases _ 0 ⟨0, 0, 0⟩ List.mem_cons_self)).tail
    (.asks _ (some 0))).tail
    (@Step.obtains _ _ [] [] _ _ _ _ rfl)).tail
    (.releases _ 0 ⟨0, 0, 0⟩ (by decide))
  exact ⟨_, hr, rfl, rfl, kept_of_reachable (Crew.fresh_ofIndices .single [0]) hr⟩

/-- A call obtains a worker that somebody has. -/
theorem not_free_of_obtained :
    ¬ ∀ (crew : Crew) (s : CrewHolders), crew.Fresh → Relation.ReflTransGen Step (quiet 0 crew) s →
      ∀ call ∈ s.calls, ∀ worker pool, call.step s.now s.crew.pool = some (.ends (.ok worker), pool) →
        ∀ holder, ¬ Holds s.deeds holder worker := by
  intro hlaw
  have hr := ((((((Relation.ReflTransGen.refl.tail
    (Step.asks (quiet 0 (.ofCount .single 1)) (some 0))).tail
    (@Step.obtains _ _ [] [] _ _ _ _ rfl)).tail
    (.releases _ 0 ⟨0, 0, 0⟩ List.mem_cons_self)).tail
    (.asks _ (some 0))).tail
    (@Step.obtains _ _ [] [] _ _ _ _ rfl)).tail
    (.releases _ 0 ⟨0, 0, 0⟩ (by decide))).tail
    (.asks _ (some 0))
  exact hlaw _ _ (Crew.fresh_ofIndices .single [0]) hr _ List.mem_cons_self _ _ rfl 2
    ⟨by decide, by decide⟩

end CrewHolders

end EventDispatch
