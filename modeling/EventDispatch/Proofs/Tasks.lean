import EventDispatch.Proofs.Pool
import EventDispatch.Task
import Mathlib.Data.List.Nodup

/-!
# Tasks and stops

What the operations of a lifecycle do to the tasks that live and to the handles that no stop has taken,
and what one move of a task or of a stop can do, whatever state the lifecycle is part of.

## Main definitions

* `Lifecycle.alive`: the handles of the tasks that have not ended.
* `Lifecycle.halted`: the state right after a stop has taken the handles.
* `Lifecycle.afterStop`: one move of a stop, in terms of the lifecycle alone.
* `TaskRules.Lawful`: the lifecycle of a kind of source is out of reach of its tasks.
* `Tended`: no task is lost while stops do not meet.

## Main results

* `Lifecycle.afterStop_cases`: everything that one move of a stop can do.
* `Stop.step_get`, `TaskRules.afterStop_of_stop`: a stop does just that to the lifecycle of a source.
* `TaskRules.stop_keeps`: what giving up a task keeps, a stop keeps.
* `World.stepTrip_routes`, `World.stepTrip_sure`: a call on its way to a service touches its own route.
-/

namespace EventDispatch

/-! ### Calls on their way -/

theorem Clients.route_setRoute_of_ne {call other : RemoteCall} (h : other ≠ call) (f : Route → Route)
    (c : Clients) : (c.setRoute call f).route other = c.route other := by
  have hlookup : (c.setRoute call f).routes.lookup other = c.routes.lookup other := by
    rw [setRoute, List.lookup_cons, beq_false_of_ne h]
    dsimp only
    induction c.routes with
    | nil => rfl
    | cons entry routes ih =>
      obtain ⟨key, route⟩ := entry
      by_cases hkey : key = call
      · have hdrop : ¬(key != call) = true := by simp [hkey]
        have hother : (other == key) = false := beq_false_of_ne (hkey ▸ h)
        rw [List.filter_cons, if_neg hdrop, ih, List.lookup_cons, hother]
      · have hkeep : (key != call) = true := by simp [hkey]
        rw [List.filter_cons, if_pos hkeep, List.lookup_cons, List.lookup_cons, ih]
  rw [route, route, hlookup]

namespace Trip

variable {call : RemoteCall} {now : Nat} {c c' : Clients} {trip : Trip} {m : Move Trip (Option Error)}

theorem arrive_routes (call : RemoteCall) (c : Clients) : (∃ routes, (arrive call c).2 = { c with routes }) ∧
    ∀ other ≠ call, (arrive call c).2.route other = c.route other := by
  rw [arrive]
  split
  · exact ⟨⟨_, rfl⟩, fun other hne => Clients.route_setRoute_of_ne hne _ c⟩
  · exact ⟨⟨_, rfl⟩, fun _ _ => rfl⟩

/-- A call on its way changes nothing but how calls like it travel. -/
theorem step_routes (h : trip.step call now c = some (m, c')) :
    (∃ routes, c' = { c with routes }) ∧ ∀ other ≠ call, c'.route other = c.route other := by
  unfold step at h
  split at h
  · split at h
    · cases h
      exact ⟨⟨_, rfl⟩, fun _ _ => rfl⟩
    · cases h
      exact arrive_routes call c
  · split at h
    · cases h
      exact arrive_routes call c
    · cases h

/-- Where no call is to fail, none does. -/
theorem step_sure (hsure : (c.route call).failing = 0) (h : trip.step call now c = some (m, c')) :
    c' = c ∧ ∀ e, m ≠ .ends (some e) := by
  have harrive : arrive call c = (none, c) := by
    rw [arrive]
    split
    next heq =>
      rw [heq] at hsure
      cases hsure
    · rfl
  unfold step at h
  rw [harrive] at h
  split at h
  · split at h
    · cases h
      exact ⟨rfl, fun e he => by cases he⟩
    · cases h
      exact ⟨rfl, fun e he => by cases he⟩
  · split at h
    · cases h
      exact ⟨rfl, fun e he => by cases he⟩
    · cases h

end Trip

theorem World.stepTrip_routes {call : RemoteCall} {trip : Trip} {w w' : World}
    {m : Move Trip (Option Error)} (h : w.stepTrip call trip = some (m, w')) :
    (∃ routes, w' = { w with clients := { w.clients with routes } }) ∧
      ∀ other ≠ call, w'.clients.route other = w.clients.route other := by
  obtain ⟨⟨m', c'⟩, hs, heq⟩ := Option.map_eq_some_iff.mp h
  cases heq
  obtain ⟨⟨routes, rfl⟩, hothers⟩ := Trip.step_routes hs
  exact ⟨⟨routes, rfl⟩, hothers⟩

theorem World.stepTrip_sure {call : RemoteCall} {trip : Trip} {w w' : World}
    {m : Move Trip (Option Error)} (hsure : (w.clients.route call).failing = 0)
    (h : w.stepTrip call trip = some (m, w')) : w' = w ∧ ∀ e, m ≠ .ends (some e) := by
  obtain ⟨⟨m', c'⟩, hs, heq⟩ := Option.map_eq_some_iff.mp h
  cases heq
  obtain ⟨rfl, hnot⟩ := Trip.step_sure hsure hs
  exact ⟨rfl, hnot⟩

/-! ### Lifecycles -/

namespace Lifecycle

variable {τ : Type} {l l' : Lifecycle τ} {handle : Nat} {handles : List Nat}

/-- The handles of the tasks that have not ended. -/
def alive (l : Lifecycle τ) : List Nat := l.live.map Prod.fst

theorem task?_eq_none : l.task? handle = none ↔ handle ∉ l.alive := by
  rw [task?, List.lookup_eq_none_iff, alive, List.mem_map]
  constructor
  · rintro h ⟨t, ht, rfl⟩
    simpa using h t ht
  · intro h t ht
    simp only [bne_iff_ne, ne_eq]
    rintro rfl
    exact h ⟨t, ht, rfl⟩

theorem mem_alive_of_task? {task : τ} (h : l.task? handle = some task) : handle ∈ l.alive := by
  by_contra hn
  rw [task?_eq_none.mpr hn] at h
  cases h

theorem mem_live_of_task? {task : τ} (h : l.task? handle = some task) : (handle, task) ∈ l.live := by
  obtain ⟨pre, post, hsplit, -⟩ := List.lookup_eq_some_iff.mp h
  rw [hsplit]
  simp

theorem allEnded_iff : l.allEnded handles = true ↔ ∀ h ∈ handles, h ∉ l.alive := by
  simp only [allEnded, List.all_eq_true, Option.isNone_iff_eq_none, task?_eq_none]

@[simp] theorem alive_spawn (task : τ) : (l.spawn task).alive = l.alive ++ [l.nextHandle] := by
  simp [alive, spawn]

@[simp] theorem alive_replace (task : τ) : (l.replace handle task).alive = l.alive := by
  rw [alive, alive, replace, List.map_map]
  refine List.map_congr_left fun t _ => ?_
  by_cases h : t.1 = handle <;> simp [h]

@[simp] theorem mem_alive_finish {h : Nat} : h ∈ (l.finish handle).alive ↔ h ∈ l.alive ∧ h ≠ handle := by
  simp only [alive, finish, List.mem_map, List.mem_filter, bne_iff_ne, ne_eq]
  constructor
  · rintro ⟨t, ⟨ht, hne⟩, rfl⟩
    exact ⟨⟨t, ht, rfl⟩, hne⟩
  · rintro ⟨⟨t, ht, rfl⟩, hne⟩
    exact ⟨t, ⟨ht, hne⟩, rfl⟩

theorem task?_eq_some (hd : l.alive.Nodup) {task : τ} :
    l.task? handle = some task ↔ (handle, task) ∈ l.live := by
  rw [alive] at hd
  rw [task?]
  generalize l.live = live at hd ⊢
  induction live with
  | nil => simp
  | cons t live ih =>
    obtain ⟨h, x⟩ := t
    rw [List.map_cons, List.nodup_cons] at hd
    rw [List.lookup_cons, List.mem_cons, Prod.mk.injEq]
    by_cases heq : handle = h
    · subst heq
      simp only [beq_self_eq_true, Option.some.injEq, true_and]
      refine ⟨fun h => .inl h.symm, fun h => (h.resolve_right fun hm => hd.1 ?_).symm⟩
      exact List.mem_map.mpr ⟨_, hm, rfl⟩
    · rw [beq_false_of_ne heq]
      simp only [heq, false_and, false_or]
      exact ih hd.2

theorem mem_live_finish {t : Nat × τ} : t ∈ (l.finish handle).live ↔ t ∈ l.live ∧ t.1 ≠ handle := by
  simp [finish]

theorem mem_live_replace {t : Nat × τ} {task : τ} : t ∈ (l.replace handle task).live ↔
    (t ∈ l.live ∧ t.1 ≠ handle) ∨ (t = (handle, task) ∧ handle ∈ l.alive) := by
  simp only [replace, alive, List.mem_map]
  constructor
  · rintro ⟨x, hx, rfl⟩
    by_cases h : x.1 = handle
    · exact .inr ⟨by simp [h], x, hx, h⟩
    · exact .inl ⟨by simpa [h] using hx, by simp [h]⟩
  · rintro (⟨ht, hne⟩ | ⟨rfl, x, hx, h⟩)
    · exact ⟨t, ht, by simp [hne]⟩
    · exact ⟨x, hx, by simp [h]⟩

/-- To finish a task that does not live changes nothing. -/
theorem finish_eq_self (h : l.task? handle = none) : l.finish handle = l := by
  have hkeep : l.live.filter (fun t => t.1 != handle) = l.live := by
    refine List.filter_eq_self.mpr fun t ht => ?_
    rw [bne_iff_ne]
    rintro rfl
    exact task?_eq_none.mp h (List.mem_map_of_mem ht)
  rw [finish, hkeep]

/-- The tasks behind some handles, given up one after another. -/
theorem foldl_finish (handles : List Nat) (l : Lifecycle τ) :
    handles.foldl (fun l h => l.finish h) l
      = { l with live := l.live.filter fun t => !handles.contains t.1 } := by
  induction handles generalizing l with
  | nil => simp
  | cons h handles ih =>
    rw [List.foldl_cons, ih]
    simp only [finish, List.filter_filter, List.contains_cons, Bool.not_or]
    congr 2
    funext t
    rw [Bool.and_comm]
    rfl

/-- A running source right after a stop has sent the signal and taken the handles. -/
def halted (force : Bool) (l : Lifecycle τ) : Lifecycle τ :=
  { l with running := false, sent := l.signal :: l.sent, handles := [],
           live := if force then l.live.filter (fun t => !l.handles.contains t.1) else l.live }

theorem alive_halted_subset (force : Bool) : (l.halted force).alive ⊆ l.alive := by
  cases force with
  | false => exact List.Subset.refl _
  | true => exact List.map_subset _ (List.filter_subset_self _)

/-- One move of a stop in terms of the lifecycle alone. -/
def afterStop (stop : Stop) (l : Lifecycle τ) : Option (Move Stop Unit × Lifecycle τ) :=
  match stop with
  | .ready force =>
    if l.running then some (.goes (.joining l.handles), l.halted force) else some (.ends (), l)
  | .joining handles => if l.allEnded handles then some (.ends (), l) else none

end Lifecycle

namespace Stop

variable {τ σ : Type} {get : σ → Lifecycle τ} {set : Lifecycle τ → σ → σ} {giveUp : τ → σ → σ}

/-- Where a lifecycle is part of a larger state, giving up tasks reaches it only by finishing them. -/
theorem get_foldl_giveUp (hset : ∀ l s, get (set l s) = l) (hgive : ∀ t s, get (giveUp t s) = get s)
    (handles : List Nat) (s : σ) :
    get (handles.foldl (fun s h =>
        match (get s).task? h with
        | some task => giveUp task (set ((get s).finish h) s)
        | none => s) s)
      = { get s with live := (get s).live.filter fun t => !handles.contains t.1 } := by
  rw [← Lifecycle.foldl_finish]
  induction handles generalizing s with
  | nil => rfl
  | cons h handles ih =>
    rw [List.foldl_cons, List.foldl_cons, ih]
    congr 1
    cases ht : (get s).task? h with
    | none => rw [Lifecycle.finish_eq_self ht]
    | some task => rw [hgive, hset]

/-- What one move of a stop does to the lifecycle, whatever the state around it. -/
theorem step_get (hset : ∀ l s, get (set l s) = l) (hgive : ∀ t s, get (giveUp t s) = get s)
    (stop : Stop) (s : σ) :
    (stop.step get set giveUp s).map (fun x => (x.1, get x.2)) = (get s).afterStop stop := by
  cases stop with
  | joining handles =>
    by_cases h : (get s).allEnded handles <;> simp [step, Lifecycle.afterStop, h]
  | ready force =>
    by_cases hrun : (get s).running
    · cases force with
      | false => simp [step, Lifecycle.halt, Lifecycle.afterStop, Lifecycle.halted, hrun, hset]
      | true =>
        have hfold := get_foldl_giveUp hset hgive (get s).handles (set (get s).halt.2 s)
        rw [hset] at hfold
        simp only [step, Lifecycle.halt, Lifecycle.afterStop, hrun, if_true, Option.map_some]
        simp only [Lifecycle.halt, hrun, if_true] at hfold
        exact congrArg (fun l => some (Move.goes (Stop.joining (get s).handles), l)) hfold
    · simp [step, Lifecycle.halt, Lifecycle.afterStop, hrun]

/-- Whatever is kept when a stop begins, and when a task that lives is given up, is kept by the stop. -/
theorem step_gives {P : σ → Prop} {s s' : σ} (hhalt : P s → P (set (get s).halt.2 s))
    (hgive : ∀ s handle task, (get s).task? handle = some task → P s →
      P (giveUp task (set ((get s).finish handle) s))) {stop : Stop} {m : Move Stop Unit}
    (h : stop.step get set giveUp s = some (m, s')) (hs : P s) : P s' := by
  have hfold : ∀ (handles : List Nat) (s : σ), P s → P (handles.foldl (fun s h =>
      match (get s).task? h with
      | some task => giveUp task (set ((get s).finish h) s)
      | none => s) s) := by
    intro handles
    induction handles with
    | nil => exact fun s hs => hs
    | cons h handles ih =>
      intro s hs
      refine ih _ ?_
      dsimp only
      split
      next task htask => exact hgive s h task htask hs
      next => exact hs
  cases stop with
  | ready force =>
    cases hrun : (get s).running with
    | false =>
      simp only [step, Lifecycle.halt, hrun] at h
      cases h
      exact hs
    | true =>
      have hhalted : (get s).halt = (some (get s).handles, (get s).halt.2) := by
        simp [Lifecycle.halt, hrun]
      rw [step, hhalted] at h
      cases force with
      | false =>
        cases h
        exact hhalt hs
      | true =>
        cases h
        exact hfold _ _ (hhalt hs)
  | joining handles =>
    rw [step] at h
    split at h
    · cases h
      exact hs
    · cases h

/-- Whatever is kept when a task is given up is kept by a stop. -/
theorem step_keeps {P : σ → Prop} (hset : ∀ l s, P s → P (set l s))
    (hgive : ∀ t s, P s → P (giveUp t s)) {stop : Stop} {s s' : σ} {m : Move Stop Unit}
    (h : stop.step get set giveUp s = some (m, s')) (hs : P s) : P s' :=
  step_gives (hset _ _) (fun _ _ _ _ hs => hgive _ _ (hset _ _ hs)) h hs

end Stop

namespace Lifecycle

variable {τ : Type} {l l' : Lifecycle τ}

/-- Tasks that are started together get consecutive handles. -/
theorem spawnAll_eq (tasks : List τ) (l : Lifecycle τ) :
    l.spawnAll tasks = { l with
      live := l.live ++ (tasks.zipIdx l.nextHandle).map Prod.swap,
      handles := l.handles ++ List.range' l.nextHandle tasks.length,
      nextHandle := l.nextHandle + tasks.length } := by
  induction tasks generalizing l with
  | nil => simp [spawnAll]
  | cons task tasks ih =>
    have hstep : l.spawnAll (task :: tasks) = (l.spawn task).spawnAll tasks := rfl
    rw [hstep, ih]
    simp [spawn, List.range'_succ, Nat.add_assoc, Nat.add_comm 1]

theorem map_snd_live_spawnAll (tasks : List τ) (l : Lifecycle τ) :
    (l.spawnAll tasks).live.map Prod.snd = l.live.map Prod.snd ++ tasks := by
  have hswap : (Prod.snd ∘ Prod.swap : τ × Nat → τ) = Prod.fst := rfl
  rw [spawnAll_eq, List.map_append, List.map_map, hswap, List.zipIdx_map_fst]

theorem alive_spawnAll (tasks : List τ) (l : Lifecycle τ) :
    (l.spawnAll tasks).alive = l.alive ++ List.range' l.nextHandle tasks.length := by
  have hswap : (Prod.fst ∘ Prod.swap : τ × Nat → Nat) = Prod.snd := rfl
  rw [spawnAll_eq, alive, List.map_append, List.map_map, hswap, List.zipIdx_map_snd, alive]

/-- Everything that one move of a stop can do: find that nothing runs, take the handles, or find that
all tasks that it waited for have ended. -/
theorem afterStop_cases {stop : Stop} {m : Move Stop Unit} (h : l.afterStop stop = some (m, l')) :
    (∃ force, stop = .ready force ∧ l.running = false ∧ m = .ends () ∧ l' = l) ∨
    (∃ force, stop = .ready force ∧ l.running = true ∧ m = .goes (.joining l.handles) ∧
      l' = l.halted force) ∨
    (∃ handles, stop = .joining handles ∧ l.allEnded handles = true ∧ m = .ends () ∧ l' = l) := by
  cases stop with
  | ready force =>
    cases hrun : l.running with
    | false =>
      simp only [afterStop, hrun, Bool.false_eq_true, if_false, Option.some.injEq, Prod.mk.injEq] at h
      exact .inl ⟨force, rfl, rfl, h.1.symm, h.2.symm⟩
    | true =>
      simp only [afterStop, hrun, if_true, Option.some.injEq, Prod.mk.injEq] at h
      exact .inr (.inl ⟨force, rfl, rfl, h.1.symm, h.2.symm⟩)
  | joining handles =>
    by_cases hall : l.allEnded handles
    · simp only [afterStop, hall, if_true, Option.some.injEq, Prod.mk.injEq] at h
      exact .inr (.inr ⟨handles, rfl, hall, h.1.symm, h.2.symm⟩)
    · simp [afterStop, hall] at h

end Lifecycle

/-! ### Moves of tasks -/

namespace Lifecycle

variable {τ β : Type} {l : Lifecycle (Task τ)} {handle : Nat} {signal : Signal} {m : Move τ Unit}

/-- The state after a move of the task behind a handle. -/
def moved (handle : Nat) (signal : Signal) (m : Move τ Unit) (l : Lifecycle (Task τ)) :
    Lifecycle (Task τ) :=
  match m with
  | .goes next => l.replace handle ⟨signal, next⟩
  | .ends () => l.finish handle

theorem mem_live_moved (hm : handle ∈ l.alive) {t : Nat × Task τ} :
    t ∈ (l.moved handle signal m).live ↔
      (t ∈ l.live ∧ t.1 ≠ handle) ∨ ∃ next ∈ m.next?, t = (handle, ⟨signal, next⟩) := by
  cases m with
  | goes next =>
    rw [moved, mem_live_replace]
    simp [Move.next?, hm]
  | ends result =>
    rw [moved, mem_live_finish]
    simp [Move.next?]

theorem task?_moved (hd : l.alive.Nodup) (hm : handle ∈ l.alive) :
    (l.moved handle signal m).task? handle = m.next?.map (⟨signal, ·⟩) := by
  cases m with
  | goes next =>
    have hnodup : (l.replace handle ⟨signal, next⟩).alive.Nodup := by
      rw [alive_replace]
      exact hd
    exact (task?_eq_some hnodup).mpr (mem_live_replace.mpr (.inr ⟨rfl, hm⟩))
  | ends result =>
    exact task?_eq_none.mpr fun h => (mem_alive_finish.mp h).2 rfl

/-- What tells the tasks apart still does, if the one that moved keeps it. -/
theorem nodup_map_moved (hd : l.alive.Nodup) {task : Task τ} (ht : l.task? handle = some task)
    (f : τ → β) (hf : ∀ next ∈ m.next?, f next = f task.state)
    (h : (l.live.map fun t => f t.2.state).Nodup) :
    ((l.moved handle signal m).live.map fun t => f t.2.state).Nodup := by
  cases m with
  | goes next =>
    have hmap : (l.replace handle ⟨signal, next⟩).live.map (fun t => f t.2.state) =
        l.live.map fun t => f t.2.state := by
      rw [replace, List.map_map]
      refine List.map_congr_left fun t hm => ?_
      by_cases heq : t.1 = handle
      · have hsame : l.task? handle = some t.2 := by
          rw [← heq]
          exact (task?_eq_some hd).mpr hm
        rw [ht, Option.some.injEq] at hsame
        simp [heq, ← hsame, hf next rfl]
      · simp [heq]
    rw [moved, hmap]
    exact h
  | ends result => exact h.sublist (List.Sublist.map _ List.filter_sublist)

/-- The tasks of another kind stay as they are. -/
theorem mem_live_moved_iff (hd : l.alive.Nodup) {task : Task τ} (ht : l.task? handle = some task)
    (f : τ → β) (hf : ∀ next ∈ m.next?, f next = f task.state) {t : Nat × Task τ}
    (hne : f t.2.state ≠ f task.state) : t ∈ (l.moved handle signal m).live ↔ t ∈ l.live := by
  rw [mem_live_moved (mem_alive_of_task? ht)]
  constructor
  · rintro (⟨hold, -⟩ | ⟨next, hm, rfl⟩)
    · exact hold
    · exact absurd (hf next hm) hne
  · intro hold
    refine .inl ⟨hold, fun hhandle => hne ?_⟩
    have hsame := (task?_eq_some hd).mpr hold
    rw [hhandle, ht, Option.some.injEq] at hsame
    rw [hsame]

end Lifecycle

/-! ### Sources with tasks -/

namespace TaskRules

variable {σ τ : Type} {r : TaskRules σ τ} {w w' : World} {s s' : σ}

/-- The lifecycle is a field of its own, which giving up a task does not reach. -/
structure Lawful (r : TaskRules σ τ) : Prop where
  get_set : ∀ l s, r.lifecycle (r.setLifecycle l s) = l
  get_drop : ∀ task w s, r.lifecycle (r.drop task w s).2 = r.lifecycle s

theorem afterStop_of_stop (hr : r.Lawful) {stop : Stop} {m : Move Stop Unit}
    (h : r.stop stop w s = some (m, w', s')) :
    (r.lifecycle s).afterStop stop = some (m, r.lifecycle s') := by
  obtain ⟨⟨m', w₁, s₁⟩, hs, heq⟩ := Option.map_eq_some_iff.mp h
  cases heq
  have key := @Stop.step_get (Task τ) (World × σ) (fun x => r.lifecycle x.2)
    (fun l x => (x.1, r.setLifecycle l x.2)) (fun task x => r.drop task.state x.1 x.2)
    (fun l x => hr.get_set l x.2) (fun task x => hr.get_drop task.state x.1 x.2) stop (w, s)
  rw [hs] at key
  exact key.symm

/-- Whatever is kept when a task is given up is kept by a stop. -/
theorem stop_keeps {P : World → σ → Prop} (hset : ∀ l w s, P w s → P w (r.setLifecycle l s))
    (hdrop : ∀ task w s, P w s → P (r.drop task w s).1 (r.drop task w s).2) {stop : Stop}
    {m : Move Stop Unit} (h : r.stop stop w s = some (m, w', s')) (hp : P w s) : P w' s' := by
  obtain ⟨⟨m', w₁, s₁⟩, hs, heq⟩ := Option.map_eq_some_iff.mp h
  cases heq
  exact Stop.step_keeps (P := fun x : World × σ => P x.1 x.2) (fun l x => hset l x.1 x.2)
    (fun task x => hdrop task.state x.1 x.2) hs hp

/-- Whatever is kept when a stop begins, and when a task that lives is given up, is kept by the stop. -/
theorem stop_gives {P : World → σ → Prop} (hhalt : P w s → P w (r.setLifecycle (r.lifecycle s).halt.2 s))
    (hgive : ∀ handle task w s, (r.lifecycle s).task? handle = some task → P w s →
      P (r.drop task.state w (r.setLifecycle ((r.lifecycle s).finish handle) s)).1
        (r.drop task.state w (r.setLifecycle ((r.lifecycle s).finish handle) s)).2) {stop : Stop}
    {m : Move Stop Unit} (h : r.stop stop w s = some (m, w', s')) (hp : P w s) : P w' s' := by
  obtain ⟨⟨m', w₁, s₁⟩, hs, heq⟩ := Option.map_eq_some_iff.mp h
  cases heq
  exact Stop.step_gives (P := fun x : World × σ => P x.1 x.2) hhalt
    (fun x handle task => hgive handle task x.1 x.2) hs hp

/-- What a move of a live task comes from. -/
theorem stepLive_cases {handle : Nat} (h : r.stepLive handle w s = some (w', s')) :
    ∃ task m s₁, (r.lifecycle s).task? handle = some task ∧
      r.step task.signal task.state w s = some (m, w', s₁) ∧
      s' = r.setLifecycle ((r.lifecycle s₁).moved handle task.signal m) s₁ := by
  unfold stepLive at h
  split at h
  · cases h
  next task htask =>
    split at h
    · cases h
    next next w₁ s₁ hs =>
      cases h
      exact ⟨task, .goes next, s₁, htask, hs, rfl⟩
    next w₁ s₁ hs =>
      cases h
      exact ⟨task, .ends (), s₁, htask, hs, rfl⟩

/-- A source that runs is not started again. -/
theorem start_running (hrun : (r.lifecycle s).running = true) (tasks : List τ) :
    r.start tasks s = (.error (.invalidState "Event source is already running"), s) := by
  simp [start, Lifecycle.begin, hrun]

/-- A source that does not run starts all the tasks. -/
theorem start_eq (hrun : (r.lifecycle s).running = false) (tasks : List τ) :
    r.start tasks s = (.ok (), r.setLifecycle
      (({ r.lifecycle s with running := true, signal := (r.lifecycle s).signal + 1 }).spawnAll
        (tasks.map (⟨(r.lifecycle s).signal + 1, ·⟩))) s) := by
  simp [start, Lifecycle.begin, hrun]

end TaskRules

/-! ### Stops and the tasks that they wait for -/

/-- While at most one stop is open, no task is lost: a source that runs has all handles, a stop that
waits has those of all tasks that live, and otherwise none lives. -/
structure Tended {τ : Type} (stop : Option Stop) (l : Lifecycle τ) : Prop where
  distinct : l.alive.Nodup
  issued : ∀ h ∈ l.alive, h < l.nextHandle
  kept : l.running = true → ∀ h ∈ l.alive, h ∈ l.handles
  joined : ∀ handles, stop = some (.joining handles) →
    l.running = false ∧ ∀ h ∈ l.alive, h ∈ handles
  still : l.running = false → (∀ handles, stop ≠ some (.joining handles)) → l.live = []

namespace Tended

variable {τ : Type} {stop : Option Stop} {l l' : Lifecycle τ} {handle : Nat}

/-- A source that never ran has no task to lose. -/
theorem new : Tended none (.new : Lifecycle τ) := by
  constructor <;> simp [Lifecycle.new, Lifecycle.alive]

theorem replace (h : Tended stop l) (handle : Nat) (task : τ) : Tended stop (l.replace handle task) := by
  refine ⟨by rw [Lifecycle.alive_replace]; exact h.distinct, ?_, ?_, ?_, fun hrun hnot => ?_⟩
  · rw [Lifecycle.alive_replace]
    exact h.issued
  · rw [Lifecycle.alive_replace]
    exact h.kept
  · rw [Lifecycle.alive_replace]
    exact h.joined
  · have hnil := h.still hrun hnot
    rw [Lifecycle.replace, hnil]
    rfl

theorem finish (h : Tended stop l) (handle : Nat) : Tended stop (l.finish handle) := by
  have hsub : ∀ x ∈ (l.finish handle).alive, x ∈ l.alive := fun x hx =>
    (Lifecycle.mem_alive_finish.mp hx).1
  refine ⟨?_, fun x hx => h.issued x (hsub x hx), fun hrun x hx => h.kept hrun x (hsub x hx),
    fun handles hj => ?_, fun hrun hnot => ?_⟩
  · exact h.distinct.sublist (List.Sublist.map _ (List.filter_sublist))
  · obtain ⟨hrun, hall⟩ := h.joined handles hj
    exact ⟨hrun, fun x hx => hall x (hsub x hx)⟩
  · have hnil := h.still hrun hnot
    rw [Lifecycle.finish, hnil]
    rfl

/-- A task moves or ends. -/
theorem moved {l : Lifecycle (Task τ)} (h : Tended stop l) (handle : Nat) (signal : Signal)
    (m : Move τ Unit) : Tended stop (l.moved handle signal m) := by
  cases m with
  | goes next => exact h.replace handle ⟨signal, next⟩
  | ends result => exact h.finish handle

/-- Somebody asks to stop. -/
theorem ready (h : Tended none l) (force : Bool) : Tended (some (.ready force)) l :=
  ⟨h.distinct, h.issued, h.kept, by simp, fun hrun _ => h.still hrun (by simp)⟩

/-- A stop takes the handles of all tasks that live. -/
theorem halted {force : Bool} (h : Tended (some (.ready force)) l) (hrun : l.running = true) :
    Tended (some (.joining l.handles)) (l.halted force) := by
  have hsub := Lifecycle.alive_halted_subset (l := l) force
  refine ⟨?_, fun x hx => h.issued x (hsub hx), fun hhalt => by (cases hhalt), fun handles hj => ?_,
    fun _ hnot => ?_⟩
  · cases force with
    | false => exact h.distinct
    | true => exact h.distinct.sublist (List.Sublist.map _ (List.filter_sublist))
  · cases hj
    exact ⟨rfl, fun x hx => h.kept hrun x (hsub hx)⟩
  · exact absurd rfl (hnot l.handles)

/-- By force, no task is left. -/
theorem live_halted (h : Tended stop l) (hrun : l.running = true) : (l.halted true).live = [] := by
  refine List.filter_eq_nil_iff.mpr fun t ht => ?_
  have hkept := h.kept hrun t.1 (List.mem_map_of_mem ht)
  simpa using hkept

/-- A stop returns once no task lives. -/
theorem returned {call : Stop} {m : Unit} (h : Tended (some call) l)
    (hs : l.afterStop call = some (.ends m, l')) : l' = l ∧ l.running = false ∧ l.live = [] := by
  rcases Lifecycle.afterStop_cases hs with ⟨force, rfl, hrun, -, rfl⟩ | ⟨_, -, -, hm, -⟩ |
    ⟨handles, rfl, hall, -, rfl⟩
  · exact ⟨rfl, hrun, h.still hrun (by simp)⟩
  · cases hm
  · obtain ⟨hrun, hjoined⟩ := h.joined handles rfl
    refine ⟨rfl, hrun, List.eq_nil_iff_forall_not_mem.mpr fun t ht => ?_⟩
    have hmem : t.1 ∈ l'.alive := List.mem_map_of_mem ht
    exact Lifecycle.allEnded_iff.mp hall t.1 (hjoined t.1 hmem) hmem

/-- A stop that has returned is forgotten. -/
theorem closed (h : Tended stop l) (hlive : l.live = []) : Tended none l :=
  ⟨h.distinct, h.issued, h.kept, by simp, fun _ _ => hlive⟩

/-- A stop moves: it waits from then on, or has returned. -/
theorem stopped {call : Stop} {m : Move Stop Unit} (h : Tended (some call) l)
    (hs : l.afterStop call = some (m, l')) : Tended m.next? l' := by
  cases m with
  | ends result =>
    obtain ⟨rfl, -, hlive⟩ := h.returned hs
    exact h.closed hlive
  | goes next =>
    rcases Lifecycle.afterStop_cases hs with ⟨_, -, -, hm, -⟩ | ⟨force, rfl, hrun, hm, rfl⟩ | ⟨_, -, -, hm, -⟩
    · cases hm
    · cases hm
      exact h.halted hrun
    · cases hm

/-- A source without tasks is started. -/
theorem started (hlive : l.live = []) (signal : Signal) (tasks : List τ) :
    Tended none ({ l with running := true, signal }.spawnAll tasks) := by
  have halive : ({ l with running := true, signal }.spawnAll tasks).alive =
      List.range' l.nextHandle tasks.length := by
    rw [Lifecycle.alive, Lifecycle.spawnAll_eq]
    simp [hlive, List.zipIdx_map_snd, Function.comp_def]
  refine ⟨?_, ?_, ?_, by simp, fun hrun => ?_⟩
  · rw [halive]
    exact List.nodup_range'
  · rw [halive, Lifecycle.spawnAll_eq]
    intro h hm
    simpa using (List.mem_range'_1.mp hm).2
  · rw [halive, Lifecycle.spawnAll_eq]
    exact fun _ h hm => List.mem_append_right _ hm
  · rw [Lifecycle.spawnAll_eq] at hrun
    cases hrun

end Tended

end EventDispatch
