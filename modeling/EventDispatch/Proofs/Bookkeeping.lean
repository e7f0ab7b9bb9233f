import EventDispatch.Proofs.Workloads

/-!
# Books that agree

The book of a source says which call stops it, if any, whether its run was stopped by force, and with
which events the function was entered since the run began. Between any two moves the book, the tasks and
the desk agree: every call is in progress or counted, what is to follow a call that is counted has happened
or some task will see to it, and the workers are with the tasks or idle.

This holds of a source of any kind whose tasks keep account (`Workloads`). One task moves among others;
a stop takes the handles, with force or without; a stop returns; a run begins.

## Main definitions

* `Workload.duties`: what all tasks have in hand.
* `Logbook`: the book.
* `Workload.Agree`, `Workload.Sound`: what is in order between any two moves.
* `Workload.Starts`: what becomes of a source when it is started.

## Main results

* `Workload.Agree.moved`: what the move of one task keeps among all.
* `Workload.Sound.works`, `Workload.Sound.halts`, `Workload.Sound.returns`, `Workload.Sound.begins`: what a
  move of a task, the beginning of a stop, its return and the beginning of a run keep.
* `Workload.Agree.restored`, `Workload.Agree.finished`: what is left where no task is left.
-/

namespace EventDispatch

/-! ### One task among others -/

namespace Lifecycle

variable {τ : Type} {l : Lifecycle (Task τ)} {handle : Nat} {task : Task τ}

/-- The task behind a handle, and those before and after it. -/
theorem exists_split (hd : l.alive.Nodup) (ht : l.task? handle = some task) : ∃ pre post,
    l.live = pre ++ (handle, task) :: post ∧ (l.finish handle).live = pre ++ post ∧
      ∀ next, (l.replace handle next).live = pre ++ (handle, next) :: post := by
  obtain ⟨pre, post, hlive⟩ := List.append_of_mem ((task?_eq_some hd).mp ht)
  have hothers : ∀ t ∈ pre ++ post, t.1 ≠ handle := by
    rw [alive, hlive, List.map_append, List.map_cons, List.nodup_middle, List.nodup_cons,
      ← List.map_append] at hd
    rintro t hm rfl
    exact hd.1 (List.mem_map.mpr ⟨t, hm, rfl⟩)
  have hpre : ∀ t ∈ pre, t.1 ≠ handle := fun t hm => hothers t (List.mem_append_left _ hm)
  have hpost : ∀ t ∈ post, t.1 ≠ handle := fun t hm => hothers t (List.mem_append_right _ hm)
  refine ⟨pre, post, hlive, ?_, fun next => ?_⟩
  · rw [finish, hlive, List.filter_append, List.filter_cons_of_neg (by simp),
      List.filter_eq_self.mpr (by simpa using hpre), List.filter_eq_self.mpr (by simpa using hpost)]
  · have hkeep : ∀ ts : List (Nat × Task τ), (∀ t ∈ ts, t.1 ≠ handle) →
        ts.map (fun t => if t.1 == handle then (handle, next) else t) = ts := fun ts hts =>
      (List.map_congr_left fun t hm => by simp [hts t hm]).trans (List.map_id ts)
    rw [replace, hlive, List.map_append, List.map_cons, hkeep pre hpre, hkeep post hpost]
    simp

end Lifecycle

namespace Workload

variable {σ τ : Type}

/-- What all tasks have in hand together. -/
def duties (k : Workload σ τ) (l : Lifecycle (Task τ)) : Duty := .all (l.live.map fun t => k.duty t.2.state)

variable {k : Workload σ τ} {l : Lifecycle (Task τ)} {handle : Nat} {task : Task τ}

theorem duties_eq_none (h : l.live = []) : k.duties l = .none := by
  rw [duties, h]
  rfl

/-- What a task has in hand, and what the others have, before and after a move of the task. -/
theorem perm_duties (hd : l.alive.Nodup) (ht : l.task? handle = some task) :
    (k.duties l).Perm ((k.duty task.state).and (k.duties (l.finish handle))) ∧
    ∀ m, (k.duties (l.moved handle task.signal m)).Perm
      ((Duty.after k.duty m).and (k.duties (l.finish handle))) := by
  obtain ⟨pre, post, hlive, hfinish, hreplace⟩ := Lifecycle.exists_split hd ht
  have hsplit : ∀ state, (Duty.all ((pre ++ (handle, ⟨task.signal, state⟩) :: post).map fun t =>
      k.duty t.2.state)).Perm ((k.duty state).and (k.duties (l.finish handle))) := by
    intro state
    rw [duties, hfinish, List.map_append, List.map_cons, List.map_append, ← Duty.all_cons]
    exact Duty.perm_all List.perm_middle
  refine ⟨?_, fun m => ?_⟩
  · rw [duties, hlive]
    exact hsplit task.state
  · cases m with
    | goes next =>
      rw [duties, Lifecycle.moved, hreplace]
      exact hsplit next
    | ends result => exact ⟨.refl _, .refl _, .refl _⟩

end Workload

/-! ### Stops, in the terms of a source -/

/-- The stop is by force. -/
def Stop.isForced : Stop → Bool
  | .ready force => force
  | .joining _ => false

namespace TaskRules

variable {σ τ : Type} {r : TaskRules σ τ} {w w' : World} {s s' : σ}

/-- A stop without force takes the handles, and that is all. -/
theorem stop_graceful (hrun : (r.lifecycle s).running = true) : r.stop (.ready false) w s =
    some (.goes (.joining (r.lifecycle s).handles), w, r.setLifecycle ((r.lifecycle s).halted false) s) := by
  simp [stop, Stop.step, Lifecycle.halt, Lifecycle.halted, hrun]

/-- A run begins with the tasks given, in order. -/
theorem start_states (hrun : (r.lifecycle s).running = false) (hlive : (r.lifecycle s).live = [])
    (tasks : List τ) : ∃ l, r.start tasks s = (.ok (), r.setLifecycle l s) ∧ Tended none l ∧
      l.live.map (fun t => t.2.state) = tasks := by
  refine ⟨_, start_eq hrun tasks, Tended.started hlive _ _, ?_⟩
  have hnew := congrArg (List.map Task.state) (Lifecycle.map_snd_live_spawnAll
    (tasks.map (⟨(r.lifecycle s).signal + 1, ·⟩ : τ → Task τ))
    { r.lifecycle s with running := true, signal := (r.lifecycle s).signal + 1 })
  rw [hlive] at hnew
  simpa [Function.comp_def] using hnew

/-- A run begins with just the tasks given. -/
theorem start_idle (hrun : (r.lifecycle s).running = false) (hlive : (r.lifecycle s).live = [])
    (tasks : List τ) : ∃ l, r.start tasks s = (.ok (), r.setLifecycle l s) ∧ Tended none l ∧
      ∀ t ∈ l.live, t.2.state ∈ tasks := by
  obtain ⟨l, hstart, htended, hstates⟩ := start_states hrun hlive tasks
  refine ⟨l, hstart, htended, fun t ht => ?_⟩
  rw [← hstates]
  exact List.mem_map_of_mem (f := fun t => t.2.state) ht

/-- A stop that ends changes nothing. -/
theorem eq_of_stop_ends {stop : Stop} (h : r.stop stop w s = some (.ends (), w', s')) : w' = w ∧ s' = s := by
  obtain ⟨⟨m, w₁, s₁⟩, hs, heq⟩ := Option.map_eq_some_iff.mp h
  cases heq
  cases stop with
  | ready force =>
    simp only [Stop.step] at hs
    split at hs
    · cases hs
      exact ⟨rfl, rfl⟩
    · cases hs
  | joining handles =>
    simp only [Stop.step] at hs
    split at hs
    · cases hs
      exact ⟨rfl, rfl⟩
    · cases hs

end TaskRules

/-! ### What is in order between any two moves -/

/-- What is known of the run of a source, and of the call that stops it. -/
structure Logbook where
  /-- The call that stops the source, while there is one. -/
  stop : Option Stop
  /-- The run was stopped by force. -/
  forced : Bool
  /-- The calls of the function since the run began. -/
  entered : List FunctionCall
  /-- The counts when the run began. -/
  base : SourceCounts

/-- The logbook of a run that begins, or of a source that never ran. -/
def Logbook.blank (base : SourceCounts) : Logbook := ⟨none, false, [], base⟩

namespace Workload

variable {σ τ : Type}

variable (k : Workload σ τ)

/-- **Nothing is lost**: each call of the function since the run began is in progress or recorded; and of
each that is recorded what is to follow has happened, or a task will see to it. -/
structure Complete (log : Logbook) (w : World) (l : Lifecycle (Task τ)) (counts : SourceCounts)
    (recorded : List FunctionCall) : Prop where
  entered : log.entered.Perm (recorded ++ (k.duties l).calls)
  tallied : log.base.Tallied recorded counts
  followed : ∀ call ∈ recorded, k.Followed w call ∨ ∃ t ∈ l.live, k.Promises t.2.state call

/-- The tasks, the desk and the book agree. Only a stop by force may lose calls. -/
structure Agree (members : List Worker) (log : Logbook) (w : World) (l : Lifecycle (Task τ)) (d : Desk) :
    Prop where
  tended : Tended log.stop l
  memory : w.InMemory
  fits : ∀ t ∈ l.live, k.Fits w t.2.state
  accounts : d.Accounts members (k.duties l).held (k.duties l).tickets
  complete : log.forced = false → ∃ recorded, k.Complete log w l d.counts recorded

/-- What is in order between any two moves. -/
structure Sound (members : List Worker) (log : Logbook) (w : World) (s : σ) : Prop where
  belongs : k.Belongs s
  agree : k.Agree members log w (k.rules.lifecycle s) (k.desk s)

variable {k : Workload σ τ} {members : List Worker} {log log' : Logbook} {w w' : World}

namespace Agree

variable {l : Lifecycle (Task τ)} {d d' : Desk}

/-- Without tasks, all workers are idle and nothing is in progress. -/
theorem of_live_nil (htended : Tended log.stop l) (hmemory : w.InMemory) (hlive : l.live = [])
    (haccounts : d.Accounts members [] []) (hblank : log.entered = [] ∧ log.base = d.counts) :
    k.Agree members log w l d := by
  refine ⟨htended, hmemory, by simp [hlive], ?_, fun _ => ⟨[], ?_, ?_, by simp⟩⟩
  · rw [duties_eq_none hlive]
    exact haccounts
  · rw [duties_eq_none hlive, hblank.1]
    exact .refl _
  · rw [hblank.2]
    exact .refl _

/-- What is known of the stop is all that changes. -/
theorem of_tended (h : k.Agree members log w l d) {stop : Option Stop} (htended : Tended stop l) :
    k.Agree members { log with stop } w l d :=
  ⟨htended, h.memory, h.fits, h.accounts, fun hforced =>
    (h.complete hforced).imp fun _ hcomplete => ⟨hcomplete.entered, hcomplete.tallied, hcomplete.followed⟩⟩

/-- Anything else happens around the source. -/
theorem passes (hk : k.Lawful) (h : k.Agree members log w l d) (hw : w.Advances w') :
    k.Agree members log w' l d where
  tended := h.tended
  memory := hw.memory h.memory
  fits t ht := hk.fits_of_advances hw (h.fits t ht)
  accounts := h.accounts
  complete hforced := by
    obtain ⟨recorded, hcomplete⟩ := h.complete hforced
    exact ⟨recorded, hcomplete.entered, hcomplete.tallied, fun call hc =>
      (hcomplete.followed call hc).imp_left (hk.followed_of_advances hw)⟩

/-- The stop takes the handles, and that is all. -/
theorem halted (h : k.Agree members log w l d) (hstop : log.stop = some (.ready false))
    (hrun : l.running = true) :
    k.Agree members { log with stop := some (.joining l.handles) } w (l.halted false) d := by
  have htended : Tended (some (.joining l.handles)) (l.halted false) := (hstop ▸ h.tended).halted hrun
  exact ⟨htended, h.memory, h.fits, h.accounts, fun hforced =>
    (h.complete hforced).imp fun _ hcomplete => ⟨hcomplete.entered, hcomplete.tallied, hcomplete.followed⟩⟩

/-- What is entered and what is recorded in a move of one task, among all. -/
theorem perm_entered {entered made recorded mine before after others : List FunctionCall}
    (hall : entered.Perm (recorded ++ (before ++ others))) (hmade : (before ++ made).Perm (mine ++ after)) :
    (entered ++ made).Perm ((recorded ++ mine) ++ (after ++ others)) := by
  have hothers : (recorded ++ (before ++ others) ++ made).Perm (recorded ++ (before ++ made ++ others)) := by
    rw [List.append_assoc, List.append_assoc, List.append_assoc]
    exact (List.perm_append_comm.append_left before).append_left recorded
  have hmine : recorded ++ (mine ++ after ++ others) = (recorded ++ mine) ++ (after ++ others) := by
    simp only [List.append_assoc]
  rw [← hmine]
  exact ((hall.append_right made).trans hothers).trans ((hmade.append_right others).append_left recorded)

variable {handle : Nat} {task : Task τ} {m : Move τ Unit} {s s' : σ}

/-- What is to follow the calls has happened, or is promised still, after a move of one task. -/
theorem followed_of_moved (hk : k.Lawful) (hd : l.alive.Nodup) (ht : l.task? handle = some task)
    (hadvances : w.Advances w') {recorded mine : List FunctionCall}
    (hbefore : ∀ call ∈ recorded, k.Followed w call ∨ ∃ t ∈ l.live, k.Promises t.2.state call)
    (hmine : ∀ call, call ∈ mine ∨ k.Promises task.state call →
      k.Followed w' call ∨ ∃ next ∈ m.next?, k.Promises next call) :
    ∀ call ∈ recorded ++ mine, k.Followed w' call ∨
      ∃ t ∈ (l.moved handle task.signal m).live, k.Promises t.2.state call := by
  have hlive : ∀ t, t ∈ (l.moved handle task.signal m).live ↔
      (t ∈ l.live ∧ t.1 ≠ handle) ∨ ∃ next ∈ m.next?, t = (handle, ⟨task.signal, next⟩) := fun _ =>
    Lifecycle.mem_live_moved (Lifecycle.mem_alive_of_task? ht)
  have hturn : ∀ call, call ∈ mine ∨ k.Promises task.state call → k.Followed w' call ∨
      ∃ t ∈ (l.moved handle task.signal m).live, k.Promises t.2.state call := fun call hcall =>
    (hmine call hcall).imp_right fun ⟨next, hnext, hpromise⟩ =>
      ⟨_, (hlive _).mpr (.inr ⟨next, hnext, rfl⟩), hpromise⟩
  intro call hcall
  rcases List.mem_append.mp hcall with hold | hnew
  · rcases hbefore call hold with hfollowed | ⟨t, hm, hpromise⟩
    · exact .inl (hk.followed_of_advances hadvances hfollowed)
    · -- The promise is another task's, or that of the task that moves.
      by_cases heq : t.1 = handle
      · have hsame := (Lifecycle.task?_eq_some hd).mpr hm
        rw [heq, ht, Option.some.injEq] at hsame
        rw [← hsame] at hpromise
        exact hturn call (.inr hpromise)
      · exact .inr ⟨t, (hlive t).mpr (.inl ⟨hm, heq⟩), hpromise⟩
  · exact hturn call (.inl hnew)

/-- **One task moves**, and the others stay as they are. -/
theorem moved (hk : k.Lawful) (hd : (members.map Worker.serial).Nodup)
    (h : k.Agree members log w l (k.desk s)) (ht : l.task? handle = some task)
    (hm : k.Moved task.state m w w' s s') :
    k.Agree members { log with entered := log.entered ++ w.ambient.callsSince w'.ambient } w'
      (l.moved handle task.signal m) (k.desk s') := by
  obtain ⟨hadvances, -, hfits, mine, hserved, hpromises⟩ := hm
  obtain ⟨hbefore, hduties⟩ := perm_duties (k := k) h.tended.distinct ht
  have hafter := (hduties m).symm
  refine ⟨h.tended.moved handle task.signal m, hadvances.memory h.memory, fun t hmem => ?_, ?_,
    fun hforced => ?_⟩
  · rcases (Lifecycle.mem_live_moved (Lifecycle.mem_alive_of_task? ht)).mp hmem with
      ⟨hold, -⟩ | ⟨next, hnext, rfl⟩
    · exact hk.fits_of_advances hadvances (h.fits t hold)
    · exact hfits next hnext
  · have haccounts := h.accounts.of_perm hbefore.held hbefore.tickets
    exact (hserved.accounts members _ _ hd haccounts).of_perm hafter.held hafter.tickets
  · obtain ⟨recorded, hcomplete⟩ := h.complete hforced
    obtain ⟨made, hmade, hcalls⟩ := hserved.calls
    refine ⟨recorded ++ mine, ?_, hcomplete.tallied.append hserved.tallied,
      followed_of_moved hk h.tended.distinct ht hadvances hcomplete.followed hpromises⟩
    rw [Ambient.callsSince_of_append hmade]
    have hentered := hcomplete.entered.trans (hbefore.calls.append_left recorded)
    exact (perm_entered hentered hcalls).trans (hafter.calls.append_left _)

/-- Where no task is left, no worker is missing. -/
theorem restored (h : k.Agree members log w l d) (hlive : l.live = []) :
    d.crew.pool.idle.Perm members ∧ d.crew.available = d.crew.capacity := by
  have haccounts := h.accounts
  rw [duties_eq_none hlive] at haccounts
  have hidle := haccounts.workers
  have hbalanced : d.crew.pool.idle.length = d.crew.pool.free + d.crew.pool.granted.length :=
    haccounts.balanced
  have hgranted := haccounts.ticketed.perm.length_eq
  have hcapacity := haccounts.capacity
  have hcount := hidle.length_eq
  simp only [Duty.none, List.append_nil, List.length_append, List.length_nil] at hidle hgranted hcount
  refine ⟨hidle, ?_⟩
  rw [Crew.available, Crew.capacity, Pool.available]
  omega

/-- Where no task is left and no stop was forced, nothing is left undone. -/
theorem finished (h : k.Agree members log w l d) (hlive : l.live = []) (hforced : log.forced = false) :
    log.base.Tallied log.entered d.counts ∧ ∀ call ∈ log.entered, k.Followed w call := by
  obtain ⟨recorded, hentered, htallied, hfollowed⟩ := h.complete hforced
  rw [duties_eq_none hlive] at hentered
  have hall : recorded.Perm log.entered := by
    simpa [Duty.none] using hentered.symm
  refine ⟨htallied.perm hall, fun call hcall => ?_⟩
  rcases hfollowed call (hall.symm.subset hcall) with hdone | ⟨t, ht, -⟩
  · exact hdone
  · rw [hlive] at ht
    cases ht

end Agree

namespace Sound

variable {s s' : σ}

/-- A lifecycle is put in the place of another. -/
theorem of_setLifecycle (hk : k.Lawful) (hbelongs : k.Belongs s) {l : Lifecycle (Task τ)}
    (h : k.Agree members log w l (k.desk s)) : k.Sound members log w (k.rules.setLifecycle l s) := by
  refine ⟨hk.set_belongs l s hbelongs, ?_⟩
  rw [hk.sealed.get_set, hk.set_desk]
  exact h

/-- A source that never ran. -/
theorem of_fresh (hnew : k.rules.lifecycle s = .new) (hmemory : w.InMemory) (hbelongs : k.Belongs s)
    (hfresh : (k.desk s).crew.Fresh) : k.Sound (k.desk s).crew.members (.blank (k.desk s).counts) w s := by
  refine ⟨hbelongs, .of_live_nil ?_ hmemory ?_ (Desk.accounts_of_fresh hfresh) ⟨rfl, rfl⟩⟩
  · rw [hnew]
    exact .new
  · rw [hnew]
    rfl

/-- **A task moves.** -/
theorem works (hk : k.Lawful) (hd : (members.map Worker.serial).Nodup) (h : k.Sound members log w s)
    {handle : Nat} (hs : k.rules.stepLive handle w s = some (w', s')) :
    k.Sound members { log with entered := log.entered ++ w.ambient.callsSince w'.ambient } w' s' := by
  obtain ⟨task, m, s₁, htask, hstep, rfl⟩ := TaskRules.stepLive_cases hs
  have hmem := (Lifecycle.task?_eq_some h.agree.tended.distinct).mp htask
  have hmoved := hk.moved h.agree.memory h.belongs (h.agree.fits _ hmem) hstep
  rw [hk.sealed.get_step hstep]
  exact of_setLifecycle hk hmoved.belongs (h.agree.moved hk hd htask hmoved)

/-- What a stop gives up is given up in order. -/
theorem released (hk : k.Lawful) (hd : (members.map Worker.serial).Nodup) (h : k.Sound members log w s)
    {stop : Stop} {m : Move Stop Unit} (hs : k.rules.stop stop w s = some (m, w', s')) :
    w.Advances w' ∧ k.Belongs s' ∧ (k.rules.lifecycle s').alive.Nodup ∧
      (k.desk s').Accounts members (k.duties (k.rules.lifecycle s')).held
        (k.duties (k.rules.lifecycle s')).tickets := by
  refine TaskRules.stop_gives (P := fun w' s' => w.Advances w' ∧ k.Belongs s' ∧
    (k.rules.lifecycle s').alive.Nodup ∧ (k.desk s').Accounts members
      (k.duties (k.rules.lifecycle s')).held (k.duties (k.rules.lifecycle s')).tickets)
    ?_ ?_ hs ⟨.refl w, h.belongs, h.agree.tended.distinct, h.agree.accounts⟩
  · rintro ⟨hadvances, hbelongs, hdistinct, haccounts⟩
    have hlive := Lifecycle.live_halt (k.rules.lifecycle s)
    refine ⟨hadvances, hk.set_belongs _ _ hbelongs, ?_, ?_⟩
    · rw [hk.sealed.get_set, Lifecycle.alive, hlive]
      exact hdistinct
    · rw [hk.sealed.get_set, hk.set_desk, duties, hlive]
      exact haccounts
  · rintro handle task w₁ s₁ htask ⟨hadvances, hbelongs, hdistinct, haccounts⟩
    obtain ⟨hduties, -⟩ := perm_duties (k := k) hdistinct htask
    have hset := hk.set_belongs ((k.rules.lifecycle s₁).finish handle) _ hbelongs
    obtain ⟨hdropped, hbelongs', hreleased⟩ := hk.dropped task.state w₁ _ hset
    refine ⟨hadvances.trans hdropped, hbelongs', ?_, ?_⟩
    · rw [hk.sealed.get_drop, hk.sealed.get_set]
      exact hdistinct.sublist (List.filter_sublist.map _)
    · rw [hk.sealed.get_drop, hk.sealed.get_set]
      refine hreleased members _ _ hd ?_
      rw [hk.set_desk]
      exact haccounts.of_perm hduties.held hduties.tickets

/-- **A stop begins.** By force, what tasks have in hand is given up with them; and without, the tasks go
on as if nothing had happened. -/
theorem halts (hk : k.Lawful) (hd : (members.map Worker.serial).Nodup) (h : k.Sound members log w s)
    {stop next : Stop} (hstop : log.stop = some stop)
    (hs : k.rules.stop stop w s = some (.goes next, w', s')) :
    k.Sound members { log with stop := some next, forced := log.forced || stop.isForced } w' s' := by
  obtain ⟨hadvances, hbelongs, -, haccounts⟩ := h.released hk hd hs
  have hafter := TaskRules.afterStop_of_stop hk.sealed.toLawful hs
  rcases Lifecycle.afterStop_cases hafter with ⟨_, -, -, hm, -⟩ | ⟨force, rfl, hrun, hm, hhalted⟩ |
    ⟨_, -, -, hm, -⟩
  · cases hm
  · cases hm
    cases force with
    | false =>
      rw [TaskRules.stop_graceful hrun] at hs
      cases hs
      have hkept := of_setLifecycle hk h.belongs (h.agree.halted hstop hrun)
      rw [Stop.isForced, Bool.or_false]
      exact hkept
    | true =>
      refine ⟨hbelongs, ?_, hadvances.memory h.agree.memory, ?_, haccounts, fun hforced => ?_⟩
      · rw [hhalted]
        exact (hstop ▸ h.agree.tended).halted hrun
      · rw [hhalted, h.agree.tended.live_halted hrun]
        exact fun t ht => by cases ht
      · cases (Bool.or_eq_false_iff.mp hforced).2
  · cases hm

/-- **A stop returns**: nothing changes, and no task is left. -/
theorem returns (hk : k.Lawful) (h : k.Sound members log w s) {stop : Stop} (hstop : log.stop = some stop)
    (hs : k.rules.stop stop w s = some (.ends (), w', s')) :
    k.Sound members { log with stop := none } w' s' ∧ (k.rules.lifecycle s').running = false ∧
      (k.rules.lifecycle s').live = [] := by
  obtain ⟨rfl, rfl⟩ := TaskRules.eq_of_stop_ends hs
  have hafter := TaskRules.afterStop_of_stop hk.sealed.toLawful hs
  obtain ⟨-, hrun, hlive⟩ := (hstop ▸ h.agree.tended).returned hafter
  exact ⟨⟨h.belongs, h.agree.of_tended (h.agree.tended.closed hlive)⟩, hrun, hlive⟩

/-- **A run begins**, with tasks that have nothing in hand. -/
theorem begins (hk : k.Lawful) (h : k.Sound members log w s) (hstop : log.stop = none)
    (hrun : (k.rules.lifecycle s).running = false) {tasks : List τ}
    (htasks : ∀ t ∈ tasks, k.duty t = .none ∧ k.Fits w t) :
    k.Sound members (.blank (k.desk s).counts) w (k.rules.start tasks s).2 := by
  have hnil : (k.rules.lifecycle s).live = [] := h.agree.tended.still hrun (by simp [hstop])
  obtain ⟨l, hstart, htended, hmem⟩ := TaskRules.start_idle hrun hnil tasks
  have hnone : k.duties l = .none := by
    refine Duty.all_eq_none fun duty hduty => ?_
    obtain ⟨t, ht, rfl⟩ := List.mem_map.mp hduty
    exact (htasks _ (hmem t ht)).1
  have haccounts := h.agree.accounts
  rw [duties_eq_none hnil] at haccounts
  rw [hstart]
  refine of_setLifecycle hk h.belongs ⟨htended, h.agree.memory, fun t ht => (htasks _ (hmem t ht)).2, ?_,
    fun _ => ⟨[], ?_, .refl _, by simp⟩⟩
  · rw [hnone]
    exact haccounts
  · rw [hnone]
    exact .refl _

end Sound

/-- The two states of a source differ in nothing that counts. -/
structure Alike (k : Workload σ τ) (s s' : σ) : Prop where
  lifecycle : k.rules.lifecycle s' = k.rules.lifecycle s
  desk : k.desk s' = k.desk s
  belongs : k.Belongs s → k.Belongs s'

variable {s s' : σ}

theorem Alike.refl (k : Workload σ τ) (s : σ) : k.Alike s s := ⟨rfl, rfl, id⟩

theorem Sound.alike (h : k.Sound members log w s) (ha : k.Alike s s') : k.Sound members log w s' := by
  refine ⟨ha.belongs h.belongs, ?_⟩
  rw [ha.lifecycle, ha.desk]
  exact h.agree

/-- What becomes of a source when it is started: it is refused, or a run begins with tasks that have
nothing in hand. -/
inductive Starts (k : Workload σ τ) (w : World) (s : σ) : Except Error Unit → σ → Prop
  | refused (e : Error) {s' : σ} (h : k.Alike s s') : Starts k w s (.error e) s'
  | begun {s' : σ} (h : k.Alike s s') (hrun : (k.rules.lifecycle s').running = false) {tasks : List τ}
      (htasks : ∀ t ∈ tasks, k.duty t = .none ∧ k.Fits w t) :
      Starts k w s (.ok ()) (k.rules.start tasks s').2

/-- Whoever starts with such tasks is refused if the source runs. -/
theorem starts_of_alike (h : k.Alike s s') {tasks : List τ}
    (htasks : ∀ t ∈ tasks, k.duty t = .none ∧ k.Fits w t) :
    k.Starts w s (k.rules.start tasks s').1 (k.rules.start tasks s').2 := by
  cases hrun : (k.rules.lifecycle s').running with
  | true =>
    rw [TaskRules.start_running hrun]
    exact .refused _ h
  | false =>
    have hstart : (k.rules.start tasks s').1 = .ok () := by rw [TaskRules.start_eq hrun]
    rw [hstart]
    exact .begun h hrun htasks

/-- A start leaves the run that there is in order, or begins one that is. -/
theorem Sound.starts (hk : k.Lawful) (h : k.Sound members log w s) (hstop : log.stop = none)
    {result : Except Error Unit} (hs : k.Starts w s result s') :
    (∃ e, result = .error e ∧ k.Sound members log w s') ∨
    (result = .ok () ∧ k.Sound members (.blank (k.desk s).counts) w s') := by
  cases hs with
  | refused e halike => exact .inl ⟨e, rfl, h.alike halike⟩
  | begun halike hrun htasks =>
    rw [← halike.desk]
    exact .inr ⟨rfl, (h.alike halike).begins hk hstop hrun htasks⟩

end Workload

end EventDispatch
