import EventDispatch.Proofs.Staffing

/-!
# Crews that are large enough

A factory decides how many workers a source gets and how they are shared; a start decides how many tasks
there are. The two are written in different places, and they agree: whatever a factory makes, of whatever
settings it accepts, has a worker for each task that a start spawns. So a start is not refused for how the
workers are shared, no task waits for a worker, however short its patience, and none is turned away.

## What is deliberately absent

Nothing is asked of the surroundings: services may fail, the clock and the function may do anything, and
the world may be replaced by any other between two moves. Starts and stops come one at a time. A stop that
is given up while it waits has not returned, so no call is made after it: the tasks that it leaves behind
would share the workers with those of the next run.

## Main definitions

* `Source.Answer`: what a start may come to.
* `Source.Sized`: new sources with crews that are large enough.
* `StaffedSource`, `StaffedSource.Step`: a source, what happens around it, and the calls that start and stop it.
* `StaffedSource.Supplied`: the law.

## Main results

* `Source.sized_of_factory`: the factories make such sources.
* `StaffedSource.Sound.step`: what one move of anybody keeps.
* `StaffedSource.supplied_of_reachable`: the law, for every history.
-/

namespace EventDispatch

/-! ### Starts -/

namespace Source

/-- What the tasks of a source have in hand together. -/
def inHand : Source → Duty
  | generator s => Generator.workload.duties s.lifecycle
  | queue s => (QueueSource.workload s.policy).duties s.lifecycle
  | stream s => StreamSource.workload.duties s.lifecycle
  | poll s => (PollSource.workload s.driver.stamp?).duties s.lifecycle
  | http _ | probe _ => .none

/-- What a start may come to. There are two reasons to refuse it, and how the workers are shared is none. -/
inductive Answer (s : Source) (token : Option String) : Except Error Unit → Prop
  | begun (h : s.runs.running = false) : Answer s token (.ok ())
  /-- The source runs. -/
  | already (h : s.runs.running = true) :
      Answer s token (.error (.invalidState "Event source is already running"))
  /-- The source reads a stream, and the checkpoint is none. -/
  | unreadable {inner : StreamSource} {text : String} {e : Json.TextError} (hs : s = .stream inner)
      (htoken : token = some text) (he : Json.parseTexts text = .error e) :
      Answer s token (.error (.configuration ("Invalid stream checkpoint: " ++ e.message)))

/-- What a start makes of a source that suits `n` workers: it is refused, or a run begins with `n` tasks at
most. -/
inductive Launches {σ τ : Type} (k : Workload σ τ) (wrap : σ → Source) (suits : Nat → σ → Prop) (n : Nat)
    (token : Option String) (s : σ) : Except Error Unit → σ → Prop
  | refused {e : Error} (h : (wrap s).Answer token (.error e)) : Launches k wrap suits n token s (.error e) s
  | launched {s₁ : σ} (halike : k.Alike s s₁) (hsuits : suits n s₁) {tasks : List τ}
      (hcount : tasks.length ≤ n) (htasks : ∀ t ∈ tasks, k.duty t = .none) :
      Launches k wrap suits n token s (k.rules.start tasks s₁).1 (k.rules.start tasks s₁).2

/-- Whatever a start makes of a source, it has a reason for the answer. -/
theorem Launches.answer {σ τ : Type} {k : Workload σ τ} {wrap : σ → Source} {suits : Nat → σ → Prop} {n : Nat}
    {token : Option String} {s s' : σ} {result : Except Error Unit} (kind : Kind k wrap)
    (h : Launches k wrap suits n token s result s') : (wrap s).Answer token result := by
  cases h with
  | refused h => exact h
  | @launched s₁ halike hsuits tasks hcount htasks =>
    have hruns : (wrap s).runs.running = (k.rules.lifecycle s₁).running := by
      rw [kind.runs, halike.lifecycle]
      rfl
    cases hrun : (k.rules.lifecycle s₁).running with
    | true =>
      rw [TaskRules.start_running hrun]
      exact .already (hruns.trans hrun)
    | false =>
      rw [TaskRules.start_eq hrun]
      exact .begun (hruns.trans hrun)

/-- A kind of source that has a worker for every task. -/
structure Posted {σ τ : Type} (k : Workload σ τ) (wrap : σ → Source) (suits : Nat → σ → Prop) : Prop where
  kind : Kind k wrap
  staffing : k.Staffing suits
  inHand : ∀ s, (wrap s).inHand = k.duties (k.rules.lifecycle s)
  starts : ∀ {n s} token w, suits n s → (k.desk s).crew.capacity = n →
    ∃ result s', (wrap s).start token w = (result, w, wrap s') ∧ Launches k wrap suits n token s result s'

theorem posted_generator : Posted Generator.workload generator Generator.Suits where
  kind := kind_generator
  staffing := Generator.staffing
  inHand _ := rfl
  starts {n s} token w hsuits hcapacity := by
    have hshared : s.desk.requireShareable = .ok () := by
      have hshareable : s.desk.crew.shareable = true := by
        rw [Crew.shareable, show s.desk.crew.sharing = .shared from hsuits]
        rfl
      rw [Desk.requireShareable, if_pos hshareable]
    have hlaunches : Launches Generator.workload generator Generator.Suits n token s s.start.1 s.start.2 := by
      rw [Generator.start, hshared]
      refine .launched (.refl _ s) hsuits ?_ fun t ht => ?_
      · rw [List.length_map, List.length_range]
        exact Nat.le_of_eq hcapacity
      · obtain ⟨index, -, rfl⟩ := List.mem_map.mp ht
        rfl
    exact ⟨_, _, rfl, hlaunches⟩

theorem posted_queue (policy : AckPolicy) : Posted (QueueSource.workload policy) queue QueueSource.Suits where
  kind := kind_queue policy
  staffing := QueueSource.staffing policy
  inHand _ := rfl
  starts {n s} token w hsuits hcapacity := by
    refine ⟨_, _, rfl, .launched (.refl _ s) hsuits ?_ fun t ht => ?_⟩
    · have hpos : 0 < n := hsuits
      have hcapacity : s.desk.crew.capacity = n := hcapacity
      rw [List.length_replicate, QueueSource.listeners]
      split <;> omega
    · rw [List.eq_of_mem_replicate ht]
      rfl

/-- Only a checkpoint that cannot be read is refused. -/
theorem exists_of_restore_error {token : Option String} {s : StreamSource} {e : Error}
    (h : s.restore token = .error e) : ∃ text cause, token = some text ∧
      Json.parseTexts text = .error cause ∧
      e = .configuration ("Invalid stream checkpoint: " ++ cause.message) := by
  unfold StreamSource.restore at h
  split at h
  · cases h
  next text =>
    split at h
    next cause hcause =>
      cases h
      exact ⟨text, cause, rfl, hcause, rfl⟩
    · cases h

theorem posted_stream : Posted StreamSource.workload stream StreamSource.Suits where
  kind := kind_stream
  staffing := StreamSource.staffing
  inHand _ := rfl
  starts {n s} token w hsuits hcapacity := by
    have hlaunches : Launches StreamSource.workload stream StreamSource.Suits n token s (s.start token).1
        (s.start token).2 := by
      rw [StreamSource.start]
      split
      next hrestore =>
        obtain ⟨text, e, htoken, he, rfl⟩ := exists_of_restore_error hrestore
        exact .refused (.unreadable rfl htoken he)
      next hrestore =>
        obtain ⟨positions, rfl⟩ := StreamSource.exists_positions_of_restore hrestore
        have hmoved : StreamSource.workload.Alike s { s with positions } := ⟨rfl, rfl, id⟩
        refine .launched hmoved hsuits ?_ fun t ht => ?_
        · rw [List.length_map]
          exact hsuits
        · obtain ⟨shard, -, rfl⟩ := List.mem_map.mp ht
          rfl
    exact ⟨_, _, rfl, hlaunches⟩

theorem posted_poll (stamp? : Option Stamp) : Posted (PollSource.workload stamp?) poll PollSource.Suits where
  kind := kind_poll stamp?
  staffing := PollSource.staffing stamp?
  inHand _ := rfl
  starts {n s} token w hsuits hcapacity := by
    refine ⟨_, _, rfl, .launched (.refl _ s) hsuits hsuits fun t ht => ?_⟩
    rw [List.mem_singleton.mp ht]
    rfl

/-- New sources with crews that are large enough, and shared where a start asks for that. -/
inductive Sized : Source → Prop
  | generator (info : SourceInfo) (settings : GeneratorSettings) (limit : Nat) {crew : Crew} (h : crew.Fresh)
      (hshared : crew.sharing = .shared) : Sized (.generator (.new info settings limit crew))
  | queue (info : SourceInfo) (settings : QueueSettings) (policy : AckPolicy) (limit : Nat) {crew : Crew}
      (h : crew.Fresh) (hcount : 0 < crew.members.length) :
      Sized (.queue (.new info settings policy limit crew))
  | stream (info : SourceInfo) (settings : StreamSettings) {crew : Crew} (h : crew.Fresh)
      (hcount : settings.shards.length ≤ crew.members.length) : Sized (.stream (.new info settings crew))
  | poll (info : SourceInfo) (driver : PollDriver) (settings : PollSettings) (limit : Nat) {crew : Crew}
      (h : crew.Fresh) (hcount : 0 < crew.members.length) :
      Sized (.poll (.new info driver settings limit crew))

theorem Sized.fresh {s : Source} (h : s.Sized) : s.desk.crew.Fresh := by
  cases h with
  | generator info settings limit hfresh hshared => exact hfresh
  | queue info settings policy limit hfresh hcount => exact hfresh
  | stream info settings hfresh hcount => exact hfresh
  | poll info driver settings limit hfresh hcount => exact hfresh

end Source

/-! ### Factories -/

/-- A trigger that asks for no worker is refused. -/
theorem TriggerSettings.workerCount_pos {id : String} {default count : Nat} {t : TriggerSettings}
    (h : t.workerCount id default = .ok count) : 0 < count := by
  rw [workerCount] at h
  split at h
  · cases h
  next hne =>
    cases h
    exact Nat.pos_of_ne_zero hne

/-- A shared crew has a worker. -/
theorem TriggerSettings.size_of_sharedCrew {id : String} {default : Nat} {t : TriggerSettings} {w : Workshop}
    {crew : Crew} (h : t.sharedCrew id default w = .ok crew) :
    crew.sharing = .shared ∧ 0 < crew.members.length := by
  obtain ⟨count, hcount, hcrew⟩ := exists_of_sharedCrew h
  obtain ⟨hshared, hsize⟩ := Workshop.size_of_crew hcrew
  refine ⟨hshared, ?_⟩
  rw [hsize, if_neg (by decide)]
  exact workerCount_pos hcount

/-- **The factories make crews that are large enough.** -/
theorem Source.sized_of_factory {processors : Nat} {kind : String} {factory : SourceFactory}
    (hf : (kind, factory) ∈ builtinSources ++ brokerSources processors ++ streamSources ++ itemSources)
    (hkind : kind ≠ "http") {id : String} {trigger : TriggerSettings} {workshop : Workshop} {s : Source}
    (h : factory id trigger workshop = .ok s) : s.Sized := by
  cases built_of_factory hf hkind h with
  | generator settings hcrew =>
    exact .generator _ _ _ (TriggerSettings.fresh_of_sharedCrew hcrew)
      (TriggerSettings.size_of_sharedCrew hcrew).1
  | nats settings hcrew =>
    exact .queue _ _ _ _ (TriggerSettings.fresh_of_sharedCrew hcrew)
      (TriggerSettings.size_of_sharedCrew hcrew).2
  | rabbitMq settings hcrew =>
    refine .queue _ _ _ _ (Workshop.fresh_of_crew hcrew) ?_
    rw [(Workshop.size_of_crew hcrew).2]
    exact Nat.one_pos
  | kinesis settings hcrew =>
    refine .stream _ _ (Workshop.fresh_of_crew hcrew) (Nat.le_of_eq ?_)
    rw [(Workshop.size_of_crew hcrew).2, if_neg (by decide)]
  | itemPoller settings hcrew =>
    exact .poll _ _ _ _ (TriggerSettings.fresh_of_sharedCrew hcrew)
      (TriggerSettings.size_of_sharedCrew hcrew).2

/-! ### Histories -/

/-- A source, what happens around it, and the call that stops it, while there is one. -/
structure StaffedSource where
  world : World
  source : Source
  stop : Option Stop

namespace StaffedSource

/-- A source that never ran. -/
def opened (world : World) (source : Source) : StaffedSource := ⟨world, source, none⟩

/-- One move of anybody. -/
inductive Step : StaffedSource → StaffedSource → Prop
  /-- Anything else happens around the source. -/
  | passes (s : StaffedSource) (world : World) : Step s { s with world }
  /-- A task of the source moves. -/
  | works (s : StaffedSource) {handle : Nat} {world : World} {source : Source}
      (h : s.source.stepTask handle s.world = some (world, source)) : Step s { s with world, source }
  /-- The source is started, or somebody tries. -/
  | starts (s : StaffedSource) {token : Option String} {result : Except Error Unit} {world : World} {source : Source}
      (h : s.stop = none) (hs : s.source.start token s.world = (result, world, source)) :
      Step s { s with world, source }
  /-- Somebody asks to stop, and nobody else does. -/
  | asks (s : StaffedSource) (force : Bool) (h : s.stop = none) : Step s { s with stop := some (.ready force) }
  /-- The stop begins, or returns. -/
  | stops (s : StaffedSource) {stop : Stop} {m : Move Stop (Except Error (Option String))} {world : World}
      {source : Source} (h : s.stop = some stop)
      (hs : s.source.stepStop stop s.world = some (m, world, source)) :
      Step s ⟨world, source, m.next?⟩

/-- What is in order at a source of any kind. -/
inductive Sound (members : List Worker) (s : StaffedSource) : Prop
  | of_kind {σ τ : Type} {k : Workload σ τ} {wrap : σ → Source} {suits : Nat → σ → Prop} {inner : σ}
      (posted : Source.Posted k wrap suits) (hsource : s.source = wrap inner)
      (htended : Tended s.stop (k.rules.lifecycle inner)) (hmanned : k.Manned suits members inner)

/-- No task waits for a worker, and none is turned away. -/
structure Supplied (s : StaffedSource) : Prop where
  /-- Nobody was ever turned away. -/
  unfailed : s.source.desk.counts.allocationFailures = 0
  /-- Nobody waits: who holds the ticket for a worker has been granted it. -/
  unqueued : s.source.desk.crew.pool.waiting = []
  /-- For each task that has neither a worker nor a ticket there is a worker that can be taken. -/
  available : s.source.tasks.length ≤
    s.source.inHand.held.length + s.source.inHand.tickets.length + s.source.desk.crew.available
  /-- A start is not refused for how the workers are shared. -/
  answers : ∀ token world, s.source.Answer token (s.source.start token world).1

variable {members : List Worker} {s s' : StaffedSource}

/-- A source of a kind that never ran, and has as many workers as it needs. -/
theorem sound_of_fresh {σ τ : Type} {k : Workload σ τ} {wrap : σ → Source} {suits : Nat → σ → Prop}
    (posted : Source.Posted k wrap suits) {inner : σ} (hnew : k.rules.lifecycle inner = .new)
    (hfresh : (k.desk inner).crew.Fresh) (hcounts : (k.desk inner).counts = .zero)
    (hsuits : suits (k.desk inner).crew.members.length inner) {world : World} :
    Sound (wrap inner).desk.crew.members (opened world (wrap inner)) := by
  have hlive : (k.rules.lifecycle inner).live = [] := by
    rw [hnew]
    rfl
  rw [posted.kind.desk]
  refine .of_kind posted rfl ?_ ⟨hsuits, ?_, ?_, ?_⟩
  · rw [hnew]
    exact .new
  · rw [hnew]
    exact List.nodup_nil
  · rw [hlive]
    exact Nat.zero_le _
  · rw [Workload.duties_eq_none hlive]
    exact Desk.staffed_of_fresh hfresh hcounts

theorem sound_opened {source : Source} (h : source.Sized) (world : World) :
    Sound source.desk.crew.members (opened world source) := by
  cases h with
  | generator info settings limit hfresh hshared =>
    refine sound_of_fresh Source.posted_generator rfl ?_ rfl ?_
    · exact hfresh
    · exact hshared
  | queue info settings policy limit hfresh hcount =>
    refine sound_of_fresh (Source.posted_queue policy) rfl ?_ rfl ?_
    · exact hfresh
    · exact hcount
  | stream info settings hfresh hcount =>
    refine sound_of_fresh Source.posted_stream rfl ?_ rfl ?_
    · exact hfresh
    · exact hcount
  | poll info driver settings limit hfresh hcount =>
    refine sound_of_fresh (Source.posted_poll driver.stamp?) rfl ?_ rfl ?_
    · exact hfresh
    · exact hcount

/-- **One move of anybody.** -/
theorem Sound.step (hd : (members.map Worker.serial).Nodup) (h : Sound members s) (hs : Step s s') :
    Sound members s' := by
  obtain @⟨σ, τ, k, wrap, suits, inner, posted, hsource, htended, hmanned⟩ := h
  have hlawful := posted.kind.lawful
  cases hs with
  | passes world => exact .of_kind posted hsource htended hmanned
  | works hwork =>
    rw [hsource] at hwork
    obtain ⟨inner', hinner, rfl⟩ := posted.kind.stepTask hwork
    refine .of_kind posted rfl ?_ (hmanned.works posted.staffing hlawful hd hinner)
    obtain ⟨task, m, s₁, -, hstep, rfl⟩ := TaskRules.stepLive_cases hinner
    rw [hlawful.sealed.get_set, hlawful.sealed.get_step hstep]
    exact htended.moved _ _ _
  | @starts token result world source hstop hstart =>
    have hcapacity : (k.desk inner).crew.capacity = members.length := hmanned.staffed.accounts.capacity
    obtain ⟨result', inner', heq, hlaunches⟩ := posted.starts token s.world hmanned.suited hcapacity
    rw [hsource, heq] at hstart
    cases hstart
    cases hlaunches with
    | refused h => exact .of_kind posted rfl htended hmanned
    | @launched s₁ halike hsuits tasks hcount htasks =>
      have halso := hmanned.alike halike hsuits
      rw [hstop, ← halike.lifecycle] at htended
      cases hrun : (k.rules.lifecycle s₁).running with
      | true =>
        rw [TaskRules.start_running hrun]
        exact .of_kind posted rfl (hstop ▸ htended) halso
      | false =>
        obtain ⟨hbegun, htended'⟩ := halso.begins posted.staffing hlawful hrun
          (htended.still hrun (by simp)) hcount htasks
        exact .of_kind posted rfl (hstop ▸ htended') hbegun
  | asks force hstop => exact .of_kind posted hsource ((hstop ▸ htended).ready force) hmanned
  | @stops stop m world source hstop hmove =>
    rw [hsource] at hmove
    obtain ⟨inner', hinner, rfl⟩ := posted.kind.stepStop hmove
    refine .of_kind posted rfl ?_ (hmanned.stops posted.staffing hlawful hd hinner)
    have hafter := (hstop ▸ htended).stopped (TaskRules.afterStop_of_stop hlawful.sealed.toLawful hinner)
    cases m <;> exact hafter

/-! ### The law -/

theorem Sound.supplied (h : Sound members s) : Supplied s := by
  obtain @⟨σ, τ, k, wrap, suits, inner, posted, hsource, htended, hmanned⟩ := h
  have hstaffed := hmanned.staffed
  refine ⟨?_, ?_, ?_, fun token world => ?_⟩
  · rw [hsource, posted.kind.desk]
    exact hstaffed.unfailed
  · rw [hsource, posted.kind.desk]
    exact hstaffed.unqueued
  · -- Whoever is not idle is held, and a permit is granted for each ticket; the others are free.
    have htasks : s.source.tasks.length = (k.rules.lifecycle inner).live.length := by
      rw [← Source.alive_runs, hsource, posted.kind.runs, Lifecycle.alive_signals, Lifecycle.alive,
        List.length_map]
    have hfew := hmanned.few
    have hworkers := hstaffed.accounts.workers.length_eq
    have hbalanced : (k.desk inner).crew.pool.idle.length =
      (k.desk inner).crew.pool.free + (k.desk inner).crew.pool.granted.length := hstaffed.accounts.balanced
    have hgranted := hstaffed.accounts.ticketed.perm.length_eq
    rw [hstaffed.unqueued, List.append_nil] at hgranted
    rw [List.length_append] at hworkers
    rw [htasks, hsource, posted.inHand, posted.kind.desk, Crew.available, Pool.available]
    omega
  · have hcapacity : (k.desk inner).crew.capacity = members.length := hstaffed.accounts.capacity
    obtain ⟨result, inner', heq, hlaunches⟩ := posted.starts token world hmanned.suited hcapacity
    rw [hsource, heq]
    exact hlaunches.answer posted.kind

theorem Sound.of_reachable (hd : (members.map Worker.serial).Nodup) (h : Sound members s)
    (hr : Relation.ReflTransGen Step s s') : Sound members s' := by
  induction hr with
  | refl => exact h
  | tail _ hs ih => exact ih.step hd hs

/-- **There is a worker for every task.** Whatever source a factory makes that has tasks of its own, from
whatever trigger it accepts, and whatever happens to it while starts and stops come one at a time: a start is
not refused for how the workers are shared, no task waits for a worker, and none is turned away, even where
the trigger allows for no wait at all. -/
theorem supplied_of_reachable {processors : Nat} {kind : String} {factory : SourceFactory}
    (hf : (kind, factory) ∈ builtinSources ++ brokerSources processors ++ streamSources ++ itemSources)
    (hkind : kind ≠ "http") {id : String} {trigger : TriggerSettings} {workshop : Workshop} {source : Source}
    (hmade : factory id trigger workshop = .ok source) {world : World}
    (hr : Relation.ReflTransGen Step (opened world source) s) : Supplied s := by
  have hsized := Source.sized_of_factory hf hkind hmade
  exact ((sound_opened hsized world).of_reachable hsized.fresh.distinct hr).supplied

/-- A generator with no patience for a worker. Its two tasks run their events at the same time; or it is
stopped by force while the first one does, and started again. -/
theorem supplied_two_at_once :
    let trigger : TriggerSettings := ⟨"generator", some 2, 0, []⟩
    let world : World := .start ⟨0, 0⟩ .echo
    ("generator", SourceFactory.generator) ∈
      builtinSources ++ brokerSources 1 ++ streamSources ++ itemSources ∧
    ∃ source : Source, SourceFactory.generator "ticks" trigger ⟨.echo, {}⟩ = .ok source ∧
      ∃ busy again : StaffedSource, Relation.ReflTransGen Step (opened world source) busy ∧
        busy.source.inHand.held = [⟨1, 1, 1⟩, ⟨0, 0, 0⟩] ∧ busy.source.desk.crew.available = 0 ∧
        Supplied busy ∧ Relation.ReflTransGen Step (opened world source) again ∧ again.source.tasks = [2, 3] ∧
        again.source.desk.crew.available = 2 ∧ Supplied again := by
  intro trigger world
  let source : Source := .generator (.new ⟨"ticks", "generator", .async⟩ {} 0 (.ofIndices .shared [0, 1]))
  have hf : ("generator", SourceFactory.generator) ∈
      builtinSources ++ brokerSources 1 ++ streamSources ++ itemSources := .tail _ (.head _)
  have hmade : SourceFactory.generator "ticks" trigger ⟨.echo, {}⟩ = .ok source := rfl
  have hstarted := Relation.ReflTransGen.single (@Step.starts (opened world source) none _ _ _ rfl rfl)
  have hfirst := (((hstarted.tail (@Step.works _ 0 _ _ rfl)).tail (@Step.works _ 0 _ _ rfl)).tail
    (@Step.works _ 0 _ _ rfl)).tail (@Step.works _ 0 _ _ rfl)
  have hbusy := (((hfirst.tail (@Step.works _ 1 _ _ rfl)).tail (@Step.works _ 1 _ _ rfl)).tail
    (@Step.works _ 1 _ _ rfl)).tail (@Step.works _ 1 _ _ rfl)
  have hagain := (((hfirst.tail (.asks _ true rfl)).tail (@Step.stops _ (.ready true) _ _ _ rfl rfl)).tail
    (@Step.stops _ (.joining [0, 1]) _ _ _ rfl rfl)).tail (@Step.starts _ none _ _ _ rfl rfl)
  exact ⟨hf, source, hmade, _, _, hbusy, rfl, rfl, supplied_of_reachable hf (by decide) hmade hbusy,
    hagain, rfl, rfl, supplied_of_reachable hf (by decide) hmade hagain⟩

end StaffedSource

end EventDispatch
