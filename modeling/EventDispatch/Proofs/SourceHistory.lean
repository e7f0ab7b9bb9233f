import EventDispatch.Factory
import EventDispatch.Proofs.Bookkeeping

/-!
# Stops that leave nothing behind

A source is started and stopped, one call at a time, each stop by force or without, while its tasks move
and anything else happens around it. When a stop returns, all is at rest: no task and no call of the
function is left, every worker is idle, and until the source is started again the function is not entered.

If no stop of the run was forced, nothing is left undone either. Whenever a graceful stop comes, in the
middle of a pause, a fetch, a batch or a page, a task finishes what it has begun before it ends: every
event with which the function was entered is counted, its delivery acknowledged, its item marked.

## What is deliberately absent

Time is not scheduled. A task may find out late that it is told to stop, its moves may come in any order
with those of others, and the function may answer as it likes. A stop that is given up while it waits has
not returned, so no call is made after it.

## Main definitions

* `Source.Kind`: a kind of source, as one of all sources.
* `Source.Built`: what a factory makes of a trigger.
* `SourceHistory`: a source, what happens around it, and what happened since its run began.
* `SourceHistory.Step`, `SourceHistory.Proceeds`: one move of anybody, and one that starts no run.
* `SourceHistory.Rested`: the law.

## Main results

* `SourceHistory.Sound.step`: what one move of anybody keeps.
* `SourceHistory.rested_of_returned`: the law, for every history.
* `Source.built_of_factory`, `Source.made_of_factory`: the factories make sources to which it applies.
-/

namespace EventDispatch

/-! ### Sources of all kinds -/

namespace Source

/-- The tasks of a source are those of its runs. -/
theorem alive_runs (s : Source) : s.runs.alive = s.tasks := by
  cases s with
  | http s => exact Lifecycle.alive_signals
  | generator s => exact Lifecycle.alive_signals
  | queue s => exact Lifecycle.alive_signals
  | stream s => exact Lifecycle.alive_signals
  | poll s => exact Lifecycle.alive_signals
  | probe s => rfl

/-- Nothing runs, and nothing is to run. -/
structure Quiet (s : Source) : Prop where
  running : s.runs.running = false
  live : s.runs.live = []

/-- The calls of the function that tasks of the source have in progress. -/
def underway : Source → List FunctionCall
  | generator s => (Duty.all (s.lifecycle.live.map fun t => t.2.state.duty)).calls
  | queue s => (Duty.all (s.lifecycle.live.map fun t => t.2.state.duty)).calls
  | stream s => (Duty.all (s.lifecycle.live.map fun t => t.2.state.duty)).calls
  | poll s => (Duty.all (s.lifecycle.live.map fun t => t.2.state.duty)).calls
  | http _ | probe _ => []

/-- What is to follow a call of the function has happened: the delivery is acknowledged, if the source
acknowledges; and the update that marks the item was sent, if the event was handled with success. -/
def Followed (w : World) (call : FunctionCall) : Source → Prop
  | queue s => s.policy.Acked w call
  | poll s => Stamp.Among s.driver.stamp? w.clients.items.updates call
  | generator _ | stream _ | http _ | probe _ => True

/-- A kind of source, as one of all sources. -/
structure Kind {σ τ : Type} (k : Workload σ τ) (wrap : σ → Source) : Prop where
  lawful : k.Lawful
  desk : ∀ s, (wrap s).desk = k.desk s
  runs : ∀ s, (wrap s).runs = (k.rules.lifecycle s).signals
  underway : ∀ s, (wrap s).underway = (k.duties (k.rules.lifecycle s)).calls
  followed : ∀ w s call, k.Belongs s → k.Followed w call → (wrap s).Followed w call
  stepTask : ∀ {handle w s w' source'}, (wrap s).stepTask handle w = some (w', source') →
    ∃ s', k.rules.stepLive handle w s = some (w', s') ∧ source' = wrap s'
  stepStop : ∀ {stop w s m w' source'}, (wrap s).stepStop stop w = some (m, w', source') →
    ∃ s', k.rules.stop stop w s = some (m.map id fun _ => (), w', s') ∧ source' = wrap s'
  starts : ∀ token w s, ∃ result s', (wrap s).start token w = (result, w, wrap s') ∧ k.Starts w s result s'

section Kinds

variable {σ τ : Type} {rules : TaskRules σ τ} {wrap : σ → Source} {w w' : World} {s : σ} {source' : Source}

theorem of_map_stepLive {handle : Nat}
    (h : (rules.stepLive handle w s).map (fun (w, s) => (w, wrap s)) = some (w', source')) :
    ∃ s', rules.stepLive handle w s = some (w', s') ∧ source' = wrap s' := by
  obtain ⟨⟨w₁, s₁⟩, hs, heq⟩ := Option.map_eq_some_iff.mp h
  cases heq
  exact ⟨s₁, hs, rfl⟩

theorem of_map_stop (token : σ → Option String) {stop : Stop} {m : Move Stop (Except Error (Option String))}
    (h : ((rules.stop stop w s).map fun (m, w, s) =>
      match m with
      | .goes next => (Move.goes next, w, wrap s)
      | .ends () => (.ends (.ok (token s)), w, wrap s)) = some (m, w', source')) :
    ∃ s', rules.stop stop w s = some (m.map id fun _ => (), w', s') ∧ source' = wrap s' := by
  obtain ⟨s', hstop, hsource⟩ := exists_stop_of_map wrap (fun s => (token s, s)) h
  exact ⟨s', hstop, hsource.elim id id⟩

end Kinds

theorem kind_generator : Kind Generator.workload generator where
  lawful := Generator.workload_lawful
  desk _ := rfl
  runs _ := rfl
  underway _ := rfl
  followed _ _ _ _ _ := trivial
  stepTask h := of_map_stepLive h
  stepStop h := of_map_stop (fun _ => none) h
  starts token w s := by
    have htasks : ∀ t ∈ (List.range s.desk.crew.capacity).map (Generation.idle · 0),
        Generator.workload.duty t = .none ∧ Generator.workload.Fits w t := by
      intro t ht
      obtain ⟨index, -, rfl⟩ := List.mem_map.mp ht
      exact ⟨rfl, trivial⟩
    have hstarts : Generator.workload.Starts w s s.start.1 s.start.2 := by
      rw [Generator.start]
      split
      · exact .refused _ (.refl _ s)
      · exact Workload.starts_of_alike (.refl _ s) htasks
    exact ⟨_, _, rfl, hstarts⟩

theorem kind_queue (policy : AckPolicy) : Kind (QueueSource.workload policy) queue where
  lawful := QueueSource.workload_lawful policy
  desk _ := rfl
  runs _ := rfl
  underway _ := rfl
  followed w s call hpolicy h := by
    change s.policy.Acked w call
    rw [show s.policy = policy from hpolicy]
    exact h
  stepTask h := of_map_stepLive h
  stepStop h := of_map_stop (fun _ => none) h
  starts token w s := by
    have htasks : ∀ t ∈ List.replicate s.listeners Listener.checking,
        (QueueSource.workload policy).duty t = .none ∧ (QueueSource.workload policy).Fits w t := by
      intro t ht
      rw [List.eq_of_mem_replicate ht]
      exact ⟨rfl, trivial⟩
    exact ⟨_, _, rfl, Workload.starts_of_alike (.refl _ s) htasks⟩

theorem kind_stream : Kind StreamSource.workload stream where
  lawful := StreamSource.workload_lawful
  desk _ := rfl
  runs _ := rfl
  underway _ := rfl
  followed _ _ _ _ _ := trivial
  stepTask h := of_map_stepLive h
  stepStop h := of_map_stop StreamSource.checkpoint h
  starts token w s := by
    have htasks : ∀ t ∈ s.settings.shards.map (Reader.hiring · (.asking none)),
        StreamSource.workload.duty t = .none ∧ StreamSource.workload.Fits w t := by
      intro t ht
      obtain ⟨shard, -, rfl⟩ := List.mem_map.mp ht
      exact ⟨rfl, trivial⟩
    have hstarts : StreamSource.workload.Starts w s (s.start token).1 (s.start token).2 := by
      rw [StreamSource.start]
      split
      · exact .refused _ (.refl _ s)
      next hrestore =>
        obtain ⟨positions, rfl⟩ := StreamSource.exists_positions_of_restore hrestore
        have hmoved : StreamSource.workload.Alike s { s with positions } := ⟨rfl, rfl, id⟩
        exact Workload.starts_of_alike hmoved htasks
    exact ⟨_, _, rfl, hstarts⟩

theorem kind_poll (stamp? : Option Stamp) : Kind (PollSource.workload stamp?) poll where
  lawful := PollSource.workload_lawful stamp?
  desk _ := rfl
  runs _ := rfl
  underway _ := rfl
  followed w s call hstamp h := by
    change Stamp.Among s.driver.stamp? w.clients.items.updates call
    rw [show s.driver.stamp? = stamp? from hstamp]
    exact h
  stepTask h := of_map_stepLive h
  stepStop h := of_map_stop (fun _ => none) h
  starts token w s := by
    have htasks : ∀ t ∈ [PollTask.checking],
        (PollSource.workload stamp?).duty t = .none ∧ (PollSource.workload stamp?).Fits w t := by
      intro t ht
      rw [List.mem_singleton.mp ht]
      exact ⟨rfl, trivial⟩
    exact ⟨_, _, rfl, Workload.starts_of_alike (.refl _ s) htasks⟩

/-- Sources of these kinds that never ran, with all their workers at hand. -/
inductive New : Source → Prop
  | generator (info : SourceInfo) (settings : GeneratorSettings) (limit : Nat) {crew : Crew}
      (h : crew.Fresh) : New (.generator (.new info settings limit crew))
  | queue (info : SourceInfo) (settings : QueueSettings) (policy : AckPolicy) (limit : Nat) {crew : Crew}
      (h : crew.Fresh) : New (.queue (.new info settings policy limit crew))
  | stream (info : SourceInfo) (settings : StreamSettings) {crew : Crew} (h : crew.Fresh) :
      New (.stream (.new info settings crew))
  | poll (info : SourceInfo) (driver : PollDriver) (settings : PollSettings) (limit : Nat) {crew : Crew}
      (h : crew.Fresh) : New (.poll (.new info driver settings limit crew))

theorem New.fresh {s : Source} (h : s.New) : s.desk.crew.Fresh := by
  cases h with
  | generator info settings limit hfresh => exact hfresh
  | queue info settings policy limit hfresh => exact hfresh
  | stream info settings hfresh => exact hfresh
  | poll info driver settings limit hfresh => exact hfresh

end Source

/-! ### Sources that are made -/

theorem exists_of_map_eq_ok {ε α β : Type} {f : α → β} {result : Except ε α} {b : β}
    (h : result.map f = .ok b) : ∃ a, result = .ok a ∧ f a = b := by
  cases result with
  | error e => cases h
  | ok a => exact ⟨a, rfl, Except.ok.inj h⟩

theorem Workshop.fresh_of_crew {sharing : Sharing} {count : Nat} {w : Workshop} {crew : Crew}
    (h : w.crew sharing count = .ok crew) : crew.Fresh := by
  obtain ⟨indices, -, rfl⟩ := exists_of_map_eq_ok h
  exact Crew.fresh_ofIndices sharing indices

theorem length_of_createWorkers {refuse : Nat → Option Error} {index count : Nat} {indices : List Nat}
    (h : createWorkers refuse index count = .ok indices) : indices.length = count := by
  induction count generalizing index indices with
  | zero =>
    cases h
    rfl
  | succ count ih =>
    rw [createWorkers] at h
    split at h
    · cases h
    · obtain ⟨rest, hrest, rfl⟩ := exists_of_map_eq_ok h
      rw [List.length_cons, ih hrest]

/-- A crew has the workers it was asked for, and a single one has one. -/
theorem Workshop.size_of_crew {sharing : Sharing} {count : Nat} {w : Workshop} {crew : Crew}
    (h : w.crew sharing count = .ok crew) : crew.sharing = sharing ∧
      crew.members.length = if sharing = .single then 1 else count := by
  obtain ⟨indices, hindices, rfl⟩ := exists_of_map_eq_ok h
  refine ⟨rfl, ?_⟩
  have hmembers : (Crew.ofIndices sharing indices).members.length = indices.length := by
    simp [Crew.ofIndices]
  rw [hmembers, length_of_createWorkers hindices]
  cases sharing <;> rfl

/-- A shared crew has as many workers as the trigger asks for. -/
theorem TriggerSettings.exists_of_sharedCrew {id : String} {default : Nat} {t : TriggerSettings}
    {w : Workshop} {crew : Crew} (h : t.sharedCrew id default w = .ok crew) :
    ∃ count, t.workerCount id default = .ok count ∧ w.crew .shared count = .ok crew := by
  rw [sharedCrew] at h
  split at h
  · cases h
  next count hcount => exact ⟨count, hcount, h⟩

theorem TriggerSettings.fresh_of_sharedCrew {id : String} {default : Nat} {t : TriggerSettings} {w : Workshop}
    {crew : Crew} (h : t.sharedCrew id default w = .ok crew) : crew.Fresh := by
  obtain ⟨count, -, hcrew⟩ := exists_of_sharedCrew h
  exact Workshop.fresh_of_crew hcrew

/-- What a factory makes of a trigger: a new source, with the settings that it read and the crew of its
kind. -/
inductive Source.Built (id : String) (t : TriggerSettings) (w : Workshop) : String → Source → Prop
  | generator (settings : GeneratorSettings) {crew : Crew} (h : t.sharedCrew id 1 w = .ok crew) :
      Built id t w "generator" (.generator (.new ⟨id, "generator", .async⟩ settings t.workerTimeout crew))
  | nats (settings : QueueSettings) {processors : Nat} {crew : Crew}
      (h : t.sharedCrew id processors w = .ok crew) :
      Built id t w "nats" (.queue (.new ⟨id, "nats", .async⟩ settings .never t.workerTimeout crew))
  | rabbitMq (settings : QueueSettings) {crew : Crew} (h : w.crew .single 1 = .ok crew) :
      Built id t w "rabbit-mq"
        (.queue (.new ⟨id, "rabbit-mq", .async⟩ settings .onSubmitSuccess t.workerTimeout crew))
  | kinesis (settings : StreamSettings) {crew : Crew}
      (h : w.crew .exclusive settings.shards.length = .ok crew) :
      Built id t w "kinesis" (.stream (.new ⟨id, "kinesis", .async⟩ settings crew))
  | itemPoller (settings : ItemPollSettings) {crew : Crew} (h : t.sharedCrew id 1 w = .ok crew) :
      Built id t w "v3io-item-poller" (.poll (.new ⟨id, "v3io-item-poller", .async⟩
        (.items (.new id settings)) settings.poll t.workerTimeout crew))

/-- **What the factories make**, of every kind that does not serve requests. -/
theorem Source.built_of_factory {processors : Nat} {kind : String} {factory : SourceFactory}
    (hf : (kind, factory) ∈ builtinSources ++ brokerSources processors ++ streamSources ++ itemSources)
    (hkind : kind ≠ "http") {id : String} {trigger : TriggerSettings} {workshop : Workshop} {s : Source}
    (h : factory id trigger workshop = .ok s) : Built id trigger workshop kind s := by
  simp only [builtinSources, brokerSources, streamSources, itemSources, List.cons_append, List.nil_append,
    List.mem_cons, Prod.mk.injEq, List.not_mem_nil, or_false] at hf
  rcases hf with ⟨rfl, rfl⟩ | ⟨rfl, rfl⟩ | ⟨rfl, rfl⟩ | ⟨rfl, rfl⟩ | ⟨rfl, rfl⟩ | ⟨rfl, rfl⟩
  · exact absurd rfl hkind
  · rw [SourceFactory.generator] at h
    split at h
    · cases h
    · obtain ⟨crew, hcrew, rfl⟩ := exists_of_map_eq_ok h
      exact .generator _ hcrew
  · rw [SourceFactory.nats] at h
    split at h
    · cases h
    · obtain ⟨crew, hcrew, rfl⟩ := exists_of_map_eq_ok h
      exact .nats _ hcrew
  · rw [SourceFactory.rabbitMq] at h
    split at h
    · cases h
    · obtain ⟨crew, hcrew, rfl⟩ := exists_of_map_eq_ok h
      exact .rabbitMq _ hcrew
  · rw [SourceFactory.kinesis] at h
    split at h
    · cases h
    · obtain ⟨crew, hcrew, rfl⟩ := exists_of_map_eq_ok h
      exact .kinesis _ hcrew
  · rw [SourceFactory.itemPoller] at h
    split at h
    · cases h
    · obtain ⟨crew, hcrew, rfl⟩ := exists_of_map_eq_ok h
      exact .itemPoller _ hcrew

/-- What is known of a source of a kind that was just made. -/
structure Source.Made (kind : String) (s : Source) : Prop where
  new : s.New
  acknowledges : kind = "rabbit-mq" → ∃ q, s = .queue q ∧ q.policy = .onSubmitSuccess
  stamps : kind = "v3io-item-poller" → ∃ polled p, s = .poll polled ∧ polled.driver = .items p

/-- **The factories make new sources**, of every kind that does not serve requests. -/
theorem Source.made_of_factory {processors : Nat} {kind : String} {factory : SourceFactory}
    (hf : (kind, factory) ∈ builtinSources ++ brokerSources processors ++ streamSources ++ itemSources)
    (hkind : kind ≠ "http") {id : String} {trigger : TriggerSettings} {workshop : Workshop} {s : Source}
    (h : factory id trigger workshop = .ok s) : s.Made kind := by
  cases built_of_factory hf hkind h with
  | generator settings hcrew =>
    exact ⟨.generator _ _ _ (TriggerSettings.fresh_of_sharedCrew hcrew), by simp, by simp⟩
  | nats settings hcrew =>
    exact ⟨.queue _ _ _ _ (TriggerSettings.fresh_of_sharedCrew hcrew), by simp, by simp⟩
  | rabbitMq settings hcrew =>
    exact ⟨.queue _ _ _ _ (Workshop.fresh_of_crew hcrew), fun _ => ⟨_, rfl, rfl⟩, by simp⟩
  | kinesis settings hcrew =>
    exact ⟨.stream _ _ (Workshop.fresh_of_crew hcrew), by simp, by simp⟩
  | itemPoller settings hcrew =>
    exact ⟨.poll _ _ _ _ (TriggerSettings.fresh_of_sharedCrew hcrew), by simp, fun _ => ⟨_, _, rfl, rfl⟩⟩

/-! ### Histories -/

/-- A source, what happens around it, and what happened since its run began. -/
structure SourceHistory extends Logbook where
  world : World
  source : Source

namespace SourceHistory

/-- A source that never ran. -/
def opened (world : World) (source : Source) : SourceHistory := ⟨.blank source.desk.counts, world, source⟩

/-- One move of anybody that begins no run. -/
inductive Proceeds : SourceHistory → SourceHistory → Prop
  /-- Anything else happens around the source. -/
  | passes (s : SourceHistory) {world : World} (h : s.world.Advances world) : Proceeds s { s with world }
  /-- A task of the source moves. -/
  | works (s : SourceHistory) {handle : Nat} {world : World} {source : Source}
      (h : s.source.stepTask handle s.world = some (world, source)) :
      Proceeds s { s with
        world, source, entered := s.entered ++ s.world.ambient.callsSince world.ambient }
  /-- Somebody asks to stop, and nobody else does. -/
  | asks (s : SourceHistory) (force : Bool) (h : s.stop = none) : Proceeds s { s with stop := some (.ready force) }
  /-- The stop has begun. -/
  | halts (s : SourceHistory) {stop next : Stop} {world : World} {source : Source} (h : s.stop = some stop)
      (hs : s.source.stepStop stop s.world = some (.goes next, world, source)) :
      Proceeds s { s with world, source, stop := some next, forced := s.forced || stop.isForced }
  /-- The stop returns. -/
  | returns (s : SourceHistory) {stop : Stop} {result : Except Error (Option String)} {world : World}
      {source : Source} (h : s.stop = some stop)
      (hs : s.source.stepStop stop s.world = some (.ends result, world, source)) :
      Proceeds s { s with world, source, stop := none }
  /-- The source is not started, though somebody tried. -/
  | refused (s : SourceHistory) {token : Option String} {e : Error} {world : World} {source : Source}
      (h : s.stop = none) (hs : s.source.start token s.world = (.error e, world, source)) :
      Proceeds s { s with world, source }

/-- One move of anybody. -/
inductive Step : SourceHistory → SourceHistory → Prop
  | proceeds {s s' : SourceHistory} (h : Proceeds s s') : Step s s'
  /-- A run begins, and the book is opened anew. -/
  | starts (s : SourceHistory) {token : Option String} {world : World} {source : Source} (h : s.stop = none)
      (hs : s.source.start token s.world = (.ok (), world, source)) :
      Step s ⟨.blank s.source.desk.counts, world, source⟩

/-- What is in order at a source of any kind. -/
inductive Sound (members : List Worker) (s : SourceHistory) : Prop
  | of_kind {σ τ : Type} {k : Workload σ τ} {wrap : σ → Source} {inner : σ} (kind : Source.Kind k wrap)
      (hsource : s.source = wrap inner) (hsound : k.Sound members s.toLogbook s.world inner)

variable {members : List Worker} {s s' : SourceHistory}

theorem sound_of_fresh {σ τ : Type} {k : Workload σ τ} {wrap : σ → Source} (kind : Source.Kind k wrap)
    {world : World} (hmemory : world.InMemory) {inner : σ} (hnew : k.rules.lifecycle inner = .new)
    (hbelongs : k.Belongs inner) (hfresh : (k.desk inner).crew.Fresh) :
    Sound (wrap inner).desk.crew.members (opened world (wrap inner)) := by
  refine .of_kind kind rfl ?_
  rw [opened, kind.desk]
  exact .of_fresh hnew hmemory hbelongs hfresh

theorem sound_opened {world : World} {source : Source} (h : source.New) (hmemory : world.InMemory) :
    Sound source.desk.crew.members (opened world source) := by
  cases h with
  | generator info settings limit hfresh =>
    exact sound_of_fresh Source.kind_generator hmemory rfl trivial hfresh
  | queue info settings policy limit hfresh =>
    exact sound_of_fresh (Source.kind_queue policy) hmemory rfl rfl hfresh
  | stream info settings hfresh =>
    exact sound_of_fresh Source.kind_stream hmemory rfl trivial hfresh
  | poll info driver settings limit hfresh =>
    exact sound_of_fresh (Source.kind_poll driver.stamp?) hmemory rfl rfl hfresh

/-- Where a stop returns, all is in order and nothing runs. -/
theorem Sound.returned (h : Sound members s) {stop : Stop} {result : Except Error (Option String)}
    {world : World} {source : Source} (hstop : s.stop = some stop)
    (hs : s.source.stepStop stop s.world = some (.ends result, world, source)) :
    Sound members { s with world, source, stop := none } ∧ source.Quiet := by
  obtain ⟨kind, hsource, hsound⟩ := h
  rw [hsource] at hs
  obtain ⟨inner', hinner, rfl⟩ := kind.stepStop hs
  obtain ⟨hsound', hrun, hlive⟩ := hsound.returns kind.lawful hstop hinner
  refine ⟨.of_kind kind rfl hsound', ?_, ?_⟩
  · rw [kind.runs]
    exact hrun
  · rw [kind.runs, Lifecycle.signals, hlive]
    rfl

/-- **One move of anybody.** -/
theorem Sound.step (hd : (members.map Worker.serial).Nodup) (h : Sound members s) (hs : Step s s') :
    Sound members s' := by
  cases hs with
  | proceeds hs =>
    cases hs with
    | returns hstop hreturn => exact (h.returned hstop hreturn).1
    | passes hadvances =>
      obtain ⟨kind, hsource, hsound⟩ := h
      exact .of_kind kind hsource ⟨hsound.belongs, hsound.agree.passes kind.lawful hadvances⟩
    | works hwork =>
      obtain ⟨kind, hsource, hsound⟩ := h
      rw [hsource] at hwork
      obtain ⟨inner', hinner, rfl⟩ := kind.stepTask hwork
      exact .of_kind kind rfl (hsound.works kind.lawful hd hinner)
    | asks force hstop =>
      obtain ⟨kind, hsource, hsound⟩ := h
      have htended : Tended none _ := hstop ▸ hsound.agree.tended
      exact .of_kind kind hsource ⟨hsound.belongs, hsound.agree.of_tended (htended.ready force)⟩
    | halts hstop hhalt =>
      obtain ⟨kind, hsource, hsound⟩ := h
      rw [hsource] at hhalt
      obtain ⟨inner', hinner, rfl⟩ := kind.stepStop hhalt
      exact .of_kind kind rfl (hsound.halts kind.lawful hd hstop hinner)
    | @refused token e world source hstop hstart =>
      obtain ⟨kind, hsource, hsound⟩ := h
      rw [hsource] at hstart
      obtain ⟨result, inner', heq, hstarts⟩ := kind.starts token s.world _
      cases heq.symm.trans hstart
      rcases hsound.starts kind.lawful hstop hstarts with ⟨_, -, hsound'⟩ | ⟨hok, -⟩
      · exact .of_kind kind rfl hsound'
      · cases hok
  | @starts token world source hstop hstart =>
    obtain ⟨kind, hsource, hsound⟩ := h
    rw [hsource] at hstart
    obtain ⟨result, inner', heq, hstarts⟩ := kind.starts token s.world _
    cases heq.symm.trans hstart
    rcases hsound.starts kind.lawful hstop hstarts with ⟨_, herror, -⟩ | ⟨-, hsound'⟩
    · cases herror
    · refine .of_kind kind rfl ?_
      rw [hsource, kind.desk]
      exact hsound'

/-! ### The law -/

/-- A source stays quiet until it is started, and its function is not entered. -/
theorem quiet_of_proceeds (h : s.source.Quiet) (hs : Proceeds s s') :
    s'.source.Quiet ∧ s'.entered = s.entered := by
  cases hs with
  | passes hadvances => exact ⟨h, rfl⟩
  | works hwork =>
    obtain ⟨signal, htask, -⟩ := Source.runs_of_stepTask hwork
    have hmem := Lifecycle.mem_alive_of_task? htask
    rw [Lifecycle.alive, h.live] at hmem
    cases hmem
  | asks force hstop => exact ⟨h, rfl⟩
  | halts hstop hhalt =>
    rcases Lifecycle.afterStop_cases (Source.runs_of_stepStop hhalt) with ⟨_, -, -, hm, -⟩ |
      ⟨_, -, hrun, -⟩ | ⟨_, -, -, hm, -⟩
    · cases hm
    · cases h.running.symm.trans hrun
    · cases hm
  | @returns stop result world source hstop hreturn =>
    have hsame : source.runs = s.source.runs := by
      rcases Lifecycle.afterStop_cases (Source.runs_of_stepStop hreturn) with ⟨_, -, -, -, heq⟩ |
        ⟨_, -, -, hm, -⟩ | ⟨_, -, -, -, heq⟩
      · exact heq
      · cases hm
      · exact heq
    exact ⟨⟨hsame ▸ h.running, hsame ▸ h.live⟩, rfl⟩
  | @refused token e world source hstop hstart =>
    refine ⟨?_, rfl⟩
    have hstarted := Source.runs_of_start hstart
    generalize hruns : source.runs = runs at hstarted
    cases hstarted with
    | refused => exact ⟨hruns ▸ h.running, hruns ▸ h.live⟩
    | failed hrun =>
      refine ⟨by rw [hruns]; rfl, ?_⟩
      have hlive : s.source.runs.begin.2.live = s.source.runs.live := by
        rw [Lifecycle.begin]
        split <;> rfl
      rw [hruns]
      exact hlive.trans h.live

theorem quiet_of_reachable (h : s.source.Quiet) (hr : Relation.ReflTransGen Proceeds s s') :
    s'.source.Quiet ∧ s'.entered = s.entered := by
  induction hr with
  | refl => exact ⟨h, rfl⟩
  | tail _ hs ih =>
    obtain ⟨hquiet, hentered⟩ := quiet_of_proceeds ih.1 hs
    exact ⟨hquiet, hentered.trans ih.2⟩

/-- **The law of a stop that has returned.** No task is left, no call is in progress, no worker is missing;
and if no stop of the run was forced, every call since the run began is counted, and what is to follow it
has happened. -/
structure Rested (members : List Worker) (s : SourceHistory) : Prop where
  tasks : s.source.tasks = []
  underway : s.source.underway = []
  idle : s.source.desk.crew.pool.idle.Perm members
  available : s.source.desk.crew.available = s.source.desk.crew.capacity
  /-- Until a start succeeds, the function is not entered. -/
  quiet : ∀ s', Relation.ReflTransGen Proceeds s s' → s'.entered = s.entered
  counted : s.forced = false → s.base.Tallied s.entered s.source.desk.counts
  followed : s.forced = false → ∀ call ∈ s.entered, s.source.Followed s.world call

/-- A source that is in order and quiet is at rest. -/
theorem Sound.rested (h : Sound members s) (hquiet : s.source.Quiet) : Rested members s := by
  obtain @⟨σ, τ, k, wrap, inner, kind, hsource, hsound⟩ := h
  have hlive : (k.rules.lifecycle inner).live = [] := by
    have hnil := hquiet.live
    rw [hsource, kind.runs] at hnil
    exact List.map_eq_nil_iff.mp hnil
  obtain ⟨hidle, havailable⟩ := hsound.agree.restored hlive
  refine ⟨?_, ?_, ?_, ?_, fun s' hr => (quiet_of_reachable hquiet hr).2, fun hforced => ?_,
    fun hforced call hcall => ?_⟩
  · rw [← Source.alive_runs, Lifecycle.alive, hquiet.live]
    rfl
  · rw [hsource, kind.underway, Workload.duties_eq_none hlive]
    rfl
  · rw [hsource, kind.desk]
    exact hidle
  · rw [hsource, kind.desk]
    exact havailable
  · rw [hsource, kind.desk]
    exact (hsound.agree.finished hlive hforced).1
  · rw [hsource]
    exact kind.followed _ _ _ hsound.belongs ((hsound.agree.finished hlive hforced).2 call hcall)

theorem Sound.of_reachable (hd : (members.map Worker.serial).Nodup) (h : Sound members s)
    (hr : Relation.ReflTransGen Step s s') : Sound members s' := by
  induction hr with
  | refl => exact h
  | tail _ hs ih => exact ih.step hd hs

/-- **A stop that has returned leaves a source at rest**, whatever its kind, and whenever the stop came. -/
theorem rested_of_returned {world : World} {source : Source} (hnew : source.New) (hmemory : world.InMemory)
    {s : SourceHistory} (hr : Relation.ReflTransGen Step (opened world source) s) {stop : Stop}
    {result : Except Error (Option String)} {world' : World} {source' : Source} (hstop : s.stop = some stop)
    (hs : s.source.stepStop stop s.world = some (.ends result, world', source')) :
    Rested source.desk.crew.members { s with world := world', source := source', stop := none } := by
  have hsound := (sound_opened hnew hmemory).of_reachable hnew.fresh.distinct hr
  obtain ⟨hsound', hquiet⟩ := hsound.returned hstop hs
  exact hsound'.rested hquiet

/-- A broker with one delivery. -/
def oneDelivery : World :=
  let w := World.start ⟨0, 0⟩ .echo
  { w with clients := { w.clients with broker := (w.clients.broker.publish "orders" .empty [] ⟨0, 0⟩).2 } }

theorem inMemory_oneDelivery : oneDelivery.InMemory :=
  (World.advances_of_grows (Broker.grows_publish "orders" .empty [] ⟨0, 0⟩ _) _).memory
    (World.inMemory_start ⟨0, 0⟩ .echo)

/-- A source that acknowledges what was handled. -/
def acknowledging : SourceHistory := opened oneDelivery (.queue
  (.new ⟨"orders", "rabbit-mq", .async⟩ ⟨"orders", none⟩ .onSubmitSuccess 1000 (.ofIndices .single [0])))

/-- The source can be asked to stop while the function runs on a delivery; and when the stop returns, this
call is counted and the delivery acknowledged. -/
theorem rested_after_delivery : ∃ asked s source, Relation.ReflTransGen Step acknowledging asked ∧
    asked.stop = some (.ready false) ∧ Relation.ReflTransGen Step acknowledging s ∧
    s.stop = some (.joining [0]) ∧ asked.source.underway = s.entered ∧ s.entered.length = 1 ∧
    s.source.stepStop (.joining [0]) s.world = some (.ends (.ok none), s.world, source) ∧
    s.forced = false ∧ source.desk.counts.success = 1 ∧
    (s.world.clients.broker.topic "orders").acked = [1] ∧
    Rested acknowledging.source.desk.crew.members { s with source, stop := none } := by
  have hstarted := Relation.ReflTransGen.single (@Step.starts acknowledging none _ _ rfl rfl)
  have hreceived := (((hstarted.tail (.proceeds (@Proceeds.works _ 0 _ _ rfl))).tail
    (.proceeds (@Proceeds.works _ 0 _ _ rfl))).tail (.proceeds (@Proceeds.works _ 0 _ _ rfl))).tail
    (.proceeds (@Proceeds.works _ 0 _ _ rfl))
  have hentered := ((hreceived.tail (.proceeds (@Proceeds.works _ 0 _ _ rfl))).tail
    (.proceeds (@Proceeds.works _ 0 _ _ rfl))).tail (.proceeds (@Proceeds.works _ 0 _ _ rfl))
  have hasked := hentered.tail (.proceeds (.asks _ false rfl))
  have hhalted := hasked.tail (.proceeds (@Proceeds.halts _ (.ready false) _ _ _ rfl rfl))
  have hacked := ((hhalted.tail (.proceeds (@Proceeds.works _ 0 _ _ rfl))).tail
    (.proceeds (@Proceeds.works _ 0 _ _ rfl))).tail (.proceeds (@Proceeds.works _ 0 _ _ rfl))
  exact ⟨_, _, _, hasked, rfl, hacked, rfl, rfl, rfl, rfl, rfl, rfl, rfl, rested_of_returned
    (.queue _ _ _ _ (Crew.fresh_ofIndices _ _)) inMemory_oneDelivery hacked rfl rfl⟩

end SourceHistory

end EventDispatch
