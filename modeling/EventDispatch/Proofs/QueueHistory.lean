import EventDispatch.Factory
import EventDispatch.Proofs.Deliveries
import Mathlib.Logic.Relation

/-!
# A topic with one consumer

A source with a single worker acknowledges what the worker handled. It is the only consumer of its topic,
where anybody may publish at any time. Meanwhile the source is started and stopped again and again, one
call at a time, by force or without, and the function may do as it likes.

Whatever happens, the function is entered with the deliveries in the order in which they were published,
and with each at most once. Exactly those are acknowledged whose run came to its end, each once. What a
forced stop cuts short stays unacknowledged, and nothing else does once the source has stopped.

## One move at a time

When a run ends, its delivery is acknowledged before the task waits for anything, so nobody, not even a
forced stop, comes in between. Both are one move here, as they are one turn of the deterministic
`Schedule`. A task may find out late that it is told to stop, or at once: each of its moves may listen to
any signal.

## What is deliberately absent

Time is not scheduled, and nothing is said of what the function does. Between any two moves the world may
change in any way that leaves the topic alone. Acknowledgements neither take a while nor fail on the way,
since the broker is in memory.

## Main definitions

* `QueueHistory`: the source, the stop that is open, and what has happened to the deliveries so far.
* `QueueHistory.Step`: one move of anybody.
* `QueueHistory.Delivered`: the law.
* `QueueHistory.Books`: where each delivery is, and that all there is agrees on it.

## Main results

* `QueueHistory.Sound.step`: what one move of anybody keeps.
* `QueueHistory.delivered_of_reachable`: the law, for every history.
-/

namespace EventDispatch

/-! ### Publishing -/

namespace Broker

variable {b : Broker} {name : String}

/-- A message that is published comes after all that are pending. -/
theorem stock_publish {pending unacked : List Delivery} {acked : List Nat}
    (h : b.stock name = (pending, unacked, acked)) (body : ByteArray) (headers : Keyed String)
    (now : Timestamp) : (b.publish name body headers now).2.stock name =
      (pending ++ [⟨b.published + 1, name, body, headers, now⟩], unacked, acked) := by
  simp only [stock, Topic.stock, Prod.mk.injEq] at h
  obtain ⟨rfl, rfl, rfl⟩ := h
  rw [stock, publish, topic_setTopic_self, Topic.stock_notify]
  rfl

/-- Other topics do not notice it. -/
theorem stock_publish_of_ne {other : String} (hne : other ≠ name) (body : ByteArray)
    (headers : Keyed String) (now : Timestamp) :
    (b.publish other body headers now).2.stock name = b.stock name := by
  rw [stock, publish, topic_setTopic, if_neg (Ne.symm hne)]
  rfl

end Broker

/-! ### A single task -/

namespace Lifecycle

variable {τ : Type} {l : Lifecycle (Task τ)} {handle : Nat} {task : Task τ}

theorem live_eq_of_alone (halone : l.live.length ≤ 1) (htask : l.task? handle = some task) :
    l.live = [(handle, task)] := by
  rw [task?] at htask
  rcases hlive : l.live with _ | ⟨t, _ | ⟨t', live⟩⟩
  · rw [hlive] at htask
    cases htask
  · rw [hlive, List.lookup_cons] at htask
    split at htask
    next heq =>
      cases htask
      rw [eq_of_beq heq]
    next => cases htask
  · rw [hlive] at halone
    simp at halone

theorem live_halt (l : Lifecycle (Task τ)) : l.halt.2.live = l.live := by
  rw [halt]
  split <;> rfl

/-- The only task moves. -/
theorem live_moved_of_alone (halone : l.live.length ≤ 1) (htask : l.task? handle = some task)
    (m : Move τ Unit) : (l.moved handle task.signal m).live =
      (m.next?.map fun next => (handle, Task.mk task.signal next)).toList := by
  have hlive := live_eq_of_alone halone htask
  cases m with
  | goes next => simp [moved, replace, hlive, Move.next?]
  | ends result => simp [moved, finish, hlive, Move.next?]

end Lifecycle

namespace QueueSource

variable {worker : Worker} {q q' : QueueSource} {w w' : World}

/-- At most one task lives, which has the worker for itself; while none lives, the worker is idle. -/
structure Tidy (worker : Worker) (q : QueueSource) : Prop where
  alone : q.lifecycle.live.length ≤ 1
  fits : ∀ t ∈ q.lifecycle.live, t.2.state.Fits worker q
  rests : q.lifecycle.live = [] → q.desk.crew.pool.Solo [worker] 1 []

/-- How far the source is with a delivery. -/
def stage (q : QueueSource) : Stage :=
  match q.lifecycle.live with
  | [] => .free
  | t :: _ => t.2.state.stage

theorem stage_of_task {handle : Nat} {task : Task Listener} (h : q.Tidy worker)
    (htask : q.lifecycle.task? handle = some task) : q.stage = task.state.stage := by
  rw [stage, Lifecycle.live_eq_of_alone h.alone htask]

theorem Tidy.fits_task {handle : Nat} {task : Task Listener} (h : q.Tidy worker)
    (htask : q.lifecycle.task? handle = some task) : task.state.Fits worker q := by
  refine h.fits (handle, task) ?_
  rw [Lifecycle.live_eq_of_alone h.alone htask]
  exact List.mem_singleton_self _

/-- The only task has moved. -/
theorem Tidy.moved {handle : Nat} {task : Task Listener} {m : Move Listener Unit}
    (halone : q.lifecycle.live.length ≤ 1) (htask : q.lifecycle.task? handle = some task)
    (hfits : Listener.FitsAfter worker q m) :
    Tidy worker { q with lifecycle := q.lifecycle.moved handle task.signal m } ∧
      stage { q with lifecycle := q.lifecycle.moved handle task.signal m } = Listener.stageAfter m := by
  have hlive := Lifecycle.live_moved_of_alone halone htask m
  cases m with
  | goes next =>
    refine ⟨⟨?_, fun t ht => ?_, fun hnil => ?_⟩, ?_⟩
    · rw [hlive]
      exact Nat.le_refl 1
    · rw [hlive] at ht
      obtain rfl := List.mem_singleton.mp ht
      exact hfits
    · rw [hlive] at hnil
      cases hnil
    · rw [stage, hlive]
      rfl
  | ends result =>
    refine ⟨⟨?_, fun t ht => ?_, fun _ => hfits⟩, ?_⟩
    · rw [hlive]
      exact Nat.zero_le 1
    · rw [hlive] at ht
      cases ht
    · rw [stage, hlive]
      rfl

theorem Calm.refl (w : World) (q : QueueSource) : Calm w w q q := ⟨⟨rfl, rfl, rfl, rfl, rfl⟩, rfl, rfl⟩

theorem Calm.setLifecycle (h : Calm w w' q q') (l : Lifecycle (Task Listener)) :
    Calm w w' q { q' with lifecycle := l } :=
  ⟨⟨h.published, h.route, h.settings, h.policy, h.sharing⟩, h.stock, h.counts⟩

theorem Calm.trans {w'' : World} {q'' : QueueSource} (h : Calm w w' q q') (h' : Calm w' w'' q' q'') :
    Calm w w'' q q'' where
  published := h'.published.trans h.published
  route := h'.route.trans h.route
  settings := h'.settings.trans h.settings
  policy := h'.policy.trans h.policy
  sharing := h'.sharing.trans h.sharing
  stock := by
    have hstock := h'.stock
    rw [h.settings] at hstock
    exact hstock.trans h.stock
  counts := h'.counts.trans h.counts

/-- The only task is given up. -/
theorem Tidy.dropped {handle : Nat} {task : Task Listener} (h : q.Tidy worker)
    (htask : q.lifecycle.task? handle = some task)
    (hs : drop task.state w { q with lifecycle := q.lifecycle.finish handle } = (w', q')) :
    q'.Tidy worker ∧ Calm w w' q q' := by
  have hfits : task.state.Fits worker { q with lifecycle := q.lifecycle.finish handle } :=
    h.fits_task htask
  obtain ⟨hrests, hcalm⟩ := Listener.drop_effect (w := w) hfits
  have hlifecycle := rules_sealed.get_drop task.state w { q with lifecycle := q.lifecycle.finish handle }
  change (drop task.state w { q with lifecycle := q.lifecycle.finish handle }).2.lifecycle =
    q.lifecycle.finish handle at hlifecycle
  rw [hs] at hrests hcalm hlifecycle
  have hlive : q'.lifecycle.live = [] := by
    rw [hlifecycle]
    exact Lifecycle.live_moved_of_alone h.alone htask (.ends ())
  refine ⟨⟨?_, fun t ht => ?_, fun _ => hrests⟩, ((Calm.refl w q).setLifecycle _).trans hcalm⟩
  · rw [hlive]
    exact Nat.zero_le 1
  · rw [hlive] at ht
    cases ht

/-- A source that is stopped, by force or without, leaves the worker to the task that still lives, and
the topic as it is. -/
theorem Tidy.stopped (h : q.Tidy worker) {stop : Stop} {m : Move Stop Unit}
    (hs : rules.stop stop w q = some (m, w', q')) : q'.Tidy worker ∧ Calm w w' q q' := by
  refine TaskRules.stop_gives (P := fun w' q' => q'.Tidy worker ∧ Calm w w' q q') (fun hp => ?_)
    (fun handle task w₁ q₁ htask hp => ?_) hs ⟨h, .refl w q⟩
  · have hlive : q.lifecycle.halt.2.live = q.lifecycle.live := Lifecycle.live_halt q.lifecycle
    refine ⟨⟨?_, fun t ht => ?_, fun hnil => ?_⟩, (Calm.refl w q).setLifecycle _⟩
    · exact hlive.symm ▸ h.alone
    · exact h.fits t (hlive ▸ ht)
    · exact h.rests (hlive ▸ hnil)
  · obtain ⟨htidy, hcalm⟩ := hp.1.dropped htask (w := w₁) rfl
    exact ⟨htidy, hp.2.trans hcalm⟩

/-- A source without tasks starts a single one. -/
theorem start_single (hsingle : q.desk.crew.sharing = .single) (hrun : q.lifecycle.running = false) :
    q.start = (.ok (), { q with
      lifecycle := { q.lifecycle with running := true, signal := q.lifecycle.signal + 1 }.spawnAll
        [⟨q.lifecycle.signal + 1, .checking⟩] }) := by
  have hone : q.listeners = 1 := by
    simp [listeners, Crew.shareable, hsingle]
  rw [start, hone]
  exact TaskRules.start_eq (r := rules) hrun [.checking]

/-- The deliveries in hand of the tasks that are gone. -/
def lost (q q' : QueueSource) : List Delivery :=
  (q.lifecycle.live.filter fun t => !q'.lifecycle.alive.contains t.1).flatMap fun t => t.2.state.stage.held

theorem lost_of_live_eq (h : q'.lifecycle.live = q.lifecycle.live) : q.lost q' = [] := by
  have hkept : (q.lifecycle.live.filter fun t => !q'.lifecycle.alive.contains t.1) = [] := by
    refine List.filter_eq_nil_iff.mpr fun t ht => ?_
    rw [Lifecycle.alive, h]
    simpa using ⟨t.2, ht⟩
  rw [lost, hkept, List.flatMap_nil]

theorem lost_of_live_nil (h : q.Tidy worker) (hnil : q'.lifecycle.live = []) :
    q.lost q' = q.stage.held := by
  have hgone : (q.lifecycle.live.filter fun t => !q'.lifecycle.alive.contains t.1) = q.lifecycle.live := by
    refine List.filter_eq_self.mpr fun t _ => ?_
    rw [Lifecycle.alive, hnil]
    rfl
  rw [lost, hgone, stage]
  rcases hlive : q.lifecycle.live with _ | ⟨t, _ | ⟨t', live⟩⟩
  · rfl
  · simp
  · have halone := h.alone
    rw [hlive] at halone
    simp at halone

end QueueSource

/-! ### Histories -/

/-- A source, the world around it, the call that stops the source while it is open, and what has happened
to the deliveries of its topic so far. -/
structure QueueHistory where
  world : World
  source : QueueSource
  stop : Option Stop
  /-- The deliveries, in the order in which they were published. -/
  published : List Delivery
  /-- The events with which the source entered the function, in order. -/
  entered : List Event
  /-- The deliveries whose run came to its end, in order. -/
  completed : List Delivery
  /-- The deliveries that were in hand of a task when it was given up. -/
  cut : List Delivery

namespace QueueHistory

/-- A broker where nothing was published, reached at once and without failures, and a source. -/
def opened (world : World) (source : QueueSource) : QueueHistory :=
  { world := { world with clients := .new }, source, stop := none, published := [], entered := [],
    completed := [], cut := [] }

/-- The topic that the source listens to. -/
def name (s : QueueHistory) : String := s.source.settings.topic

/-- The state of that topic. -/
def topic (s : QueueHistory) : Topic := s.world.clients.broker.topic s.name

/-- The events with which the function was entered meanwhile. -/
def newEntries (w w' : World) : List Event :=
  (w'.ambient.entries.toList.drop w.ambient.entries.size).map Entry.event

/-- One move of anybody. -/
inductive Step : QueueHistory → QueueHistory → Prop
  /-- Somebody publishes, on this topic or another. -/
  | publishes (s : QueueHistory) (topic : String) (body : ByteArray) (headers : Keyed String) (now : Timestamp) :
      Step s { s with
        world := { s.world with clients := { s.world.clients with
          broker := (s.world.clients.broker.publish topic body headers now).2 } }
        published := s.published ++
          if topic = s.name then [⟨s.world.clients.broker.published + 1, topic, body, headers, now⟩]
          else [] }
  /-- Time passes, and other things happen elsewhere. -/
  | passes (s : QueueHistory) (world : World) (htopic : world.clients.broker.topic s.name = s.topic)
      (hpublished : s.world.clients.broker.published ≤ world.clients.broker.published)
      (hroute : world.clients.route .ack = s.world.clients.route .ack) : Step s { s with world }
  /-- Somebody starts the source, or is told that it runs. -/
  | starts (s : QueueHistory) (hstop : s.stop = none) : Step s { s with source := s.source.start.2 }
  /-- Somebody stops the source, by force or without. -/
  | stops (s : QueueHistory) (force : Bool) (hstop : s.stop = none) :
      Step s { s with stop := some (.ready force) }
  /-- The stop sends the signal and takes the handles. -/
  | halts {s : QueueHistory} {stop next : Stop} {world : World} {source : QueueSource}
      (hstop : s.stop = some stop)
      (hs : QueueSource.rules.stop stop s.world s.source = some (.goes next, world, source)) :
      Step s { s with world, source, stop := some next, cut := s.cut ++ s.source.lost source }
  /-- The stop returns. -/
  | returns {s : QueueHistory} {stop : Stop} {world : World} {source : QueueSource}
      (hstop : s.stop = some stop)
      (hs : QueueSource.rules.stop stop s.world s.source = some (.ends (), world, source)) :
      Step s { s with world, source, stop := none }
  /-- A task moves or ends. -/
  | works {s : QueueHistory} {handle : Nat} {task : Task Listener} {signal : Signal}
      {m : Move Listener Unit} {world : World} {source : QueueSource}
      (htask : s.source.lifecycle.task? handle = some task)
      (hs : s.source.turn signal task.state s.world = some (m, world, source)) :
      Step s { s with
        world
        source := { source with lifecycle := source.lifecycle.moved handle task.signal m }
        entered := s.entered ++ newEntries s.world world
        completed := s.completed ++ task.state.stage.done (Listener.stageAfter m) }

/-- **The law.** Deliveries are handled in order, and exactly those are acknowledged whose run came to its
end. -/
structure Delivered (s : QueueHistory) : Prop where
  /-- Deliveries are told apart by their ids. -/
  rising : s.published.Pairwise fun d later => d.id < later.id
  /-- The function is entered with deliveries in publish order, with each at most once, and only runs on
  them come to an end. -/
  in_order : ∃ runs : List Delivery, runs.Sublist s.published ∧ List.Forall₂ Event.IsOf runs s.entered ∧
    s.completed.Sublist runs
  /-- A delivery is acknowledged when its run comes to its end, and never otherwise. -/
  handled : s.topic.acked = s.completed.map Delivery.id
  /-- No delivery is acknowledged twice. -/
  once : s.topic.acked.Nodup
  /-- Successes and failures together are as many as acknowledgements, modulo the width of the counters. -/
  counted : s.source.desk.counts.success + s.source.desk.counts.failure =
    UInt64.ofNat s.topic.acked.length
  /-- No failure is one to find the worker. -/
  found : s.source.desk.counts.allocationFailures = 0
  /-- While the source is stopped, those deliveries are unacknowledged that a forced stop cut short. -/
  unacked : s.stop = none → s.source.lifecycle.running = false → s.topic.unacked = s.cut
  /-- Every delivery is completed, cut short, in hand, or pending. -/
  parted : s.published.Perm
    (s.completed ++ (s.cut ++ (s.source.stage.held ++ s.topic.pending)))

/-! ### The books -/

/-- The deliveries that were received, those that are pending, and those with which the function was
entered, while the source is so far with one: the topic and what has happened agree on them. -/
structure Books (s : QueueHistory) (stage : Stage) (taken pending runs : List Delivery) : Prop where
  issued : ∀ d ∈ s.published, d.id ≤ s.world.clients.broker.published
  rising : s.published.Pairwise fun d later => d.id < later.id
  named : ∀ d ∈ s.published, d.topic = s.name
  split : s.published = taken ++ pending
  stock : s.world.clients.broker.stock s.name =
    (pending, s.cut ++ stage.held, s.completed.map Delivery.id)
  parted : taken.Perm (s.completed ++ (s.cut ++ stage.held))
  in_order : (runs ++ stage.fresh?).Sublist taken
  entered : List.Forall₂ Event.IsOf runs s.entered
  finished : (s.completed ++ stage.running?).Sublist runs

variable {worker : Worker} {s s' : QueueHistory} {stage : Stage} {taken pending runs : List Delivery}

theorem newEntries_of_eq {w w' : World} (h : w'.ambient.entries = w.ambient.entries) :
    newEntries w w' = [] := by
  rw [newEntries, h, ← Array.length_toList, List.drop_length, List.map_nil]

theorem newEntries_of_push {w w' : World} {entry : Entry}
    (h : w'.ambient.entries = w.ambient.entries.push entry) : newEntries w w' = [entry.event] := by
  rw [newEntries, h, Array.toList_push, ← Array.length_toList, List.drop_left]
  rfl

/-- No two deliveries that were received have one id. -/
theorem Books.distinct (h : s.Books stage taken pending runs) :
    ((s.completed ++ (s.cut ++ stage.held)).map Delivery.id).Nodup := by
  have hrising : taken.Pairwise fun d later => d.id < later.id :=
    h.rising.sublist (h.split ▸ List.sublist_append_left taken pending)
  have htaken : (taken.map Delivery.id).Nodup :=
    List.pairwise_map.mpr (hrising.imp fun hlt => Nat.ne_of_lt hlt)
  exact ((h.parted.map Delivery.id).nodup_iff).mp htaken

/-- Nothing happens to the topic. -/
theorem Books.calm (h : s.Books stage taken pending runs) {world : World} {source : QueueSource}
    {stop : Option Stop} (hsettings : source.settings = s.source.settings)
    (hpublished : s.world.clients.broker.published ≤ world.clients.broker.published)
    (hstock : world.clients.broker.stock s.name = s.world.clients.broker.stock s.name) :
    Books { s with world, source, stop } stage taken pending runs := by
  have hname : name { s with world, source, stop } = s.name := by
    rw [name, hsettings]
    rfl
  refine ⟨fun d hd => (h.issued d hd).trans hpublished, h.rising, ?_, h.split, ?_, h.parted, h.in_order,
    h.entered, h.finished⟩
  · rw [hname]
    exact h.named
  · rw [hname]
    exact hstock.trans h.stock

/-- Somebody publishes. -/
theorem Books.publishes (h : s.Books stage taken pending runs) (topic : String) (body : ByteArray)
    (headers : Keyed String) (now : Timestamp) :
    ∃ pending, Books { s with
      world := { s.world with clients := { s.world.clients with
        broker := (s.world.clients.broker.publish topic body headers now).2 } }
      published := s.published ++
        if topic = s.name then [⟨s.world.clients.broker.published + 1, topic, body, headers, now⟩]
        else [] } stage taken pending runs := by
  by_cases htopic : topic = s.name
  · rw [if_pos htopic]
    subst htopic
    refine ⟨_, fun d hd => ?_, ?_, fun d hd => ?_, ?_, Broker.stock_publish h.stock body headers now,
      h.parted, h.in_order, h.entered, h.finished⟩
    · rcases List.mem_append.mp hd with hold | hnew
      · exact (h.issued d hold).trans (Nat.le_succ _)
      · rw [List.mem_singleton.mp hnew]
        exact Nat.le_refl _
    · refine List.pairwise_append.mpr ⟨h.rising, List.pairwise_singleton _ _, fun d hd later hlater => ?_⟩
      rw [List.mem_singleton.mp hlater]
      exact Nat.lt_succ_of_le (h.issued d hd)
    · rcases List.mem_append.mp hd with hold | hnew
      · exact h.named d hold
      · rw [List.mem_singleton.mp hnew]
        rfl
    · rw [h.split, List.append_assoc]
  · rw [if_neg htopic, List.append_nil]
    refine ⟨pending, fun d hd => (h.issued d hd).trans (Nat.le_succ _), h.rising, h.named, h.split, ?_,
      h.parted, h.in_order, h.entered, h.finished⟩
    exact (Broker.stock_publish_of_ne htopic body headers now).trans h.stock

/-- What is in hand is cut short. -/
theorem Books.cut (h : s.Books stage taken pending runs) :
    Books { s with cut := s.cut ++ stage.held } .free taken pending runs := by
  refine ⟨h.issued, h.rising, h.named, h.split, ?_, ?_, ?_, h.entered, ?_⟩
  · rw [Stage.held_free, List.append_nil]
    exact h.stock
  · simpa using h.parted
  · rw [Stage.fresh?_free, List.append_nil]
    exact (List.sublist_append_left _ _).trans h.in_order
  · rw [Stage.running?_free, List.append_nil]
    exact (List.sublist_append_left _ _).trans h.finished

/-- A task moves. -/
theorem Books.works (h : s.Books stage taken pending runs) {after : Stage} {world : World}
    {source source' : QueueSource}
    (heffect : Listener.Effect s.name stage after s.world world s.source source)
    (hframe : QueueSource.Frame s.world world s.source source) (hsettings : source'.settings = source.settings) :
    ∃ taken pending runs, Books { s with
      world
      source := source'
      entered := s.entered ++ newEntries s.world world
      completed := s.completed ++ stage.done after } after taken pending runs := by
  have hissued : ∀ d ∈ s.published, d.id ≤ world.clients.broker.published := fun d hd => by
    rw [hframe.published]
    exact h.issued d hd
  have hname : source'.settings.topic = s.name := by
    rw [hsettings, hframe.settings]
    rfl
  have hnamed : ∀ d ∈ s.published, d.topic = source'.settings.topic := by
    rw [hname]
    exact h.named
  have hsame := congrArg (Broker.stock · world.clients.broker) hname
  cases heffect with
  | rests hstage hstock hentries hcounts =>
    subst hstage
    rw [newEntries_of_eq hentries, Stage.done_self, List.append_nil, List.append_nil]
    exact ⟨taken, pending, runs, hissued, h.rising, hnamed, h.split, hsame.trans (hstock.trans h.stock),
      h.parted, h.in_order, h.entered, h.finished⟩
  | @takes d rest unacked acked hbefore hafter hstock hstock' hentries hcounts =>
    subst hbefore hafter
    obtain ⟨rfl, rfl, rfl⟩ : pending = d :: rest ∧ unacked = s.cut ∧ acked = s.completed.map Delivery.id := by
      simpa [hstock, eq_comm] using h.stock
    have hdone : Stage.free.done (.fresh d) = [] := rfl
    rw [newEntries_of_eq hentries, hdone, List.append_nil, List.append_nil]
    refine ⟨taken ++ [d], rest, runs, hissued, h.rising, hnamed, ?_, hsame.trans hstock', ?_, ?_, h.entered,
      h.finished⟩
    · rw [h.split, List.append_assoc]
      rfl
    · simpa [Stage.held] using h.parted.append_right [d]
    · simpa [Stage.fresh?] using h.in_order.append_right [d]
  | @enters d entry hbefore hafter hevent hstock hentries hcounts =>
    subst hbefore hafter
    have hdone : (Stage.fresh d).done (.running d) = [] := rfl
    rw [newEntries_of_push hentries, hdone, List.append_nil]
    refine ⟨taken, pending, runs ++ [d], hissued, h.rising, hnamed, h.split,
      hsame.trans (hstock.trans h.stock), h.parted, ?_, ?_, ?_⟩
    · simpa [Stage.fresh?] using h.in_order
    · exact List.rel_append h.entered (.cons hevent .nil)
    · simpa [Stage.running?] using h.finished.append_right [d]
  | @completes d succeeded hbefore hafter hstock hentries hcounts =>
    subst hbefore hafter
    have hdone : (Stage.running d).done .free = [d] := rfl
    rw [newEntries_of_eq hentries, hdone, List.append_nil]
    have hmem : d ∈ s.published := by
      rw [h.split]
      exact List.mem_append_left _ (h.parted.mem_iff.mpr (by simp [Stage.held]))
    have hnew : d.id ∉ s.cut.map Delivery.id := by
      have hdistinct := h.distinct
      rw [List.map_append, List.map_append] at hdistinct
      have hcut := (List.nodup_append.mp hdistinct).2.1
      exact fun hm => (List.nodup_append.mp hcut).2.2 d.id hm d.id (List.mem_singleton_self _) rfl
    have hacked : world.clients.broker.stock s.name =
        (pending, s.cut, s.completed.map Delivery.id ++ [d.id]) := by
      rw [← h.named d hmem]
      refine hstock _ _ _ ?_ hnew
      rw [h.named d hmem]
      exact h.stock
    refine ⟨taken, pending, runs, hissued, h.rising, hnamed, h.split, ?_, ?_, ?_, h.entered, ?_⟩
    · refine hsame.trans (hacked.trans ?_)
      simp
    · rw [Stage.held_free, List.append_nil, List.append_assoc]
      exact h.parted.trans (.append_left _ List.perm_append_comm)
    · exact h.in_order
    · rw [Stage.running?_free, List.append_nil]
      exact h.finished

/-! ### What every move keeps -/

/-- The source, its worker, its counts and the books are in order. -/
structure Sound (worker : Worker) (s : QueueHistory) : Prop where
  tended : Tended s.stop s.source.lifecycle
  tidy : s.source.Tidy worker
  single : s.source.desk.crew.sharing = .single
  policy : s.source.policy = .onSubmitSuccess
  route : s.world.clients.route .ack = ⟨none, 0⟩
  counted : s.source.desk.counts.success + s.source.desk.counts.failure = UInt64.ofNat s.completed.length
  found : s.source.desk.counts.allocationFailures = 0
  books : ∃ taken pending runs, s.Books s.source.stage taken pending runs

theorem Sound.delivered (h : s.Sound worker) : Delivered s := by
  obtain ⟨taken, pending, runs, hb⟩ := h.books
  obtain ⟨hpending, hunacked, hacked⟩ : s.topic.pending = pending ∧
      s.topic.unacked = s.cut ++ s.source.stage.held ∧ s.topic.acked = s.completed.map Delivery.id := by
    simpa [topic, Broker.stock, Topic.stock] using hb.stock
  refine ⟨hb.rising, ⟨runs, ?_, hb.entered, ?_⟩, hacked, ?_, ?_, h.found, fun hstop hrun => ?_, ?_⟩
  · refine ((List.sublist_append_left _ _).trans hb.in_order).trans ?_
    rw [hb.split]
    exact List.sublist_append_left _ _
  · exact (List.sublist_append_left _ _).trans hb.finished
  · rw [hacked]
    have hdistinct := hb.distinct
    rw [List.map_append] at hdistinct
    exact (List.nodup_append.mp hdistinct).1
  · rw [hacked, List.length_map]
    exact h.counted
  · have hlive := h.tended.still hrun (by simp [hstop])
    rw [hunacked, QueueSource.stage, hlive, Stage.held_free, List.append_nil]
  · rw [hpending, hb.split, ← List.append_assoc s.cut, ← List.append_assoc]
    exact hb.parted.append_right pending

theorem Sound.works (h : s.Sound worker) {handle : Nat} {task : Task Listener} {signal : Signal}
    {m : Move Listener Unit} {world : World} {source : QueueSource}
    (htask : s.source.lifecycle.task? handle = some task)
    (hs : s.source.turn signal task.state s.world = some (m, world, source)) :
    Sound worker { s with
      world
      source := { source with lifecycle := source.lifecycle.moved handle task.signal m }
      entered := s.entered ++ newEntries s.world world
      completed := s.completed ++ task.state.stage.done (Listener.stageAfter m) } := by
  obtain ⟨heffect, hfits, hframe⟩ :=
    Listener.effect_of_turn h.policy h.route (h.tidy.fits_task htask) hs
  have hlifecycle := QueueSource.lifecycle_of_turn hs
  have htended : Tended s.stop (source.lifecycle.moved handle task.signal m) := by
    rw [hlifecycle]
    exact h.tended.moved handle task.signal m
  rw [← hlifecycle] at htask
  have halone : source.lifecycle.live.length ≤ 1 := by
    rw [hlifecycle]
    exact h.tidy.alone
  obtain ⟨htidy, hstage⟩ := QueueSource.Tidy.moved halone htask hfits
  obtain ⟨hcounted, hfound⟩ := heffect.counts
  obtain ⟨taken, pending, runs, hb⟩ := h.books
  have hbefore : s.source.stage = task.state.stage :=
    QueueSource.stage_of_task h.tidy (hlifecycle ▸ htask)
  rw [← hbefore] at heffect hcounted ⊢
  refine ⟨htended, htidy, hframe.sharing.trans h.single, hframe.policy.trans h.policy,
    hframe.route.trans h.route, ?_, hfound.trans h.found, ?_⟩
  · rw [List.length_append, UInt64.ofNat_add, ← h.counted]
    exact hcounted
  · rw [hstage]
    exact hb.works heffect hframe rfl

theorem Sound.starts (h : s.Sound worker) (hstop : s.stop = none) :
    Sound worker { s with source := s.source.start.2 } := by
  cases hrun : s.source.lifecycle.running with
  | true =>
    have hsame : s.source.start.2 = s.source := by
      simp [QueueSource.start, TaskRules.start, QueueSource.rules, Lifecycle.begin, hrun]
    rw [hsame]
    exact h
  | false =>
    have hlive := h.tended.still hrun (by simp [hstop])
    obtain ⟨taken, pending, runs, hb⟩ := h.books
    rw [show s.source.stage = .free by rw [QueueSource.stage, hlive]] at hb
    obtain ⟨lifecycle, hlifecycle⟩ : ∃ lifecycle, lifecycle =
        { s.source.lifecycle with running := true, signal := s.source.lifecycle.signal + 1 }.spawnAll
          [Task.mk (s.source.lifecycle.signal + 1) Listener.checking] := ⟨_, rfl⟩
    have hsingle : lifecycle.live =
        [(s.source.lifecycle.nextHandle, ⟨s.source.lifecycle.signal + 1, .checking⟩)] := by
      simp [hlifecycle, Lifecycle.spawnAll, Lifecycle.spawn, hlive]
    rw [QueueSource.start_single h.single hrun, ← hlifecycle]
    refine ⟨?_, ⟨?_, fun t ht => ?_, fun hnil => ?_⟩, h.single, h.policy, h.route, h.counted, h.found, taken,
      pending, runs, ?_⟩
    · rw [hstop, hlifecycle]
      exact .started hlive _ _
    · rw [hsingle]
      exact Nat.le_refl 1
    · rw [hsingle] at ht
      obtain rfl := List.mem_singleton.mp ht
      exact h.tidy.rests hlive
    · rw [hsingle] at hnil
      cases hnil
    · have hstage : QueueSource.stage { s.source with lifecycle } = .free := by
        rw [QueueSource.stage, hsingle]
        rfl
      rw [hstage]
      exact hb.calm rfl (Nat.le_refl _) rfl

/-- A stop moves, and the books are balanced again. -/
theorem Sound.of_calm (h : s.Sound worker) {world : World} {source : QueueSource} {stop : Option Stop}
    {cut : List Delivery} (htidy : source.Tidy worker)
    (hcalm : QueueSource.Calm s.world world s.source source) (htended : Tended stop source.lifecycle)
    (hbooks : ∃ taken pending runs,
      Books { s with world, source, stop, cut } source.stage taken pending runs) :
    Sound worker { s with world, source, stop, cut } := by
  refine ⟨htended, htidy, hcalm.sharing.trans h.single, hcalm.policy.trans h.policy,
    hcalm.route.trans h.route, ?_, ?_, hbooks⟩
  · rw [hcalm.counts]
    exact h.counted
  · rw [hcalm.counts]
    exact h.found

/-- A stop begins, and by force it cuts short what is in hand. -/
theorem Sound.halts (h : s.Sound worker) {stop next : Stop} {world : World} {source : QueueSource}
    (hstop : s.stop = some stop)
    (hs : QueueSource.rules.stop stop s.world s.source = some (.goes next, world, source)) :
    Sound worker { s with world, source, stop := some next, cut := s.cut ++ s.source.lost source } := by
  obtain ⟨htidy, hcalm⟩ := h.tidy.stopped hs
  obtain ⟨taken, pending, runs, hb⟩ := h.books
  have htended := h.tended
  rw [hstop] at htended
  rcases Lifecycle.afterStop_cases (TaskRules.afterStop_of_stop QueueSource.rules_sealed.toLawful hs) with
    ⟨_, -, -, hm, -⟩ | ⟨force, rfl, hrun, hm, hlifecycle⟩ | ⟨_, -, -, hm, -⟩
  · cases hm
  · cases hm
    change s.source.lifecycle.running = true at hrun
    change source.lifecycle = s.source.lifecycle.halted force at hlifecycle
    have hhalted : Tended (some (.joining s.source.lifecycle.handles)) source.lifecycle := by
      rw [hlifecycle]
      exact htended.halted hrun
    refine h.of_calm htidy hcalm hhalted ⟨taken, pending, runs, ?_⟩
    cases force with
    | false =>
      have hlive : source.lifecycle.live = s.source.lifecycle.live := by
        rw [hlifecycle]
        rfl
      have hstage : source.stage = s.source.stage := by
        rw [QueueSource.stage, hlive, ← QueueSource.stage]
      rw [QueueSource.lost_of_live_eq hlive, List.append_nil, hstage]
      exact hb.calm hcalm.settings hcalm.published.ge hcalm.stock
    | true =>
      have hlive : source.lifecycle.live = [] := by
        rw [hlifecycle]
        exact htended.live_halted hrun
      have hstage : source.stage = .free := by
        rw [QueueSource.stage, hlive]
      rw [QueueSource.lost_of_live_nil h.tidy hlive, hstage]
      exact hb.cut.calm hcalm.settings hcalm.published.ge hcalm.stock
  · cases hm

theorem Sound.returns (h : s.Sound worker) {stop : Stop} {world : World} {source : QueueSource}
    (hstop : s.stop = some stop)
    (hs : QueueSource.rules.stop stop s.world s.source = some (.ends (), world, source)) :
    Sound worker { s with world, source, stop := none } := by
  obtain ⟨htidy, hcalm⟩ := h.tidy.stopped hs
  obtain ⟨taken, pending, runs, hb⟩ := h.books
  have htended := h.tended
  rw [hstop] at htended
  obtain ⟨hlifecycle, -, hlive⟩ := htended.returned
    (TaskRules.afterStop_of_stop QueueSource.rules_sealed.toLawful hs)
  change source.lifecycle = s.source.lifecycle at hlifecycle
  have hclosed : Tended none source.lifecycle := by
    rw [hlifecycle]
    exact htended.closed hlive
  have hstage : source.stage = s.source.stage := by
    rw [QueueSource.stage, hlifecycle, ← QueueSource.stage]
  refine h.of_calm htidy hcalm hclosed ⟨taken, pending, runs, ?_⟩
  rw [hstage]
  exact hb.calm hcalm.settings hcalm.published.ge hcalm.stock

/-- **One move of anybody** keeps everything in order. -/
theorem Sound.step (h : s.Sound worker) (hs : Step s s') : s'.Sound worker := by
  cases hs with
  | publishes topic body headers now =>
    obtain ⟨taken, pending, runs, hb⟩ := h.books
    obtain ⟨pending', hb'⟩ := hb.publishes topic body headers now
    exact ⟨h.tended, h.tidy, h.single, h.policy, h.route, h.counted, h.found, taken, pending', runs, hb'⟩
  | passes world htopic hpublished hroute =>
    obtain ⟨taken, pending, runs, hb⟩ := h.books
    exact ⟨h.tended, h.tidy, h.single, h.policy, hroute.trans h.route, h.counted, h.found, taken, pending,
      runs, hb.calm rfl hpublished (congrArg Topic.stock htopic)⟩
  | starts hstop => exact h.starts hstop
  | stops force hstop =>
    obtain ⟨taken, pending, runs, hb⟩ := h.books
    have htended := h.tended
    rw [hstop] at htended
    exact ⟨htended.ready force, h.tidy, h.single, h.policy, h.route, h.counted, h.found, taken, pending, runs,
      hb.calm rfl (Nat.le_refl _) rfl⟩
  | halts hstop hs => exact h.halts hstop hs
  | returns hstop hs => exact h.returns hstop hs
  | works htask hs => exact h.works htask hs

theorem Sound.of_reachable (h : s.Sound worker) (hr : Relation.ReflTransGen Step s s') :
    s'.Sound worker := by
  induction hr with
  | refl => exact h
  | tail _ hs ih => exact ih.step hs

/-! ### The law -/

/-- What the factory makes: a source with a single worker, which acknowledges what was handled. -/
theorem rabbitMq_eq {id : String} {trigger : TriggerSettings} {workshop : Workshop} {source : QueueSource}
    (h : SourceFactory.rabbitMq id trigger workshop = .ok (.queue source)) :
    ∃ info settings limit,
      source = .new info settings .onSubmitSuccess limit (.ofIndices .single [0]) := by
  rw [SourceFactory.rabbitMq] at h
  split at h
  · cases h
  next settings =>
    cases hcrew : workshop.crew .single 1 with
    | error e =>
      rw [hcrew] at h
      cases h
    | ok crew =>
      rw [hcrew] at h
      cases h
      rw [Workshop.crew, createWorkers] at hcrew
      cases hrefuses : workshop.runtime.refuses workshop.settings 0 with
      | some e =>
        rw [hrefuses] at hcrew
        cases hcrew
      | none =>
        rw [hrefuses] at hcrew
        cases hcrew
        exact ⟨_, _, _, rfl⟩

theorem sound_opened (world : World) (info : SourceInfo) (settings : QueueSettings) (limit : Nat) :
    Sound ⟨0, 0, 0⟩
      (opened world (.new info settings .onSubmitSuccess limit (.ofIndices .single [0]))) where
  tended := .new
  tidy :=
    { alone := Nat.zero_le 1
      fits := fun t ht => by cases ht
      rests := fun _ => ⟨rfl, rfl, rfl, rfl, rfl⟩ }
  single := rfl
  policy := rfl
  route := rfl
  counted := rfl
  found := rfl
  books := ⟨[], [], [], by simp [opened], .nil, by simp [opened], rfl, rfl, .refl _, .refl _, .nil, .refl _⟩

/-- **Nothing is lost, repeated or acknowledged too early.** However anybody publishes, and however a
source with a single worker is started and stopped, the function is entered with the deliveries of its
topic in publish order and with each at most once; those are acknowledged, each once, whose run came to
its end; and while the source is stopped, those are left unacknowledged that a forced stop cut short. -/
theorem delivered_of_reachable {id : String} {trigger : TriggerSettings} {workshop : Workshop}
    {source : QueueSource} (hmade : SourceFactory.rabbitMq id trigger workshop = .ok (.queue source))
    {world : World} (hr : Relation.ReflTransGen Step (opened world source) s) : Delivered s := by
  obtain ⟨info, settings, limit, rfl⟩ := rabbitMq_eq hmade
  exact ((sound_opened world info settings limit).of_reachable hr).delivered

/-- Of two deliveries, the first is completed; a forced stop cuts the run on the second short, which stays
unacknowledged. -/
theorem delivered_forced_stop :
    ∃ source, SourceFactory.rabbitMq "jobs" ⟨"rabbit-mq", none, 1000, [("topic", .str "jobs")]⟩
        ⟨.echo, {}⟩ = .ok (.queue source) ∧
      ∃ s, Relation.ReflTransGen Step (opened (.start ⟨0, 0⟩ .echo) source) s ∧ s.topic.acked = [1] ∧
        s.topic.unacked.map Delivery.id = [2] ∧ s.cut.map Delivery.id = [2] ∧ Delivered s := by
  have hmade : SourceFactory.rabbitMq "jobs" ⟨"rabbit-mq", none, 1000, [("topic", .str "jobs")]⟩
      ⟨.echo, {}⟩ = .ok (.queue (.new ⟨"jobs", "rabbit-mq", .async⟩ ⟨"jobs", none⟩ .onSubmitSuccess 1000
        (.ofIndices .single [0]))) := rfl
  have hpublished : Relation.ReflTransGen Step (opened (.start ⟨0, 0⟩ .echo)
      (.new ⟨"jobs", "rabbit-mq", .async⟩ ⟨"jobs", none⟩ .onSubmitSuccess 1000
        (.ofIndices .single [0]))) _ :=
    (Relation.ReflTransGen.single (Step.publishes _ "jobs" .empty [] ⟨0, 0⟩)).tail
      (Step.publishes _ "jobs" .empty [] ⟨0, 0⟩)
  have hstarted := hpublished.tail (Step.starts _ rfl)
  have hreceiving := ((hstarted.tail (@Step.works _ 0 _ 1 _ _ _ rfl rfl)).tail
    (@Step.works _ 0 _ 1 _ _ _ rfl rfl)).tail (@Step.works _ 0 _ 1 _ _ _ rfl rfl)
  have hhandling := ((hreceiving.tail (@Step.works _ 0 _ 1 _ _ _ rfl rfl)).tail
    (@Step.works _ 0 _ 1 _ _ _ rfl rfl)).tail (@Step.works _ 0 _ 1 _ _ _ rfl rfl)
  have hcompleted := (hhandling.tail (@Step.works _ 0 _ 1 _ _ _ rfl rfl)).tail
    (@Step.works _ 0 _ 1 _ _ _ rfl rfl)
  have hreceiving' := ((hcompleted.tail (@Step.works _ 0 _ 1 _ _ _ rfl rfl)).tail
    (@Step.works _ 0 _ 1 _ _ _ rfl rfl)).tail (@Step.works _ 0 _ 1 _ _ _ rfl rfl)
  have hhandling' := ((hreceiving'.tail (@Step.works _ 0 _ 1 _ _ _ rfl rfl)).tail
    (@Step.works _ 0 _ 1 _ _ _ rfl rfl)).tail (@Step.works _ 0 _ 1 _ _ _ rfl rfl)
  have hentered' := hhandling'.tail (@Step.works _ 0 _ 1 _ _ _ rfl rfl)
  have hcut := (hentered'.tail (Step.stops _ true rfl)).tail (@Step.halts _ _ _ _ _ rfl rfl)
  have hstopped := hcut.tail (@Step.returns _ _ _ _ rfl rfl)
  exact ⟨_, hmade, _, hstopped, rfl, rfl, rfl, delivered_of_reachable hmade hstopped⟩

end QueueHistory

end EventDispatch
