import EventDispatch.Proofs.TaskKinds
import EventDispatch.Queue.Listener

/-!
# One delivery at a time

A listener with a worker of its own takes a delivery from its topic, lets the function run on it, and
acknowledges it. Here is what one move of such a listener does to the topic, to the function and to the
counts of the source, and what becomes of the worker when the listener is given up.

The worker is idle whenever the listener asks for it, so a submission always finds it, even if it may not
wait. That is why no delivery is ever left over for want of a worker.

## What is deliberately absent

The notes by which receivers of a topic wake each other are left out of the account of a topic: they say
when a receiver looks, and never what it finds.

## Main definitions

* `Topic.stock`: the deliveries of a topic that are pending or unacknowledged, and the acknowledged ids.
* `Pool.Solo`: a pool of one worker, and where the worker is.
* `Event.IsOf`: an event was made of a delivery.
* `QueueSource.turn`: one move of a listener, together with the acknowledgement that follows a run.
* `Stage`: how far a listener is with a delivery.
* `Listener.Effect`: what one turn of a listener does.

## Main results

* `Receive.step_stock`, `Broker.ack_stock`: what receiving and acknowledging do to a topic.
* `Submission.step_solo`: a submission finds the worker and ends with the run of the function.
* `QueueSource.moves_of_turn`: a turn is made of the moves that tasks make.
* `Listener.effect_of_turn`: every turn of a listener takes a delivery, enters the function, completes a
  run, or keeps everything as it is.
-/

namespace EventDispatch

/-! ### Topics -/

/-- The pending deliveries of a topic, those that were received and not acknowledged, and the ids of the
acknowledged ones. -/
def Topic.stock (t : Topic) : List Delivery × List Delivery × List Nat := (t.pending, t.unacked, t.acked)

theorem Topic.stock_notify (t : Topic) : t.notify.stock = t.stock := by
  rw [notify]
  split <;> rfl

theorem Topic.stock_withdraw (ticket : Nat) (t : Topic) : (t.withdraw ticket).stock = t.stock := by
  rw [withdraw]
  split
  · rw [stock_notify]
    rfl
  · rfl

theorem Topic.stock_awaitNote (t : Topic) : t.awaitNote.2.stock = t.stock := by
  rw [awaitNote]
  split <;> rfl

/-- The oldest pending delivery is handed out, if there is one. -/
theorem Topic.stock_takeNext {t t' : Topic} {d : Delivery} (h : t.takeNext = some (d, t')) :
    t.pending = d :: t'.pending ∧ t'.stock = (t'.pending, t.unacked ++ [d], t.acked) := by
  rw [takeNext] at h
  split at h
  next hpending =>
    cases h
    exact ⟨hpending, rfl⟩
  next => cases h

namespace Broker

variable {b b' : Broker} {name : String}

/-- The stock of a topic. -/
def stock (name : String) (b : Broker) : List Delivery × List Delivery × List Nat := (b.topic name).stock

theorem topic_setTopic (name other : String) (t : Topic) (b : Broker) :
    (b.setTopic name t).topic other = if other = name then t else b.topic other := by
  rw [topic, topic, setTopic, Keyed.get?_insert]
  split <;> rfl

@[simp] theorem topic_setTopic_self (name : String) (t : Topic) (b : Broker) :
    (b.setTopic name t).topic name = t := by
  rw [topic_setTopic, if_pos rfl]

/-- A topic whose stock stays may change otherwise. -/
theorem stock_setTopic {t : Topic} (ht : t.stock = b.stock name) (other : String) :
    (b.setTopic name t).stock other = b.stock other := by
  rw [stock, topic_setTopic]
  split
  next heq => rw [heq, ht]
  next => rfl

theorem published_of_ack {id : Nat} (h : b.ack name id = .ok b') : b'.published = b.published := by
  simp only [ack] at h
  split at h
  · cases h
  · split at h
    · cases h
      rfl
    · cases h

/-- A delivery that was received last and is no other's namesake is acknowledged. -/
theorem ack_stock {pending cut : List Delivery} {acked : List Nat} {d : Delivery}
    (h : b.stock name = (pending, cut ++ [d], acked)) (hnew : d.id ∉ cut.map Delivery.id) :
    ∃ b', b.ack name d.id = .ok b' ∧ b'.stock name = (pending, cut, acked ++ [d.id]) := by
  simp only [stock, Topic.stock, Prod.mk.injEq] at h
  obtain ⟨hpending, hunacked, hacked⟩ := h
  cases hget : b.topics.get? name with
  | none =>
    rw [topic, hget] at hunacked
    exact absurd hunacked (by simp [Topic.new])
  | some t =>
    have ht : b.topic name = t := by rw [topic, hget, Option.getD_some]
    rw [ht] at hpending hunacked hacked
    have hany : t.unacked.any (·.id == d.id) = true := by simp [hunacked]
    have hrest : t.unacked.filter (·.id != d.id) = cut := by
      have hcut : cut.filter (·.id != d.id) = cut := by
        refine List.filter_eq_self.mpr fun x hx => ?_
        rw [bne_iff_ne]
        exact fun heq => hnew (heq ▸ List.mem_map_of_mem hx)
      rw [hunacked, List.filter_append, hcut]
      simp
    refine ⟨b.setTopic name { t with
      unacked := t.unacked.filter (·.id != d.id), acked := t.acked ++ [d.id] }, ?_, ?_⟩
    · simp [ack, hget, hany]
    · rw [stock, topic_setTopic_self, Topic.stock, hrest, hpending, hacked]

end Broker

namespace Receive

variable {b b' : Broker} {now : Nat}

/-- The topic from which a call receives. -/
def topic : Receive → String
  | .asking topic _ | .looking topic _ | .waiting topic _ _ => topic

/-- What a move of a call that receives does to the stock of its topic. -/
inductive Effect (name : String) (b b' : Broker) : Move Receive (Option Delivery) → Prop
  /-- The call goes on, on the same topic. -/
  | waits {next : Receive} (htopic : next.topic = name) (hstock : b'.stock name = b.stock name) :
      Effect name b b' (.goes next)
  /-- The call ends without a delivery. -/
  | misses (hstock : b'.stock name = b.stock name) : Effect name b b' (.ends none)
  /-- The oldest pending delivery is handed out. -/
  | takes {d : Delivery} {pending unacked : List Delivery} {acked : List Nat}
      (hbefore : b.stock name = (d :: pending, unacked, acked))
      (hafter : b'.stock name = (pending, unacked ++ [d], acked)) : Effect name b b' (.ends (some d))

theorem Effect.of_takeNext {name : String} {t t' t'' : Topic} {d : Delivery} (ht : t.stock = b.stock name)
    (htake : t.takeNext = some (d, t')) (heq : t''.stock = t'.stock) :
    Effect name b (b.setTopic name t'') (.ends (some d)) := by
  obtain ⟨hpending, hstock⟩ := Topic.stock_takeNext htake
  refine @Effect.takes _ _ _ d t'.pending t.unacked t.acked ?_ ?_
  · rw [← ht, Topic.stock, hpending]
  · rw [Broker.stock, Broker.topic_setTopic_self, heq, hstock]

/-- **A move of a call that receives** leaves the stock of its topic as it is, or hands out the oldest
pending delivery. -/
theorem step_stock {call : Receive} {m : Move Receive (Option Delivery)}
    (hs : call.step now b = some (m, b')) : Effect call.topic b b' m ∧ b'.published = b.published := by
  cases call with
  | asking topic wait =>
    cases hs
    exact ⟨.waits rfl (Broker.stock_setTopic rfl topic), rfl⟩
  | looking topic deadline =>
    simp only [step] at hs
    split at hs
    next d t htake =>
      cases hs
      refine ⟨.of_takeNext rfl htake ?_, rfl⟩
      split
      · rfl
      · exact Topic.stock_notify t
    next =>
      have hawait := Topic.stock_awaitNote (b.topic topic)
      split at hs
      next t heq =>
        rw [heq] at hawait
        cases hs
        exact ⟨.waits rfl (Broker.stock_setTopic hawait topic), rfl⟩
      next ticket t heq =>
        rw [heq] at hawait
        cases hs
        exact ⟨.waits rfl (Broker.stock_setTopic hawait topic), rfl⟩
  | waiting topic ticket deadline =>
    have hwithdraw := Topic.stock_withdraw ticket (b.topic topic)
    simp only [step] at hs
    split at hs
    · cases hs
      have hsame : { b.topic topic with noted := (b.topic topic).noted.erase ticket }.stock =
          b.stock topic := rfl
      exact ⟨.waits rfl (Broker.stock_setTopic hsame topic), rfl⟩
    · split at hs
      · split at hs
        next d t htake =>
          cases hs
          exact ⟨.of_takeNext hwithdraw htake rfl, rfl⟩
        next =>
          cases hs
          exact ⟨.misses (Broker.stock_setTopic hwithdraw topic), rfl⟩
      · cases hs

/-- A call that is given up leaves all stocks as they are. -/
theorem drop_stock (call : Receive) (name : String) :
    (call.drop b).stock name = b.stock name ∧ (call.drop b).published = b.published := by
  cases call with
  | waiting topic ticket deadline => exact ⟨Broker.stock_setTopic (Topic.stock_withdraw _ _) name, rfl⟩
  | asking topic wait => exact ⟨rfl, rfl⟩
  | looking topic deadline => exact ⟨rfl, rfl⟩

end Receive

/-! ### A worker of one's own -/

/-- A pool of one worker for which nobody waits: the worker is idle or not, and its permit free or
granted. -/
structure Pool.Solo (idle : List Worker) (free : Nat) (granted : List Nat) (p : Pool Worker) : Prop where
  idle : p.idle = idle
  free : p.free = free
  granted : p.granted = granted
  waiting : p.waiting = []
  capacity : p.capacity = 1

namespace Pool.Solo

variable {p p' : Pool Worker} {worker : Worker} {ticket : Nat}

theorem request (h : p.Solo [worker] 1 []) : p.request.2.Solo [worker] 0 [p.request.1] := by
  obtain ⟨hidle, hfree, hgranted, hwaiting, hcapacity⟩ := h
  rw [Pool.request, hfree]
  exact ⟨hidle, rfl, by simp [hgranted], hwaiting, hcapacity⟩

theorem tryTake (h : p.Solo [worker] 1 []) : ∃ p', p.tryTake = (.ok worker, p') ∧ p'.Solo [] 0 [] := by
  obtain ⟨hidle, hfree, hgranted, hwaiting, hcapacity⟩ := h
  refine ⟨{ p with free := 0, idle := [] }, ?_, rfl, rfl, hgranted, hwaiting, hcapacity⟩
  simp [Pool.tryTake, hfree, popIdle, hidle]

theorem redeem (h : p.Solo [worker] 0 [ticket]) :
    ∃ p', p.redeem ticket = some (.ok worker, p') ∧ p'.Solo [] 0 [] := by
  obtain ⟨hidle, hfree, hgranted, hwaiting, hcapacity⟩ := h
  refine ⟨{ p with granted := [], idle := [] }, ?_, rfl, hfree, rfl, hwaiting, hcapacity⟩
  simp [Pool.redeem, hgranted, popIdle, hidle]

theorem withdraw (h : p.Solo [worker] 0 [ticket]) : (p.withdraw ticket).Solo [worker] 1 [] := by
  obtain ⟨hidle, hfree, hgranted, hwaiting, hcapacity⟩ := h
  have hw : p.withdraw ticket = { p with granted := [], free := 1 } := by
    simp [Pool.withdraw, hgranted, addPermit, hwaiting, hfree]
  rw [hw]
  exact ⟨hidle, rfl, rfl, hwaiting, hcapacity⟩

theorem giveBack (h : p.Solo [] 0 []) (same : Worker → Worker → Bool) :
    (p.giveBack same worker).2.Solo [worker] 1 [] := by
  obtain ⟨hidle, hfree, hgranted, hwaiting, hcapacity⟩ := h
  have hg : (p.giveBack same worker).2 = { p with idle := [worker], free := 1 } := by
    simp [Pool.giveBack, hidle, hcapacity, addPermit, hwaiting, hfree]
  rw [hg]
  exact ⟨rfl, rfl, hgranted, hwaiting, hcapacity⟩

end Pool.Solo

namespace Submission

/-- The submission has the pool of one worker for itself. -/
def Fits (worker : Worker) (p : Pool Worker) : Submission → Prop
  | .ready _ _ | .acquiring _ (.asking _) => p.Solo [worker] 1 []
  | .acquiring _ (.waiting ticket _) => p.Solo [worker] 0 [ticket]
  | .running held _ _ => held = worker ∧ p.Solo [] 0 []

/-- The event that is submitted. -/
def event : Submission → Event
  | .ready event _ | .acquiring event _ | .running _ event _ => event

/-- The function runs on the event. -/
def isRunning : Submission → Bool
  | .running _ _ _ => true
  | _ => false

/-- What one move of a submission does that has a pool of one worker for itself. -/
inductive Effect (worker : Worker) (call : Submission) (a a' : Ambient) (d d' : Desk) :
    Move Submission (SubmitOutcome × Event) → Prop
  /-- The event is prepared, or the worker asked for. -/
  | readies {next : Submission} (hcall : call.isRunning = false) (hnext : next.isRunning = false)
      (hevent : next.event = { call.event with source := next.event.source, id := next.event.id })
      (hentries : a'.entries = a.entries) (hcounts : d'.counts = d.counts)
      (hfits : next.Fits worker d'.crew.pool) : Effect worker call a a' d d' (.goes next)
  /-- The function is entered. -/
  | enters {next : Submission} (hcall : call.isRunning = false) (hnext : next.isRunning = true)
      (hevent : next.event = call.event) (hentries : a'.entries = a.entries.push ⟨worker.knownAs, call.event⟩)
      (hcounts : d'.counts = d.counts) (hfits : next.Fits worker d'.crew.pool) :
      Effect worker call a a' d d' (.goes next)
  /-- The run ends. -/
  | concludes {outcome : Outcome} {event : Event} (hcall : call.isRunning = true)
      (hentries : a'.entries = a.entries) (hcounts : d'.counts = d.counts.record outcome.succeeded)
      (hrests : d'.crew.pool.Solo [worker] 1 []) :
      Effect worker call a a' d d' (.ends (.ofOutcome outcome, event))

variable {worker : Worker} {call : Submission} {a a' : Ambient} {d d' : Desk}

/-- **A submission with a worker of its own** finds it, runs the function on its event once, and ends with
the run. -/
theorem step_solo {m : Move Submission (SubmitOutcome × Event)} (hfits : call.Fits worker d.crew.pool)
    (hs : call.step a d = some (m, a', d')) :
    Effect worker call a a' d d' m ∧ d'.crew.sharing = d.crew.sharing := by
  cases call with
  | ready event limit =>
    simp only [step, Desk.prepare] at hs
    split at hs
    · cases hs
      exact ⟨.readies rfl rfl rfl rfl rfl hfits, rfl⟩
    · cases hs
      exact ⟨.readies rfl rfl rfl rfl rfl hfits, rfl⟩
  | acquiring event acquire =>
    simp only [step, Desk.stepAcquire] at hs
    cases acquire with
    | asking limit =>
      have hrests : d.crew.pool.Solo [worker] 1 [] := hfits
      rcases limit with _ | _ | t
      · cases hs
        exact ⟨.readies rfl rfl rfl rfl rfl hrests.request, rfl⟩
      · obtain ⟨p', htake, hlent⟩ := hrests.tryTake
        simp only [Acquire.step, htake] at hs
        cases hs
        exact ⟨.enters rfl rfl rfl rfl rfl ⟨rfl, hlent⟩, rfl⟩
      · cases hs
        exact ⟨.readies rfl rfl rfl rfl rfl hrests.request, rfl⟩
    | waiting ticket limit =>
      have hgranted : d.crew.pool.Solo [worker] 0 [ticket] := hfits
      obtain ⟨p', hredeem, hlent⟩ := hgranted.redeem
      simp only [Acquire.step, hredeem] at hs
      cases hs
      exact ⟨.enters rfl rfl rfl rfl rfl ⟨rfl, hlent⟩, rfl⟩
  | running held event run =>
    obtain ⟨rfl, hlent⟩ := hfits
    simp only [step] at hs
    split at hs
    · cases hs
      exact ⟨.concludes rfl rfl rfl (hlent.giveBack _), rfl⟩
    · cases hs

/-- A submission that is given up leaves the worker. -/
theorem drop_solo (hfits : call.Fits worker d.crew.pool) :
    (call.drop d).crew.pool.Solo [worker] 1 [] ∧ (call.drop d).crew.sharing = d.crew.sharing ∧
      (call.drop d).counts = d.counts := by
  cases call with
  | ready event limit => exact ⟨hfits, rfl, rfl⟩
  | acquiring event acquire =>
    cases acquire with
    | asking limit => exact ⟨hfits, rfl, rfl⟩
    | waiting ticket limit => exact ⟨Pool.Solo.withdraw hfits, rfl, rfl⟩
  | running held event run =>
    obtain ⟨rfl, hlent⟩ := hfits
    exact ⟨hlent.giveBack _, rfl, rfl⟩

end Submission

/-! ### Turns -/

namespace Lifecycle

variable {τ : Type} {l : Lifecycle (Task τ)} {handle : Nat} {signal : Signal}

/-- Of two moves of a task, the second settles what becomes of it. -/
theorem moved_replace (task : Task τ) (m : Move τ Unit) :
    (l.replace handle task).moved handle signal m = l.moved handle signal m := by
  cases m with
  | goes next =>
    simp only [moved, replace, List.map_map, mk.injEq, true_and, and_true]
    refine List.map_congr_left fun t _ => ?_
    by_cases heq : t.1 = handle <;> simp [heq]
  | ends result =>
    simp only [moved, finish, replace, mk.injEq, true_and, and_true]
    induction l.live with
    | nil => rfl
    | cons t live ih =>
      by_cases heq : t.1 = handle
      · simpa [heq] using ih
      · simpa [heq] using ih

end Lifecycle

theorem TaskRules.stepLive_of_step {σ τ : Type} {r : TaskRules σ τ} {handle : Nat} {task : Task τ}
    {m : Move τ Unit} {w w' : World} {s s' : σ} (htask : (r.lifecycle s).task? handle = some task)
    (hs : r.step task.signal task.state w s = some (m, w', s')) : r.stepLive handle w s =
      some (w', r.setLifecycle ((r.lifecycle s').moved handle task.signal m) s') := by
  rw [stepLive, htask]
  dsimp only
  rw [hs]
  cases m <;> rfl

namespace QueueSource

variable {worker : Worker} {q q' : QueueSource} {w w' : World}

/-- A task that is about to acknowledge a delivery does so at once, unless it has to wait. -/
def settle (signal : Signal) :
    Move Listener Unit × World × QueueSource → Move Listener Unit × World × QueueSource
  | (.goes (.acking d trip), w, q) =>
    (q.step signal (.acking d trip) w).getD (.goes (.acking d trip), w, q)
  | moved => moved

/-- One move of a task, which goes on to the acknowledgement if it ends a run: nothing is waited for in
between. -/
def turn (signal : Signal) (task : Listener) (w : World) (q : QueueSource) :
    Option (Move Listener Unit × World × QueueSource) :=
  (q.step signal task w).map (settle signal)

theorem lifecycle_of_turn {signal : Signal} {task : Listener} {m : Move Listener Unit}
    (h : q.turn signal task w = some (m, w', q')) : q'.lifecycle = q.lifecycle := by
  obtain ⟨⟨m₁, w₁, q₁⟩, hstep, hsettle⟩ := Option.map_eq_some_iff.mp h
  have hfirst := lifecycle_of_step hstep
  unfold settle at hsettle
  split at hsettle
  next d trip w₂ q₂ heq =>
    cases heq
    cases hack : q₁.step signal (.acking d trip) w₁ with
    | none =>
      rw [hack] at hsettle
      cases hsettle
      exact hfirst
    | some acked =>
      rw [hack] at hsettle
      cases hsettle
      exact (lifecycle_of_step hack).trans hfirst
  next =>
    cases hsettle
    exact hfirst

/-- An acknowledgement does not look at the lifecycle. -/
theorem step_acking_setLifecycle (signal : Signal) (d : Delivery) (trip : Trip) (l : Lifecycle (Task Listener)) :
    step signal (.acking d trip) w { q with lifecycle := l } =
      (q.step signal (.acking d trip) w).map fun (m, w, q) => (m, w, { q with lifecycle := l }) := by
  simp only [step]
  split
  · rfl
  · rfl
  · rfl
  · split <;> rfl

/-- A turn is one move of the task, or two. -/
theorem moves_of_turn {handle : Nat} {task : Task Listener} {m : Move Listener Unit}
    (hd : q.lifecycle.alive.Nodup) (htask : q.lifecycle.task? handle = some task)
    (h : q.turn task.signal task.state w = some (m, w', q')) :
    rules.stepLive handle w q =
        some (w', { q' with lifecycle := q'.lifecycle.moved handle task.signal m }) ∨
      ∃ w₁ q₁, rules.stepLive handle w q = some (w₁, q₁) ∧ rules.stepLive handle w₁ q₁ =
        some (w', { q' with lifecycle := q'.lifecycle.moved handle task.signal m }) := by
  obtain ⟨⟨m₁, w₁, q₁⟩, hstep, hsettle⟩ := Option.map_eq_some_iff.mp h
  have hfirst := TaskRules.stepLive_of_step (r := rules) htask hstep
  unfold settle at hsettle
  split at hsettle
  next d trip w₂ q₂ heq =>
    cases heq
    cases hack : q₁.step task.signal (.acking d trip) w₁ with
    | none =>
      rw [hack] at hsettle
      cases hsettle
      exact .inl hfirst
    | some acked =>
      rw [hack] at hsettle
      cases hsettle
      refine .inr ⟨_, _, hfirst, ?_⟩
      obtain ⟨between, hbetween⟩ : ∃ between, between =
          q₁.lifecycle.moved handle task.signal (.goes (.acking d trip)) := ⟨_, rfl⟩
      have htask' : between.task? handle = some ⟨task.signal, .acking d trip⟩ := by
        rw [hbetween, lifecycle_of_step hstep]
        exact Lifecycle.task?_moved hd (Lifecycle.mem_alive_of_task? htask)
      have hstep' : step task.signal (.acking d trip) w₁ { q₁ with lifecycle := between } =
          some (m, w', { q' with lifecycle := between }) := by
        rw [step_acking_setLifecycle, hack]
        rfl
      have hsecond := TaskRules.stepLive_of_step (r := rules) (s := { q₁ with lifecycle := between })
        htask' hstep'
      have hmoved : between.moved handle task.signal m = q'.lifecycle.moved handle task.signal m := by
        rw [hbetween, lifecycle_of_step hack]
        exact Lifecycle.moved_replace ⟨task.signal, .acking d trip⟩ m
      rw [← hmoved]
      rw [hbetween] at hsecond ⊢
      exact hsecond
  next =>
    cases hsettle
    exact .inl hfirst

end QueueSource

/-! ### The listener -/

/-- An event was made of a delivery, whatever its id and its source. -/
def Event.IsOf (d : Delivery) (e : Event) : Prop :=
  e = { QueueSource.event d with source := e.source, id := e.id }

/-- How far a listener is with a delivery. -/
inductive Stage where
  | free
  /-- The delivery was received, and the function has not been entered. -/
  | fresh (d : Delivery)
  | running (d : Delivery)

namespace Stage

/-- The delivery with which the function has not been entered. -/
def fresh? : Stage → List Delivery
  | fresh d => [d]
  | _ => []

/-- The delivery on which the function runs. -/
def running? : Stage → List Delivery
  | running d => [d]
  | _ => []

/-- The delivery in hand. -/
def held : Stage → List Delivery
  | fresh d | running d => [d]
  | free => []

/-- The delivery on which the function ran before a move and does not run after it. -/
def done : Stage → Stage → List Delivery
  | running d, free => [d]
  | _, _ => []

@[simp] theorem fresh?_free : free.fresh? = [] := rfl

@[simp] theorem running?_free : free.running? = [] := rfl

@[simp] theorem held_free : free.held = [] := rfl

theorem done_self (stage : Stage) : stage.done stage = [] := by
  cases stage <;> rfl

end Stage

/-- What a source with a worker of its own leaves as it is in the world and in itself. -/
structure QueueSource.Frame (w w' : World) (q q' : QueueSource) : Prop where
  published : w'.clients.broker.published = w.clients.broker.published
  route : w'.clients.route .ack = w.clients.route .ack
  settings : q'.settings = q.settings
  policy : q'.policy = q.policy
  sharing : q'.desk.crew.sharing = q.desk.crew.sharing

/-- Nothing happens to the topic, and nothing is counted. -/
structure QueueSource.Calm (w w' : World) (q q' : QueueSource) : Prop extends Frame w w' q q' where
  stock : w'.clients.broker.stock q.settings.topic = w.clients.broker.stock q.settings.topic
  counts : q'.desk.counts = q.desk.counts

namespace Listener

/-- How far the listener is with a delivery. -/
def stage : Listener → Stage
  | .handling d submission => if submission.isRunning then .running d else .fresh d
  | _ => .free

/-- How far it is after a move. -/
def stageAfter : Move Listener Unit → Stage
  | .goes next => next.stage
  | .ends () => .free

/-- The listener has the worker for itself, receives from its topic, and does not wait for an
acknowledgement. -/
def Fits (worker : Worker) (q : QueueSource) : Listener → Prop
  | .receiving call => call.topic = q.settings.topic ∧ q.desk.crew.pool.Solo [worker] 1 []
  | .handling d submission => submission.Fits worker q.desk.crew.pool ∧ submission.event.IsOf d
  | .acking _ _ => False
  | .checking | .reaching _ | .resting _ => q.desk.crew.pool.Solo [worker] 1 []

/-- After a move, the listener fits again, or has left the worker. -/
def FitsAfter (worker : Worker) (q : QueueSource) : Move Listener Unit → Prop
  | .goes next => next.Fits worker q
  | .ends () => q.desk.crew.pool.Solo [worker] 1 []

/-- What one move of a listener does to the topic, the function and the counts. -/
inductive Effect (name : String) (before after : Stage) (w w' : World) (q q' : QueueSource) : Prop
  /-- Nothing. -/
  | rests (hstage : after = before) (hstock : w'.clients.broker.stock name = w.clients.broker.stock name)
      (hentries : w'.ambient.entries = w.ambient.entries) (hcounts : q'.desk.counts = q.desk.counts)
  /-- The oldest pending delivery is received. -/
  | takes {d : Delivery} {pending unacked : List Delivery} {acked : List Nat} (hbefore : before = .free)
      (hafter : after = .fresh d) (hstock : w.clients.broker.stock name = (d :: pending, unacked, acked))
      (hstock' : w'.clients.broker.stock name = (pending, unacked ++ [d], acked))
      (hentries : w'.ambient.entries = w.ambient.entries) (hcounts : q'.desk.counts = q.desk.counts)
  /-- The function is entered with an event made of the delivery. -/
  | enters {d : Delivery} {entry : Entry} (hbefore : before = .fresh d) (hafter : after = .running d)
      (hevent : entry.event.IsOf d) (hstock : w'.clients.broker.stock name = w.clients.broker.stock name)
      (hentries : w'.ambient.entries = w.ambient.entries.push entry)
      (hcounts : q'.desk.counts = q.desk.counts)
  /-- The run is over and counted, and the delivery acknowledged, if it was received last and no other has
  its id. -/
  | completes {d : Delivery} {succeeded : Bool} (hbefore : before = .running d) (hafter : after = .free)
      (hstock : ∀ pending cut acked, w.clients.broker.stock d.topic = (pending, cut ++ [d], acked) →
        d.id ∉ cut.map Delivery.id →
        w'.clients.broker.stock d.topic = (pending, cut, acked ++ [d.id]))
      (hentries : w'.ambient.entries = w.ambient.entries)
      (hcounts : q'.desk.counts = q.desk.counts.record succeeded)

variable {worker : Worker} {signal : Signal} {l : Listener} {m : Move Listener Unit} {w w' : World}
  {q q' : QueueSource}

/-- A move counts the run that it ends, and nothing else. -/
theorem Effect.counts {name : String} {before after : Stage} (h : Effect name before after w w' q q') :
    q'.desk.counts.success + q'.desk.counts.failure =
        q.desk.counts.success + q.desk.counts.failure + UInt64.ofNat (before.done after).length ∧
      q'.desk.counts.allocationFailures = q.desk.counts.allocationFailures := by
  cases h with
  | rests hstage _ _ hcounts =>
    rw [hcounts, hstage, Stage.done_self]
    exact ⟨(UInt64.add_zero _).symm, rfl⟩
  | takes hbefore hafter _ _ _ hcounts =>
    rw [hcounts, hbefore, hafter]
    exact ⟨(UInt64.add_zero _).symm, rfl⟩
  | enters hbefore hafter _ _ _ hcounts =>
    rw [hcounts, hbefore, hafter]
    exact ⟨(UInt64.add_zero _).symm, rfl⟩
  | @completes d succeeded hbefore hafter _ _ hcounts =>
    rw [hcounts, hbefore, hafter]
    cases succeeded with
    | false => exact ⟨(UInt64.add_assoc _ _ _).symm, rfl⟩
    | true =>
      refine ⟨?_, rfl⟩
      calc q.desk.counts.success + 1 + q.desk.counts.failure
        _ = q.desk.counts.success + (1 + q.desk.counts.failure) := UInt64.add_assoc ..
        _ = q.desk.counts.success + (q.desk.counts.failure + 1) := by rw [UInt64.add_comm 1]
        _ = q.desk.counts.success + q.desk.counts.failure + 1 := (UInt64.add_assoc ..).symm

/-- An acknowledgement that arrives at once. -/
theorem step_acking (hroute : w.clients.route .ack = ⟨none, 0⟩) (d : Delivery) :
    ∃ b, q.step signal (.acking d .leaving) w =
        some (.goes .checking, { w with clients := { w.clients with broker := b } }, q) ∧
      b.published = w.clients.broker.published ∧
      ∀ pending cut acked, w.clients.broker.stock d.topic = (pending, cut ++ [d], acked) →
        d.id ∉ cut.map Delivery.id → b.stock d.topic = (pending, cut, acked ++ [d.id]) := by
  have htrip : w.stepTrip .ack .leaving = some (.ends none, w) := by
    simp [World.stepTrip, Trip.step, Trip.arrive, hroute]
  cases hack : w.clients.broker.ack d.topic d.id with
  | error e =>
    refine ⟨w.clients.broker, by simp only [QueueSource.step, htrip, hack], rfl, ?_⟩
    intro pending cut acked hstock hnew
    obtain ⟨b', hok, -⟩ := Broker.ack_stock hstock hnew
    rw [hack] at hok
    cases hok
  | ok b =>
    refine ⟨b, by simp only [QueueSource.step, htrip, hack], Broker.published_of_ack hack, ?_⟩
    intro pending cut acked hstock hnew
    obtain ⟨b', hok, hstock'⟩ := Broker.ack_stock hstock hnew
    rw [hack] at hok
    cases hok
    exact hstock'

theorem effect_of_handling {d : Delivery} {submission : Submission} (hpolicy : q.policy = .onSubmitSuccess)
    (hroute : w.clients.route .ack = ⟨none, 0⟩) (hfits : Fits worker q (.handling d submission))
    (hs : q.turn signal (.handling d submission) w = some (m, w', q')) :
    Effect q.settings.topic (stage (.handling d submission)) (stageAfter m) w w' q q' ∧
      FitsAfter worker q' m ∧ QueueSource.Frame w w' q q' := by
  obtain ⟨hsubmission, hevent⟩ := hfits
  cases hcall : submission.step w.ambient q.desk with
  | none =>
    simp only [QueueSource.turn, QueueSource.step, hcall] at hs
    cases hs
  | some moved =>
    obtain ⟨m₁, ambient, desk⟩ := moved
    obtain ⟨heffect, hsharing⟩ := Submission.step_solo hsubmission hcall
    cases heffect with
    | readies hcall' hnext hsame hentries hcounts hfits =>
      simp only [QueueSource.turn, QueueSource.step, hcall] at hs
      cases hs
      refine ⟨.rests ?_ rfl hentries hcounts, ⟨hfits, ?_⟩, rfl, rfl, rfl, rfl, hsharing⟩
      · simp [stageAfter, stage, hcall', hnext]
      · rw [Event.IsOf, hsame, hevent]
    | enters hcall' hnext hsame hentries hcounts hfits =>
      simp only [QueueSource.turn, QueueSource.step, hcall] at hs
      cases hs
      refine ⟨.enters (d := d) ?_ ?_ hevent rfl hentries hcounts, ⟨hfits, hsame ▸ hevent⟩, rfl, rfl, rfl,
        rfl, hsharing⟩
      · simp [stage, hcall']
      · simp [stageAfter, stage, hnext]
    | @concludes outcome event hcall' hentries hcounts hrests =>
      -- The outcome is one of a run, so the acknowledgement follows.
      have hhandled : QueueSource.wasHandled (.ofOutcome outcome) = true := by
        cases outcome <;> rfl
      obtain ⟨b, hack, hpublished, hstock⟩ :=
        @step_acking signal { w with ambient := ambient } { q with desk := desk } hroute d
      have hstep : q.step signal (.handling d submission) w =
          some (.goes (.acking d .leaving), { w with ambient := ambient }, { q with desk := desk }) := by
        simp only [QueueSource.step, hcall]
        simp [hhandled, hpolicy]
      have hturn : q.turn signal (.handling d submission) w = some (.goes .checking,
          { w with ambient := ambient, clients := { w.clients with broker := b } },
          { q with desk := desk }) := by
        rw [QueueSource.turn, hstep, Option.map_some, QueueSource.settle, hack, Option.getD_some]
      cases hturn.symm.trans hs
      refine ⟨.completes (d := d) ?_ rfl hstock hentries hcounts, hrests, hpublished, rfl, rfl, rfl,
        hsharing⟩
      simp [stage, hcall']

/-- **Every move of a listener** with a worker of its own. -/
theorem effect_of_turn (hpolicy : q.policy = .onSubmitSuccess) (hroute : w.clients.route .ack = ⟨none, 0⟩)
    (hfits : l.Fits worker q) (hs : q.turn signal l w = some (m, w', q')) :
    Effect q.settings.topic l.stage (stageAfter m) w w' q q' ∧ FitsAfter worker q' m ∧
      QueueSource.Frame w w' q q' := by
  obtain ⟨⟨m₁, w₁, q₁⟩, hstep, hsettle⟩ := Option.map_eq_some_iff.mp hs
  cases QueueSource.moves_of_step hstep with
  | stops | asks | turns | resumes | leaves =>
    cases hsettle
    exact ⟨.rests rfl rfl rfl rfl, hfits, rfl, rfl, rfl, rfl, rfl⟩
  | travels htrip | despairs htrip | rests htrip =>
    cases hsettle
    obtain ⟨⟨routes, rfl⟩, hothers⟩ := World.stepTrip_routes htrip
    exact ⟨.rests rfl rfl rfl rfl, hfits, rfl, hothers .ack (by decide), rfl, rfl, rfl⟩
  | arrives htrip =>
    cases hsettle
    obtain ⟨⟨routes, rfl⟩, hothers⟩ := World.stepTrip_routes htrip
    exact ⟨.rests rfl rfl rfl rfl, ⟨rfl, hfits⟩, rfl, hothers .ack (by decide), rfl, rfl, rfl⟩
  | @withdraws call =>
    cases hsettle
    obtain ⟨hstock, hpublished⟩ := Receive.drop_stock call q.settings.topic (b := w.clients.broker)
    exact ⟨.rests rfl hstock rfl rfl, hfits.2, hpublished, rfl, rfl, rfl, rfl⟩
  | waits hcall =>
    cases hsettle
    obtain ⟨htopic, hrests⟩ := hfits
    obtain ⟨heffect, hpublished⟩ := Receive.step_stock hcall
    rw [htopic] at heffect
    cases heffect with
    | waits hnext hstock =>
      exact ⟨.rests rfl hstock rfl rfl, ⟨hnext, hrests⟩, hpublished, rfl, rfl, rfl, rfl⟩
  | misses hcall =>
    cases hsettle
    obtain ⟨htopic, hrests⟩ := hfits
    obtain ⟨heffect, hpublished⟩ := Receive.step_stock hcall
    rw [htopic] at heffect
    cases heffect with
    | misses hstock => exact ⟨.rests rfl hstock rfl rfl, hrests, hpublished, rfl, rfl, rfl, rfl⟩
  | receives hcall =>
    cases hsettle
    obtain ⟨htopic, hrests⟩ := hfits
    obtain ⟨heffect, hpublished⟩ := Receive.step_stock hcall
    rw [htopic] at heffect
    cases heffect with
    | takes hbefore hafter =>
      exact ⟨.takes rfl rfl hbefore hafter rfl rfl, ⟨hrests, rfl⟩, hpublished, rfl, rfl, rfl, rfl⟩
  | submits | completes | forgets => exact effect_of_handling hpolicy hroute hfits hs
  | returns | loses | insists | acknowledges => exact hfits.elim

/-- A listener that is given up leaves the worker, and the topic as it is. -/
theorem drop_effect (hfits : l.Fits worker q) :
    (QueueSource.drop l w q).2.desk.crew.pool.Solo [worker] 1 [] ∧
      QueueSource.Calm w (QueueSource.drop l w q).1 q (QueueSource.drop l w q).2 := by
  cases l with
  | receiving call =>
    obtain ⟨hstock, hpublished⟩ := Receive.drop_stock call q.settings.topic (b := w.clients.broker)
    exact ⟨hfits.2, ⟨hpublished, rfl, rfl, rfl, rfl⟩, hstock, rfl⟩
  | handling d submission =>
    obtain ⟨hrests, hsharing, hcounts⟩ := Submission.drop_solo hfits.1
    exact ⟨hrests, ⟨rfl, rfl, rfl, rfl, hsharing⟩, rfl, hcounts⟩
  | acking d trip => exact hfits.elim
  | checking => exact ⟨hfits, ⟨rfl, rfl, rfl, rfl, rfl⟩, rfl, rfl⟩
  | reaching trip => exact ⟨hfits, ⟨rfl, rfl, rfl, rfl, rfl⟩, rfl, rfl⟩
  | resting pause => exact ⟨hfits, ⟨rfl, rfl, rfl, rfl, rfl⟩, rfl, rfl⟩

end Listener

end EventDispatch
