import EventDispatch.Proofs.Duties
import EventDispatch.Proofs.StreamMoves
import EventDispatch.Proofs.TaskMoves

/-!
# Kinds of sources at work

Generators, sources that listen to a broker, sources that read a stream and sources that poll differ in
what their tasks do, and in what they do once the function was run on an event: a delivery is acknowledged,
an item is stamped. Here each kind is seen by one who keeps account of it. A task has a duty at the desk of
its source, and it may promise to see to what is to follow a call. Each move of a task keeps the account,
and a promise is kept in that move or stands.

## What is deliberately absent

When a source starts and stops is left to those who keep its history (`SourceHistory`). Sources that serve
requests have no calls of their own, and are none of these kinds.

## Main definitions

* `Workload`: what counts of a kind of source.
* `Workload.Moved`: what a move of a task keeps.
* `Workload.Lawful`: every move keeps it, and a task that is given up leaves nothing in hand.
* `Generator.workload`, `QueueSource.workload`, `StreamSource.workload`, `PollSource.workload`: the kinds.

## Main results

* `Generator.workload_lawful`, `QueueSource.workload_lawful`, `StreamSource.workload_lawful`,
  `PollSource.workload_lawful`: all of them keep to it.
-/

namespace EventDispatch

/-- A kind of source `σ` with tasks `τ`, as seen by one who keeps account. -/
structure Workload (σ τ : Type) where
  rules : TaskRules σ τ
  desk : σ → Desk
  duty : τ → Duty
  /-- The source is of this kind. -/
  Belongs : σ → Prop
  /-- The task knows what it is about. -/
  Fits : World → τ → Prop
  /-- The task will see to what is to follow a call. -/
  Promises : τ → FunctionCall → Prop
  /-- What is to follow a call has happened. -/
  Followed : World → FunctionCall → Prop

namespace Workload

variable {σ τ : Type}

/-- **What a move of a task keeps**: it changes its duty as it changes the desk; and each call that it
records, or for which it has promised to see to what follows, is followed, or the promise stands. -/
structure Moved (k : Workload σ τ) (task : τ) (m : Move τ Unit) (w w' : World) (s s' : σ) : Prop where
  advances : w.Advances w'
  belongs : k.Belongs s'
  fits : ∀ next ∈ m.next?, k.Fits w' next
  served : ∃ recorded, (k.desk s).Served w.ambient w'.ambient (k.desk s') (k.duty task)
      (Duty.after k.duty m) recorded ∧
    ∀ call, call ∈ recorded ∨ k.Promises task call →
      k.Followed w' call ∨ ∃ next ∈ m.next?, k.Promises next call

/-- The kind keeps account. -/
structure Lawful (k : Workload σ τ) : Prop where
  sealed : k.rules.Sealed
  set_desk : ∀ l s, k.desk (k.rules.setLifecycle l s) = k.desk s
  set_belongs : ∀ l s, k.Belongs s → k.Belongs (k.rules.setLifecycle l s)
  moved : ∀ {signal task w s m w' s'}, w.InMemory → k.Belongs s → k.Fits w task →
    k.rules.step signal task w s = some (m, w', s') → k.Moved task m w w' s s'
  /-- A task that is given up leaves nothing in hand. -/
  dropped : ∀ task w s, k.Belongs s → w.Advances (k.rules.drop task w s).1 ∧
    k.Belongs (k.rules.drop task w s).2 ∧
    ∀ members others line, (members.map Worker.serial).Nodup →
      (k.desk s).Accounts members ((k.duty task).held ++ others) ((k.duty task).tickets ++ line) →
      (k.desk (k.rules.drop task w s).2).Accounts members others line
  fits_of_advances : ∀ {w w' task}, w.Advances w' → k.Fits w task → k.Fits w' task
  followed_of_advances : ∀ {w w' call}, w.Advances w' → k.Followed w call → k.Followed w' call

variable {k : Workload σ τ} {task : τ} {m : Move τ Unit} {w w' : World} {s s' : σ}

/-- A move that has nothing to do with the desk. -/
theorem Moved.of_still (hstill : w.Still w') (hbelongs : k.Belongs s') (hdesk : k.desk s' = k.desk s)
    (hduty : Duty.after k.duty m = k.duty task) (hfits : ∀ next ∈ m.next?, k.Fits w' next)
    (hpromises : ∀ call, k.Promises task call → k.Followed w' call ∨ ∃ next ∈ m.next?, k.Promises next call) :
    k.Moved task m w w' s s' := by
  refine ⟨hstill.advances, hbelongs, hfits, [], ?_, fun call hc =>
    hpromises call (hc.resolve_left List.not_mem_nil)⟩
  rw [hdesk, hduty]
  exact .still hstill.calls _ _

/-- A kind of source of which nothing is to follow a call. -/
def plain (rules : TaskRules σ τ) (desk : σ → Desk) (duty : τ → Duty) : Workload σ τ where
  rules := rules
  desk := desk
  duty := duty
  Belongs _ := True
  Fits _ _ := True
  Promises _ _ := False
  Followed _ _ := True

/-- Where nothing is to follow, only the desk counts. -/
theorem moved_of_served {rules : TaskRules σ τ} {desk : σ → Desk} {duty : τ → Duty}
    (hadvances : w.Advances w') {recorded : List FunctionCall} (hserved : (desk s).Served w.ambient w'.ambient (desk s') (duty task)
      (Duty.after duty m) recorded) : (plain rules desk duty).Moved task m w w' s s' :=
  ⟨hadvances, trivial, fun _ _ => trivial, recorded, hserved, fun _ _ => .inl trivial⟩

theorem moved_of_still {rules : TaskRules σ τ} {desk : σ → Desk} {duty : τ → Duty} (hstill : w.Still w')
    (hdesk : desk s' = desk s) (hduty : Duty.after duty m = duty task) :
    (plain rules desk duty).Moved task m w w' s s' :=
  .of_still hstill trivial hdesk hduty (fun _ _ => trivial) fun _ _ => .inl trivial

end Workload

/-! ### Generators -/

/-- What a task of a generator has in hand. -/
def Generation.duty : Generation → Duty
  | .submitting _ _ submission => submission.duty
  | .idle _ _ | .pausing _ _ _ => .none

namespace Generator

/-- Generators, as seen by one who keeps account. -/
def workload : Workload Generator Generation := .plain rules Generator.desk Generation.duty

/-- **One move of a task** of a generator. -/
theorem moved_of_moves {signal : Signal} {task : Generation} {m : Move Generation Unit} {w w' : World}
    {g g' : Generator} (h : Moves signal w g task m w' g') : workload.Moved task m w w' g g' := by
  cases h with
  | stops | pauses | wakes => exact Workload.moved_of_still (.refl w) rfl rfl
  | makes => exact Workload.moved_of_still ⟨rfl, rfl, rfl, rfl, rfl⟩ rfl rfl
  | submits hsubmit =>
    obtain ⟨recorded, hserved, -⟩ := Submission.step_served hsubmit
    exact Workload.moved_of_served (w.advances_ambient _) hserved
  | returns hsubmit =>
    obtain ⟨recorded, hserved, -⟩ := Submission.step_served hsubmit
    exact Workload.moved_of_served (w.advances_ambient _) hserved

/-- **Generators keep account.** -/
theorem workload_lawful : workload.Lawful where
  sealed := rules_sealed
  set_desk _ _ := rfl
  set_belongs _ _ _ := trivial
  moved _ _ _ hs := moved_of_moves (moves_of_step hs)
  dropped task w g _ := by
    cases task with
    | idle index made => exact ⟨.refl w, trivial, fun _ _ _ _ h => h⟩
    | pausing index made pause => exact ⟨.refl w, trivial, fun _ _ _ _ h => h⟩
    | submitting index made submission =>
      exact ⟨.refl w, trivial, fun _ _ _ hd h => Submission.drop_released hd h⟩
  fits_of_advances _ _ := trivial
  followed_of_advances _ _ := trivial

end Generator

/-! ### Sources that read a stream -/

/-- What a task has in hand that reads a shard. Its worker stays with it between two records. -/
def Reader.duty : Reader → Duty
  | .hiring _ allocation => ⟨[], Acquire.tickets allocation, []⟩
  | .handling _ worker _ _ _ assignment => ⟨[worker], [], assignment.calls⟩
  | .locating _ worker _ _ | .relocating _ worker _ _ | .idle _ worker _ | .pausing _ worker _ _
  | .fetching _ worker _ _ | .between _ worker _ _ => ⟨[worker], [], []⟩

/-- A task that has its worker and runs nothing on it has nothing else in hand. -/
theorem Reader.Rests.duty_eq {r : Reader} {worker : Worker} (h : r.Rests worker) : r.duty = ⟨[worker], [], []⟩ := by
  cases r with
  | hiring shard allocation => exact h.elim
  | handling shard held record rest next assignment => exact h.elim
  | _ =>
    cases h
    rfl

/-- The service of a stream is called neither to acknowledge nor to update. -/
theorem World.Reads.still {w w' : World} (h : w.Reads w') : w.Still w' := by
  obtain ⟨⟨routes, calls, stream, rfl, -⟩, hroutes⟩ := h
  exact ⟨rfl, rfl, rfl, hroutes _ (by decide) (by decide), hroutes _ (by decide) (by decide)⟩

namespace StreamSource

variable {signal : Signal} {r : Reader} {m : Move Reader Unit} {w w' : World} {s s' : StreamSource}

/-- Sources that read a stream, as seen by one who keeps account. -/
def workload : Workload StreamSource Reader := .plain rules StreamSource.desk Reader.duty

/-- A task that ends gives its worker back. -/
theorem moved_of_release {worker : Worker} (hduty : r.duty = ⟨[worker], [], []⟩) (hstill : w.Still w') :
    workload.Moved r (.ends ()) w w' s { s with desk := s.desk.release worker } := by
  have hserved := (Desk.Served.still hstill.calls s.desk _).trans (Desk.served_of_release _ s.desk worker)
  rw [← hduty] at hserved
  exact Workload.moved_of_served hstill.advances hserved

/-- **One move of a task** that reads a shard. -/
theorem moved_of_moves (h : Moves signal w s r m w' s') : workload.Moved r m w w' s s' := by
  cases h with
  | withdraws => exact Workload.moved_of_served (.refl w) (Desk.served_of_dropAcquire w.ambient s.desk _)
  | queues _ hacquire => exact Workload.moved_of_served (.refl w) (Desk.served_of_stepAcquire hacquire)
  | misses _ hacquire => exact Workload.moved_of_served (.refl w) (Desk.served_of_stepAcquire hacquire)
  | hires _ hacquire => exact Workload.moved_of_served (.refl w) (Desk.served_of_stepAcquire hacquire)
  | asks hworld => exact Workload.moved_of_still hworld.still rfl rfl
  | retries hworld => exact Workload.moved_of_still hworld.still rfl rfl
  | finds hworld => exact Workload.moved_of_still hworld.still rfl rfl
  | fetches hworld => exact Workload.moved_of_still hworld.still rfl rfl
  | fails hworld => exact Workload.moved_of_still hworld.still rfl rfl
  | brings hworld => exact Workload.moved_of_still hworld.still rfl rfl
  | resumes => exact Workload.moved_of_still (.refl w) rfl rfl
  | pauses => exact Workload.moved_of_still (.refl w) rfl rfl
  | requests => exact Workload.moved_of_still (.refl w) rfl rfl
  | exhausts => exact Workload.moved_of_still (.refl w) rfl rfl
  | begins => exact Workload.moved_of_still (.refl w) rfl rfl
  | handles hassign =>
    obtain ⟨recorded, hserved⟩ := Assignment.step_served [_] hassign
    exact Workload.moved_of_served (w.advances_ambient _) hserved
  | completes hassign =>
    obtain ⟨recorded, hserved⟩ := Assignment.step_served [_] hassign
    exact Workload.moved_of_served (w.advances_ambient _) hserved
  | breaks _ hworld => exact moved_of_release rfl hworld.still
  | quits hrests _ hworld => exact moved_of_release hrests.duty_eq hworld.still

/-- **Sources that read a stream keep account.** -/
theorem workload_lawful : workload.Lawful where
  sealed := rules_sealed
  set_desk _ _ := rfl
  set_belongs _ _ _ := trivial
  moved _ _ _ hs := moved_of_moves (moves_of_step hs)
  dropped task w s _ := by
    refine ⟨.refl w, trivial, fun members others line hd h => ?_⟩
    cases task with
    | hiring shard allocation => exact h.dropAcquire
    | locating shard worker resume trip => exact h.release hd
    | relocating shard worker resume pause => exact h.release hd
    | idle shard worker position => exact h.release hd
    | pausing shard worker position pause => exact h.release hd
    | fetching shard worker position trip => exact h.release hd
    | between shard worker rest next => exact h.release hd
    | handling shard worker record rest next assignment => exact h.release hd
  fits_of_advances _ _ := trivial
  followed_of_advances _ _ := trivial

end StreamSource

/-! ### Sources that listen to a broker -/

namespace Listener

/-- What a listener has in hand. -/
def duty : Listener → Duty
  | .handling _ submission => submission.duty
  | .checking | .reaching _ | .receiving _ | .acking _ _ | .resting _ => .none

/-- What a listener submits is made of its delivery, which the broker knows. -/
def Aware (w : World) : Listener → Prop
  | .handling d submission => submission.event.IsOf d ∧ w.clients.broker.Knows d
  | .acking d _ => w.clients.broker.Knows d
  | .checking | .reaching _ | .receiving _ | .resting _ => True

/-- The listener will acknowledge the delivery with whose event the function was entered. -/
def Owes : Listener → FunctionCall → Prop
  | .acking d _, call => call.event.IsOf d
  | _, _ => False

end Listener

/-- The delivery with whose event the function was entered is acknowledged, if the policy asks for it. -/
def AckPolicy.Acked (policy : AckPolicy) (w : World) (call : FunctionCall) : Prop :=
  policy = .onSubmitSuccess →
    ∃ d, call.event.IsOf d ∧ d.id ∈ (w.clients.broker.topic d.topic).acked

namespace QueueSource

variable {policy : AckPolicy} {signal : Signal} {l : Listener} {m : Move Listener Unit} {w w' : World}
  {q q' : QueueSource}

/-- Sources that listen to a broker, as seen by one who keeps account. -/
def workload (policy : AckPolicy) : Workload QueueSource Listener where
  rules := rules
  desk := QueueSource.desk
  duty := Listener.duty
  Belongs q := q.policy = policy
  Fits := Listener.Aware
  Promises := Listener.Owes
  Followed := policy.Acked

/-- The listener goes on, and only the broker notices, if anybody. -/
theorem moved_of_goes {next : Listener} (hpolicy : q.policy = policy) (hadvances : w.Advances w')
    (hcalls : w'.ambient.calls = w.ambient.calls) (hduty : next.duty = l.duty) (hfits : next.Aware w')
    (hpromises : ∀ c, ¬l.Owes c) : (workload policy).Moved l (.goes next) w w' q q := by
  refine ⟨hadvances, hpolicy, fun other hm => ?_, [], ?_, fun c hc => ?_⟩
  · cases hm
    exact hfits
  · change Desk.Served _ _ _ _ l.duty next.duty []
    rw [hduty]
    exact .still hcalls q.desk l.duty
  · exact absurd (hc.resolve_left List.not_mem_nil) (hpromises c)

/-- The listener ends with nothing in hand. -/
theorem moved_of_ends (hpolicy : q.policy = policy) (hadvances : w.Advances w')
    (hcalls : w'.ambient.calls = w.ambient.calls) (hduty : l.duty = .none) (hpromises : ∀ c, ¬l.Owes c) :
    (workload policy).Moved l (.ends ()) w w' q q := by
  refine ⟨hadvances, hpolicy, fun other hm => (by cases hm), [], ?_, fun c hc => ?_⟩
  · change Desk.Served _ _ _ _ l.duty .none []
    rw [hduty]
    exact .still hcalls q.desk .none
  · exact absurd (hc.resolve_left List.not_mem_nil) (hpromises c)

/-- The submission of a delivery goes on. -/
theorem moved_of_submits {d : Delivery} {submission next : Submission} {ambient : Ambient} {desk : Desk}
    (hpolicy : q.policy = policy) (hfits : Listener.Aware w (.handling d submission))
    (hsubmit : submission.step w.ambient q.desk = some (.goes next, ambient, desk)) :
    (workload policy).Moved (.handling d submission) (.goes (.handling d next)) w { w with ambient } q
      { q with desk } := by
  obtain ⟨hevent, hknown⟩ := hfits
  obtain ⟨recorded, hserved, hends⟩ := Submission.step_served hsubmit
  refine ⟨w.advances_ambient ambient, hpolicy, fun next hm => ?_, recorded, hserved, ?_⟩
  · cases hm
    exact ⟨Submission.isOf_of_step hevent hsubmit, hknown⟩
  · rintro c (hc | hc)
    · obtain ⟨event, heq⟩ := hends c hc
      cases heq
    · cases hc

/-- The submission of a delivery is answered, and an acknowledgement follows if the policy asks for one. -/
theorem moved_of_answered {d : Delivery} {submission : Submission} {outcome : SubmitOutcome} {event : Event}
    {ambient : Ambient} {desk : Desk} {next : Listener} (hpolicy : q.policy = policy)
    (hfits : Listener.Aware w (.handling d submission))
    (hsubmit : submission.step w.ambient q.desk = some (.ends (outcome, event), ambient, desk))
    (hduty : next.duty = .none) (haware : w.clients.broker.Knows d → next.Aware { w with ambient })
    (howes : ∀ c : FunctionCall, wasHandled outcome = true → policy = .onSubmitSuccess → c.event.IsOf d → next.Owes c) :
    (workload policy).Moved (.handling d submission) (.goes next) w { w with ambient } q { q with desk } := by
  obtain ⟨hevent, hknown⟩ := hfits
  obtain ⟨recorded, hserved, hends⟩ := Submission.step_served hsubmit
  refine ⟨w.advances_ambient ambient, hpolicy, fun other hm => ?_, recorded, ?_, ?_⟩
  · cases hm
    exact haware hknown
  · change Desk.Served _ _ _ _ _ next.duty _
    rw [hduty]
    exact hserved
  · rintro c (hc | hc)
    · obtain ⟨made, heq⟩ := hends c hc
      cases heq
      have hhandled : wasHandled (.ofOutcome c.outcome) = true := by
        cases c.outcome <;> rfl
      have hof : c.event.IsOf d := by
        rw [Submission.event_of_mem_duty (hserved.known hc)]
        exact hevent
      by_cases hask : policy = .onSubmitSuccess
      · exact .inr ⟨next, rfl, howes c hhandled hask hof⟩
      · exact .inl fun hp => absurd hp hask
    · cases hc

/-- The broker is asked to acknowledge, and has done so before or does it now. -/
theorem moved_of_acks (signal : Signal) {d : Delivery} {trip : Trip} (hpolicy : q.policy = policy)
    (hmemory : w.InMemory) (hknown : w.clients.broker.Knows d) (h : Moves signal w q (.acking d trip) m w' q') :
    (workload policy).Moved (.acking d trip) m w w' q q' := by
  cases h with
  | returns htrip =>
    obtain ⟨rfl, -⟩ := World.stepTrip_sure hmemory.ack htrip
    refine .of_still (.refl _) hpolicy rfl rfl (fun next hm => ?_) fun c hc => .inr ⟨_, rfl, hc⟩
    cases hm
    exact hknown
  | loses htrip => exact absurd rfl ((World.stepTrip_sure hmemory.ack htrip).2 _)
  | insists htrip hack =>
    obtain ⟨rfl, -⟩ := World.stepTrip_sure hmemory.ack htrip
    obtain ⟨broker, hok, -⟩ | ⟨-, hacked⟩ := Broker.acked_of_knows hknown
    · rw [hok] at hack
      cases hack
    · refine .of_still (.refl _) hpolicy rfl rfl (fun next hm => ?_) fun c hc => .inl fun _ => ⟨d, hc, hacked⟩
      cases hm
      trivial
  | acknowledges htrip hack =>
    obtain ⟨rfl, -⟩ := World.stepTrip_sure hmemory.ack htrip
    obtain ⟨broker, hok, hacked⟩ | ⟨⟨e, herror⟩, -⟩ := Broker.acked_of_knows hknown
    · rw [hok] at hack
      cases hack
      refine ⟨World.advances_of_grows (Broker.grows_ack hok) _, hpolicy, fun next hm => ?_, [],
        .still rfl _ .none, fun c hc => .inl fun _ => ⟨d, hc.resolve_left List.not_mem_nil, hacked⟩⟩
      cases hm
      trivial
    · rw [herror] at hack
      cases hack

/-- **One move of a listener.** -/
theorem moved_of_moves (hmemory : w.InMemory) (hpolicy : q.policy = policy) (hfits : l.Aware w)
    (h : Moves signal w q l m w' q') : (workload policy).Moved l m w w' q q' := by
  have hreached : ∀ {trip : Trip} {answer : Move Trip (Option Error)} {w' : World},
      w.stepTrip .receive trip = some (answer, w') → w.Still w' :=
    World.still_of_stepTrip (by decide) (by decide)
  cases h with
  | stops | turns | leaves => exact moved_of_ends hpolicy (.refl w) rfl rfl fun _ => id
  | asks =>
    have hstill : w.Still { w with clients := { w.clients with groups :=
        w.clients.groups ++ [(q.settings.topic, q.settings.queueName, receiveWait)] } } :=
      ⟨rfl, rfl, rfl, rfl, rfl⟩
    exact moved_of_goes hpolicy hstill.advances rfl rfl trivial fun _ => id
  | travels htrip =>
    exact moved_of_goes hpolicy (hreached htrip).advances (hreached htrip).calls rfl trivial fun _ => id
  | arrives htrip =>
    exact moved_of_goes hpolicy (hreached htrip).advances (hreached htrip).calls rfl trivial fun _ => id
  | rests htrip =>
    exact moved_of_goes hpolicy (hreached htrip).advances (hreached htrip).calls rfl trivial fun _ => id
  | despairs htrip =>
    exact moved_of_ends hpolicy (hreached htrip).advances (hreached htrip).calls rfl fun _ => id
  | @withdraws call => exact moved_of_ends hpolicy (World.advances_of_grows (call.drop_grows _) _) rfl rfl fun _ => id
  | waits hcall =>
    have hadvances := World.advances_of_grows (Receive.step_grows hcall).1 w.ambient
    exact moved_of_goes hpolicy hadvances rfl rfl trivial fun _ => id
  | misses hcall =>
    have hadvances := World.advances_of_grows (Receive.step_grows hcall).1 w.ambient
    exact moved_of_goes hpolicy hadvances rfl rfl trivial fun _ => id
  | receives hcall =>
    obtain ⟨hgrows, hknown⟩ := Receive.step_grows hcall
    have hadvances := World.advances_of_grows hgrows w.ambient
    exact moved_of_goes hpolicy hadvances rfl rfl ⟨rfl, hknown _ rfl hmemory.filed⟩ fun _ => id
  | submits hsubmit => exact moved_of_submits hpolicy hfits hsubmit
  | completes hsubmit =>
    exact moved_of_answered hpolicy hfits hsubmit rfl id fun _ _ _ hof => hof
  | forgets hsubmit hask =>
    refine moved_of_answered hpolicy hfits hsubmit rfl (fun _ => trivial) fun c hhandled hp _ => ?_
    rw [hhandled, hpolicy, hp] at hask
    cases hask
  | returns htrip => exact moved_of_acks signal hpolicy hmemory hfits (.returns htrip)
  | loses htrip => exact moved_of_acks signal hpolicy hmemory hfits (.loses htrip)
  | insists htrip hack => exact moved_of_acks signal hpolicy hmemory hfits (.insists htrip hack)
  | acknowledges htrip hack => exact moved_of_acks signal hpolicy hmemory hfits (.acknowledges htrip hack)
  | resumes => exact moved_of_goes hpolicy (.refl w) rfl rfl trivial fun _ => id

/-- **Sources that listen to a broker keep account.** -/
theorem workload_lawful (policy : AckPolicy) : (workload policy).Lawful where
  sealed := rules_sealed
  set_desk _ _ := rfl
  set_belongs _ _ h := h
  moved hmemory hpolicy hfits hs := moved_of_moves hmemory hpolicy hfits (moves_of_step hs)
  dropped task w q hpolicy := by
    cases task with
    | receiving call =>
      exact ⟨World.advances_of_grows (call.drop_grows _) w.ambient, hpolicy, fun _ _ _ _ h => h⟩
    | handling d submission =>
      exact ⟨.refl w, hpolicy, fun _ _ _ hd h => Submission.drop_released hd h⟩
    | checking => exact ⟨.refl w, hpolicy, fun _ _ _ _ h => h⟩
    | reaching trip => exact ⟨.refl w, hpolicy, fun _ _ _ _ h => h⟩
    | acking d trip => exact ⟨.refl w, hpolicy, fun _ _ _ _ h => h⟩
    | resting pause => exact ⟨.refl w, hpolicy, fun _ _ _ _ h => h⟩
  fits_of_advances {w w' task} hadvances hfits := by
    cases task with
    | handling d submission => exact ⟨hfits.1, hadvances.broker.known d hfits.2⟩
    | acking d trip => exact hadvances.broker.known d hfits
    | checking => trivial
    | reaching trip => trivial
    | receiving call => trivial
    | resting pause => trivial
  followed_of_advances hadvances hfollowed hask := by
    obtain ⟨d, hof, hacked⟩ := hfollowed hask
    exact ⟨d, hof, hadvances.broker.acked d.topic hacked⟩

end QueueSource

/-! ### Sources that poll -/

/-- The stamp with which a driver marks items as handled, if it does. -/
def PollDriver.stamp? : PollDriver → Option Stamp
  | .items p => some p.stamp
  | .feed _ => none

/-- The attributes that mark the item of an event as handled. -/
def Stamp.marks (stamp : Stamp) (event : Event) : Json.Object :=
  Keyed.ofList [(stamp.secs, .ofInt event.timestamp.secs), (stamp.nsecs, .ofNat event.timestamp.nanos)]

@[simp] theorem ItemPoller.stamp_completeFirstPoll (p : ItemPoller) :
    p.completeFirstPoll.stamp = p.stamp := by
  rw [completeFirstPoll]
  split <;> rfl

namespace ItemStore

/-- Whatever becomes of an update, it was sent. -/
theorem updates_update (path : String) (attributes : Json.Object) (s : ItemStore) :
    (s.update path attributes).2.updates = s.updates ++ [(path, attributes)] := by
  rw [update]
  dsimp only
  split
  · rfl
  · split <;> rfl

end ItemStore

theorem World.Consults.still {w w' : World} (h : w.Consults w') : w.Still w' := by
  refine ⟨?_, h.broker, h.updates, h.routes _ (by decide), h.routes _ (by decide)⟩
  rw [Ambient.calls, Ambient.calls, h.function, h.entries]

/-- A search neither enters the function nor stamps items. -/
theorem Producer.still_of_step {producer producer' : Producer} {w w' : World} {d d' : PollDriver}
    {c c' : Channel} (h : producer.step w d c = some (producer', w', d', c')) :
    w.Still w' ∧ d'.stamp? = d.stamp? := by
  refine ⟨(consults_of_step h).still, ?_⟩
  cases moves_of_step h with
  | @completes p => exact congrArg some p.stamp_completeFirstPoll
  | _ => rfl

/-- The update that marks the item of an event is among some updates, if the event was handled with success
and items are stamped. -/
def Stamp.Among (stamp? : Option Stamp) (updates : List (String × Json.Object)) (call : FunctionCall) :
    Prop :=
  ∀ stamp ∈ stamp?, call.succeeded = true → (call.event.path, stamp.marks call.event) ∈ updates

theorem Stamp.among_or_of_cons {stamp? : Option Stamp} {update : String × Json.Object}
    {rest : List (String × Json.Object)} {call : FunctionCall} (h : Among stamp? (update :: rest) call) :
    Among stamp? [update] call ∨ Among stamp? rest call := by
  by_cases hfirst : ∃ stamp ∈ stamp?, (call.event.path, stamp.marks call.event) = update
  · obtain ⟨stamp, hstamp, rfl⟩ := hfirst
    refine .inl fun other hother _ => ?_
    cases Option.mem_unique hstamp hother
    exact List.mem_singleton_self _
  · refine .inr fun stamp hstamp hsucceeded => ?_
    exact (List.mem_cons.mp (h stamp hstamp hsucceeded)).resolve_left fun heq => hfirst ⟨stamp, hstamp, heq⟩

theorem Stamp.Among.mono {stamp? : Option Stamp} {updates updates' : List (String × Json.Object)}
    {call : FunctionCall} (h : Among stamp? updates call) (hsub : updates ⊆ updates') :
    Among stamp? updates' call :=
  fun stamp hstamp hsucceeded => hsub (h stamp hstamp hsucceeded)

namespace Consumer

/-- What the half of a cycle that submits has in hand. -/
def duty : Consumer → Duty
  | .submitting _ batch => batch.duty
  | .receiving _ | .wrapping _ _ _ | .done => .none

/-- The batch that is submitted is in order. -/
def Tidy : Consumer → Prop
  | .submitting _ batch => batch.Paired ∧ batch.Within
  | .receiving _ | .wrapping _ _ _ | .done => True

/-- The item of an event will be stamped, if the event was handled with success and items are stamped. -/
def WillStamp (stamp? : Option Stamp) : Consumer → FunctionCall → Prop
  | .submitting _ batch, call => batch.Handled call
  | .wrapping _ _ (.stamping rest _), call => Stamp.Among stamp? rest call
  | _, _ => False

end Consumer

namespace PollTask

/-- What the task of a source that polls has in hand. -/
def duty : PollTask → Duty
  | .cycling _ _ _ consumer => consumer.duty
  | .checking | .pausing _ => .none

/-- The batch that is submitted is in order. -/
def Tidy : PollTask → Prop
  | .cycling _ _ _ consumer => consumer.Tidy
  | .checking | .pausing _ => True

/-- The item of an event will be stamped. -/
def WillStamp (stamp? : Option Stamp) : PollTask → FunctionCall → Prop
  | .cycling _ _ _ consumer, call => consumer.WillStamp stamp? call
  | _, _ => False

end PollTask

namespace PollSource

variable {stamp? : Option Stamp} {signal : Signal} {w w' : World} {s s' : PollSource}

/-- Sources that poll, as seen by one who keeps account. -/
def workload (stamp? : Option Stamp) : Workload PollSource PollTask where
  rules := rules
  desk := PollSource.desk
  duty := PollTask.duty
  Belongs s := s.driver.stamp? = stamp?
  Fits _ := PollTask.Tidy
  Promises := PollTask.WillStamp stamp?
  Followed w := Stamp.Among stamp? w.clients.items.updates

variable {turn turn' : CycleHalf} {c c' : Channel} {producer : Producer} {consumer consumer' : Consumer}

/-- Neither the desk nor the items are touched in this move of the half that submits. -/
theorem moved_of_quiet (hstamp : s'.driver.stamp? = stamp?) (hdesk : s'.desk = s.desk)
    (hduty : consumer'.duty = consumer.duty) (htidy : consumer'.Tidy)
    (hpromises : ∀ call, consumer.WillStamp stamp? call →
      Stamp.Among stamp? w.clients.items.updates call ∨ consumer'.WillStamp stamp? call) :
    (workload stamp?).Moved (.cycling turn c producer consumer) (.goes (.cycling turn' c' producer consumer'))
      w w s s' := by
  refine .of_still (.refl w) hstamp hdesk hduty (fun next hm => ?_) fun call hcall => ?_
  · cases hm
    exact htidy
  · exact (hpromises call hcall).imp_right fun h => ⟨_, rfl, h⟩

theorem quiet_afterBatch (isLast : Bool) : (afterBatch isLast).duty = .none ∧ (afterBatch isLast).Tidy := by
  cases isLast <;> exact ⟨rfl, trivial⟩

/-- The half that submits receives: all that may follow is a batch that has not begun. -/
theorem quiet_of_receiving {batch : List Event}
    (hs : s.stepConsumer signal c w (.receiving batch) = some (consumer', c', w', s')) :
    w' = w ∧ s' = s ∧ consumer'.duty = .none ∧ consumer'.Tidy := by
  cases Consumer.moves_of_step hs with
  | fills | finishes => exact ⟨rfl, rfl, rfl, trivial, trivial⟩
  | _ => exact ⟨rfl, rfl, rfl, trivial⟩

/-- After a batch was handled, the items of its events with success are to be stamped, if items are. -/
theorem willStamp_ofBatch {isLast : Bool} {previous : PollPhase} {now : Nat} {d : PollDriver}
    {events : List Event} {outcomes : List Outcome} {call : FunctionCall}
    (hcall : (call.event, call.outcome) ∈ events.zip outcomes) :
    Stamp.Among d.stamp? w.clients.items.updates call ∨
      (Consumer.wrapping isLast previous (.ofBatch now d events outcomes)).WillStamp d.stamp? call := by
  cases d with
  | feed f => exact .inl fun stamp hstamp => by cases hstamp
  | items p =>
    refine .inr fun stamp hstamp hsucceeded => ?_
    cases hstamp
    exact List.mem_map.mpr ⟨_, List.mem_filter.mpr ⟨hcall, hsucceeded⟩, rfl⟩

theorem moved_of_submitting {isLast : Bool} {batch : Batch} (hstamp : s.driver.stamp? = stamp?)
    (htidy : (Consumer.submitting isLast batch).Tidy)
    (hs : s.stepConsumer signal c w (.submitting isLast batch) = some (consumer', c', w', s')) :
    (workload stamp?).Moved (.cycling turn c producer (.submitting isLast batch))
      (.goes (.cycling turn' c' producer consumer')) w w' s s' := by
  obtain ⟨hpaired, hwithin⟩ := htidy
  subst hstamp
  cases Consumer.moves_of_step hs with
  | submits hbatch =>
    obtain ⟨hwithin', recorded, hserved, hhandled⟩ := Batch.step_served hpaired hwithin hbatch
    refine ⟨w.advances_ambient _, rfl, fun next hm => ?_, recorded, hserved, fun call hcall => ?_⟩
    · cases hm
      exact ⟨(Batch.paired_of_step hpaired hbatch).1, hwithin' _ rfl⟩
    · exact .inr ⟨_, rfl, hhandled call hcall⟩
  | misses hbatch =>
    obtain ⟨-, recorded, hserved, hhandled⟩ := Batch.step_served hpaired hwithin hbatch
    obtain ⟨hduty, hquiet⟩ := quiet_afterBatch isLast
    refine ⟨w.advances_ambient _, rfl, fun next hm => ?_, recorded, ?_, fun call hcall => ?_⟩
    · cases hm
      exact hquiet
    · change Desk.Served _ _ _ _ _ (Consumer.duty _) _
      rw [hduty]
      exact hserved
    · exact (hhandled call hcall).elim
  | handles hbatch =>
    obtain ⟨-, recorded, hserved, hhandled⟩ := Batch.step_served hpaired hwithin hbatch
    refine ⟨w.advances_ambient _, rfl, fun next hm => ?_, recorded, hserved, fun call hcall => ?_⟩
    · cases hm
      trivial
    · exact (willStamp_ofBatch (hhandled call hcall)).imp_right fun h => ⟨_, rfl, h⟩

theorem moved_of_wrapping {isLast : Bool} {previous : PollPhase} {wrapup : Wrapup} (hmemory : w.InMemory)
    (hstamp : s.driver.stamp? = stamp?)
    (hs : s.stepConsumer signal c w (.wrapping isLast previous wrapup) = some (consumer', c', w', s')) :
    (workload stamp?).Moved (.cycling turn c producer (.wrapping isLast previous wrapup))
      (.goes (.cycling turn' c' producer consumer')) w w' s s' := by
  obtain ⟨hduty, hquiet⟩ := quiet_afterBatch isLast
  cases Consumer.moves_of_step hs with
  | wraps hwrapup =>
    generalize s.driver = d at hstamp hwrapup
    cases Wrapup.moves_of_step hwrapup with
    | asks htrip =>
      obtain ⟨rfl, -⟩ := World.stepTrip_sure hmemory.update htrip
      exact moved_of_quiet hstamp rfl rfl trivial fun call hcall => .inr hcall
    | loses htrip => exact absurd rfl ((World.stepTrip_sure hmemory.update htrip).2 _)
    | @stamps _ path attributes rest trip w₁ htrip =>
      -- An update is sent, and the others are still to be.
      obtain ⟨rfl, -⟩ := World.stepTrip_sure hmemory.update htrip
      have hupdates := ItemStore.updates_update path attributes w₁.clients.items
      refine ⟨⟨fun h => ⟨h.ack, h.update, h.filed⟩, .refl _, ?_⟩, hstamp, fun next hm => ?_, [],
        .still rfl _ .none, fun call hcall => ?_⟩
      · exact hupdates ▸ List.subset_append_left _ _
      · cases hm
        trivial
      · have hcall := hcall.resolve_left List.not_mem_nil
        refine (Stamp.among_or_of_cons hcall).imp (fun h => h.mono ?_) fun h => ⟨_, rfl, h⟩
        exact hupdates ▸ List.subset_append_right _ _
    | wakes => exact moved_of_quiet hstamp rfl rfl trivial fun call hcall => hcall.elim
  | returns hwrapup =>
    generalize s.driver = d at hstamp hwrapup
    cases Wrapup.moves_of_step hwrapup with
    | ends =>
      refine moved_of_quiet hstamp rfl hduty hquiet fun call hcall => .inl fun stamp hm hsucceeded => ?_
      cases hcall stamp hm hsucceeded
    | skips | notes => exact moved_of_quiet hstamp rfl hduty hquiet fun call hcall => hcall.elim

theorem moved_of_consumer (hmemory : w.InMemory) (hstamp : s.driver.stamp? = stamp?) (htidy : consumer.Tidy)
    (hs : s.stepConsumer signal c w consumer = some (consumer', c', w', s')) :
    (workload stamp?).Moved (.cycling turn c producer consumer) (.goes (.cycling turn' c' producer consumer'))
      w w' s s' := by
  cases consumer with
  | receiving batch =>
    obtain ⟨rfl, rfl, hduty, htidy'⟩ := quiet_of_receiving hs
    exact moved_of_quiet hstamp rfl hduty htidy' fun call hcall => hcall.elim
  | submitting isLast batch => exact moved_of_submitting hstamp htidy hs
  | wrapping isLast previous wrapup => exact moved_of_wrapping hmemory hstamp hs
  | done => cases hs

theorem moved_of_step {task : PollTask} {m : Move PollTask Unit} (hmemory : w.InMemory)
    (hstamp : s.driver.stamp? = stamp?) (htidy : task.Tidy)
    (hs : s.step signal task w = some (m, w', s')) : (workload stamp?).Moved task m w w' s s' := by
  have hnothing : ∀ next ∈ (Move.ends () : Move PollTask Unit).next?, next.Tidy := fun next hm => by cases hm
  cases moves_of_step hs with
  | searches hsearch =>
    obtain ⟨hstill, hsame⟩ := Producer.still_of_step hsearch
    refine .of_still hstill (hsame.trans hstamp) rfl rfl (fun next hm => ?_) fun call hcall =>
      .inr ⟨_, rfl, hcall⟩
    cases hm
    exact htidy
  | receives hsubmit => exact moved_of_consumer hmemory hstamp htidy hsubmit
  | stops | retires | breaks => exact .of_still (.refl _) hstamp rfl rfl hnothing fun call hcall => hcall.elim
  | begins | rests | wakes =>
    refine .of_still (.refl w) hstamp rfl rfl (fun next hm => ?_) fun call hcall => hcall.elim
    cases hm
    trivial

/-- **Sources that poll keep account.** -/
theorem workload_lawful (stamp? : Option Stamp) : (workload stamp?).Lawful where
  sealed := rules_sealed
  set_desk _ _ := rfl
  set_belongs _ _ h := h
  moved := moved_of_step
  dropped task w s hstamp := by
    cases task with
    | checking => exact ⟨.refl w, hstamp, fun _ _ _ _ h => h⟩
    | pausing pause => exact ⟨.refl w, hstamp, fun _ _ _ _ h => h⟩
    | cycling turn c producer consumer =>
      cases consumer with
      | submitting isLast batch => exact ⟨.refl w, hstamp, fun _ _ _ hd h => Batch.drop_released hd h⟩
      | receiving batch => exact ⟨.refl w, hstamp, fun _ _ _ _ h => h⟩
      | wrapping isLast previous wrapup => exact ⟨.refl w, hstamp, fun _ _ _ _ h => h⟩
      | done => exact ⟨.refl w, hstamp, fun _ _ _ _ h => h⟩
  fits_of_advances _ h := h
  followed_of_advances hadvances h := h.mono hadvances.updates

end PollSource

end EventDispatch
