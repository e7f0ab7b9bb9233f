import EventDispatch.Proofs.SourceHistory

/-!
# Requests on their way

A request takes an event from the pool of the source, then a worker from its crew, and gives both back
when it has its reply. It may be given up wherever it waits, by then with an event, with a worker too, or
with neither. However many requests there are, no more of them hold an event than the pool has, no more
runs of the function are in progress than there are workers, and nothing is lost on any way out.

## What is deliberately absent

What the events hold is not said here (`Isolation`). Time is not scheduled, as for `Leases`: any request
may move before any other, and a wait for a worker may be over at any instant.

## Main definitions

* `Serving.borrowed`, `Serving.leased`: the event and the worker that a request holds.
* `HttpSource.Lends`: the accounts of a source, for the requests on their way.
* `Visit`, `HttpService`: a request with how far it is, and a source with all of them; `HttpService.Step` is one
  move of anybody.
* `HttpService.Within`: what is held stays within what there is.

## Main results

* `Serving.lends_of_step`, `Serving.lends_of_drop`: what one move of a request does to the accounts.
* `HttpService.within_of_reachable`: the law, for every run of a source that was made by its factory.
-/

namespace EventDispatch

/-! ### What a request holds -/

namespace Serving

/-- The event of the pool that a request holds. -/
def borrowed : Serving → List Event
  | .submitting submission => [eventOf submission]
  | _ => []

/-- The ticket with which a request waits for an event. -/
def eventTickets : Serving → List Nat
  | .queued _ acquire => acquire.tickets
  | _ => []

/-- The worker that a request holds. -/
def leased : Serving → List Worker
  | .submitting submission => submission.leased
  | _ => []

/-- The worker on which the function runs for a request. -/
def busy : Serving → List Worker
  | .submitting submission => submission.busy
  | _ => []

/-- The ticket with which a request waits for a worker. -/
def workerTickets : Serving → List Nat
  | .submitting submission => submission.tickets
  | _ => []

/-- A request waits for an event as long as it takes. -/
def Patient : Serving → Prop
  | .queued _ acquire => acquire = .asking none ∨ ∃ ticket, acquire = .waiting ticket none
  | _ => True

end Serving

/-- A call that waits as long as it takes ends with an item. -/
theorem Acquire.step_patient {α : Type} {p p' : Pool α} {now : Nat} {acquire : Acquire}
    {m : Move Acquire (Except Error α)} (hb : p.Balanced)
    (hpatient : acquire = .asking none ∨ ∃ ticket, acquire = .waiting ticket none)
    (hs : acquire.step now p = some (m, p')) :
    (∃ ticket, m = .goes (.waiting ticket none)) ∨ ∃ item, m = .ends (.ok item) := by
  rcases hpatient with rfl | ⟨ticket, rfl⟩
  · cases hs
    exact .inl ⟨_, rfl⟩
  · cases hr : p.redeem ticket with
    | none => simp [step, hr] at hs
    | some x =>
      obtain ⟨result, pool⟩ := x
      obtain ⟨item, rfl, -⟩ := Pool.redeem_balanced hb hr
      simp only [step, hr, Option.some.injEq, Prod.mk.injEq] at hs
      exact .inr ⟨item, hs.1.symm⟩

/-! ### The accounts of a source -/

/-- Where the workers and the events of a source are, and who waits for them: each event is idle or held by
one request. -/
structure HttpSource.Lends (members : List Worker) (places : Nat) (servings : List Serving)
    (s : HttpSource) : Prop where
  desk : s.desk.Accounts members (servings.flatMap Serving.leased) (servings.flatMap Serving.workerTickets)
  lent : s.events.idle.length + (servings.flatMap Serving.borrowed).length = places
  balanced : s.events.Balanced
  ticketed : s.events.Ticketed (servings.flatMap Serving.eventTickets)
  capacity : s.events.capacity = places
  patient : ∀ serving ∈ servings, serving.Patient

/-- Nobody has come to the source. -/
theorem HttpSource.lends_new {crew : Crew} (h : crew.Fresh) (info : SourceInfo) (settings : HttpSettings)
    (limit : Nat) : (HttpSource.new info settings limit crew).Lends crew.members settings.maxInFlight [] where
  desk := Desk.accounts_of_fresh (d := .new info crew) h
  lent := by simp [HttpSource.new, Pool.full]
  balanced := Pool.balanced_full _ _
  ticketed := Pool.ticketed_full _ _
  capacity := by simp [HttpSource.new, Pool.full]
  patient := fun _ hm => by cases hm

namespace HttpSource.Lends

variable {members : List Worker} {places : Nat} {servings : List Serving} {s : HttpSource}

theorem of_perm {servings' : List Serving} (h : s.Lends members places servings)
    (hp : servings.Perm servings') : s.Lends members places servings' where
  desk := h.desk.of_perm (hp.flatMap_right _) (hp.flatMap_right _)
  lent := (hp.flatMap_right Serving.borrowed).length_eq ▸ h.lent
  balanced := h.balanced
  ticketed := h.ticketed.of_perm (hp.flatMap_right _)
  capacity := h.capacity
  patient serving hm := h.patient serving (hp.mem_iff.mpr hm)

/-- **An event that comes back is kept**: there is room for it, because it was lent. -/
theorem giveBack {submission : Submission} {others : List Serving} {desk : Desk}
    (h : s.Lends members places (.submitting submission :: others))
    (hdesk : desk.Accounts members (others.flatMap Serving.leased) (others.flatMap Serving.workerTickets))
    (event : Event) (now : Timestamp) :
    (Serving.giveBack { s with desk } event now).Lends members places others ∧
      (Serving.giveBack { s with desk } event now).events.idle = event.reset now :: s.events.idle := by
  have hlent : s.events.idle.length + ((others.flatMap Serving.borrowed).length + 1) = places := h.lent
  have hroom : s.events.idle.length < s.events.capacity := by
    rw [h.capacity]
    omega
  have hpool : (Serving.giveBack { s with desk } event now).events =
      ({ s.events with idle := event.reset now :: s.events.idle } : Pool Event).addPermit :=
    congrArg Prod.snd (Pool.giveBack_of_room (fun _ _ => Bool.false_ne_true) hroom)
  refine ⟨⟨hdesk, ?_, Pool.giveBack_balanced h.balanced _ _, h.ticketed.giveBack _ _, ?_,
    (List.forall_mem_cons.mp h.patient).2⟩, ?_⟩
  · rw [hpool, Pool.idle_addPermit, List.length_cons]
    omega
  · rw [hpool, Pool.capacity_addPermit]
    exact h.capacity
  · rw [hpool, Pool.idle_addPermit]

end HttpSource.Lends

namespace Serving

variable {members : List Worker} {places : Nat} {serving : Serving} {others : List Serving} {a a' : Ambient}
  {s s' : HttpSource}

/-- **One move of a request**: what it takes was idle, and what it gives back is kept. -/
theorem lends_of_step (hd : (members.map Worker.serial).Nodup)
    (h : s.Lends members places (serving :: others)) {m : Move Serving HttpReply}
    (hs : serving.step a s = some (m, a', s')) : s'.Lends members places (m.next?.toList ++ others) := by
  obtain ⟨hpatient, hothers⟩ := List.forall_mem_cons.mp h.patient
  cases serving with
  | arriving request =>
    rw [step] at hs
    split at hs
    · cases hs
      exact ⟨h.desk, h.lent, h.balanced, h.ticketed, h.capacity, hothers⟩
    · cases hs
      exact ⟨h.desk, h.lent, h.balanced, h.ticketed, h.capacity,
        List.forall_mem_cons.mpr ⟨.inl rfl, hothers⟩⟩
  | queued request acquire =>
    rw [step] at hs
    split at hs
    · cases hs
    next next events hacquire =>
      cases hs
      obtain ⟨hidle, hb, hc, ht⟩ := Acquire.step_balanced h.balanced hacquire
      rcases Acquire.step_patient h.balanced hpatient hacquire with ⟨ticket, hgoes⟩ | ⟨item, hends⟩
      · cases hgoes
        exact ⟨h.desk, by rw [← h.lent, hidle]; rfl, hb, ht _ h.ticketed, hc.trans h.capacity,
          List.forall_mem_cons.mpr ⟨.inr ⟨ticket, rfl⟩, hothers⟩⟩
      · cases hends
    next taken events hacquire =>
      cases hs
      obtain ⟨hidle, hb, hc, ht⟩ := Acquire.step_balanced h.balanced hacquire
      rcases Acquire.step_patient h.balanced hpatient hacquire with ⟨ticket, hgoes⟩ | ⟨item, hends⟩
      · cases hgoes
      · cases hends
        refine ⟨h.desk, ?_, hb, ht _ h.ticketed, hc.trans h.capacity,
          List.forall_mem_cons.mpr ⟨trivial, hothers⟩⟩
        have hlent : s.events.idle.length + (others.flatMap borrowed).length = places := h.lent
        have hlength : s.events.idle.length = events.idle.length + 1 := congrArg List.length hidle
        change events.idle.length + ((others.flatMap borrowed).length + 1) = places
        omega
  | submitting submission =>
    rw [step] at hs
    split at hs
    · cases hs
    next next a₁ desk hsubmission =>
      cases hs
      have hdesk := Submission.step_accounts hd h.desk hsubmission
      exact ⟨hdesk, h.lent, h.balanced, h.ticketed, h.capacity,
        List.forall_mem_cons.mpr ⟨trivial, hothers⟩⟩
    next outcome event a₁ desk hsubmission =>
      cases hs
      exact (h.giveBack (Submission.step_accounts hd h.desk hsubmission) event _).1

/-- **A request that is given up** leaves nothing behind. -/
theorem lends_of_drop (hd : (members.map Worker.serial).Nodup)
    (h : s.Lends members places (serving :: others)) : (serving.drop s).Lends members places others := by
  obtain ⟨-, hothers⟩ := List.forall_mem_cons.mp h.patient
  cases serving with
  | arriving request => exact ⟨h.desk, h.lent, h.balanced, h.ticketed, h.capacity, hothers⟩
  | queued request acquire =>
    obtain ⟨hidle, hb, hc, ht⟩ := Acquire.drop_balanced acquire h.balanced
    have hlent : s.events.idle.length + (others.flatMap borrowed).length = places := h.lent
    exact ⟨h.desk, hidle ▸ hlent, hb, ht _ h.ticketed, hc.trans h.capacity, hothers⟩
  | submitting submission =>
    exact (h.giveBack (Submission.drop_accounts hd h.desk) (eventOf submission) _).1

end Serving

/-! ### The service -/

/-- A request, and how far it is on its way to a reply. -/
structure Visit where
  request : HttpRequest
  serving : Serving

/-- A source that serves requests, with those on their way. -/
structure HttpService where
  ambient : Ambient
  source : HttpSource
  visits : List Visit
  /-- The events with which the function was entered, each with the request that it was entered for. -/
  received : List (HttpRequest × Event)

namespace HttpService

/-- A source to which no request has come. -/
def opened (ambient : Ambient) (source : HttpSource) : HttpService := ⟨ambient, source, [], []⟩

/-- How far the requests are. -/
def servings (g : HttpService) : List Serving := g.visits.map Visit.serving

/-- One move of anybody. -/
inductive Step : HttpService → HttpService → Prop
  /-- A request comes. -/
  | arrives (g : HttpService) (request : HttpRequest) :
      Step g { g with visits := ⟨request, .arriving request⟩ :: g.visits }
  /-- A request moves, and the function may be entered for it. -/
  | moves {g : HttpService} {pre post : List Visit} {request : HttpRequest} {serving : Serving}
      {m : Move Serving HttpReply} {ambient : Ambient} {source : HttpSource}
      (hv : g.visits = pre ++ ⟨request, serving⟩ :: post)
      (hs : serving.step g.ambient g.source = some (m, ambient, source)) :
      Step g ⟨ambient, source, pre ++ (m.next?.toList.map (⟨request, ·⟩) ++ post),
        g.received ++ (g.ambient.callsSince ambient).map fun call => (request, call.event)⟩
  /-- A request is given up. -/
  | drops {g : HttpService} {pre post : List Visit} {visit : Visit} (hv : g.visits = pre ++ visit :: post) :
      Step g { g with source := visit.serving.drop g.source, visits := pre ++ post }
  /-- The source begins to listen, or does so no more. -/
  | listens (g : HttpService) (lifecycle : Lifecycle (Task Unit)) (bound : Bool) :
      Step g { g with source := { g.source with lifecycle, bound } }
  /-- Time passes, and other things happen elsewhere. Ids that were issued stay issued. -/
  | passes (g : HttpService) (ambient : Ambient) (h : g.ambient.issued ≤ ambient.issued) :
      Step g { g with ambient }

/-- What is held stays within what there is, for so many events and workers. -/
structure Within (places workers : Nat) (g : HttpService) : Prop where
  /-- So many requests hold an event at most. -/
  admitted : (g.servings.flatMap Serving.borrowed).length ≤ places
  /-- So many runs of the function are in progress at most. -/
  running : (g.servings.flatMap Serving.busy).length ≤ workers
  /-- A request that holds a worker holds an event. -/
  nested : ∀ serving ∈ g.servings, serving.leased ≠ [] → serving.borrowed ≠ []
  /-- No event and no worker is lost: what is not held is idle. -/
  kept : g.source.events.idle.length + (g.servings.flatMap Serving.borrowed).length = places ∧
    g.source.desk.crew.pool.idle.length + (g.servings.flatMap Serving.leased).length = workers
  /-- With no request on its way, all of them can be taken at once. -/
  restored : g.visits = [] → g.source.events.available = places ∧ g.source.desk.crew.available = workers

variable {members : List Worker} {places : Nat} {g g' : HttpService}

/-- The accounts with one request taken apart from all others. -/
theorem lends_split (h : g.source.Lends members places g.servings) {pre post : List Visit} {visit : Visit}
    (hv : g.visits = pre ++ visit :: post) :
    g.source.Lends members places (visit.serving :: (pre ++ post).map Visit.serving) := by
  refine h.of_perm ?_
  rw [servings, hv, ← List.map_cons]
  exact List.perm_middle.map _

/-- **What one move of anybody keeps.** -/
theorem lends_step (hd : (members.map Worker.serial).Nodup) (h : g.source.Lends members places g.servings)
    (hs : Step g g') : g'.source.Lends members places g'.servings := by
  cases hs with
  | arrives request =>
    exact ⟨h.desk, h.lent, h.balanced, h.ticketed, h.capacity, List.forall_mem_cons.mpr ⟨trivial, h.patient⟩⟩
  | moves hv hq =>
    rename_i pre post request serving m ambient source
    refine (Serving.lends_of_step hd (lends_split h hv) hq).of_perm ?_
    have hsame : (m.next?.toList.map (Visit.mk request)).map Visit.serving = m.next?.toList := by
      rw [List.map_map]
      exact List.map_id _
    rw [servings, List.map_append, List.map_append, List.map_append, hsame]
    exact List.perm_append_comm_assoc _ _ _
  | drops hv => exact Serving.lends_of_drop hd (lends_split h hv)
  | listens lifecycle bound => exact ⟨h.desk, h.lent, h.balanced, h.ticketed, h.capacity, h.patient⟩
  | passes ambient hissued => exact h

theorem lends_of_reachable (hd : (members.map Worker.serial).Nodup)
    (h : g.source.Lends members places g.servings) (hr : Relation.ReflTransGen Step g g') :
    g'.source.Lends members places g'.servings := by
  induction hr with
  | refl => exact h
  | tail _ hs ih => exact lends_step hd ih hs

/-! ### The law -/

/-- A pool that nobody holds a ticket of has all its permits free. -/
theorem free_of_ticketed {α : Type} {p : Pool α} (hb : p.Balanced) (ht : p.Ticketed []) :
    p.free = p.idle.length := by
  have hnone : p.granted = [] := (List.append_eq_nil_iff.mp ht.perm.eq_nil).1
  rw [hb, hnone, List.length_nil, Nat.add_zero]

theorem within_of_lends (h : g.source.Lends members places g.servings) : Within places members.length g where
  admitted := by
    have := h.lent
    omega
  running := by
    have hbusy : Serving.busy = Serving.leased := by
      funext serving
      cases serving <;> rfl
    have := h.desk.workers.length_eq
    rw [List.length_append] at this
    rw [hbusy]
    omega
  nested serving _ hleased := by
    cases serving with
    | submitting submission => exact List.cons_ne_nil _ _
    | arriving request => exact absurd rfl hleased
    | queued request acquire => exact absurd rfl hleased
  kept := ⟨h.lent, by rw [← List.length_append]; exact h.desk.workers.length_eq⟩
  restored hnone := by
    have hservings : g.servings = [] := by rw [servings, hnone, List.map_nil]
    rw [hservings] at h
    have hevents := free_of_ticketed h.balanced h.ticketed
    have hworkers := free_of_ticketed h.desk.balanced h.desk.ticketed
    refine ⟨hevents.trans h.lent, hworkers.trans ?_⟩
    have := h.desk.workers.length_eq
    rwa [List.flatMap_nil, List.append_nil] at this

/-- **No event and no worker is lost.** Whatever requests come to a source that was made by its factory, in
whatever order they move, and whichever of them are given up, no more of them hold an event than the source
was set to handle at a time, no more runs of the function are in progress than it has workers, and with no
request on its way all events and all workers are available again. -/
theorem within_of_reachable {id : String} {trigger : TriggerSettings} {workshop : Workshop}
    {source : HttpSource} (hmade : SourceFactory.http id trigger workshop = .ok (.http source))
    {ambient : Ambient} (hr : Relation.ReflTransGen Step (opened ambient source) g) :
    ∃ workers, trigger.workerCount id 1 = .ok workers ∧
      Within source.settings.maxInFlight workers g := by
  rw [SourceFactory.http] at hmade
  split at hmade
  · cases hmade
  next settings hsettings =>
    obtain ⟨crew, hshared, heq⟩ := exists_of_map_eq_ok hmade
    cases heq
    obtain ⟨count, hcount, hcrew⟩ := TriggerSettings.exists_of_sharedCrew hshared
    have hfresh := Workshop.fresh_of_crew hcrew
    refine ⟨count, hcount, ?_⟩
    have hlends := lends_of_reachable hfresh.distinct
      (HttpSource.lends_new hfresh ⟨id, "http", .sync⟩ settings trigger.workerTimeout) hr
    have hsize : crew.members.length = count := (Workshop.size_of_crew hcrew).2
    rw [← hsize]
    exact within_of_lends hlends

/-- Two requests at a source that handles one at a time: the first is given up in the midst of its run, and
the second gets its event and its worker. -/
theorem within_request_given_up :
    let trigger : TriggerSettings := ⟨"http", some 1, 0, [("max_in_flight", .num (.natural 1))]⟩
    let ambient : Ambient := .start ⟨0, 0⟩ .echo
    ∃ source : HttpSource, SourceFactory.http "web" trigger ⟨.echo, {}⟩ = .ok (.http source) ∧
      source.settings.maxInFlight = 1 ∧
      ∃ full done : HttpService, Relation.ReflTransGen Step (opened ambient source) full ∧
        full.visits.length = 2 ∧ (full.servings.flatMap Serving.busy).length = 1 ∧
        (∃ workers, trigger.workerCount "web" 1 = .ok workers ∧
          Within source.settings.maxInFlight workers full) ∧
        Relation.ReflTransGen Step (opened ambient source) done ∧ done.visits = [] ∧
        (∃ workers, trigger.workerCount "web" 1 = .ok workers ∧
          Within source.settings.maxInFlight workers done) := by
  intro trigger ambient
  let request : HttpRequest := ⟨"GET", ⟨"/", none⟩, [], .empty⟩
  let source : HttpSource := .new ⟨"web", "http", .sync⟩ ⟨"0.0.0.0:8080", 1⟩ 0 (.ofIndices .shared [0])
  have hmade : SourceFactory.http "web" trigger ⟨.echo, {}⟩ = .ok (.http source) := rfl
  have hfull := ((((((((Relation.ReflTransGen.refl.tail
    (Step.arrives (opened ambient source) request)).tail
    (@Step.moves _ [] [] _ _ _ _ _ rfl rfl)).tail
    (@Step.moves _ [] [] _ _ _ _ _ rfl rfl)).tail
    (@Step.moves _ [] [] _ _ _ _ _ rfl rfl)).tail
    (@Step.moves _ [] [] _ _ _ _ _ rfl rfl)).tail
    (@Step.moves _ [] [] _ _ _ _ _ rfl rfl)).tail
    (Step.arrives _ request)).tail
    (@Step.moves _ [] [_] _ _ _ _ _ rfl rfl)).tail
    (@Step.moves _ [] [_] _ _ _ _ _ rfl rfl)
  have hdone := ((((hfull.tail
    (@Step.drops _ [_] [] _ rfl)).tail
    (@Step.moves _ [] [] _ _ _ _ _ rfl rfl)).tail
    (@Step.moves _ [] [] _ _ _ _ _ rfl rfl)).tail
    (@Step.moves _ [] [] _ _ _ _ _ rfl rfl)).tail
    (@Step.moves _ [] [] _ _ _ _ _ rfl rfl)
  exact ⟨source, hmade, rfl, _, _, hfull, rfl, rfl, within_of_reachable hmade hfull, hdone, rfl,
    within_of_reachable hmade hdone⟩

end HttpService

end EventDispatch
