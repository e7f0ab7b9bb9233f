import EventDispatch.Proofs.Hiding
import Mathlib.Logic.Function.Basic

/-!
# Two pollers over one store

Two pollers list the items of one store and stamp those that they have handled, each with stamps under
names made of its own id. One expects the stamps of one to mean nothing to the other.

A store judges a request for changed items by two of the attributes that the request asks for: the first
that look like stamps. The names asked for stand in one text, parted by commas, and an id may hold commas
itself; so what looks like stamps there need not be the stamps of the poller that asks. As long as a poller
is not judged by the stamps of the other one, a run in which the other does what it likes and a run in which
it does nothing are the same for it.

## What is deliberately absent

Only what the pollers do to the items connects them: the workers, the function, the requests that fail and
the time are given with each act, as they happen to be. The function may look at all of an event but the
stamps of the other poller.

## Main definitions

* `PollSetup.Reads`: a poller is judged by the stamps of another one.
* `Neighbours`: a store and two pollers; `Neighbours.Act` is what anybody does.
* `Neighbours.Like`: two states that are the same for one of the pollers.

## Main results

* `PollSetup.disregards_of_not_reads`: which pollers have nothing to do with another one's stamps.
* `PollSource.usual_of_step`: what a move of a poller's task writes.
* `Neighbours.Like.run`: a run with the acts of one poller left out.
-/

namespace EventDispatch

/-! ### What stamps are read -/

/-- The name is one of the two stamps. -/
def Stamp.names (stamp : Stamp) (name : String) : Bool := name == stamp.secs || name == stamp.nsecs

namespace ItemStore

/-- What a store judges by looks like stamps. -/
theorem endings_of_judged? {asked : String} {stamp : Stamp} (h : judged? asked = some stamp) :
    (stamp.secs.startsWith stampStart = true ∧ stamp.secs.endsWith "_secs" = true) ∧
      (stamp.nsecs.startsWith stampStart = true ∧ stamp.nsecs.endsWith "_nsecs" = true) := by
  obtain ⟨secs, hsecs, hrest⟩ := Option.bind_eq_some_iff.mp h
  obtain ⟨nsecs, hnsecs, rfl⟩ := Option.map_eq_some_iff.mp hrest
  have hfirst := List.find?_some hsecs
  have hsecond := List.find?_some hnsecs
  rw [Bool.and_eq_true] at hfirst hsecond
  exact ⟨hfirst, hsecond⟩

theorem judged?_of_comma {id : String} (hid : ',' ∉ id.toList) (others : List String) :
    judged? (requestedAttributes (.ofSource id) others) = some (.ofSource id) := by
  rw [judged?]
  simp only [find?_secs hid, find?_nsecs hid]
  rfl

end ItemStore

namespace Stamp

variable {id id' : String}

/-- Stamps with the same ending are of the same source. -/
theorem injective_of_ending (ending : String)
    (h : "__eventsource_vip_" ++ id ++ ending = "__eventsource_vip_" ++ id' ++ ending) : id = id' := by
  have hchars := congrArg String.toList h
  simp only [String.toList_append, List.append_cancel_left_eq, List.append_cancel_right_eq] at hchars
  exact String.toList_inj.mp hchars

theorem secs_injective (h : (ofSource id).secs = (ofSource id').secs) : id = id' :=
  injective_of_ending "_secs" h

theorem nsecs_injective (h : (ofSource id).nsecs = (ofSource id').nsecs) : id = id' :=
  injective_of_ending "_nsecs" h

/-- A text that ends like the seconds of a stamp is not the nanoseconds of one. -/
theorem ne_nsecs_of_endsWith {text : String} (h : text.endsWith "_secs" = true) (id : String) :
    text ≠ (ofSource id).nsecs := by
  rintro rfl
  have hnsecs := ItemStore.endsWith_stamp id "_nsecs"
  exact Bool.false_ne_true ((ItemStore.not_endsWith_nsecs h).symm.trans hnsecs)

theorem ne_secs_of_endsWith {text : String} (h : text.endsWith "_nsecs" = true) (id : String) :
    text ≠ (ofSource id).secs := by
  rintro rfl
  have hsecs := ItemStore.not_endsWith_nsecs (ItemStore.endsWith_stamp id "_secs")
  exact Bool.false_ne_true (hsecs.symm.trans h)

end Stamp

namespace PollSetup

variable {a b : PollSetup}

/-- The poller `a` is judged by a stamp of `b`: a listing of `a` asks for changed items, and what looks
like stamps among the attributes that it asks for is of `b`. -/
def Reads (a b : PollSetup) : Prop :=
  (∃ first, ItemStore.isIncremental (a.query first) = true) ∧
    ∃ stamp ∈ ItemStore.judged? (requestedAttributes (.ofSource a.id) a.settings.attributes),
      stamp.secs = (Stamp.ofSource b.id).secs ∨ stamp.nsecs = (Stamp.ofSource b.id).nsecs

/-- No poller whose id is without commas is judged by the stamps of another one. -/
theorem not_reads_of_comma (hid : ',' ∉ a.id.toList) (hne : a.id ≠ b.id) : ¬a.Reads b := by
  rintro ⟨-, stamp, hstamp, hsame⟩
  rw [ItemStore.judged?_of_comma hid] at hstamp
  cases hstamp
  rcases hsame with hsecs | hnsecs
  · exact hne (Stamp.secs_injective hsecs)
  · exact hne (Stamp.nsecs_injective hnsecs)

/-- A poller that is not judged by the stamps of another one has nothing to do with them. -/
theorem disregards_of_not_reads (hne : a.id ≠ b.id) (h : ¬a.Reads b) :
    a.Disregards (Stamp.ofSource b.id).names where
  overt key hkey := by
    have hsecs := (Stamp.secs_ne b.id hkey).symm
    have hnsecs := (Stamp.nsecs_ne b.id hkey).symm
    simp [Stamp.names, hsecs, hnsecs]
  secs := by
    have hsecs : (Stamp.ofSource a.id).secs ≠ (Stamp.ofSource b.id).secs :=
      fun heq => hne (Stamp.secs_injective heq)
    have hnsecs := Stamp.ne_nsecs_of_endsWith (ItemStore.endsWith_stamp a.id "_secs") b.id
    simp only [Stamp.names, Bool.or_eq_false_iff, beq_eq_false_iff_ne]
    exact ⟨hsecs, hnsecs⟩
  nsecs := by
    have hnsecs : (Stamp.ofSource a.id).nsecs ≠ (Stamp.ofSource b.id).nsecs :=
      fun heq => hne (Stamp.nsecs_injective heq)
    have hsecs := Stamp.ne_secs_of_endsWith (ItemStore.endsWith_stamp a.id "_nsecs") b.id
    simp only [Stamp.names, Bool.or_eq_false_iff, beq_eq_false_iff_ne]
    exact ⟨hsecs, hnsecs⟩
  judged first hquery stamp hstamp := by
    obtain ⟨⟨-, hends⟩, ⟨-, hends'⟩⟩ := ItemStore.endings_of_judged? hstamp
    have hsecs : stamp.secs ≠ (Stamp.ofSource b.id).secs :=
      fun heq => h ⟨⟨first, hquery⟩, stamp, hstamp, .inl heq⟩
    have hnsecs : stamp.nsecs ≠ (Stamp.ofSource b.id).nsecs :=
      fun heq => h ⟨⟨first, hquery⟩, stamp, hstamp, .inr heq⟩
    have hcross := Stamp.ne_nsecs_of_endsWith hends b.id
    have hcross' := Stamp.ne_secs_of_endsWith hends' b.id
    simp [Stamp.names, hsecs, hnsecs, hcross, hcross']

/-- All that a poller writes are its own stamps. -/
theorem without_stampOf (b : PollSetup) (first : Bool) (event : Event) :
    ((b.poller first).stampOf event).without (Stamp.ofSource b.id).names = [] := by
  refine List.filter_eq_nil_iff.mpr fun entry hm => ?_
  have hget := (ItemPoller.sorted_stampOf event).get?_of_mem hm
  rw [ItemPoller.get?_stampOf] at hget
  split at hget
  next hkey => simp [Stamp.names, hkey, poller, ItemPoller.new]
  · split at hget
    next hkey => simp [Stamp.names, hkey, poller, ItemPoller.new]
    · cases hget

end PollSetup

/-! ### What a poller writes -/

section Writing

variable {a : PollSetup} {first : Bool} {w w' : World} {c c' : Channel}

/-- A search writes nothing, and asks what the poller asks. -/
theorem Producer.usual_of_step {producer producer' : Producer} {d' : PollDriver} (husual : producer.Usual a)
    (hs : producer.step w (.items (a.poller first)) c = some (producer', w', d', c')) :
    (∃ first', d' = .items (a.poller first')) ∧ producer'.Usual a ∧
      w'.clients.items.directories = w.clients.items.directories := by
  have hsame := (consults_of_step hs).directories
  cases moves_of_step hs with
  | begins => exact ⟨⟨first, rfl⟩, ⟨first, rfl⟩, hsame⟩
  | lists => exact ⟨⟨first, rfl⟩, husual, hsame⟩
  | concludes | lingers => exact ⟨⟨first, rfl⟩, trivial, hsame⟩
  | completes => exact ⟨⟨false, congrArg _ (a.completeFirstPoll_poller first)⟩, trivial, hsame⟩
  | stops | pauses | goes | wakes | waits | sends | leaves => exact husual.elim

/-- What a move does to the items: nothing, or it lays the poller's own stamps over one. -/
def PollSetup.Writes (a : PollSetup) (w w' : World) : Prop :=
  w'.clients.items.directories = w.clients.items.directories ∨ ∃ path event,
    w'.clients.items.directories =
      (w.clients.items.update path ((a.poller true).stampOf event)).2.directories

theorem Wrapup.usual_of_step {wrapup : Wrapup} {m : Move Wrapup Unit} {d' : PollDriver}
    (husual : wrapup.Usual a) (hs : wrapup.step w (.items (a.poller first)) = some (m, w', d')) :
    (∀ next, m = .goes next → next.Usual a) ∧ a.Writes w w' := by
  cases moves_of_step hs with
  | ends => exact ⟨fun next hm => by (cases hm), .inl rfl⟩
  | asks htrip =>
    obtain ⟨⟨routes, rfl⟩, -⟩ := World.stepTrip_routes htrip
    refine ⟨fun next hm => ?_, .inl rfl⟩
    cases hm
    exact husual
  | loses htrip =>
    obtain ⟨⟨routes, rfl⟩, -⟩ := World.stepTrip_routes htrip
    refine ⟨fun next hm => ?_, .inl rfl⟩
    cases hm
    exact (List.forall_mem_cons.mp husual).2
  | @stamps _ path attributes rest trip w₁ htrip =>
    obtain ⟨⟨routes, rfl⟩, -⟩ := World.stepTrip_routes htrip
    obtain ⟨⟨event, rfl⟩, hrest⟩ := List.forall_mem_cons.mp husual
    refine ⟨fun next hm => ?_, .inr ⟨path, event, rfl⟩⟩
    cases hm
    exact hrest
  | wakes | skips => exact husual.elim

namespace PollSource

variable {s s' : PollSource} {signal : Signal}

theorem usual_afterBatch (isLast : Bool) : (afterBatch isLast).Usual a := by
  cases isLast <;> trivial

theorem usual_of_stepConsumer (hdriver : s.driver = .items (a.poller first)) {consumer next : Consumer}
    (husual : consumer.Usual a) (hs : s.stepConsumer signal c w consumer = some (next, c', w', s')) :
    next.Usual a ∧ a.Writes w w' := by
  cases Consumer.moves_of_step hs with
  | @handles _ _ outcomes events ambient desk hbatch =>
    rw [hdriver]
    exact ⟨Wrapup.usual_ofBatch ambient.now events outcomes, .inl rfl⟩
  | misses => exact ⟨usual_afterBatch _, .inl rfl⟩
  | wraps hwrapup =>
    rw [hdriver] at hwrapup
    obtain ⟨hnext, hwrites⟩ := Wrapup.usual_of_step husual hwrapup
    exact ⟨hnext _ rfl, hwrites⟩
  | returns hwrapup =>
    rw [hdriver] at hwrapup
    exact ⟨usual_afterBatch _, (Wrapup.usual_of_step husual hwrapup).2⟩
  | _ => exact ⟨trivial, .inl rfl⟩

/-- **A move of a poller's task** writes nothing but the poller's stamps. -/
theorem usual_of_step (hdriver : s.driver = .items (a.poller first)) {task : PollTask}
    {m : Move PollTask Unit} (husual : task.Usual a) (hs : step signal task w s = some (m, w', s')) :
    (∃ first', s'.driver = .items (a.poller first')) ∧ (∀ next, m = .goes next → next.Usual a) ∧
      a.Writes w w' := by
  cases moves_of_step hs with
  | stops | retires | breaks => exact ⟨⟨first, hdriver⟩, fun next hm => by (cases hm), .inl rfl⟩
  | begins =>
    refine ⟨⟨first, hdriver⟩, fun next hm => ?_, .inl rfl⟩
    cases hm
    exact ⟨trivial, trivial⟩
  | rests | wakes =>
    refine ⟨⟨first, hdriver⟩, fun next hm => ?_, .inl rfl⟩
    cases hm
    trivial
  | searches hsearch =>
    obtain ⟨hproducer, hconsumer⟩ := husual
    rw [hdriver] at hsearch
    obtain ⟨hdriver', hproducer', hsame⟩ := Producer.usual_of_step hproducer hsearch
    refine ⟨hdriver', fun next hm => ?_, .inl hsame⟩
    cases hm
    exact ⟨hproducer', hconsumer⟩
  | receives hsubmit =>
    obtain ⟨hproducer, hconsumer⟩ := husual
    obtain ⟨hconsumer', hwrites⟩ := usual_of_stepConsumer hdriver hconsumer hsubmit
    refine ⟨⟨first, driver_of_stepConsumer hdriver hsubmit⟩, fun next hm => ?_, hwrites⟩
    cases hm
    exact ⟨hproducer, hconsumer'⟩

end PollSource

end Writing

/-! ### One poller -/

/-- A poller, and the runs of the function on its events. -/
structure Seat where
  source : PollSource
  /-- The runs that have begun, newest first: the version of the item, and what becomes of the event. -/
  runs : List (Version × Outcome)

/-- What makes a poller do something. -/
inductive Prompt where
  /-- Somebody starts it; while it runs that fails. -/
  | starts
  /-- Workers come and go, and other things happen at its desk. -/
  | staffs (desk : Desk)
  /-- A call that stops it moves. -/
  | stops (stop : Stop)
  /-- Its task moves. -/
  | works (handle : Nat)

namespace Seat

/-- The run that has begun with a move. -/
def begun (before after : Option (Event × Outcome)) : List (Version × Outcome) :=
  match before, after with
  | none, some (event, outcome) => [(event.version, outcome)]
  | _, _ => []

/-- The poller after it was made to do something; what it cannot do changes nothing. -/
def after (prompt : Prompt) (w : World) (s : Seat) : World × Seat :=
  match prompt with
  | .starts => (w, { s with source := s.source.start.2 })
  | .staffs desk => (w, { s with source := { s.source with desk } })
  | .stops stop =>
    match PollSource.rules.stop stop w s.source with
    | none => (w, s)
    | some (_, w, source) => (w, { s with source })
  | .works handle =>
    match PollSource.rules.stepLive handle w s.source with
    | none => (w, s)
    | some (w, source) =>
      (w, { source, runs := begun (s.source.lifecycle.pollRun? handle) (source.lifecycle.pollRun? handle) ++
        s.runs })

def without (hidden : String → Bool) (s : Seat) : Seat := { s with source := s.source.without hidden }

/-- The poller is as it was set up. -/
structure Sound (a : PollSetup) (s : Seat) : Prop where
  driver : ∃ first, s.source.driver = .items (a.poller first)
  tasks : ∀ t ∈ s.source.lifecycle.live, t.2.state.Usual a

variable {a : PollSetup} {hidden : String → Bool} {s : Seat} {w : World}

theorem begun_without (before after : Option (Event × Outcome)) :
    begun (before.map (Prod.map (Event.without hidden) id)) (after.map (Prod.map (Event.without hidden) id)) =
      begun before after := by
  cases before <;> cases after <;> rfl

theorem pollRun?_without (handle : Nat) (source : PollSource) :
    (source.without hidden).lifecycle.pollRun? handle =
      (source.lifecycle.pollRun? handle).map (Prod.map (Event.without hidden) id) := by
  rw [Lifecycle.pollRun?, Lifecycle.pollRun?, PollSource.without, Lifecycle.task?_mapTasks]
  cases source.lifecycle.task? handle with
  | none => rfl
  | some task => exact PollTask.run?_without task.state

/-- What a poller does is the same, whether attributes are hidden with which it has nothing to do or
not. -/
theorem after_without (h : a.Disregards hidden) (hs : s.Sound a)
    (hfunction : w.ambient.function.Disregards hidden) (horderly : ItemStore.Orderly w.clients.items.directories) (prompt : Prompt) :
    (s.without hidden).after prompt (w.without hidden) =
      Prod.map (World.without hidden) (without hidden) (s.after prompt w) := by
  obtain ⟨first, hdriver⟩ := hs.driver
  cases prompt with
  | starts =>
    have hstart : (s.source.without hidden).start.2 = _ := PollSource.start_without s.source
    exact congrArg (fun source => (w.without hidden, { s with source })) hstart
  | staffs desk => rfl
  | stops stop =>
    have hstop : PollSource.rules.stop stop (w.without hidden) (s.source.without hidden) = _ :=
      PollSource.stop_without stop w s.source
    simp only [after, without, hstop]
    cases PollSource.rules.stop stop w s.source <;> rfl
  | works handle =>
    have hstep := PollSource.stepLive_without h hdriver hfunction horderly hs.tasks handle
    simp only [after, without, hstep, pollRun?_without]
    rcases PollSource.rules.stepLive handle w s.source with - | ⟨w₁, source⟩
    · rfl
    · simp only [Option.map_some, Prod.map, pollRun?_without, begun_without]
      rfl

/-- What a poller does leaves it as it was set up, and writes nothing but its stamps. -/
theorem Sound.after (hs : s.Sound a) (prompt : Prompt) :
    (s.after prompt w).2.Sound a ∧ a.Writes w (s.after prompt w).1 := by
  obtain ⟨first, hdriver⟩ := hs.driver
  cases prompt with
  | starts =>
    obtain ⟨hsame, -, hlive⟩ := s.source.start_frame
    refine ⟨⟨⟨first, hsame.trans hdriver⟩, fun t ht => ?_⟩, .inl rfl⟩
    rcases hlive t ht with hold | hnew
    · exact hs.tasks t hold
    · rw [hnew]
      trivial
  | staffs desk => exact ⟨⟨hs.driver, hs.tasks⟩, .inl rfl⟩
  | stops stop =>
    rw [Seat.after]
    cases hstop : PollSource.rules.stop stop w s.source with
    | none => exact ⟨hs, .inl rfl⟩
    | some moved =>
      obtain ⟨m, w', source⟩ := moved
      obtain ⟨rfl, hsame⟩ := PollSource.stop_frame hstop
      have hlive := (PollSource.stop_tasks hstop).1
      exact ⟨⟨⟨first, hsame.trans hdriver⟩, fun t ht => hs.tasks t (hlive ht)⟩, .inl rfl⟩
  | works handle =>
    rw [Seat.after]
    cases hlive : PollSource.rules.stepLive handle w s.source with
    | none => exact ⟨hs, .inl rfl⟩
    | some moved =>
      obtain ⟨w', source⟩ := moved
      obtain ⟨task, m, before, htask, hstep, rfl⟩ := TaskRules.stepLive_cases hlive
      change s.source.lifecycle.task? handle = some task at htask
      have hmem := Lifecycle.mem_live_of_task? htask
      obtain ⟨hdriver', hnext, hwrites⟩ := PollSource.usual_of_step hdriver (hs.tasks _ hmem) hstep
      have hsame : before.lifecycle = s.source.lifecycle := PollSource.rules_sealed.get_step hstep
      refine ⟨⟨hdriver', fun t ht => ?_⟩, hwrites⟩
      change t ∈ (before.lifecycle.moved handle task.signal m).live at ht
      rw [hsame] at ht
      cases m with
      | ends result => exact hs.tasks t (Lifecycle.mem_live_finish.mp ht).1
      | goes next =>
        rcases Lifecycle.mem_live_replace.mp ht with ⟨hold, -⟩ | ⟨rfl, -⟩
        · exact hs.tasks t hold
        · exact hnext next rfl

end Seat

/-! ### Two pollers -/

/-- Which of the two pollers. -/
inductive Side where
  | left
  | right
deriving DecidableEq, Repr

namespace Side

/-- The other one. -/
def other : Side → Side
  | left => right
  | right => left

theorem ne_other (side : Side) : side ≠ side.other := by
  cases side <;> decide

theorem eq_other_of_ne {side side' : Side} (h : side' ≠ side) : side' = side.other := by
  cases side <;> cases side' <;> first | rfl | exact absurd rfl h

end Side

/-- The items of a store, and two pollers that list them. -/
structure Neighbours where
  directories : Keyed (Keyed Json.Object)
  seats : Side → Seat

namespace Neighbours

/-- What anybody does. -/
inductive Act where
  /-- Somebody puts an item into the store. -/
  | puts (directory name : String) (attributes : Json.Object) (now : Timestamp)
  /-- Somebody else updates an item. -/
  | updates (path : String) (attributes : Json.Object)
  /-- A poller does something, with all but the items as the world happens to be. -/
  | prompts (side : Side) (prompt : Prompt) (world : World)

/-- The poller that acts. -/
def Act.side? : Act → Option Side
  | .prompts side _ _ => some side
  | _ => none

/-- What is put are attributes in order, and the function does not look at hidden ones. -/
def Act.Fits (hidden : String → Bool) : Act → Prop
  | .puts _ _ attributes _ => attributes.Sorted
  | .updates _ _ => True
  | .prompts _ _ world => world.ambient.function.Disregards hidden

/-- The items as a store holds them. -/
def store (s : Neighbours) : ItemStore := { ItemStore.new with directories := s.directories }

/-- What is after an act. -/
def after (s : Neighbours) : Act → Neighbours
  | .puts directory name attributes now =>
    { s with directories := (s.store.put directory name attributes now).directories }
  | .updates path attributes => { s with directories := (s.store.update path attributes).2.directories }
  | .prompts side prompt world =>
    let (world, seat) := (s.seats side).after prompt (world.stocked s.directories)
    { directories := world.clients.items.directories, seats := Function.update s.seats side seat }

/-- What is after some acts, in order. -/
def run (acts : List Act) (s : Neighbours) : Neighbours := acts.foldl after s

/-- Two pollers that were never started. -/
def start (directories : Keyed (Keyed Json.Object)) (setups : Side → PollSetup) : Neighbours :=
  ⟨directories, fun side => ⟨(setups side).source, []⟩⟩

/-- The tables are in order, and both pollers as they were set up. -/
structure Sound (setups : Side → PollSetup) (s : Neighbours) : Prop where
  orderly : ItemStore.Orderly s.directories
  seats : ∀ side, (s.seats side).Sound (setups side)

/-- The two states show the same items, and the same poller on one side. -/
structure Like (hidden : String → Bool) (side : Side) (s s' : Neighbours) : Prop where
  shown : ItemStore.shown hidden s.directories = ItemStore.shown hidden s'.directories
  seat : (s.seats side).without hidden = (s'.seats side).without hidden

variable {setups : Side → PollSetup} {hidden : String → Bool} {side : Side} {s s' : Neighbours} {act : Act}

theorem sound_start {directories : Keyed (Keyed Json.Object)} (h : ItemStore.Orderly directories)
    (setups : Side → PollSetup) : Sound setups (start directories setups) :=
  ⟨h, fun side => ⟨⟨true, (setups side).driver_source⟩, fun t ht => by (cases ht)⟩⟩

/-- **One act of anybody** leaves the tables in order, and the pollers as they were set up. -/
theorem Sound.after (h : Sound setups s) (hact : act.Fits hidden) : Sound setups (s.after act) := by
  cases act with
  | puts directory name attributes now =>
    exact ⟨ItemStore.Orderly.put (s := s.store) h.orderly directory name hact now, h.seats⟩
  | updates path attributes =>
    exact ⟨ItemStore.Orderly.update (s := s.store) h.orderly path attributes, h.seats⟩
  | prompts side prompt world =>
    obtain ⟨hseat, hwrites⟩ := (h.seats side).after (w := world.stocked s.directories) prompt
    refine ⟨?_, fun side' => ?_⟩
    · rcases hwrites with hsame | ⟨path, event, hupdate⟩
      · change ItemStore.Orderly (Seat.after prompt _ _).1.clients.items.directories
        rw [hsame]
        exact h.orderly
      · change ItemStore.Orderly (Seat.after prompt _ _).1.clients.items.directories
        rw [hupdate]
        exact ItemStore.Orderly.update (s := (world.stocked s.directories).clients.items) h.orderly path _
    · change (Function.update s.seats side _ side').Sound _
      by_cases hside : side' = side
      · subst hside
        rw [Function.update_self]
        exact hseat
      · rw [Function.update_of_ne hside]
        exact h.seats side'

/-- An act that is not the other poller's does the same to states that are alike. -/
theorem Like.after (h : Like hidden side s s') (hdisregards : (setups side).Disregards hidden)
    (hs : Sound setups s) (hs' : Sound setups s') (hact : act.Fits hidden)
    (hside : act.side? ≠ some side.other) :
    Like hidden side (s.after act) (s'.after act) := by
  cases act with
  | puts directory name attributes now =>
    exact ⟨ItemStore.shown_put s.store s'.store h.shown directory name attributes now, h.seat⟩
  | updates path attributes =>
    refine ⟨?_, h.seat⟩
    have hstore : s.store.without hidden = s'.store.without hidden := by
      simp only [store, ItemStore.without, h.shown]
    have hshown := ItemStore.shown_update hidden (s := s.store) hs.orderly path attributes
    have hshown' := ItemStore.shown_update hidden (s := s'.store) hs'.orderly path attributes
    rw [hstore] at hshown
    exact hshown.trans hshown'.symm
  | prompts side' prompt world =>
    obtain rfl : side' = side := by
      by_contra hne
      exact hside (congrArg some (Side.eq_other_of_ne hne))
    -- The same act of the same poller, in the same world.
    have hmoves : Prod.map (World.without hidden) (Seat.without hidden)
          ((s.seats side').after prompt (world.stocked s.directories)) =
        Prod.map (World.without hidden) (Seat.without hidden)
          ((s'.seats side').after prompt (world.stocked s'.directories)) := by
      have hworld : (world.stocked s.directories).without hidden =
          (world.stocked s'.directories).without hidden := by
        simp only [World.stocked, World.without, ItemStore.without, h.shown]
      have hview : ∀ {s}, Sound setups s → Prod.map (World.without hidden) (Seat.without hidden)
            ((s.seats side').after prompt (world.stocked s.directories)) =
          ((s.seats side').without hidden).after prompt ((world.stocked s.directories).without hidden) :=
        fun {s} hs => (Seat.after_without (w := world.stocked s.directories) hdisregards (hs.seats side') hact
          hs.orderly prompt).symm
      rw [hview hs, hview hs', h.seat, hworld]
    refine ⟨congrArg (fun x => x.1.clients.items.directories) hmoves, ?_⟩
    change (Function.update s.seats side' _ side').without hidden =
      (Function.update s'.seats side' _ side').without hidden
    rw [Function.update_self, Function.update_self]
    exact congrArg Prod.snd hmoves

/-- What the other poller does cannot be seen. -/
theorem Like.other (h : Like hidden side s s') (hs : Sound setups s)
    (hhidden : ∀ event, (((setups side.other).poller true).stampOf event).without hidden = [])
    (hside : act.side? = some side.other) : Like hidden side (s.after act) s' := by
  cases act with
  | puts directory name attributes now => cases hside
  | updates path attributes => cases hside
  | prompts side' prompt world =>
    obtain rfl : side' = side.other := Option.some.inj hside
    refine ⟨Eq.trans ?_ h.shown, ?_⟩
    · change ItemStore.shown hidden (Seat.after prompt _ _).1.clients.items.directories = _
      rcases ((hs.seats side.other).after (w := world.stocked s.directories) prompt).2 with
        hsame | ⟨path, event, hupdate⟩
      · rw [hsame]
        rfl
      · rw [hupdate]
        exact ItemStore.shown_update_of_hidden (s := (world.stocked s.directories).clients.items) hs.orderly
          path (hhidden event)
    · change (Function.update s.seats side.other _ side).without hidden = _
      rw [Function.update_of_ne side.ne_other]
      exact h.seat

/-- **A run with the acts of the other poller left out** is the same for one poller that has nothing to do
with what the other writes. -/
theorem Like.run (hdisregards : (setups side).Disregards hidden)
    (hhidden : ∀ event, (((setups side.other).poller true).stampOf event).without hidden = [])
    {acts : List Act} (hacts : ∀ act ∈ acts, act.Fits hidden) (h : Like hidden side s s')
    (hs : Sound setups s) (hs' : Sound setups s') :
    Like hidden side (s.run acts) (s'.run (acts.filter fun act => act.side? ≠ some side.other)) := by
  induction acts generalizing s s' with
  | nil => exact h
  | cons act acts ih =>
    obtain ⟨hact, hacts⟩ := List.forall_mem_cons.mp hacts
    by_cases hside : act.side? = some side.other
    · have hfilter : (act :: acts).filter (fun act => act.side? ≠ some side.other) =
          acts.filter fun act => act.side? ≠ some side.other := by simp [hside]
      rw [hfilter]
      exact ih hacts (h.other hs hhidden hside) (hs.after hact) hs'
    · have hfilter : (act :: acts).filter (fun act => act.side? ≠ some side.other) =
          act :: acts.filter fun act => act.side? ≠ some side.other := by simp [hside]
      rw [hfilter]
      exact ih hacts (h.after hdisregards hs hs' hact hside) (hs.after hact) (hs'.after hact)

end Neighbours

end EventDispatch
