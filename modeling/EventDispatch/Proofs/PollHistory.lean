import EventDispatch.Proofs.PollCycles
import Mathlib.Logic.Relation

/-!
# A poller and its store

A poller is started, stopped and started again, while somebody puts items into the store at any moment.
Listings may fail, batches may find no worker, and the function may fail; time passes as it likes.

Whatever happens, no version of an item is lost and none is handled twice: the function succeeds at most
once with each, and as long as it has not, the poller's listings for changed items bring the item.

## What is deliberately absent

Stops are never forced, and they do not meet: a run that is cut short could leave an item that was
handled without its stamps. Nobody else changes the store, and no stamp is lost on its way to it.

## Main definitions

* `PollHistory`: the store, the poller, the stop that is open, and the versions handled with success.
* `PollHistory.Step`: one move of anybody.
* `PollHistory.Thorough`: the law.

## Main results

* `PollTask.kept_of_step`: what a move of the task keeps.
* `PollHistory.Sound.step`: what one move of anybody keeps.
* `PollHistory.entered_of_reachable`: the log is of runs of the function.
* `PollHistory.thorough_of_reachable`: the law, for every history.
-/

namespace EventDispatch

/-! ### The task -/

namespace PollTask

/-- The run that is in progress for a task. -/
def run? : PollTask → Option (Event × Outcome)
  | .cycling _ _ _ consumer => consumer.run?
  | _ => none

/-- The account of a task: between two cycles nothing is on its way, and nothing is to be stamped. -/
def Accounts (id : String) (p : ItemPoller) (store : ItemStore) (log : List Version) : PollTask → Prop
  | .cycling _ c producer consumer => producer.Fits p ∧ ∃ owed, consumer.Owes p owed ∧
      Ledger id p.firstPoll store log (producer.pending ++ c.pending ++ consumer.pending)
        (owed.map Event.version) producer.Seen
  | _ => Ledger id p.firstPoll store log [] [] fun _ => False

variable {id : String} {settings : ItemPollSettings} {p : ItemPoller} {store store' : ItemStore}
  {log : List Version} {task : PollTask} {w w' : World} {s s' : PollSource} {signal : Signal}
  {m : Move PollTask Unit}

/-- What happens to the store alone is the same for every account. -/
theorem Accounts.of_store (h : task.Accounts id p store log)
    (hstore : ∀ pending owed seen, Ledger id p.firstPoll store log pending owed seen →
      Ledger id p.firstPoll store' log pending owed seen) : task.Accounts id p store' log := by
  cases task with
  | checking => exact hstore _ _ _ h
  | cycling turn c producer consumer =>
    obtain ⟨hfits, owed, howes, hledger⟩ := h
    exact ⟨hfits, owed, howes, hstore _ _ _ hledger⟩
  | pausing pause => exact hstore _ _ _ h

/-- What a move of a task leads to. -/
structure Kept (id : String) (settings : ItemPollSettings) (log : List Version) (task : PollTask)
    (m : Move PollTask Unit) (w w' : World) (s s' : PollSource) (p : ItemPoller) : Prop where
  driver : s'.driver = .items p
  serves : p.Serves id settings
  lifecycle : s'.lifecycle = s.lifecycle
  updates : w'.clients.route .updateItem = w.clients.route .updateItem
  goes : ∀ next, m = .goes next →
    next.Accounts id p w'.clients.items (successes task.run? next.run? ++ log)
  ends : m = .ends () → task.run? = none ∧
    Ledger id p.firstPoll w'.clients.items log [] [] fun _ => False

/-- At the end of a cycle all is listed and submitted, and the stamps are written. -/
theorem Accounts.rests {turn : CycleHalf} {c : Channel}
    (h : Accounts id p store log (.cycling turn c .done .done)) :
    Ledger id p.firstPoll store log [] [] fun _ => False := by
  obtain ⟨hfits, owed, howes, hledger⟩ := h
  have hlater : p.firstPoll = false := hfits
  obtain rfl : owed = [] := howes
  rw [hlater] at hledger
  rw [hlater]
  exact hledger.rests

/-- **A move of the task** keeps the account, and ends it only between two cycles. -/
theorem kept_of_step (hid : ',' ∉ id.toList) (hpage : settings.pageSize ≠ 0)
    (hpaths : (settings.paths.map ItemStore.trimSlashes).Nodup)
    (hincremental : settings.incremental = true) (hp : p.Serves id settings)
    (hdriver : s.driver = .items p) (hsure : (w.clients.route .updateItem).failing = 0)
    (h : task.Accounts id p w.clients.items log)
    (hs : PollSource.step signal task w s = some (m, w', s')) :
    ∃ p', Kept id settings log task m w w' s s' p' := by
  cases PollSource.moves_of_step hs with
  | stops hsignal => exact ⟨p, hdriver, hp, rfl, rfl, fun next hm => by (cases hm), fun _ => ⟨rfl, h⟩⟩
  | begins hsignal =>
    refine ⟨p, hdriver, hp, rfl, rfl, fun next hm => ?_, fun hm => by (cases hm)⟩
    cases hm
    exact ⟨trivial, [], rfl, h⟩
  | @searches turn c c' producer producer' consumer w' driver hsearch =>
    obtain ⟨hfits, owed, howes, hledger⟩ := h
    rw [hdriver] at hsearch
    obtain ⟨p', hdriver', hserves, hfits', hcalm, hledger'⟩ := Producer.ledger_of_step hid hpage hpaths
      hincremental hp hfits hledger hsearch
    refine ⟨p', hdriver', hserves, rfl, hcalm.updates, fun next hm => ?_, fun hm => by (cases hm)⟩
    cases hm
    have hlog : successes (run? (.cycling turn c producer consumer))
        (run? (.cycling .searching c' producer' consumer)) = [] := successes_of_eq _
    rw [hlog]
    exact ⟨hfits', owed, howes.of_stamp (hserves.stamp.trans hp.stamp.symm), hledger'⟩
  | receives hsubmit =>
    obtain ⟨hfits, owed, howes, hledger⟩ := h
    obtain ⟨⟨owed', howes', hledger'⟩, hdriver', hlifecycle, hupdates⟩ :=
      Consumer.keeps_of_step hdriver hp.stamp hsure howes hledger hsubmit
    refine ⟨p, hdriver'.trans hdriver, hp, hlifecycle, hupdates, fun next hm => ?_, fun hm => by (cases hm)⟩
    cases hm
    exact ⟨hfits, owed', howes', hledger'⟩
  | rests hpause =>
    refine ⟨p, hdriver, hp, rfl, rfl, fun next hm => ?_, fun hm => by (cases hm)⟩
    cases hm
    exact h.rests
  | retires hsignal => exact ⟨p, hdriver, hp, rfl, rfl, fun next hm => by (cases hm), fun _ => ⟨rfl, h.rests⟩⟩
  | wakes hpause =>
    refine ⟨p, hdriver, hp, rfl, rfl, fun next hm => ?_, fun hm => by (cases hm)⟩
    cases hm
    exact h
  | breaks hpause => exact ⟨p, hdriver, hp, rfl, rfl, fun next hm => by (cases hm), fun _ => ⟨rfl, h⟩⟩

/-- A run of a task begins when the function is entered with its event. -/
theorem entered_of_step (h : task.Accounts id p w.clients.items log) {next : PollTask}
    (hs : PollSource.step signal task w s = some (.goes next, w', s')) {event : Event} {outcome : Outcome}
    (hnone : task.run? = none) (hsome : next.run? = some (event, outcome)) :
    ∃ entry : Entry, entry.event = event ∧ w'.ambient.entries = w.ambient.entries.push entry ∧
      outcome = (w.ambient.function w.ambient.entries entry).conclusion.outcome := by
  cases PollSource.moves_of_step hs with
  | begins hsignal => cases hsome
  | searches hsearch => cases hnone.symm.trans hsome
  | receives hsubmit =>
    obtain ⟨-, owed, howes, -⟩ := h
    exact Consumer.entered_of_step howes hsubmit hnone hsome
  | rests hpause => cases hsome
  | wakes hpause => cases hsome

end PollTask

/-! ### Stops -/

namespace PollSource

theorem rules_lawful : rules.Lawful where
  get_set _ _ := rfl
  get_drop task w s := by
    rw [rules]
    dsimp only
    split <;> rfl

/-- A stop changes neither the world nor the driver. -/
theorem stop_frame {stop : Stop} {w w' : World} {s s' : PollSource} {m : Move Stop Unit}
    (h : rules.stop stop w s = some (m, w', s')) : w' = w ∧ s'.driver = s.driver := by
  refine TaskRules.stop_keeps (P := fun w' s' => w' = w ∧ s'.driver = s.driver) (fun _ _ _ h => h)
    (fun task w' s' h => ?_) h ⟨rfl, rfl⟩
  rw [rules]
  dsimp only
  split <;> exact h

/-- A stop starts no task, and takes back no signal. -/
theorem stop_tasks {stop : Stop} {w w' : World} {s s' : PollSource} {m : Move Stop Unit}
    (h : rules.stop stop w s = some (m, w', s')) :
    s'.lifecycle.live ⊆ s.lifecycle.live ∧ s.lifecycle.sent ⊆ s'.lifecycle.sent := by
  have hafter := TaskRules.afterStop_of_stop rules_lawful h
  change s.lifecycle.afterStop stop = some (m, s'.lifecycle) at hafter
  rcases Lifecycle.afterStop_cases hafter with ⟨_, -, -, -, hsame⟩ | ⟨force, -, -, -, hhalted⟩ |
    ⟨_, -, -, -, hsame⟩
  · rw [hsame]
    exact ⟨List.Subset.refl _, List.Subset.refl _⟩
  · rw [hhalted]
    refine ⟨?_, List.subset_cons_self _ _⟩
    cases force with
    | false => exact List.Subset.refl _
    | true => exact fun t ht => List.mem_of_mem_filter ht
  · rw [hsame]
    exact ⟨List.Subset.refl _, List.Subset.refl _⟩

/-- What a start leaves as it is; the task that it starts is about to begin a cycle. -/
theorem start_frame (s : PollSource) : s.start.2.driver = s.driver ∧
    s.start.2.lifecycle.sent = s.lifecycle.sent ∧
    ∀ t ∈ s.start.2.lifecycle.live, t ∈ s.lifecycle.live ∨ t.2.state = .checking := by
  cases hrun : s.lifecycle.running with
  | true =>
    have hstart := TaskRules.start_running (r := rules) (s := s) hrun [.checking]
    rw [start, hstart]
    exact ⟨rfl, rfl, fun t ht => .inl ht⟩
  | false =>
    have hstart := TaskRules.start_eq (r := rules) (s := s) hrun [.checking]
    rw [start, hstart]
    refine ⟨rfl, rfl, fun t ht => ?_⟩
    change t ∈ (Lifecycle.spawnAll _ _).live at ht
    rw [Lifecycle.spawnAll_eq] at ht
    refine (List.mem_append.mp ht).imp_right fun hnew => ?_
    rw [List.mem_singleton.mp hnew]
    rfl

end PollSource

/-! ### Histories -/

/-- The run that is in progress for the task behind a handle. -/
def Lifecycle.pollRun? (handle : Nat) (l : Lifecycle (Task PollTask)) : Option (Event × Outcome) :=
  (l.task? handle).bind fun task => task.state.run?

/-- The request with which a poller begins to list the changed items of a path. -/
def ItemPoller.changed (id : String) (settings : ItemPollSettings) (path : String) : ListRequest :=
  (ItemPoller.new id settings).request path (queryText settings (Stamp.ofSource id) false) ""

/-- A poller and its store, and what has happened so far. -/
structure PollHistory where
  world : World
  source : PollSource
  /-- The call that stops the source, while it is open. -/
  stop : Option Stop
  /-- The versions that the function has handled with success, newest first. -/
  log : List Version

namespace PollHistory

/-- A poller that has not been started and a store without items. -/
def fresh (world : World) (id : String) (settings : ItemPollSettings) (limit : Nat) (crew : Crew) :
    PollHistory :=
  { world := { world with clients := { world.clients with items := .new, routes := [] } },
    source := .new ⟨id, "v3io-item-poller", .async⟩ (.items (.new id settings)) settings.poll limit crew,
    stop := none, log := [] }

/-- The items of the store. -/
def items (s : PollHistory) : ItemStore := s.world.clients.items

/-- One move of anybody. -/
inductive Step (id : String) : PollHistory → PollHistory → Prop
  /-- Somebody puts an item into the store. -/
  | puts (s : PollHistory) (directory name : String) (attributes : Json.Object) (now : Timestamp)
      (h : s.items.Renews id directory name attributes now) :
      Step id s { s with world := { s.world with clients := { s.world.clients with
        items := s.items.put directory name attributes now } } }
  /-- Time passes, listings are made to fail, workers come and go, and other things happen elsewhere. -/
  | passes (s : PollHistory) (world : World) (desk : Desk)
      (h : world.clients.items.directories = s.items.directories)
      (hsure : (world.clients.route .updateItem).failing = 0) :
      Step id s { s with world, source := { s.source with desk } }
  /-- Somebody starts the source; while it runs that fails. -/
  | starts (s : PollHistory) (hstop : s.stop = none) : Step id s { s with source := s.source.start.2 }
  /-- Somebody stops the source. -/
  | stops (s : PollHistory) (hstop : s.stop = none) : Step id s { s with stop := some (.ready false) }
  /-- The stop sends the signal and takes the handles. -/
  | halts {s : PollHistory} {stop next : Stop} {world : World} {source : PollSource}
      (hstop : s.stop = some stop)
      (hs : PollSource.rules.stop stop s.world s.source = some (.goes next, world, source)) :
      Step id s { s with world, source, stop := some next }
  /-- The stop returns. -/
  | returns {s : PollHistory} {stop : Stop} {world : World} {source : PollSource} (hstop : s.stop = some stop)
      (hs : PollSource.rules.stop stop s.world s.source = some (.ends (), world, source)) :
      Step id s { s with world, source, stop := none }
  /-- The task of the source moves. -/
  | works {s : PollHistory} {handle : Nat} {world : World} {source : PollSource}
      (hs : PollSource.rules.stepLive handle s.world s.source = some (world, source)) :
      Step id s { s with
        world, source
        log := successes (s.source.lifecycle.pollRun? handle) (source.lifecycle.pollRun? handle) ++ s.log }

/-- The law: no version is lost, and none is handled twice. -/
structure Thorough (id : String) (settings : ItemPollSettings) (s : PollHistory) : Prop where
  /-- An item of a path has a version, and a listing for changed items brings it on one of its pages
  unless the function has handled that version with success. -/
  listed : ∀ path ∈ settings.paths, ∀ entries,
    s.items.directories.get? (ItemStore.normalize path) = some entries →
    ∀ name attributes, entries.get? name = some attributes →
      ∃ t, Item.modifiedAt? ⟨name, attributes⟩ = some t ∧
        ((ItemPoller.itemPath path name, t) ∈ s.log ∨
          ∃ n, ⟨name, attributes⟩ ∈
            ({ s.items with failing := 0 } : ItemStore).pages n (ItemPoller.changed id settings path))
  /-- The function succeeds at most once with a version. -/
  once : s.log.Nodup

/-- The poller of a history keeps account. -/
structure Sound (id : String) (settings : ItemPollSettings) (s : PollHistory) : Prop where
  tended : Tended s.stop s.source.lifecycle
  /-- There is one task at most. -/
  single : s.source.lifecycle.live.length ≤ 1
  graceful : s.stop ≠ some (.ready true)
  sure : (s.world.clients.route .updateItem).failing = 0
  accounts : ∃ p, s.source.driver = .items p ∧ p.Serves id settings ∧
    (s.source.lifecycle.live = [] → Ledger id p.firstPoll s.items s.log [] [] fun _ => False) ∧
    ∀ t ∈ s.source.lifecycle.live, t.2.state.Accounts id p s.items s.log

variable {id : String} {settings : ItemPollSettings} {s s' : PollHistory}

/-- In every state there is an account. -/
theorem Sound.ledger (h : Sound id settings s) :
    ∃ first pending owed seen, Ledger id first s.items s.log pending owed seen := by
  obtain ⟨p, -, -, hidle, hlive⟩ := h.accounts
  cases hcases : s.source.lifecycle.live with
  | nil => exact ⟨_, _, _, _, hidle hcases⟩
  | cons t rest =>
    have ht := hlive t (by rw [hcases]; exact List.mem_cons_self)
    cases hstate : t.2.state with
    | checking =>
      rw [hstate] at ht
      exact ⟨_, _, _, _, ht⟩
    | cycling turn c producer consumer =>
      rw [hstate] at ht
      obtain ⟨-, owed, -, hledger⟩ := ht
      exact ⟨_, _, _, _, hledger⟩
    | pausing pause =>
      rw [hstate] at ht
      exact ⟨_, _, _, _, ht⟩

theorem Sound.thorough (hid : ',' ∉ id.toList) (hpage : settings.pageSize ≠ 0)
    (h : Sound id settings s) : Thorough id settings s := by
  obtain ⟨first, pending, owed, seen, hledger⟩ := h.ledger
  refine ⟨fun path _ entries hentries name attributes hitem => ?_, hledger.once⟩
  obtain ⟨t, ht, hcases⟩ :=
    hledger.mem_matching hid (rfl : (ItemPoller.changed id settings path).attributes = _) rfl hentries
      hitem
  refine ⟨t, ht, hcases.imp_right fun hmem => ?_⟩
  have htidy : ({ s.items with failing := 0 } : ItemStore).Tidy := hledger.tidy
  exact ItemStore.mem_pages htidy hpage rfl hmem

/-! ### What every move keeps -/

theorem sound_fresh (world : World) (id : String) (settings : ItemPollSettings) (limit : Nat)
    (crew : Crew) : Sound id settings (fresh world id settings limit crew) where
  tended := .new
  single := Nat.zero_le _
  graceful := by simp [fresh]
  sure := rfl
  accounts := by
    refine ⟨_, rfl, ItemPoller.serves_new id settings, fun _ => Ledger.new id true, fun t ht => ?_⟩
    cases ht

/-- What happens to the world alone. -/
theorem Sound.of_world (h : Sound id settings s) (world : World) (desk : Desk)
    (hsure : (world.clients.route .updateItem).failing = 0)
    (hstore : ∀ first pending owed seen, Ledger id first s.items s.log pending owed seen →
      Ledger id first world.clients.items s.log pending owed seen) :
    Sound id settings { s with world, source := { s.source with desk } } := by
  refine ⟨h.tended, h.single, h.graceful, hsure, ?_⟩
  obtain ⟨p, hdriver, hp, hidle, hlive⟩ := h.accounts
  exact ⟨p, hdriver, hp, fun hnil => hstore _ _ _ _ (hidle hnil),
    fun t ht => (hlive t ht).of_store fun _ _ _ => hstore _ _ _ _⟩

theorem Sound.starts (h : Sound id settings s) (hstop : s.stop = none) :
    Sound id settings { s with source := s.source.start.2 } := by
  cases hrun : s.source.lifecycle.running with
  | true =>
    have hsame : s.source.start.2 = s.source := by
      have hrun' : (PollSource.rules.lifecycle s.source).running = true := hrun
      simp [PollSource.start, TaskRules.start, Lifecycle.begin, hrun']
    rw [hsame]
    exact h
  | false =>
    have hlive := h.tended.still hrun (by simp [hstop])
    obtain ⟨p, hdriver, hp, hidle, -⟩ := h.accounts
    have hledger := hidle hlive
    have hstart := TaskRules.start_eq (r := PollSource.rules) (s := s.source) hrun [.checking]
    rw [PollSource.start, hstart]
    refine ⟨?_, ?_, h.graceful, h.sure, p, hdriver, hp, fun _ => hledger, fun t ht => ?_⟩
    · change Tended s.stop _
      rw [hstop]
      exact .started hlive _ _
    · change (Lifecycle.spawnAll _ _).live.length ≤ 1
      rw [Lifecycle.spawnAll_eq]
      change (s.source.lifecycle.live ++ _).length ≤ 1
      rw [hlive]
      exact Nat.le_refl 1
    · change t ∈ (Lifecycle.spawnAll _ _).live at ht
      rw [Lifecycle.spawnAll_eq] at ht
      change t ∈ s.source.lifecycle.live ++ _ at ht
      rw [hlive, List.nil_append] at ht
      obtain rfl := List.mem_singleton.mp ht
      exact hledger

theorem Sound.halts (h : Sound id settings s) {stop next : Stop} {world : World} {source : PollSource}
    (hstop : s.stop = some stop)
    (hs : PollSource.rules.stop stop s.world s.source = some (.goes next, world, source)) :
    Sound id settings { s with world, source, stop := some next } := by
  obtain ⟨rfl, hdriver'⟩ := PollSource.stop_frame hs
  have htended := h.tended
  rw [hstop] at htended
  rcases Lifecycle.afterStop_cases (TaskRules.afterStop_of_stop PollSource.rules_lawful hs) with
    ⟨_, -, -, hm, -⟩ | ⟨force, rfl, hrun, hm, hlifecycle⟩ | ⟨_, -, -, hm, -⟩
  · cases hm
  · cases hm
    change s.source.lifecycle.running = true at hrun
    change source.lifecycle = s.source.lifecycle.halted force at hlifecycle
    obtain rfl : force = false := by
      cases force with
      | false => rfl
      | true => exact absurd hstop h.graceful
    have hlive : source.lifecycle.live = s.source.lifecycle.live := by
      rw [hlifecycle]
      rfl
    obtain ⟨p, hdriver, hp, hidle, hall⟩ := h.accounts
    refine ⟨?_, ?_, by simp, h.sure, p, hdriver'.trans hdriver, hp, ?_, ?_⟩
    · change Tended _ source.lifecycle
      rw [hlifecycle]
      exact htended.halted hrun
    · change source.lifecycle.live.length ≤ 1
      rw [hlive]
      exact h.single
    · change source.lifecycle.live = [] → _
      rw [hlive]
      exact hidle
    · change ∀ t ∈ source.lifecycle.live, _
      rw [hlive]
      exact hall
  · cases hm

theorem Sound.returns (h : Sound id settings s) {stop : Stop} {world : World} {source : PollSource}
    (hstop : s.stop = some stop)
    (hs : PollSource.rules.stop stop s.world s.source = some (.ends (), world, source)) :
    Sound id settings { s with world, source, stop := none } := by
  obtain ⟨rfl, hdriver'⟩ := PollSource.stop_frame hs
  have htended := h.tended
  rw [hstop] at htended
  obtain ⟨hlifecycle, hrun, hlive⟩ :=
    htended.returned (TaskRules.afterStop_of_stop PollSource.rules_lawful hs)
  change source.lifecycle = s.source.lifecycle at hlifecycle
  change s.source.lifecycle.live = [] at hlive
  obtain ⟨p, hdriver, hp, hidle, hall⟩ := h.accounts
  refine ⟨?_, ?_, by simp, h.sure, p, hdriver'.trans hdriver, hp, fun _ => hidle hlive, ?_⟩
  · change Tended none source.lifecycle
    rw [hlifecycle]
    exact htended.closed hlive
  · change source.lifecycle.live.length ≤ 1
    rw [hlifecycle]
    exact h.single
  · change ∀ t ∈ source.lifecycle.live, _
    rw [hlifecycle]
    exact hall

/-- What a poller needs to keep account: its id holds no comma, later polls ask for changed items, a page
holds an item, and no two paths are the same. -/
structure Admits (id : String) (settings : ItemPollSettings) : Prop where
  comma : ',' ∉ id.toList
  incremental : settings.incremental = true
  page : settings.pageSize ≠ 0
  paths : (settings.paths.map ItemStore.trimSlashes).Nodup

/-- The run of the task that moves, before its move and after it. -/
theorem pollRun?_of_stepLive (h : Sound id settings s) {handle : Nat} {world : World} {source : PollSource}
    (hs : PollSource.rules.stepLive handle s.world s.source = some (world, source)) :
    ∃ task m moved, (handle, task) ∈ s.source.lifecycle.live ∧
      PollSource.step task.signal task.state s.world s.source = some (m, world, moved) ∧
      source.driver = moved.driver ∧
      s.source.lifecycle.pollRun? handle = task.state.run? ∧
      (moved.lifecycle = s.source.lifecycle →
        source.lifecycle = s.source.lifecycle.moved handle task.signal m ∧
        source.lifecycle.pollRun? handle = m.next?.bind PollTask.run?) := by
  obtain ⟨task, m, moved, htask, hstep, rfl⟩ := TaskRules.stepLive_cases hs
  change s.source.lifecycle.task? handle = some task at htask
  have halive : handle ∈ s.source.lifecycle.alive := Lifecycle.mem_alive_of_task? htask
  refine ⟨task, m, moved, (Lifecycle.task?_eq_some h.tended.distinct).mp htask, hstep, rfl, ?_,
    fun hsame => ⟨?_, ?_⟩⟩
  · rw [Lifecycle.pollRun?, htask]
    rfl
  · change moved.lifecycle.moved handle task.signal m = _
    rw [hsame]
  · change (moved.lifecycle.moved handle task.signal m).pollRun? handle = _
    rw [hsame, Lifecycle.pollRun?, Lifecycle.task?_moved h.tended.distinct halive]
    cases m <;> rfl

theorem Sound.works (ha : Admits id settings) (h : Sound id settings s) {handle : Nat} {world : World}
    {source : PollSource}
    (hs : PollSource.rules.stepLive handle s.world s.source = some (world, source)) :
    Sound id settings { s with
      world, source
      log := successes (s.source.lifecycle.pollRun? handle) (source.lifecycle.pollRun? handle) ++ s.log } := by
  obtain ⟨task, m, moved, hmem, hstep, hdriver', hbefore, hmoved⟩ := pollRun?_of_stepLive h hs
  obtain ⟨p, hdriver, hp, -, hall⟩ := h.accounts
  obtain ⟨p', hkept⟩ := PollTask.kept_of_step ha.comma ha.page ha.paths ha.incremental hp hdriver h.sure
    (hall _ hmem) hstep
  obtain ⟨hlifecycle, hafter⟩ := hmoved hkept.lifecycle
  rw [hkept.driver] at hdriver'
  have honly : s.source.lifecycle.live = [(handle, task)] := by
    have hsingle := h.single
    cases hlive : s.source.lifecycle.live with
    | nil => rw [hlive] at hmem; cases hmem
    | cons t rest =>
      rw [hlive] at hmem hsingle
      obtain rfl : rest = [] := by
        rw [List.length_cons] at hsingle
        exact List.eq_nil_of_length_eq_zero (by omega)
      rw [List.mem_singleton.mp hmem]
  have htended : Tended s.stop source.lifecycle := by
    rw [hlifecycle]
    exact h.tended.moved handle task.signal m
  have hsure : (world.clients.route .updateItem).failing = 0 := by
    rw [hkept.updates]
    exact h.sure
  rw [hbefore, hafter]
  cases m with
  | goes next =>
    have hlive : source.lifecycle.live = [(handle, ⟨task.signal, next⟩)] := by
      rw [hlifecycle, Lifecycle.moved, Lifecycle.replace, honly]
      simp
    refine ⟨htended, ?_, h.graceful, hsure, p', hdriver', hkept.serves, fun hnil => ?_, fun t ht => ?_⟩
    · change source.lifecycle.live.length ≤ 1
      rw [hlive]
      exact Nat.le_refl 1
    · change source.lifecycle.live = [] at hnil
      rw [hlive] at hnil
      cases hnil
    · change t ∈ source.lifecycle.live at ht
      rw [hlive] at ht
      obtain rfl := List.mem_singleton.mp ht
      exact hkept.goes next rfl
  | ends result =>
    obtain ⟨hrun, hledger⟩ := hkept.ends rfl
    have hlive : source.lifecycle.live = [] := by
      rw [hlifecycle, Lifecycle.moved, Lifecycle.finish, honly]
      simp
    rw [hrun]
    refine ⟨htended, ?_, h.graceful, hsure, p', hdriver', hkept.serves, fun _ => hledger, fun t ht => ?_⟩
    · change source.lifecycle.live.length ≤ 1
      rw [hlive]
      exact Nat.zero_le 1
    · change t ∈ source.lifecycle.live at ht
      rw [hlive] at ht
      cases ht

/-! ### The law -/

/-- **One move of anybody** keeps the account. -/
theorem Sound.step (ha : Admits id settings) (h : Sound id settings s) (hs : Step id s s') :
    Sound id settings s' := by
  cases hs with
  | puts directory name attributes now hput =>
    exact h.of_world _ s.source.desk h.sure fun _ _ _ _ hledger => hledger.put hput
  | passes world desk hitems hsure =>
    exact h.of_world world desk hsure fun _ _ _ _ hledger => hledger.of_directories hitems
  | starts hstop => exact h.starts hstop
  | stops hstop =>
    have htended := h.tended
    rw [hstop] at htended
    exact ⟨htended.ready false, h.single, by simp, h.sure, h.accounts⟩
  | halts hstop hs => exact h.halts hstop hs
  | returns hstop hs => exact h.returns hstop hs
  | works hs => exact h.works ha hs

theorem Sound.of_reachable (ha : Admits id settings) (h : Sound id settings s)
    (hr : Relation.ReflTransGen (Step id) s s') : Sound id settings s' := by
  induction hr with
  | refl => exact h
  | tail _ hs ih => exact ih.step ha hs

/-- **What the log tells of** are the function's successes: whenever a run begins, the function is entered
with the event of the run, and the run ends with what the function makes of it. -/
theorem entered_of_reachable (world : World) (limit : Nat) (crew : Crew) (ha : Admits id settings)
    (hr : Relation.ReflTransGen (Step id) (fresh world id settings limit crew) s) {handle : Nat}
    {world' : World} {source : PollSource}
    (hs : PollSource.rules.stepLive handle s.world s.source = some (world', source)) {event : Event}
    {outcome : Outcome} (hnone : s.source.lifecycle.pollRun? handle = none)
    (hsome : source.lifecycle.pollRun? handle = some (event, outcome)) :
    ∃ entry : Entry, entry.event = event ∧
      world'.ambient.entries = s.world.ambient.entries.push entry ∧
      outcome = (s.world.ambient.function s.world.ambient.entries entry).conclusion.outcome := by
  have h := (sound_fresh world id settings limit crew).of_reachable ha hr
  obtain ⟨task, m, moved, hmem, hstep, -, hbefore, hmoved⟩ := pollRun?_of_stepLive h hs
  obtain ⟨p, hdriver, hp, -, hall⟩ := h.accounts
  obtain ⟨p', hkept⟩ := PollTask.kept_of_step ha.comma ha.page ha.paths ha.incremental hp hdriver h.sure
    (hall _ hmem) hstep
  rw [hbefore] at hnone
  rw [(hmoved hkept.lifecycle).2] at hsome
  cases m with
  | goes next => exact PollTask.entered_of_step (hall _ hmem) hstep hnone hsome
  | ends result => cases hsome

/-- **No version is lost or handled twice.** However a poller is started and stopped, whatever is put
into the store meanwhile, and whichever listings, submissions and runs fail: the function succeeds at
most once with a version of an item, and an item whose version it has not succeeded with is returned by a
listing for changed items. -/
theorem thorough_of_reachable (world : World) (limit : Nat) (crew : Crew)
    (hid : ',' ∉ id.toList) (hcheck : settings.check id = .ok ())
    (hincremental : settings.incremental = true)
    (hpaths : (settings.paths.map ItemStore.trimSlashes).Nodup)
    (hr : Relation.ReflTransGen (Step id) (fresh world id settings limit crew) s) :
    Thorough id settings s := by
  have hpage : settings.pageSize ≠ 0 := by
    intro hzero
    unfold ItemPollSettings.check at hcheck
    rw [if_pos hzero] at hcheck
    split at hcheck
    · cases hcheck
    · split at hcheck <;> cases hcheck
  have hsound := (sound_fresh world id settings limit crew).of_reachable
    ⟨hid, hincremental, hpage, hpaths⟩ hr
  exact hsound.thorough hid hpage

/-- An item changes while the function runs on it: the version that was listed is handled and stamped,
and the new one is not lost. -/
theorem thorough_changed_meanwhile :
    ∃ s : PollHistory, Relation.ReflTransGen (Step "p")
        (fresh (.start ⟨0, 0⟩ .echo) "p" { paths := ["/d"], poll := ⟨1000, 64⟩ } 10
          (.ofIndices .exclusive [0])) s ∧
      s.log = [("/d/a", ⟨1, 0⟩)] ∧
      s.items.item? "/d/a" = some ((ItemStore.putAttributes "a" [] ⟨2, 0⟩).merge
        ((ItemPoller.new "p" { paths := ["/d"], poll := ⟨1000, 64⟩ }).stampOf
          { Event.blank ⟨1, 0⟩ with path := "/d/a" })) ∧
      Thorough "p" { paths := ["/d"], poll := ⟨1000, 64⟩ } s := by
  have hput : ∀ (items : ItemStore) (now : Timestamp), now.IsKnown →
      (∀ old t, items.item? "/d/a" = some old → Item.modifiedAt? ⟨"a", old⟩ = some t → t < now) →
      items.Renews "p" "/d" "a" [] now := fun items now hknown hnewer =>
    ⟨⟨by decide, by decide⟩, rfl, hknown, hnewer⟩
  have hstarted : Relation.ReflTransGen (Step "p")
      (fresh (.start ⟨0, 0⟩ .echo) "p" { paths := ["/d"], poll := ⟨1000, 64⟩ } 10
        (.ofIndices .exclusive [0])) _ :=
    (Relation.ReflTransGen.single (Step.puts _ "/d" "a" [] ⟨1, 0⟩ (hput _ _ rfl fun old t hold _ => by
      cases hold))).tail (Step.starts _ rfl)
  have hlisting := ((hstarted.tail (@Step.works _ _ 0 _ _ rfl)).tail (@Step.works _ _ 0 _ _ rfl)).tail
    (@Step.works _ _ 0 _ _ rfl)
  have hlisted := ((hlisting.tail (@Step.works _ _ 0 _ _ rfl)).tail (@Step.works _ _ 0 _ _ rfl)).tail
    (@Step.works _ _ 0 _ _ rfl)
  have hreceived := ((hlisted.tail (@Step.works _ _ 0 _ _ rfl)).tail (@Step.works _ _ 0 _ _ rfl)).tail
    (@Step.works _ _ 0 _ _ rfl)
  have hrunning := ((hreceived.tail (@Step.works _ _ 0 _ _ rfl)).tail (@Step.works _ _ 0 _ _ rfl)).tail
    (@Step.works _ _ 0 _ _ rfl)
  have hchanged := hrunning.tail (Step.puts _ "/d" "a" [] ⟨2, 0⟩ (hput _ _ rfl fun old t hold ht => by
    cases hold
    cases ht
    decide))
  have hstamped := ((hchanged.tail (@Step.works _ _ 0 _ _ rfl)).tail (@Step.works _ _ 0 _ _ rfl)).tail
    (@Step.works _ _ 0 _ _ rfl)
  exact ⟨_, hstamped, rfl, rfl, thorough_of_reachable _ _ _ (by decide) rfl rfl (by decide) hstamped⟩

end PollHistory

end EventDispatch
