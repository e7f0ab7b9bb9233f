import EventDispatch.Proofs.StreamHistory
import EventDispatch.Proofs.TaskKinds

/-!
# Where a started source goes on

A source that reads a stream keeps the sequence number of the last record handled in each shard, from one
run to the next. A start lays those of the checkpoint over them and only then looks whether the source
runs already. Two things follow, and neither is what one expects.

* A start that is refused because the source runs has moved the positions all the same, unless the
  checkpoint says nothing else than they do.
* A start without a checkpoint, or with one that leaves a shard out, does not read the shard from its
  oldest record once an earlier run has come further.

Both are stated exactly, for every history of one source: starts from any checkpoints, with or without
success, stops that overlap, and tasks that move in any order.

## What is deliberately absent

Time is not scheduled, and between any two moves the world may change in any way. Calls that stop the
source are not remembered: one that waits for tasks changes nothing.

## Main definitions

* `StreamSource.Gives`: a valid checkpoint, with the sequence numbers that it gives.
* `Reader.Turn`: how a move takes a reader from the stored position to the place where it reads.
* `Restarts`: one source that is started and stopped by anybody.
* `Restarts.Departs`: where the reader of a shard starts.

## Main results

* `StreamSource.start_cases`: everything that a start can do.
* `Restarts.refused_unchanged_iff`: when a start that fails leaves the source alone.
* `Restarts.departs_of_start`: where the readers of a started source start.
-/

namespace EventDispatch

/-! ### Tables that say the same -/

namespace Keyed

variable {α : Type} {table upper : Keyed α} {key : String} {value : α}

/-- A table laid over another one changes nothing exactly if the other one has all its entries. -/
theorem Sorted.merge_eq_self_iff (h : Sorted table) (hu : Sorted upper) :
    table.merge upper = table ↔ ∀ k v, upper.get? k = some v → table.get? k = some v := by
  refine ⟨fun heq k v hget => ?_, fun hall => ?_⟩
  · rw [← heq, get?_merge hu, hget]
    rfl
  · have hmem : ∀ e ∈ upper, table.get? e.1 = some e.2 := fun e he => hall e.1 e.2 (hu.get?_of_mem he)
    clear hall hu
    induction upper with
    | nil => rfl
    | cons entry upper ih =>
      have hstep : table.merge (entry :: upper) = (table.insert entry.1 entry.2).merge upper := rfl
      rw [hstep, h.insert_eq_self (hmem entry List.mem_cons_self)]
      exact ih fun e he => hmem e (List.mem_cons_of_mem _ he)

end Keyed

/-! ### What a start does -/

namespace StreamSource

variable {s : StreamSource} {token : Option String} {given : Keyed String}

/-- A valid checkpoint, with the sequence numbers that it gives. -/
inductive Gives : Option String → Keyed String → Prop
  /-- A start without a checkpoint. -/
  | nothing : Gives none []
  | texts {text : String} {entries : List (String × String)} (h : Json.parseTexts text = .ok entries) :
      Gives (some text) (.ofList entries)

theorem Gives.sorted (h : Gives token given) : given.Sorted := by
  cases h with
  | nothing => exact Keyed.sorted_nil
  | texts h => exact Keyed.sorted_nil.merge _

theorem Gives.restore_eq (h : Gives token given) (s : StreamSource) :
    s.restore token = .ok { s with positions := s.positions.merge given } := by
  cases h with
  | nothing => rfl
  | texts h => simp only [restore, h]

/-- A checkpoint gives one table. -/
theorem Gives.unique {other : Keyed String} (h : Gives token given) (ho : Gives token other) :
    given = other := by
  cases h with
  | nothing =>
    cases ho
    rfl
  | texts h =>
    cases ho with
    | texts ho => rw [Except.ok.inj (h.symm.trans ho)]

/-- What a source has come to is a valid checkpoint. -/
theorem gives_checkpoint (hs : s.positions.Sorted) : Gives s.checkpoint s.positions := by
  rw [checkpoint]
  split
  next hempty =>
    rw [List.isEmpty_iff.mp hempty]
    exact .nothing
  next =>
    have htexts := Gives.texts (Json.parseTexts_render s.positions)
    rwa [Keyed.ofList_eq_self hs] at htexts

/-- The source with its positions moved to those of a checkpoint. -/
def advised (given : Keyed String) (s : StreamSource) : StreamSource :=
  { s with positions := s.positions.merge given }

/-- The source after a run has begun with one reader for each shard. -/
def launched (s : StreamSource) : StreamSource :=
  let signal := s.lifecycle.signal + 1
  let tasks := s.settings.shards.map fun shard => Task.mk signal (.hiring shard (.asking none))
  { s with lifecycle := { s.lifecycle with running := true, signal }.spawnAll tasks }

/-- With a valid checkpoint a start moves the positions, and then begins a run if it may. -/
theorem start_of_gives (h : Gives token given) (s : StreamSource) : s.start token =
    rules.start (s.settings.shards.map (.hiring · (.asking none))) (s.advised given) := by
  rw [start, h.restore_eq]
  rfl

/-- A source that runs is not started again, but its positions have been moved. -/
theorem start_running (h : Gives token given) (hrun : s.lifecycle.running = true) :
    s.start token = (.error (.invalidState "Event source is already running"), s.advised given) := by
  have hkept : (rules.lifecycle (s.advised given)).running = true := hrun
  rw [start_of_gives h, TaskRules.start_running hkept]

theorem start_idle (h : Gives token given) (hrun : s.lifecycle.running = false) :
    s.start token = (.ok (), (s.advised given).launched) := by
  have hkept : (rules.lifecycle (s.advised given)).running = false := hrun
  rw [start_of_gives h, TaskRules.start_eq hkept, List.map_map]
  rfl

/-- **Everything that a start can do**: find the checkpoint invalid, find the source running after the
positions were moved, or begin a run. -/
theorem start_cases (token : Option String) (s : StreamSource) :
    (∃ text e, token = some text ∧ Json.parseTexts text = .error e ∧
      s.start token = (.error (.configuration ("Invalid stream checkpoint: " ++ e.message)), s)) ∨
    (∃ given, Gives token given ∧ s.lifecycle.running = true ∧
      s.start token = (.error (.invalidState "Event source is already running"), s.advised given)) ∨
    (∃ given, Gives token given ∧ s.lifecycle.running = false ∧
      s.start token = (.ok (), (s.advised given).launched)) := by
  by_cases hvalid : ∃ given, Gives token given
  · obtain ⟨given, hgives⟩ := hvalid
    cases hrun : s.lifecycle.running with
    | true => exact .inr (.inl ⟨given, hgives, rfl, start_running hgives hrun⟩)
    | false => exact .inr (.inr ⟨given, hgives, rfl, start_idle hgives hrun⟩)
  · rcases token with - | text
    · exact absurd ⟨[], .nothing⟩ hvalid
    · rcases hparse : Json.parseTexts text with e | entries
      · refine .inl ⟨text, e, rfl, hparse, ?_⟩
        simp only [start, restore, hparse]
      · exact absurd ⟨_, .texts hparse⟩ hvalid

/-- Everything that the checkpoint gives is what the source has come to. -/
def Agrees (token : Option String) (s : StreamSource) : Prop :=
  ∀ given, Gives token given → ∀ shard sequence, given.get? shard = some sequence →
    s.positions.get? shard = some sequence

theorem advised_eq_self_iff (hs : s.positions.Sorted) (h : Gives token given) :
    s.advised given = s ↔ Agrees token s := by
  have hpositions : s.advised given = s ↔ s.positions.merge given = s.positions :=
    ⟨congrArg StreamSource.positions, fun h => by rw [advised, h]⟩
  rw [hpositions, hs.merge_eq_self_iff h.sorted]
  exact ⟨fun hall other ho => h.unique ho ▸ hall, fun hall => hall given h⟩

/-- A checkpoint tells what the source has come to. -/
theorem checkpoint_advised_iff (hs : s.positions.Sorted) (h : Gives token given) :
    (s.advised given).checkpoint = s.checkpoint ↔ Agrees token s := by
  rw [← advised_eq_self_iff hs h]
  refine ⟨fun heq => ?_, fun heq => by rw [heq]⟩
  have hgiven : Gives s.checkpoint (s.positions.merge given) := by
    rw [← heq]
    exact gives_checkpoint (hs.merge given)
  have hsame : s.positions.merge given = s.positions := hgiven.unique (gives_checkpoint hs)
  rw [advised, hsame]

/-- A forced stop that nothing comes between, with the checkpoint that it returns. -/
inductive Aborted (w : World) (s : StreamSource) : Option String → Prop
  /-- The source did not run. -/
  | idle {w' : World} {s' : StreamSource} (h : rules.stop (.ready true) w s = some (.ends (), w', s')) :
      Aborted w s s'.checkpoint
  | joined {stop : Stop} {w₁ w' : World} {s₁ s' : StreamSource}
      (hhalt : rules.stop (.ready true) w s = some (.goes stop, w₁, s₁))
      (h : rules.stop stop w₁ s₁ = some (.ends (), w', s')) : Aborted w s s'.checkpoint

/-- What a stop returns is what the source had come to when it began. -/
theorem Aborted.eq_checkpoint {w : World} {returned : Option String} (h : Aborted w s returned) :
    returned = s.checkpoint := by
  cases h with
  | idle h => rw [checkpoint, (stop_frame h).2.1, ← checkpoint]
  | joined hhalt h =>
    obtain ⟨-, hfirst, -⟩ := stop_frame hhalt
    obtain ⟨-, hsecond, -⟩ := stop_frame h
    rw [checkpoint, hsecond, hfirst, ← checkpoint]

/-- A forced stop returns at once, for it waits for no task that lives. -/
theorem aborted_checkpoint (w : World) (s : StreamSource) : Aborted w s s.checkpoint := by
  cases hrun : s.lifecycle.running with
  | false =>
    have hstop : rules.stop (.ready true) w s = some (.ends (), w, s) := by
      simp [TaskRules.stop, Stop.step, Lifecycle.halt, rules, hrun]
    exact .idle hstop
  | true =>
    obtain ⟨w₁, s₁, hhalt⟩ : ∃ w₁ s₁, rules.stop (.ready true) w s =
        some (.goes (.joining s.lifecycle.handles), w₁, s₁) := by
      simp only [TaskRules.stop, Stop.step, Lifecycle.halt, rules, hrun, if_true, Option.map_some]
      exact ⟨_, _, rfl⟩
    have hended : s₁.lifecycle.allEnded s.lifecycle.handles = true := by
      have hafter := TaskRules.afterStop_of_stop rules_lawful hhalt
      rcases Lifecycle.afterStop_cases hafter with ⟨_, -, -, hm, -⟩ | ⟨force, hforce, -, -, hl⟩ |
        ⟨_, -, -, hm, -⟩
      · cases hm
      · cases hforce
        refine Lifecycle.allEnded_iff.mpr fun h hh halive => ?_
        change s₁.lifecycle = _ at hl
        rw [hl] at halive
        obtain ⟨t, ht, rfl⟩ := List.mem_map.mp halive
        have hnot := (List.mem_filter.mp ht).2
        simp only [Bool.not_eq_true', List.contains_eq_mem, decide_eq_false_iff_not] at hnot
        exact hnot hh
      · cases hm
    have hjoin : rules.stop (.joining s.lifecycle.handles) w₁ s₁ = some (.ends (), w₁, s₁) := by
      simp [TaskRules.stop, Stop.step, rules, hended]
    have hsame : s₁.checkpoint = s.checkpoint := by
      rw [checkpoint, (stop_frame hhalt).2.1, ← checkpoint]
    rw [← hsame]
    exact .joined hhalt hjoin

end StreamSource

/-! ### Where readers start -/

/-- A position in a shard lies right after the record that the number belongs to, or before all records
if there is no number. -/
def RecordStream.LiesAfter (shard : String) (sequence : Option String) (position : String)
    (s : RecordStream) : Prop :=
  match sequence with
  | none => position = toString 0
  | some q => ∃ k, position = toString (k + 1) ∧ ((s.shard shard).map Record.sequence)[k]? = some q ∧
      ∀ i < k, ((s.shard shard).map Record.sequence)[i]? ≠ some q

/-- The stream puts a reader right after the record asked for. -/
theorem RecordStream.liesAfter_initialPosition {shard position : String} {sequence : Option String}
    {s : RecordStream} (h : s.initialPosition shard sequence = .ok position) :
    s.LiesAfter shard sequence position := by
  cases sequence with
  | none => exact (Except.ok.inj h).symm
  | some q =>
    rw [initialPosition] at h
    split at h
    next k hfind =>
      obtain ⟨hk, hq, hearlier⟩ := List.findIdx?_eq_some_iff_getElem.mp hfind
      refine ⟨k, (Except.ok.inj h).symm, ?_, fun i hi hsame => ?_⟩
      · rw [List.getElem?_map, List.getElem?_eq_getElem hk, Option.map_some, beq_iff_eq.mp hq]
      · rw [List.getElem?_map, List.getElem?_eq_getElem (hi.trans hk), Option.map_some] at hsame
        exact hearlier i hi (beq_iff_eq.mpr (Option.some.inj hsame))
    · cases h

namespace Reader

/-- How far a reader is on its way to the records. -/
inductive Stage where
  /-- It waits for a worker. -/
  | waiting
  /-- It asks for the position after a record, or for the oldest one. -/
  | asking (resume : Option String)
  | reading (position : String)

/-- The stage that a task is in. -/
def stage : Reader → Stage
  | hiring _ _ => .waiting
  | locating _ _ resume _ | relocating _ _ resume _ => .asking resume
  | idle _ _ position | pausing _ _ position _ | fetching _ _ position _ | between _ _ _ position
  | handling _ _ _ _ position _ => .reading position

/-- What a move of a task does on the way from the positions of the source to the records. Only the desk
changes, unless a record is done. -/
inductive Turn (r : Reader) (w' : World) (s s' : StreamSource) : Move Reader Unit → Prop
  | ends (hsame : s' = { s with desk := s'.desk }) : Turn r w' s s' (.ends ())
  /-- It gets no further. -/
  | stays {next : Reader} (hshard : next.shard = r.shard) (hstage : next.stage = r.stage)
      (hsame : s' = { s with desk := s'.desk }) : Turn r w' s s' (.goes next)
  /-- It has a worker, and looks up how far the shard has been read. -/
  | hires {next : Reader} (hshard : next.shard = r.shard) (hstage : r.stage = .waiting)
      (hnext : next.stage = .asking (s.positions.get? r.shard))
      (hsame : s' = { s with desk := s'.desk }) : Turn r w' s s' (.goes next)
  /-- The stream has told it where to start. -/
  | opens {next : Reader} {resume : Option String} {position : String} (hshard : next.shard = r.shard)
      (hstage : r.stage = .asking resume) (hnext : next.stage = .reading position)
      (hopens : w'.clients.stream.initialPosition r.shard resume = .ok position)
      (hsame : s' = { s with desk := s'.desk }) : Turn r w' s s' (.goes next)
  /-- It has fetched records. -/
  | fetches {next : Reader} {position position' : String} (hshard : next.shard = r.shard)
      (hstage : r.stage = .reading position) (hnext : next.stage = .reading position')
      (hsame : s' = { s with desk := s'.desk }) : Turn r w' s s' (.goes next)
  /-- It notes the record that is done. -/
  | notes {next : Reader} {position sequence : String} (hshard : next.shard = r.shard)
      (hstage : r.stage = .reading position) (hnext : next.stage = .reading position)
      (hsame : s' = { s with
        desk := s'.desk, positions := s.positions.insert r.shard sequence }) :
      Turn r w' s s' (.goes next)

variable {r : Reader} {signal : Signal} {w w' : World} {s s' : StreamSource} {m : Move Reader Unit}

/-- **Every move of a task** leads it from the waiting for a worker over the stored position to the
records, step by step. -/
theorem turn_of_moves (h : StreamSource.Moves signal w s r m w' s') : r.Turn w' s s' m := by
  cases h with
  | withdraws | misses | breaks | quits => exact .ends rfl
  | hires => exact .hires rfl rfl rfl rfl
  | finds hworld hposition => exact .opens rfl rfl rfl (hworld.initialPosition_eq .. ▸ hposition) rfl
  | brings => exact .fetches rfl rfl rfl rfl
  | completes => exact .notes rfl rfl rfl rfl
  | _ => exact .stays rfl rfl rfl

variable {next : Reader}

/-- A task keeps to its shard. -/
theorem Turn.shard_eq (h : r.Turn w' s s' (.goes next)) : next.shard = r.shard := by
  cases h with
  | stays hshard _ _ => exact hshard
  | hires hshard _ _ _ => exact hshard
  | opens hshard _ _ _ _ => exact hshard
  | fetches hshard _ _ _ => exact hshard
  | notes hshard _ _ _ => exact hshard

/-- A move changes the position of the task's own shard at most, and only while the task reads. -/
theorem Turn.frame (h : r.Turn w' s s' m) : s' = { s with desk := s'.desk } ∨
    ∃ position sequence, r.stage = .reading position ∧
      s' = { s with desk := s'.desk, positions := s.positions.insert r.shard sequence } := by
  cases h with
  | ends hsame => exact .inl hsame
  | stays _ _ hsame => exact .inl hsame
  | hires _ _ _ hsame => exact .inl hsame
  | opens _ _ _ _ hsame => exact .inl hsame
  | fetches _ _ _ hsame => exact .inl hsame
  | notes _ hstage _ hsame => exact .inr ⟨_, _, hstage, hsame⟩

end Reader

namespace Lifecycle

variable {τ : Type}

theorem alive_moved_sublist (handle : Nat) (signal : Signal) (m : Move τ Unit) (l : Lifecycle (Task τ)) :
    (l.moved handle signal m).alive.Sublist l.alive := by
  cases m with
  | goes next =>
    rw [moved, alive_replace]
  | ends result => exact List.filter_sublist.map _

theorem nextHandle_moved (handle : Nat) (signal : Signal) (m : Move τ Unit) (l : Lifecycle (Task τ)) :
    (l.moved handle signal m).nextHandle = l.nextHandle := by
  cases m <;> rfl

end Lifecycle

/-! ### One source that is started again and again -/

/-- A source that reads a stream, and the world around it. -/
structure Restarts where
  world : World
  source : StreamSource

namespace Restarts

/-- A source that never ran. -/
def fresh (world : World) (info : SourceInfo) (settings : StreamSettings) (crew : Crew) : Restarts :=
  ⟨world, .new info settings crew⟩

/-- One move of anybody but those who start the source. -/
inductive Proceeds : Restarts → Restarts → Prop
  /-- Anything happens around the source, or at its desk. -/
  | passes (s : Restarts) (world : World) (desk : Desk) :
      Proceeds s ⟨world, { s.source with desk }⟩
  /-- A call that stops the source moves on or returns. -/
  | stops {s : Restarts} {stop : Stop} {m : Move Stop Unit} {world : World} {source : StreamSource}
      (hs : StreamSource.rules.stop stop s.world s.source = some (m, world, source)) :
      Proceeds s ⟨world, source⟩
  /-- A task of the source moves. -/
  | works {s : Restarts} {handle : Nat} {world : World} {source : StreamSource}
      (hs : StreamSource.rules.stepLive handle s.world s.source = some (world, source)) :
      Proceeds s ⟨world, source⟩

/-- One move of anybody. -/
inductive Step : Restarts → Restarts → Prop
  | proceeds {s s' : Restarts} (h : Proceeds s s') : Step s s'
  /-- Somebody starts the source, from whatever checkpoint, whether it runs or not. -/
  | starts (s : Restarts) (token : Option String) :
      Step s { s with source := (s.source.start token).2 }

/-- The task behind a handle. -/
def reader? (handle : Nat) (s : Restarts) : Option Reader :=
  (s.source.lifecycle.task? handle).map Task.state

/-- Until the next start, whoever reads the shard asks for the position right after a record, or for the
oldest record, and starts where it lies then. -/
structure Departs (shard : String) (resume : Option String) (s : Restarts) : Prop where
  asks : ∀ s', Relation.ReflTransGen Proceeds s s' → ∀ handle reader, s'.reader? handle = some reader →
    reader.shard = shard → ∀ q, reader.stage = .asking q → q = resume
  opens : ∀ s' s'', Relation.ReflTransGen Proceeds s s' → Proceeds s' s'' →
    ∀ handle reader next, s'.reader? handle = some reader → s''.reader? handle = some next →
      next.shard = shard → (∀ p, reader.stage ≠ .reading p) → ∀ p, next.stage = .reading p →
        s''.world.clients.stream.LiesAfter shard resume p

/-! ### What every move keeps -/

variable {s s' : Restarts}

/-- The positions are in order, no two tasks have one handle, and the settings are those given. -/
structure Sound (settings : StreamSettings) (s : Restarts) : Prop where
  sorted : s.source.positions.Sorted
  distinct : s.source.lifecycle.alive.Nodup
  issued : ∀ h ∈ s.source.lifecycle.alive, h < s.source.lifecycle.nextHandle
  settings : s.source.settings = settings

variable {settings : StreamSettings}

theorem sound_fresh (world : World) (info : SourceInfo) (settings : StreamSettings) (crew : Crew) :
    Sound settings (fresh world info settings crew) where
  sorted := Keyed.sorted_nil
  distinct := List.nodup_nil
  issued := by simp [fresh, StreamSource.new, Lifecycle.new, Lifecycle.alive]
  settings := rfl

/-- What one move that is no start does to the tasks and to the positions. -/
inductive Moved (s s' : Restarts) : Prop
  /-- Some tasks are given up, perhaps none. -/
  | gives (hlive : s'.source.lifecycle.live.Sublist s.source.lifecycle.live)
      (hnext : s'.source.lifecycle.nextHandle = s.source.lifecycle.nextHandle)
      (hpos : s'.source.positions = s.source.positions)
      (hsettings : s'.source.settings = s.source.settings)
  /-- A task takes a turn. -/
  | turns {handle : Nat} {task : Task Reader} {m : Move Reader Unit} {source : StreamSource}
      (htask : s.source.lifecycle.task? handle = some task)
      (hturn : task.state.Turn s'.world s.source source m)
      (hsource : s'.source = { source with
        lifecycle := s.source.lifecycle.moved handle task.signal m })

theorem moved_of_proceeds (h : Proceeds s s') : Moved s s' := by
  cases h with
  | passes world desk => exact .gives (List.Sublist.refl _) rfl rfl rfl
  | @stops stop m world source hs =>
    obtain ⟨rfl, hpos, hsettings⟩ := StreamSource.stop_frame hs
    have hafter := TaskRules.afterStop_of_stop StreamSource.rules_lawful hs
    have hlifecycle : source.lifecycle.live.Sublist s.source.lifecycle.live ∧
        source.lifecycle.nextHandle = s.source.lifecycle.nextHandle := by
      change s.source.lifecycle.afterStop stop = some (m, source.lifecycle) at hafter
      generalize source.lifecycle = l at hafter
      rcases Lifecycle.afterStop_cases hafter with ⟨_, -, -, -, rfl⟩ | ⟨force, -, -, -, rfl⟩ |
        ⟨_, -, -, -, rfl⟩
      · exact ⟨List.Sublist.refl _, rfl⟩
      · refine ⟨?_, rfl⟩
        cases force with
        | false => exact List.Sublist.refl _
        | true => exact List.filter_sublist
      · exact ⟨List.Sublist.refl _, rfl⟩
    exact .gives hlifecycle.1 hlifecycle.2 hpos hsettings
  | @works handle world source hs =>
    obtain ⟨task, m, moved, htask, hstep, rfl⟩ := TaskRules.stepLive_cases hs
    refine .turns htask (Reader.turn_of_moves (StreamSource.moves_of_step hstep)) ?_
    have hlifecycle : moved.lifecycle = s.source.lifecycle := StreamSource.lifecycle_of_step hstep
    show { moved with lifecycle := moved.lifecycle.moved handle task.signal m } = _
    rw [hlifecycle]

theorem Sound.proceeds (h : Sound settings s) (hs : Proceeds s s') : Sound settings s' := by
  cases moved_of_proceeds hs with
  | gives hlive hnext hpos hsettings =>
    have halive : s'.source.lifecycle.alive.Sublist s.source.lifecycle.alive := hlive.map _
    refine ⟨?_, h.distinct.sublist halive, fun x hx => ?_, hsettings.trans h.settings⟩
    · rw [hpos]
      exact h.sorted
    · rw [hnext]
      exact h.issued x (halive.subset hx)
  | @turns handle task m source htask hturn hsource =>
    have hkept : source.positions.Sorted ∧ source.settings = settings := by
      rcases hturn.frame with hsame | ⟨position, sequence, -, hsame⟩
      · rw [hsame]
        exact ⟨h.sorted, h.settings⟩
      · rw [hsame]
        exact ⟨h.sorted.insert _ _, h.settings⟩
    have halive := Lifecycle.alive_moved_sublist handle task.signal m s.source.lifecycle
    refine ⟨?_, ?_, fun x hx => ?_, ?_⟩
    · rw [hsource]
      exact hkept.1
    · rw [hsource]
      exact h.distinct.sublist halive
    · rw [hsource] at hx ⊢
      rw [Lifecycle.nextHandle_moved]
      exact h.issued x (halive.subset hx)
    · rw [hsource]
      exact hkept.2

/-- The tasks of a run that begins get handles of their own. -/
theorem Sound.launched (h : Sound settings s) : Sound settings { s with source := s.source.launched } := by
  have halive : s.source.launched.lifecycle.alive = s.source.lifecycle.alive ++
      List.range' s.source.lifecycle.nextHandle s.source.settings.shards.length := by
    rw [StreamSource.launched, Lifecycle.alive, Lifecycle.spawnAll_eq]
    simp [Lifecycle.alive, List.zipIdx_map_snd, Function.comp_def]
  refine ⟨h.sorted, ?_, fun x hx => ?_, h.settings⟩
  · rw [halive]
    refine List.nodup_append'.mpr ⟨h.distinct, List.nodup_range', fun x hx hnew => ?_⟩
    exact absurd (h.issued x hx) (Nat.not_lt.mpr (List.mem_range'_1.mp hnew).1)
  · rw [halive, List.mem_append] at hx
    rw [StreamSource.launched, Lifecycle.spawnAll_eq]
    rcases hx with hold | hnew
    · exact (h.issued x hold).trans_le (Nat.le_add_right _ _)
    · simpa using (List.mem_range'_1.mp hnew).2

theorem Sound.starts (h : Sound settings s) (token : Option String) :
    Sound settings { s with source := (s.source.start token).2 } := by
  have hadvised : ∀ given, Sound settings { s with source := s.source.advised given } :=
    fun given => ⟨h.sorted.merge given, h.distinct, h.issued, h.settings⟩
  rcases StreamSource.start_cases token s.source with ⟨text, e, -, -, hstart⟩ |
    ⟨given, -, -, hstart⟩ | ⟨given, -, -, hstart⟩
  · rw [hstart]
    exact h
  · rw [hstart]
    exact hadvised given
  · rw [hstart]
    exact (hadvised given).launched

/-- **One move of anybody** keeps the source in order. -/
theorem Sound.step (h : Sound settings s) (hs : Step s s') : Sound settings s' := by
  cases hs with
  | proceeds hs => exact h.proceeds hs
  | starts token => exact h.starts token

theorem Sound.of_reachable {world : World} {info : SourceInfo} {crew : Crew}
    (hr : Relation.ReflTransGen Step (fresh world info settings crew) s) : Sound settings s := by
  induction hr with
  | refl => exact sound_fresh world info settings crew
  | tail _ hs ih => exact ih.step hs

/-! ### Starts that fail -/

/-- What a start that fails has done: it has moved the positions to those of a valid checkpoint, which
is nothing exactly if the source has come to all that the checkpoint gives. -/
structure Refused (token : Option String) (e : Error) (before after : StreamSource) : Prop where
  reason : (∃ text e', token = some text ∧ Json.parseTexts text = .error e' ∧
      e = .configuration ("Invalid stream checkpoint: " ++ e'.message)) ∨
    (before.lifecycle.running = true ∧ e = .invalidState "Event source is already running")
  invalid : (∀ given, ¬ StreamSource.Gives token given) → after = before
  advised : ∀ given, StreamSource.Gives token given → after = before.advised given
  unchanged_iff : after = before ↔ before.Agrees token
  /-- A stop returns what it would have returned without the start in the same case. -/
  returns_iff : ∀ w, (∀ returned, after.Aborted w returned ↔ before.Aborted w returned) ↔
    before.Agrees token

theorem aborted_iff {w : World} {source : StreamSource} {returned : Option String} :
    source.Aborted w returned ↔ returned = source.checkpoint :=
  ⟨fun h => h.eq_checkpoint, fun h => h ▸ source.aborted_checkpoint w⟩

/-- **A start that fails.** Whatever has happened to the source, a start that fails leaves it as it was,
and a stop after it returns what it would have returned, exactly if the checkpoint is invalid or gives
nothing but what the source has come to itself. -/
theorem refused_unchanged_iff {world : World} {info : SourceInfo} {crew : Crew} {token : Option String}
    {e : Error} {after : StreamSource}
    (hr : Relation.ReflTransGen Step (fresh world info settings crew) s)
    (hstart : s.source.start token = (.error e, after)) : Refused token e s.source after := by
  have hsorted := (Sound.of_reachable hr).sorted
  rcases StreamSource.start_cases token s.source with ⟨text, e', htoken, hparse, hcase⟩ |
    ⟨given, hgives, hrun, hcase⟩ | ⟨given, hgives, -, hcase⟩
  · obtain ⟨rfl, rfl⟩ := Prod.mk.inj (hcase.symm.trans hstart) |>.imp Except.error.inj id
    have hnot : ∀ given, ¬ StreamSource.Gives token given := by
      rintro given hgives
      subst htoken
      cases hgives with
      | texts h => cases hparse.symm.trans h
    have hagrees : s.source.Agrees token := fun given hgives => absurd hgives (hnot given)
    exact ⟨.inl ⟨text, e', htoken, hparse, rfl⟩, fun _ => rfl, fun given hgives => absurd hgives (hnot given),
      iff_of_true rfl hagrees, fun w => iff_of_true (fun _ => Iff.rfl) hagrees⟩
  · obtain ⟨rfl, rfl⟩ := Prod.mk.inj (hcase.symm.trans hstart) |>.imp Except.error.inj id
    refine ⟨.inr ⟨hrun, rfl⟩, fun hnot => absurd hgives (hnot given), fun other hother => ?_,
      StreamSource.advised_eq_self_iff hsorted hgives, fun w => ?_⟩
    · rw [hgives.unique hother]
    · rw [← StreamSource.checkpoint_advised_iff hsorted hgives]
      simp only [aborted_iff]
      exact ⟨fun hall => (hall _).mp rfl, fun heq returned => by rw [heq]⟩
  · cases hcase.symm.trans hstart

/-- A stream of two records in one shard. -/
def twoRecords : World :=
  let stream := (RecordStream.new.put "a" "k" .empty ⟨0, 0⟩).2
  { World.start ⟨0, 0⟩ .echo with
    clients := { (World.start ⟨0, 0⟩ .echo).clients with stream := (stream.put "a" "k" .empty ⟨0, 0⟩).2 } }

/-- A source that reads the shard. -/
def readerOfTwo : Restarts :=
  fresh twoRecords ⟨"reader", "kinesis", .async⟩ ⟨"stream", ["a"], 0, 10⟩ (.ofIndices .exclusive [0])

/-- The checkpoint of one who has read the first of the two records. -/
def tokenOfFirst : Option String :=
  some (Json.obj (Keyed.mapValues Json.str [("a", RecordStream.sequenceText 1)])).render

theorem gives_tokenOfFirst : StreamSource.Gives tokenOfFirst [("a", RecordStream.sequenceText 1)] :=
  .texts (Json.parseTexts_render _)

/-- The source can have read both records and still be running; and when it is then stopped and started
without a checkpoint, its reader asks for what follows the second record. -/
theorem exists_read_both : ∃ s stopped, Relation.ReflTransGen Step readerOfTwo s ∧
    s.source.positions = [("a", RecordStream.sequenceText 2)] ∧ s.source.lifecycle.running = true ∧
    Relation.ReflTransGen Step readerOfTwo stopped ∧
    stopped.source.positions = [("a", RecordStream.sequenceText 2)] ∧
    stopped.source.lifecycle.running = false ∧ stopped.source.lifecycle.live = [] ∧
    ∃ asking reader, Relation.ReflTransGen Proceeds
        { stopped with source := (stopped.source.start none).2 } asking ∧
      asking.reader? 1 = some reader ∧ reader.shard = "a" ∧
      reader.stage = .asking (some (RecordStream.sequenceText 2)) := by
  have hstarted := Relation.ReflTransGen.single (Step.starts readerOfTwo none)
  have hidle := ((hstarted.tail (.proceeds (@Proceeds.works _ 0 _ _ rfl))).tail
    (.proceeds (@Proceeds.works _ 0 _ _ rfl))).tail (.proceeds (@Proceeds.works _ 0 _ _ rfl))
  have hbetween := ((hidle.tail (.proceeds (@Proceeds.works _ 0 _ _ rfl))).tail
    (.proceeds (@Proceeds.works _ 0 _ _ rfl))).tail (.proceeds (@Proceeds.works _ 0 _ _ rfl))
  have hfirst := (((hbetween.tail (.proceeds (@Proceeds.works _ 0 _ _ rfl))).tail
    (.proceeds (@Proceeds.works _ 0 _ _ rfl))).tail (.proceeds (@Proceeds.works _ 0 _ _ rfl))).tail
    (.proceeds (@Proceeds.works _ 0 _ _ rfl))
  have hsecond := (((hfirst.tail (.proceeds (@Proceeds.works _ 0 _ _ rfl))).tail
    (.proceeds (@Proceeds.works _ 0 _ _ rfl))).tail (.proceeds (@Proceeds.works _ 0 _ _ rfl))).tail
    (.proceeds (@Proceeds.works _ 0 _ _ rfl))
  have hstopped := hsecond.tail (.proceeds (@Proceeds.stops _ (.ready true) _ _ _ rfl))
  exact ⟨_, _, hsecond, rfl, rfl, hstopped, rfl, rfl, rfl, _, _,
    (Relation.ReflTransGen.single (@Proceeds.works _ 1 _ _ rfl)).tail (@Proceeds.works _ 1 _ _ rfl),
    rfl, rfl, rfl⟩

/-- A source that has read both records is started again from an older checkpoint, is refused, and is
back at the first record. -/
theorem refused_unchanged_older : ∃ s after, Relation.ReflTransGen Step readerOfTwo s ∧
    s.source.positions = [("a", RecordStream.sequenceText 2)] ∧
    after.positions = [("a", RecordStream.sequenceText 1)] ∧
    Refused tokenOfFirst (.invalidState "Event source is already running") s.source after := by
  obtain ⟨s, -, hr, hpositions, hrun, -⟩ := exists_read_both
  have hstart := StreamSource.start_running gives_tokenOfFirst hrun
  refine ⟨s, _, hr, hpositions, ?_, refused_unchanged_iff hr hstart⟩
  rw [StreamSource.advised, hpositions]
  rfl

/-- A start that fails does not always leave the positions alone. -/
theorem not_unchanged_of_refused : ¬ ∀ (world : World) (info : SourceInfo) (settings : StreamSettings)
    (crew : Crew) (s : Restarts) (token : Option String) (e : Error) (after : StreamSource),
    Relation.ReflTransGen Step (fresh world info settings crew) s →
      s.source.start token = (.error e, after) → after.positions = s.source.positions := by
  intro hlaw
  obtain ⟨s, -, hr, hpositions, hrun, -⟩ := exists_read_both
  have hsame := hlaw _ _ _ _ s _ _ _ hr (StreamSource.start_running gives_tokenOfFirst hrun)
  have hback : Keyed.merge [("a", RecordStream.sequenceText 2)] [("a", RecordStream.sequenceText 1)] =
      [("a", RecordStream.sequenceText 2)] := by
    rw [← hpositions]
    exact hsame
  exact absurd hback (by decide)

/-! ### Starts that succeed -/

/-- The one task that reads the shard reads already, or nobody has touched the position since it was
started, and it asks for that. -/
structure Heading (shard : String) (resume : Option String) (s : Restarts) : Prop where
  distinct : s.source.lifecycle.alive.Nodup
  single : ∀ t ∈ s.source.lifecycle.live, ∀ u ∈ s.source.lifecycle.live,
    t.2.state.shard = shard → u.2.state.shard = shard → t = u
  ready : ∀ t ∈ s.source.lifecycle.live, t.2.state.shard = shard →
    (∃ position, t.2.state.stage = .reading position) ∨
    s.source.positions.get? shard = resume ∧
      (t.2.state.stage = .waiting ∨ t.2.state.stage = .asking resume)

variable {shard : String} {resume : Option String}

/-- After a turn of the task that reads the shard. -/
theorem ready_of_turn {r next : Reader} {w' : World} {before after : StreamSource}
    (hshard : r.shard = shard) (hturn : r.Turn w' before after (.goes next))
    (hready : (∃ position, r.stage = .reading position) ∨ before.positions.get? shard = resume ∧
      (r.stage = .waiting ∨ r.stage = .asking resume)) :
    (∃ position, next.stage = .reading position) ∨ after.positions.get? shard = resume ∧
      (next.stage = .waiting ∨ next.stage = .asking resume) := by
  cases hturn with
  | stays _ hstage hsame =>
    rw [hstage, hsame]
    exact hready
  | hires _ hstage hnext hsame =>
    rcases hready with ⟨position, hreading⟩ | ⟨hpos, -⟩
    · cases hstage.symm.trans hreading
    · rw [hshard, hpos] at hnext
      rw [hsame]
      exact .inr ⟨hpos, .inr hnext⟩
  | opens _ _ hnext _ _ => exact .inl ⟨_, hnext⟩
  | fetches _ _ hnext _ => exact .inl ⟨_, hnext⟩
  | notes _ _ hnext _ => exact .inl ⟨_, hnext⟩

/-- Where a task that reads the shard comes from, after a turn of some task: it is the one that took the
turn, or that one reads another shard. -/
theorem Heading.origin (h : Heading shard resume s) {handle : Nat} {task : Task Reader}
    {m : Move Reader Unit} {w' : World} {source : StreamSource}
    (htask : s.source.lifecycle.task? handle = some task) (hturn : task.state.Turn w' s.source source m)
    {t : Nat × Task Reader} (ht : t ∈ (s.source.lifecycle.moved handle task.signal m).live)
    (hshard : t.2.state.shard = shard) :
    (task.state.shard ≠ shard ∧ t ∈ s.source.lifecycle.live) ∨
      (task.state.shard = shard ∧ ∃ next, m = .goes next ∧ t = (handle, ⟨task.signal, next⟩)) := by
  rcases (Lifecycle.mem_live_moved (Lifecycle.mem_alive_of_task? htask)).mp ht with
    ⟨hold, hne⟩ | ⟨next, hm, rfl⟩
  · refine .inl ⟨fun hmine => hne ?_, hold⟩
    have hmem := (Lifecycle.task?_eq_some h.distinct).mp htask
    rw [h.single t hold _ hmem hshard hmine]
  · obtain rfl := Move.mem_next?.mp hm
    exact .inr ⟨hturn.shard_eq.symm.trans hshard, next, rfl, rfl⟩

theorem Heading.proceeds (h : Heading shard resume s) (hs : Proceeds s s') : Heading shard resume s' := by
  cases moved_of_proceeds hs with
  | gives hlive hnext hpos hsettings =>
    refine ⟨h.distinct.sublist (hlive.map _),
      fun t ht u hu => h.single t (hlive.subset ht) u (hlive.subset hu), fun t ht => ?_⟩
    rw [hpos]
    exact h.ready t (hlive.subset ht)
  | @turns handle task m source htask hturn hsource =>
    have hpositions : s'.source.positions = source.positions := by rw [hsource]
    refine ⟨?_, fun t ht u hu htshard hushard => ?_, fun t ht htshard => ?_⟩
    · rw [hsource]
      exact h.distinct.sublist (Lifecycle.alive_moved_sublist _ _ _ _)
    · rw [hsource] at ht hu
      rcases h.origin htask hturn ht htshard with ⟨hother, htold⟩ | ⟨hmine, next, hm, rfl⟩
      · rcases h.origin htask hturn hu hushard with ⟨-, huold⟩ | ⟨hmine, -⟩
        · exact h.single t htold u huold htshard hushard
        · exact absurd hmine hother
      · rcases h.origin htask hturn hu hushard with ⟨hother, -⟩ | ⟨-, next', hm', rfl⟩
        · exact absurd hmine hother
        · cases hm.symm.trans hm'
          rfl
    · rw [hsource] at ht
      rw [hpositions]
      rcases h.origin htask hturn ht htshard with ⟨hother, hold⟩ | ⟨hmine, next, rfl, rfl⟩
      · -- Whoever took the turn leaves the position of this shard alone.
        have hkept : source.positions.get? shard = s.source.positions.get? shard := by
          rcases hturn.frame with hsame | ⟨position, sequence, -, hsame⟩
          · rw [hsame]
          · rw [hsame]
            simp only [Keyed.get?_insert, if_neg (Ne.symm hother)]
        rw [hkept]
        exact h.ready t hold htshard
      · have hmem := (Lifecycle.task?_eq_some h.distinct).mp htask
        exact ready_of_turn hmine hturn (h.ready _ hmem hmine)

theorem Heading.of_proceeds (h : Heading shard resume s) (hs : Relation.ReflTransGen Proceeds s s') :
    Heading shard resume s' := by
  induction hs with
  | refl => exact h
  | tail _ hs ih => exact ih.proceeds hs

theorem Heading.departs (h : Heading shard resume s) : Departs shard resume s where
  asks s' hs handle reader hreader hshard q hq := by
    have h' := h.of_proceeds hs
    obtain ⟨task, htask, rfl⟩ := Option.map_eq_some_iff.mp hreader
    have hmem := (Lifecycle.task?_eq_some h'.distinct).mp htask
    rcases h'.ready _ hmem hshard with ⟨position, hreading⟩ | ⟨-, hwaiting | hasking⟩
    · cases hq.symm.trans hreading
    · cases hq.symm.trans hwaiting
    · cases hq.symm.trans hasking
      rfl
  opens s' s'' hs hstep handle reader next hreader hnext hshard hnot p hp := by
    have h' := h.of_proceeds hs
    have h'' := h'.proceeds hstep
    obtain ⟨task, htask, rfl⟩ := Option.map_eq_some_iff.mp hreader
    obtain ⟨task', htask', rfl⟩ := Option.map_eq_some_iff.mp hnext
    have hmem := (Lifecycle.task?_eq_some h'.distinct).mp htask
    have hmem' := (Lifecycle.task?_eq_some h''.distinct).mp htask'
    -- A task that has not moved is not on its way to the records now.
    have hmoved : (handle, task') ∉ s'.source.lifecycle.live := by
      intro hold
      have hsame := htask.symm.trans ((Lifecycle.task?_eq_some h'.distinct).mpr hold)
      rw [Option.some.injEq] at hsame
      exact hnot p (hsame ▸ hp)
    cases moved_of_proceeds hstep with
    | gives hlive _ _ _ => exact absurd (hlive.subset hmem') hmoved
    | @turns mover moving m source hmoving hturn hsource =>
      rw [hsource] at hmem'
      rcases h'.origin hmoving hturn hmem' hshard with ⟨-, hold⟩ | ⟨hmine, reached, rfl, heq⟩
      · exact absurd hold hmoved
      · cases heq
        obtain rfl : moving = task := Option.some.inj (hmoving.symm.trans htask)
        cases hturn with
        | stays _ hstage _ => exact absurd (hstage.symm.trans hp) (hnot p)
        | hires _ _ hasks _ => cases hasks.symm.trans hp
        | opens _ hstage hreads hopens _ =>
          rcases h'.ready _ hmem hmine with ⟨position, hreading⟩ | ⟨-, hwaiting | hasking⟩
          · exact absurd hreading (hnot position)
          · cases hstage.symm.trans hwaiting
          · cases hstage.symm.trans hasking
            cases hreads.symm.trans hp
            rw [hmine] at hopens
            exact RecordStream.liesAfter_initialPosition hopens
        | fetches _ hstage _ _ => exact absurd hstage (hnot _)
        | notes _ hstage _ _ => exact absurd hstage (hnot _)

/-- The readers that a start has started, one for each shard, behind those that there were. -/
theorem live_launched (source : StreamSource) : ∃ readers : List (Nat × Task Reader),
    source.launched.lifecycle.live = source.lifecycle.live ++ readers ∧
      readers.map (fun t => t.2.state) =
        source.settings.shards.map (fun shard => .hiring shard (.asking none)) := by
  refine ⟨_, by rw [StreamSource.launched, Lifecycle.spawnAll_eq], ?_⟩
  rw [List.map_map]
  have hsnd : ∀ (tasks : List (Task Reader)) (n : Nat),
      (tasks.zipIdx n).map ((fun t : Nat × Task Reader => t.2.state) ∘ Prod.swap) =
        tasks.map Task.state := by
    intro tasks n
    rw [← List.zipIdx_map_fst n tasks, List.map_map, List.zipIdx_map_fst]
    rfl
  rw [hsnd, List.map_map]
  rfl

/-- A reader that was started for a shard that nobody else reads is on its way. -/
theorem heading_launched {given : Keyed String} (h : Sound settings s) (hgiven : given.Sorted)
    (hd : settings.shards.Nodup) (hfree : ∀ t ∈ s.source.lifecycle.live, t.2.state.shard ≠ shard) :
    Heading shard ((given.get? shard).or (s.source.positions.get? shard))
      { s with source := (s.source.advised given).launched } := by
  have hlaunched : Sound settings { s with source := (s.source.advised given).launched } :=
    Sound.launched (s := { s with source := s.source.advised given })
      ⟨h.sorted.merge given, h.distinct, h.issued, h.settings⟩
  obtain ⟨readers, hlive, hstates⟩ := live_launched (s.source.advised given)
  have hsettings : (s.source.advised given).settings = settings := h.settings
  have hnew : ∀ t ∈ (s.source.advised given).launched.lifecycle.live, t.2.state.shard = shard →
      t ∈ readers := by
    intro t ht hshard
    rw [hlive, List.mem_append] at ht
    exact ht.resolve_left fun hold => hfree t hold hshard
  have hnodup : (readers.map fun t => t.2.state.shard).Nodup := by
    have hshards := congrArg (List.map Reader.shard) hstates
    rw [List.map_map, List.map_map] at hshards
    rw [hsettings] at hshards
    exact (congrArg List.Nodup (hshards.trans (List.map_id _))).mpr hd
  refine ⟨hlaunched.distinct, fun t ht u hu htshard hushard => ?_, fun t ht hshard => .inr ⟨?_, .inl ?_⟩⟩
  · exact List.inj_on_of_nodup_map hnodup (hnew t ht htshard) (hnew u hu hushard)
      (htshard.trans hushard.symm)
  · exact Keyed.get?_merge hgiven _ shard
  · have hstate := List.mem_map_of_mem (f := fun t : Nat × Task Reader => t.2.state) (hnew t ht hshard)
    rw [hstates] at hstate
    obtain ⟨shard', -, hreader⟩ := List.mem_map.mp hstate
    change t.2.state.stage = .waiting
    rw [← hreader]
    rfl

/-- What a start that succeeds has done: the source runs, with one reader more for each shard, and the
reader of a shard that no other task reads starts after the record that the checkpoint gives, or else
after the last one that the source has come to. -/
structure Launches (given : Keyed String) (s s' : Restarts) : Prop where
  running : s'.source.lifecycle.running = true
  readers : ∃ readers : List (Nat × Task Reader),
    s'.source.lifecycle.live = s.source.lifecycle.live ++ readers ∧
      readers.map (fun t => t.2.state) =
        s.source.settings.shards.map (fun shard => .hiring shard (.asking none))
  departs : ∀ shard ∈ s.source.settings.shards,
    (∀ t ∈ s.source.lifecycle.live, t.2.state.shard ≠ shard) →
      Departs shard ((given.get? shard).or (s.source.positions.get? shard)) s'
  /-- That is what the checkpoint gives exactly if it names the shard, or the source has not come to
  any record of it. -/
  as_given_iff : ∀ shard, (given.get? shard).or (s.source.positions.get? shard) = given.get? shard ↔
    (given.get? shard).isSome ∨ s.source.positions.get? shard = none

/-- **Where the readers of a started source start.** Whatever has happened to a source that does not run,
a start with a valid checkpoint succeeds, and its readers start where the checkpoint says; only a shard
that the checkpoint does not name is read on from the last record that the source has come to. -/
theorem departs_of_start {world : World} {info : SourceInfo} {crew : Crew} {token : Option String}
    {given : Keyed String} (hd : settings.shards.Nodup)
    (hr : Relation.ReflTransGen Step (fresh world info settings crew) s)
    (hrun : s.source.lifecycle.running = false) (hgives : StreamSource.Gives token given) :
    ∃ source, s.source.start token = (.ok (), source) ∧ Launches given s { s with source } := by
  have hsound := Sound.of_reachable hr
  refine ⟨_, StreamSource.start_idle hgives hrun, ?_, live_launched (s.source.advised given),
    fun shard _ hfree => ?_, fun shard => ?_⟩
  · change (s.source.advised given).launched.lifecycle.running = true
    rw [StreamSource.launched, Lifecycle.spawnAll_eq]
  · exact (heading_launched hsound hgives.sorted hd hfree).departs
  · cases given.get? shard with
    | some q => simp
    | none => simp

/-- A source that has read both records is stopped, and started again without a checkpoint. -/
theorem departs_without_checkpoint : ∃ s source, Relation.ReflTransGen Step readerOfTwo s ∧
    s.source.positions = [("a", RecordStream.sequenceText 2)] ∧
    s.source.start none = (.ok (), source) ∧ Launches [] s { s with source } := by
  obtain ⟨-, stopped, -, -, -, hstopped, hpositions, hrun, -⟩ := exists_read_both
  obtain ⟨source, hstart, hlaunches⟩ := departs_of_start (by decide) hstopped hrun .nothing
  exact ⟨stopped, source, hstopped, hpositions, hstart, hlaunches⟩

/-- A reader does not always start where the checkpoint says, even if nothing of an earlier run is
left. -/
theorem not_departs_as_given : ¬ ∀ (world : World) (info : SourceInfo) (settings : StreamSettings)
    (crew : Crew) (s : Restarts) (token : Option String) (given : Keyed String) (source : StreamSource),
    settings.shards.Nodup → Relation.ReflTransGen Step (fresh world info settings crew) s →
      s.source.lifecycle.running = false → s.source.lifecycle.live = [] →
      StreamSource.Gives token given → s.source.start token = (.ok (), source) →
      ∀ shard ∈ settings.shards, Departs shard (given.get? shard) { s with source } := by
  intro hlaw
  obtain ⟨-, stopped, -, -, -, hstopped, -, hrun, hlive, asking, reader, hasking, hreader, hshard,
    hstage⟩ := exists_read_both
  have hstart := StreamSource.start_idle .nothing hrun
  have hdeparts := hlaw _ _ ⟨"stream", ["a"], 0, 10⟩ _ stopped none [] _ (by decide)
    hstopped hrun hlive .nothing hstart "a" (by decide)
  rw [hstart] at hasking
  have hcold := hdeparts.asks asking hasking 1 reader hreader hshard _ hstage
  cases hcold

end Restarts

end EventDispatch
