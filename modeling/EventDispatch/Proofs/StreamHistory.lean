import EventDispatch.Proofs.JsonTexts
import EventDispatch.Proofs.StreamReading
import EventDispatch.Proofs.Tables
import EventDispatch.Proofs.Tasks
import EventDispatch.Proofs.Trail
import Mathlib.Logic.Relation

/-!
# One stream read again and again

Sources with the same shards read a stream one after another. Each is started while nothing runs, from
the checkpoint that the last stop returned, and may be the source that ran before, an older one, or a
new one. Meanwhile records are put in, requests fail, tasks move in any order, and the source is
stopped, by force or without.

Whatever happens, the records of a shard are handled in order and each is completed at most once. Only a
forced stop, which cuts a run short, lets the function be entered with its record again.

## What is deliberately absent

Time is not scheduled, and nothing is said of what the function does. Between any two moves the world
may change in any way that leaves the records of the stream alone.

## Main definitions

* `StreamHistory`: the stream, the sources, the stop that is open, the last checkpoint, and the marks.
* `StreamHistory.Step`: one move of anybody.
* `StreamHistory.Orderly`: the law.
* `StreamHistory.Follows`: how far a shard has come, and that all there is agrees on it.

## Main results

* `StreamSource.restore_checkpoint`: what a checkpoint hands over.
* `StreamHistory.Sound.step`: what one move of anybody keeps.
* `StreamHistory.orderly_of_reachable`: the law, for every history.
-/

namespace EventDispatch

/-! ### What checkpoints hand over -/

namespace StreamSource

variable {s other : StreamSource}

/-- The positions of a source, laid over those of another by way of its checkpoint. -/
theorem restore_checkpoint (hs : s.positions.Sorted) (ho : other.positions.Sorted) :
    ∃ positions : Keyed String, other.restore s.checkpoint = .ok { other with positions } ∧
      positions.Sorted ∧
      ∀ shard, positions.get? shard = (s.positions.get? shard).or (other.positions.get? shard) := by
  by_cases hempty : s.positions = []
  · refine ⟨other.positions, ?_, ho, fun shard => ?_⟩
    · simp [checkpoint, hempty, restore]
    · rw [hempty]
      rfl
  · refine ⟨other.positions.merge s.positions, ?_, ho.merge _, fun shard => Keyed.get?_merge hs _ shard⟩
    simp [checkpoint, hempty, restore, Json.parseTexts_render, Keyed.ofList_eq_self hs]

/-- Giving up tasks and keeping the lifecycle are separate matters. -/
theorem rules_lawful : rules.Lawful where
  get_set _ _ := rfl
  get_drop task w s := by
    change (drop task s).lifecycle = s.lifecycle
    unfold drop
    split
    · rfl
    · split <;> rfl

/-- A stop changes neither the world nor what the source has handled. -/
theorem stop_frame {stop : Stop} {w w' : World} {s s' : StreamSource} {m : Move Stop Unit}
    (h : rules.stop stop w s = some (m, w', s')) :
    w' = w ∧ s'.positions = s.positions ∧ s'.settings = s.settings := by
  refine TaskRules.stop_keeps (P := fun w' s' => w' = w ∧ s'.positions = s.positions ∧
    s'.settings = s.settings) (fun _ _ _ h => h) (fun task w' s' h => ?_) h ⟨rfl, rfl, rfl⟩
  change w' = w ∧ (drop task s').positions = s.positions ∧ (drop task s').settings = s.settings
  unfold drop
  split
  · exact h
  · split <;> exact h

/-- A source was started from the checkpoint of one that ran before: it knows what the other knew, and
has a task for each shard. -/
structure Launched (before source started : StreamSource) : Prop where
  settings : started.settings = source.settings
  sorted : started.positions.Sorted
  positions : ∀ shard, started.positions.get? shard =
    (before.positions.get? shard).or (source.positions.get? shard)
  running : started.lifecycle.running = true
  tended : Tended none started.lifecycle
  tasks : started.lifecycle.live.map (fun t => t.2.state) =
    source.settings.shards.map (.hiring · (.asking none))

theorem launched_start (hs : s.positions.Sorted) (ho : other.positions.Sorted)
    (hrun : other.lifecycle.running = false) (hlive : other.lifecycle.live = []) :
    Launched s other (other.start s.checkpoint).2 := by
  obtain ⟨positions, hrestore, hsorted, hget⟩ := restore_checkpoint hs ho
  obtain ⟨tasks, htasks⟩ : ∃ tasks : List (Task Reader), tasks =
      (other.settings.shards.map (Reader.hiring · (.asking none))).map
        (Task.mk (other.lifecycle.signal + 1)) := ⟨_, rfl⟩
  have hstart := TaskRules.start_eq (r := rules) (s := { other with positions }) hrun
    (other.settings.shards.map (.hiring · (.asking none)))
  have hstarted : (other.start s.checkpoint).2 = { other with
      positions
      lifecycle := { other.lifecycle with
        running := true, signal := other.lifecycle.signal + 1 }.spawnAll tasks } := by
    rw [start, hrestore, htasks]
    dsimp only
    rw [hstart]
    rfl
  rw [hstarted]
  refine ⟨rfl, hsorted, hget, ?_, .started hlive _ tasks, ?_⟩
  · rw [Lifecycle.spawnAll_eq]
  · have hsnd := Lifecycle.map_snd_live_spawnAll tasks { other.lifecycle with
      running := true, signal := other.lifecycle.signal + 1 }
    rw [hlive, List.map_nil, List.nil_append] at hsnd
    have hstates := congrArg (List.map Task.state) hsnd
    have hback : tasks.map Task.state = other.settings.shards.map (.hiring · (.asking none)) := by
      rw [htasks, List.map_map]
      exact List.map_id _
    rw [List.map_map] at hstates
    exact hstates.trans hback

theorem Launched.mem_tasks {before source started : StreamSource} (h : Launched before source started)
    {t : Nat × Task Reader} (ht : t ∈ started.lifecycle.live) :
    ∃ shard ∈ source.settings.shards, t.2.state = .hiring shard (.asking none) := by
  have hm : t.2.state ∈ source.settings.shards.map (Reader.hiring · (.asking none)) := by
    rw [← h.tasks]
    exact List.mem_map_of_mem ht
  obtain ⟨shard, hshard, heq⟩ := List.mem_map.mp hm
  exact ⟨shard, hshard, heq.symm⟩

theorem Launched.shards {before source started : StreamSource} (h : Launched before source started) :
    started.lifecycle.live.map (fun t => t.2.state.shard) = source.settings.shards := by
  have hmap := congrArg (List.map Reader.shard) h.tasks
  rw [List.map_map, List.map_map] at hmap
  exact hmap.trans (List.map_id _)

end StreamSource

/-! ### Histories -/

/-- The run that is in progress for the task behind a handle, by the shard and the record. -/
def Lifecycle.run? (handle : Nat) (l : Lifecycle (Task Reader)) : Option (String × String) :=
  (l.task? handle).bind fun task => task.state.run?.map (task.state.shard, ·)

/-- A stream that sources read one after another, and what has happened so far. -/
structure StreamHistory where
  world : World
  /-- The source that was started last. -/
  source : StreamSource
  /-- The other sources that there are. -/
  shelf : List StreamSource
  /-- The call that stops the source, while it is open. -/
  stop : Option Stop
  /-- The checkpoint that the last stop returned. -/
  token : Option String
  /-- The marks, newest first. -/
  log : List Mark

namespace StreamHistory

/-- A source that has not been started and a stream without records. -/
def fresh (world : World) (info : SourceInfo) (settings : StreamSettings) (crew : Crew) : StreamHistory :=
  { world := { world with clients := { world.clients with stream := .new } },
    source := .new info settings crew, shelf := [], stop := none, token := none, log := [] }

/-- The records of a shard. -/
def records (shard : String) (s : StreamHistory) : List Record := s.world.clients.stream.shard shard

/-- The sequence numbers of the records of a shard. -/
def sequences (shard : String) (s : StreamHistory) : List String := (s.records shard).map Record.sequence

/-- The marks that a move of a task leaves: what the function was entered with, and the run that is
over. -/
def moveMarks (handle : Nat) (w w' : World) (l l' : Lifecycle (Task Reader)) : List Mark :=
  ((w'.ambient.entries.toList.drop w.ambient.entries.size).map fun e =>
      Mark.entered e.event.path e.event.id).reverse ++
    match l.run? handle, l'.run? handle with
    | some (shard, sequence), none => [.completed shard sequence]
    | _, _ => []

/-- The marks that a stop leaves: the runs of the tasks that it gave up. -/
def cutMarks (l l' : Lifecycle (Task Reader)) : List Mark :=
  l.live.filterMap fun t =>
    if l'.alive.contains t.1 then none else t.2.state.run?.map (Mark.cut t.2.state.shard)

/-- One move of anybody, where all sources read these shards. -/
inductive Step (shards : List String) : StreamHistory → StreamHistory → Prop
  /-- A record is put in. -/
  | puts (s : StreamHistory) (shard key : String) (data : ByteArray) (now : Timestamp) :
      Step shards s { s with world := { s.world with clients := { s.world.clients with
        stream := (s.world.clients.stream.put shard key data now).2 } } }
  /-- Time passes, requests are made to fail, and other things happen elsewhere. -/
  | passes (s : StreamHistory) (world : World)
      (h : RecordStream.SameRecords s.world.clients.stream world.clients.stream) :
      Step shards s { s with world }
  /-- Somebody makes one more source, of whatever crew, and with whatever pace and batch size. -/
  | supplies (s : StreamHistory) (info : SourceInfo) (settings : StreamSettings) (crew : Crew)
      (h : settings.shards = shards) :
      Step shards s { s with shelf := .new info settings crew :: s.shelf }
  /-- The source is started again. -/
  | starts (s : StreamHistory) (hstop : s.stop = none) (hrun : s.source.lifecycle.running = false) :
      Step shards s { s with source := (s.source.start s.token).2 }
  /-- Another source is started in its place. -/
  | changes {s : StreamHistory} {pre post : List StreamSource} {other : StreamSource}
      (hshelf : s.shelf = pre ++ other :: post) (hstop : s.stop = none)
      (hrun : s.source.lifecycle.running = false) :
      Step shards s { s with source := (other.start s.token).2, shelf := pre ++ s.source :: post }
  /-- Somebody stops the source, by force or without. -/
  | stops (s : StreamHistory) (force : Bool) (hstop : s.stop = none) :
      Step shards s { s with stop := some (.ready force) }
  /-- The stop sends the signal and takes the handles. -/
  | halts {s : StreamHistory} {stop next : Stop} {world : World} {source : StreamSource}
      (hstop : s.stop = some stop)
      (hs : StreamSource.rules.stop stop s.world s.source = some (.goes next, world, source)) :
      Step shards s { s with
        world, source, stop := some next
        log := cutMarks s.source.lifecycle source.lifecycle ++ s.log }
  /-- The stop returns with the checkpoint. -/
  | returns {s : StreamHistory} {stop : Stop} {world : World} {source : StreamSource}
      (hstop : s.stop = some stop)
      (hs : StreamSource.rules.stop stop s.world s.source = some (.ends (), world, source)) :
      Step shards s { s with world, source, stop := none, token := source.checkpoint }
  /-- A task of the source moves. -/
  | works {s : StreamHistory} {handle : Nat} {world : World} {source : StreamSource}
      (hs : StreamSource.rules.stepLive handle s.world s.source = some (world, source)) :
      Step shards s { s with
        world, source
        log := moveMarks handle s.world world s.source.lifecycle source.lifecycle ++ s.log }

/-- The law: the records of each shard are handled in order, and again only after a cut. -/
structure Orderly (s : StreamHistory) : Prop where
  /-- When the function is entered with a record, all earlier ones of its shard are completed. -/
  in_order : ∀ shard sequence later earlier, s.log = later ++ .entered shard sequence :: earlier →
    ∃ k : Nat, (s.sequences shard)[k]? = some sequence ∧
      ∀ i < k, ∀ q, (s.sequences shard)[i]? = some q → .completed shard q ∈ earlier
  /-- The function is not entered with a completed record. -/
  once : ∀ shard sequence later earlier, s.log = later ++ .completed shard sequence :: earlier →
    .entered shard sequence ∉ later
  /-- Between two entries with one record, the run after the first was cut short. -/
  again : ∀ shard sequence later between earlier,
    s.log = later ++ .entered shard sequence :: (between ++ .entered shard sequence :: earlier) →
    .cut shard sequence ∈ between

/-! ### How far a shard has come -/

/-- So many records of a shard are completed, and the function runs on the next one or does not: the
marks, the positions of the sources, and the task that reads the shard agree on it. -/
structure Follows (s : StreamHistory) (shard : String) (count : Nat) (busy : Bool) : Prop where
  trail : Trail (s.sequences shard) shard s.log count busy
  position : s.source.positions.get? shard = Record.lastOf (s.records shard) count
  /-- No source is ahead. -/
  shelf : count = 0 → ∀ other ∈ s.shelf, other.positions.get? shard = none
  fits : ∀ t ∈ s.source.lifecycle.live, t.2.state.shard = shard →
    t.2.state.Fits (s.records shard) count ∧ t.2.state.run?.isSome = busy
  idle : (∀ t ∈ s.source.lifecycle.live, t.2.state.shard ≠ shard) → busy = false

variable {shards : List String} {s s' : StreamHistory} {shard : String} {count : Nat} {busy : Bool}

theorem Follows.count_le (h : s.Follows shard count busy) : count ≤ (s.records shard).length := by
  simpa [sequences] using h.trail.count_le

/-- What happens to other shards is no matter. -/
theorem Follows.elsewhere (h : s.Follows shard count busy) (hrecords : s'.records shard = s.records shard)
    (hpos : s'.source.positions.get? shard = s.source.positions.get? shard) (hshelf : s'.shelf = s.shelf)
    (hlive : ∀ t : Nat × Task Reader, t.2.state.shard = shard →
      (t ∈ s'.source.lifecycle.live ↔ t ∈ s.source.lifecycle.live))
    {marks : List Mark} (hlog : s'.log = marks ++ s.log) (hmarks : ∀ mark ∈ marks, mark.shard ≠ shard) :
    s'.Follows shard count busy := by
  have htrail : Trail (s.sequences shard) shard (marks ++ s.log) count busy := by
    clear hlog
    induction marks with
    | nil => exact h.trail
    | cons mark marks ih =>
      refine .elsewhere (ih fun m hm => ?_) (hmarks mark List.mem_cons_self)
      exact hmarks m (List.mem_cons_of_mem _ hm)
  refine ⟨?_, ?_, ?_, fun t ht hshard => ?_, fun hnone => h.idle fun t ht hshard => ?_⟩
  · rw [sequences, hrecords, hlog]
    exact htrail
  · rw [hpos, hrecords]
    exact h.position
  · rw [hshelf]
    exact h.shelf
  · rw [hrecords]
    exact h.fits t ((hlive t hshard).mp ht) hshard
  · exact hnone t ((hlive t hshard).mpr ht) hshard

/-- The stream, the tasks and the shards of a history are in order. -/
structure Sound (shards : List String) (s : StreamHistory) : Prop where
  ordered : s.world.clients.stream.Ordered
  settings : ∀ source ∈ s.source :: s.shelf, source.settings.shards = shards
  sorted : ∀ source ∈ s.source :: s.shelf, source.positions.Sorted
  still : ∀ other ∈ s.shelf, other.lifecycle.running = false ∧ other.lifecycle.live = []
  tended : Tended s.stop s.source.lifecycle
  /-- Every shard has one task at most. -/
  readers : (s.source.lifecycle.live.map fun t => t.2.state.shard).Nodup
  reads : ∀ t ∈ s.source.lifecycle.live, t.2.state.shard ∈ shards
  /-- While nothing runs, the checkpoint is that of the source that ran last. -/
  token : s.stop = none → s.source.lifecycle.running = false → s.token = s.source.checkpoint
  marks : ∀ mark ∈ s.log, mark.shard ∈ shards
  follows : ∀ shard ∈ shards, ∃ count busy, s.Follows shard count busy

theorem Sound.orderly (h : Sound shards s) : Orderly s := by
  refine ⟨fun shard sequence later earlier hlog => ?_, fun shard sequence later earlier hlog => ?_,
    fun shard sequence later between earlier hlog => ?_⟩
  · have hshard : shard ∈ shards := h.marks (.entered shard sequence) (by rw [hlog]; simp)
    obtain ⟨count, busy, hf⟩ := h.follows shard hshard
    exact Trail.completed_before (hlog ▸ hf.trail)
  · have hshard : shard ∈ shards := h.marks (.completed shard sequence) (by rw [hlog]; simp)
    obtain ⟨count, busy, hf⟩ := h.follows shard hshard
    exact Trail.not_entered_after (h.ordered.distinct shard) (hlog ▸ hf.trail)
  · have hshard : shard ∈ shards := h.marks (.entered shard sequence) (by rw [hlog]; simp)
    obtain ⟨count, busy, hf⟩ := h.follows shard hshard
    exact Trail.cut_between (h.ordered.distinct shard) (hlog ▸ hf.trail)

/-! ### What every move keeps -/

/-- The source may be replaced by one that reads the same shards. -/
theorem Sound.settings_cons (h : Sound shards s) {source : StreamSource}
    (hsettings : source.settings = s.source.settings) :
    ∀ x ∈ source :: s.shelf, x.settings.shards = shards := by
  refine List.forall_mem_cons.mpr ⟨?_, fun x hx => h.settings x (List.mem_cons_of_mem _ hx)⟩
  rw [hsettings]
  exact h.settings _ List.mem_cons_self

/-- The source may be replaced by one whose positions are in order. -/
theorem Sound.sorted_cons (h : Sound shards s) {source : StreamSource}
    (hsorted : source.positions.Sorted) : ∀ x ∈ source :: s.shelf, x.positions.Sorted :=
  List.forall_mem_cons.mpr ⟨hsorted, fun x hx => h.sorted x (List.mem_cons_of_mem _ hx)⟩

theorem sound_fresh (world : World) (info : SourceInfo) (settings : StreamSettings) (crew : Crew) :
    Sound settings.shards (fresh world info settings crew) where
  ordered := RecordStream.ordered_new
  settings := by simp [fresh, StreamSource.new]
  sorted := by simp [fresh, StreamSource.new, Keyed.sorted_nil]
  still := by simp [fresh]
  tended := .new
  readers := by simp [fresh, StreamSource.new, Lifecycle.new]
  reads := by simp [fresh, StreamSource.new, Lifecycle.new]
  token := by simp [fresh, StreamSource.new, StreamSource.checkpoint]
  marks := by simp [fresh]
  follows shard _ := by
    refine ⟨0, false, .nil, rfl, ?_, ?_, fun _ => rfl⟩
    · simp [fresh]
    · simp [fresh, StreamSource.new, Lifecycle.new]

/-- Records are appended at most. -/
theorem Sound.of_world (h : Sound shards s) {world : World} (ho : world.clients.stream.Ordered)
    (hrecords : ∀ shard, ∃ more, world.clients.stream.shard shard = s.records shard ++ more) :
    Sound shards { s with world } := by
  refine ⟨ho, h.settings, h.sorted, h.still, h.tended, h.readers, h.reads, h.token, h.marks,
    fun shard hm => ?_⟩
  obtain ⟨count, busy, hf⟩ := h.follows shard hm
  obtain ⟨more, hmore⟩ := hrecords shard
  have hnew : records shard { s with world } = s.records shard ++ more := hmore
  refine ⟨count, busy, ?_, ?_, hf.shelf, fun t ht hshard => ?_, hf.idle⟩
  · rw [sequences, hnew, List.map_append]
    exact hf.trail.append _
  · rw [hnew, Record.lastOf_append hf.count_le]
    exact hf.position
  · obtain ⟨hfits, hbusy⟩ := hf.fits t ht hshard
    rw [hnew]
    exact ⟨hfits.append hf.count_le more, hbusy⟩

/-- A source is started from the last checkpoint, and knows as much as the one that ran before. -/
theorem Sound.launch (hd : shards.Nodup) (h : Sound shards s) (hstop : s.stop = none)
    (hrun : s.source.lifecycle.running = false) {other : StreamSource}
    (hother : other ∈ s.source :: s.shelf) {shelf : List StreamSource}
    (hshelf : ∀ x ∈ shelf, x ∈ s.source :: s.shelf) :
    Sound shards { s with source := (other.start s.token).2, shelf } := by
  have hstill : ∀ x ∈ s.source :: s.shelf, x.lifecycle.running = false ∧ x.lifecycle.live = [] :=
    List.forall_mem_cons.mpr ⟨⟨hrun, h.tended.still hrun (by simp [hstop])⟩, h.still⟩
  obtain ⟨hidle, hlive⟩ := hstill other hother
  have hl := StreamSource.launched_start (h.sorted _ List.mem_cons_self) (h.sorted other hother) hidle hlive
  rw [← h.token hstop hrun] at hl
  generalize (other.start s.token).2 = started at hl
  have hshards := hl.shards
  rw [h.settings other hother] at hshards
  refine ⟨h.ordered, ?_, ?_, fun x hx => hstill x (hshelf x hx), ?_, ?_, ?_, ?_, h.marks, ?_⟩
  · refine List.forall_mem_cons.mpr ⟨?_, fun x hx => h.settings x (hshelf x hx)⟩
    rw [hl.settings]
    exact h.settings other hother
  · exact List.forall_mem_cons.mpr ⟨hl.sorted, fun x hx => h.sorted x (hshelf x hx)⟩
  · rw [hstop]
    exact hl.tended
  · rw [hshards]
    exact hd
  · intro t ht
    rw [← hshards]
    exact List.mem_map_of_mem ht
  · intro _ hnot
    exact absurd (hnot.symm.trans hl.running) Bool.false_ne_true
  · intro shard hshard
    obtain ⟨count, busy, hf⟩ := h.follows shard hshard
    -- Nobody reads the shard, so the function does not run on its records.
    obtain rfl : busy = false := by
      refine hf.idle fun t ht => ?_
      rw [(hstill s.source List.mem_cons_self).2] at ht
      cases ht
    have hnone : count = 0 → ∀ x ∈ s.source :: s.shelf, x.positions.get? shard = none := by
      intro hzero
      refine List.forall_mem_cons.mpr ⟨?_, hf.shelf hzero⟩
      rw [hf.position]
      exact (Record.lastOf_eq_none hf.count_le).mpr hzero
    refine ⟨count, false, hf.trail, ?_, fun hzero x hx => hnone hzero x (hshelf x hx), ?_, fun _ => rfl⟩
    · show started.positions.get? shard = Record.lastOf (s.records shard) count
      rw [hl.positions, hf.position]
      cases hlast : Record.lastOf (s.records shard) count with
      | some q => rfl
      | none => exact hnone ((Record.lastOf_eq_none hf.count_le).mp hlast) other hother
    · intro t ht _
      obtain ⟨shard', -, hstate⟩ := hl.mem_tasks ht
      rw [hstate]
      exact ⟨trivial, rfl⟩

/-! ### Stops -/

theorem mem_cutMarks {l l' : Lifecycle (Task Reader)} {mark : Mark} (h : mark ∈ cutMarks l l') :
    ∃ t ∈ l.live, t.1 ∉ l'.alive ∧ mark.shard = t.2.state.shard := by
  obtain ⟨t, ht, hmark⟩ := List.mem_filterMap.mp h
  refine ⟨t, ht, ?_⟩
  split at hmark
  · cases hmark
  next hgone =>
    obtain ⟨sequence, -, rfl⟩ := Option.map_eq_some_iff.mp hmark
    exact ⟨by simpa using hgone, rfl⟩

/-- A stop without force gives no task up. -/
theorem cutMarks_of_live_eq {l l' : Lifecycle (Task Reader)} (h : l'.live = l.live) : cutMarks l l' = [] := by
  refine List.eq_nil_iff_forall_not_mem.mpr fun mark hm => ?_
  obtain ⟨t, ht, hgone, -⟩ := mem_cutMarks hm
  refine hgone ?_
  rw [Lifecycle.alive, h]
  exact List.mem_map_of_mem ht

/-- When tasks are given up, the run on the next record of a shard is cut short if one was in
progress. -/
theorem trail_cut {sequences : List String} {records : List Record}
    (hseq : sequences = records.map Record.sequence) {log : List Mark}
    (h : Trail sequences shard log count busy) (live : List (Nat × Task Reader))
    (hd : (live.map fun t => t.2.state.shard).Nodup)
    (hfits : ∀ t ∈ live, t.2.state.shard = shard →
      t.2.state.Fits records count ∧ t.2.state.run?.isSome = busy) :
    ∃ busy', Trail sequences shard
        (live.filterMap (fun t => t.2.state.run?.map (Mark.cut t.2.state.shard)) ++ log) count busy' ∧
      ((∃ t ∈ live, t.2.state.shard = shard) → busy' = false) ∧
      ((∀ t ∈ live, t.2.state.shard ≠ shard) → busy' = busy) := by
  induction live with
  | nil => exact ⟨busy, h, by simp, fun _ => rfl⟩
  | cons t live ih =>
    rw [List.map_cons, List.nodup_cons] at hd
    obtain ⟨busy', htrail, hsome, hnone⟩ := ih hd.2 fun x hx => hfits x (List.mem_cons_of_mem _ hx)
    by_cases hshard : t.2.state.shard = shard
    · -- No other task reads the shard.
      obtain rfl : busy' = busy := by
        refine hnone fun x hx heq => hd.1 ?_
        rw [hshard, ← heq]
        exact List.mem_map_of_mem hx
      obtain ⟨hfit, hbusy⟩ := hfits t List.mem_cons_self hshard
      have hnot : ¬ ∀ x ∈ t :: live, x.2.state.shard ≠ shard := fun hall =>
        hall t List.mem_cons_self hshard
      cases hrun : t.2.state.run? with
      | none =>
        rw [hrun] at hbusy
        refine ⟨busy', ?_, fun _ => hbusy.symm, fun hall => absurd hall hnot⟩
        rw [List.filterMap_cons, hrun]
        exact htrail
      | some sequence =>
        rw [hrun] at hbusy
        obtain rfl : true = busy' := hbusy
        refine ⟨false, ?_, fun _ => rfl, fun hall => absurd hall hnot⟩
        rw [List.filterMap_cons, hrun, hshard]
        exact .cut htrail (hseq ▸ hfit.run_eq hrun)
    · refine ⟨busy', ?_, ?_, fun hall => hnone fun x hx => hall x (List.mem_cons_of_mem _ hx)⟩
      · rw [List.filterMap_cons]
        cases t.2.state.run? with
        | none => exact htrail
        | some sequence => exact .elsewhere htrail hshard
      · rintro ⟨x, hx, heq⟩
        rcases List.mem_cons.mp hx with rfl | hx
        · exact absurd heq hshard
        · exact hsome ⟨x, hx, heq⟩

/-- A stop that gives all tasks up cuts their runs short. -/
theorem Follows.cut (h : s.Follows shard count busy)
    (hreaders : (s.source.lifecycle.live.map fun t => t.2.state.shard).Nodup) {source : StreamSource}
    {stop : Option Stop} (hlive : source.lifecycle.live = [])
    (hpositions : source.positions = s.source.positions) :
    ({ s with source, stop, log := cutMarks s.source.lifecycle source.lifecycle ++ s.log } :
      StreamHistory).Follows shard count false := by
  have hcut : cutMarks s.source.lifecycle source.lifecycle = s.source.lifecycle.live.filterMap
      fun t => t.2.state.run?.map (Mark.cut t.2.state.shard) := by
    simp [cutMarks, Lifecycle.alive, hlive]
  obtain ⟨busy', htrail, hsome, hnone⟩ := trail_cut rfl h.trail s.source.lifecycle.live hreaders h.fits
  obtain rfl : busy' = false := by
    by_cases hread : ∃ t ∈ s.source.lifecycle.live, t.2.state.shard = shard
    · exact hsome hread
    · have hnot : ∀ t ∈ s.source.lifecycle.live, t.2.state.shard ≠ shard :=
        fun t ht heq => hread ⟨t, ht, heq⟩
      rw [hnone hnot, h.idle hnot]
  refine ⟨?_, ?_, h.shelf, fun t ht => ?_, fun _ => rfl⟩
  · rw [hcut]
    exact htrail
  · rw [hpositions]
    exact h.position
  · rw [hlive] at ht
    cases ht

theorem Sound.halts (h : Sound shards s) {stop next : Stop} {world : World} {source : StreamSource}
    (hstop : s.stop = some stop)
    (hs : StreamSource.rules.stop stop s.world s.source = some (.goes next, world, source)) :
    Sound shards { s with
      world, source, stop := some next
      log := cutMarks s.source.lifecycle source.lifecycle ++ s.log } := by
  obtain ⟨rfl, hpositions, hsettings⟩ := StreamSource.stop_frame hs
  rcases Lifecycle.afterStop_cases (TaskRules.afterStop_of_stop StreamSource.rules_lawful hs) with
    ⟨_, -, -, hm, -⟩ | ⟨force, rfl, hrun, hm, hlifecycle⟩ | ⟨_, -, -, hm, -⟩
  · cases hm
  · cases hm
    have htended := h.tended
    rw [hstop] at htended
    change s.source.lifecycle.running = true at hrun
    change source.lifecycle = s.source.lifecycle.halted force at hlifecycle
    have hsub : ∀ t ∈ source.lifecycle.live, t ∈ s.source.lifecycle.live := by
      rw [hlifecycle]
      cases force with
      | false => exact fun t ht => ht
      | true => exact fun t ht => (List.mem_filter.mp ht).1
    have hsorted : source.positions.Sorted := by
      rw [hpositions]
      exact h.sorted _ List.mem_cons_self
    refine ⟨h.ordered, h.settings_cons hsettings, h.sorted_cons hsorted, h.still, ?_, ?_,
      fun t ht => h.reads t (hsub t ht), ?_, ?_, ?_⟩
    · rw [hlifecycle]
      exact htended.halted hrun
    · rw [hlifecycle]
      cases force with
      | false => exact h.readers
      | true => exact h.readers.sublist (List.Sublist.map _ List.filter_sublist)
    · intro hnot
      cases hnot
    · intro mark hm
      rcases List.mem_append.mp hm with hm | hm
      · obtain ⟨t, ht, -, hshard⟩ := mem_cutMarks hm
        rw [hshard]
        exact h.reads t ht
      · exact h.marks mark hm
    · intro shard hshard
      obtain ⟨count, busy, hf⟩ := h.follows shard hshard
      cases force with
      | false =>
        have hlive : source.lifecycle.live = s.source.lifecycle.live := by
          rw [hlifecycle]
          rfl
        refine ⟨count, busy, hf.elsewhere rfl (by rw [hpositions]) rfl (fun t _ => by rw [hlive]) rfl ?_⟩
        rw [cutMarks_of_live_eq hlive]
        exact fun mark hm => by cases hm
      | true =>
        have hlive : source.lifecycle.live = [] := by
          rw [hlifecycle]
          exact htended.live_halted hrun
        exact ⟨count, false, hf.cut h.readers hlive hpositions⟩
  · cases hm

theorem Sound.returns (h : Sound shards s) {stop : Stop} {world : World} {source : StreamSource}
    (hstop : s.stop = some stop)
    (hs : StreamSource.rules.stop stop s.world s.source = some (.ends (), world, source)) :
    Sound shards { s with world, source, stop := none, token := source.checkpoint } := by
  obtain ⟨rfl, hpositions, hsettings⟩ := StreamSource.stop_frame hs
  have htended := h.tended
  rw [hstop] at htended
  obtain ⟨hlifecycle, hrun, hlive⟩ := htended.returned
    (TaskRules.afterStop_of_stop StreamSource.rules_lawful hs)
  change source.lifecycle = s.source.lifecycle at hlifecycle
  have hsorted : source.positions.Sorted := by
    rw [hpositions]
    exact h.sorted _ List.mem_cons_self
  refine ⟨h.ordered, h.settings_cons hsettings, h.sorted_cons hsorted, h.still, ?_, ?_, ?_,
    fun _ _ => rfl, h.marks, ?_⟩
  · rw [hlifecycle]
    exact htended.closed hlive
  · rw [hlifecycle]
    exact h.readers
  · rw [hlifecycle]
    exact h.reads
  · intro shard hshard
    obtain ⟨count, busy, hf⟩ := h.follows shard hshard
    exact ⟨count, busy, hf.elsewhere rfl (by rw [hpositions]) rfl (fun t _ => by rw [hlifecycle])
      (List.nil_append s.log).symm (by simp)⟩

/-! ### Tasks -/

/-- How far the shard of a task that moves has come afterwards. -/
theorem Follows.moved (h : s.Follows shard count busy) (htended : Tended s.stop s.source.lifecycle)
    (hreaders : (s.source.lifecycle.live.map fun t => t.2.state.shard).Nodup)
    {handle : Nat} {task : Task Reader} (htask : s.source.lifecycle.task? handle = some task)
    (hshard : task.state.shard = shard) {m : Move Reader Unit} {world : World} {source : StreamSource}
    (hlifecycle : source.lifecycle = s.source.lifecycle.moved handle task.signal m)
    (hrecords : world.clients.stream.shard shard = s.records shard) {marks : List Mark} {count' : Nat}
    {busy' : Bool} (htrail : Trail (s.sequences shard) shard (marks ++ s.log) count' busy')
    (hposition : source.positions.get? shard = Record.lastOf (s.records shard) count')
    (hcount : count ≤ count') (hnext : ∀ next ∈ m.next?, next.shard = shard ∧
      next.Fits (s.records shard) count' ∧ next.run?.isSome = busy')
    (hends : m.next? = none → busy' = false) :
    ({ s with world, source, log := marks ++ s.log } : StreamHistory).Follows shard count' busy' := by
  have hmem : (handle, task) ∈ s.source.lifecycle.live :=
    (Lifecycle.task?_eq_some htended.distinct).mp htask
  have hnew : records shard { s with world, source, log := marks ++ s.log } = s.records shard := hrecords
  have halive : handle ∈ s.source.lifecycle.alive := Lifecycle.mem_alive_of_task? htask
  refine ⟨?_, ?_, fun hzero => h.shelf (Nat.le_zero.mp (hzero ▸ hcount)), fun t ht heq => ?_, fun hnot => ?_⟩
  · rw [sequences, hnew]
    exact htrail
  · rw [hnew]
    exact hposition
  · change t ∈ source.lifecycle.live at ht
    rw [hlifecycle, Lifecycle.mem_live_moved halive] at ht
    rw [hnew]
    rcases ht with ⟨hold, hne⟩ | ⟨next, hm, rfl⟩
    · -- The shard has no other task.
      have hsame := List.inj_on_of_nodup_map hreaders hold hmem (heq.trans hshard.symm)
      exact absurd (congrArg Prod.fst hsame) hne
    · exact (hnext next hm).2
  · refine hends (Option.eq_none_iff_forall_ne_some.mpr fun next hm => ?_)
    refine hnot (handle, ⟨task.signal, next⟩) ?_ (hnext next hm).1
    change (handle, _) ∈ source.lifecycle.live
    rw [hlifecycle]
    exact (Lifecycle.mem_live_moved halive).mpr (.inr ⟨next, hm, rfl⟩)

theorem moveMarks_of_entries_eq {handle : Nat} {w w' : World} {l l' : Lifecycle (Task Reader)}
    (h : w'.ambient.entries = w.ambient.entries) : moveMarks handle w w' l l' =
      match l.run? handle, l'.run? handle with
      | some (shard, sequence), none => [.completed shard sequence]
      | _, _ => [] := by
  rw [moveMarks, h, ← Array.length_toList, List.drop_length]
  rfl

/-- The marks that a move leaves continue the trail of its shard. -/
theorem trail_moveMarks {sequences : List String} {records : List Record}
    (hseq : sequences = records.map Record.sequence) {log : List Mark} {r : Reader}
    (h : Trail sequences r.shard log count busy) (hbusy : r.run?.isSome = busy) {handle : Nat}
    {m : Move Reader Unit} {w w' : World} {before after : StreamSource} {l l' : Lifecycle (Task Reader)}
    (hrun : l.run? handle = r.run?.map (r.shard, ·))
    (hrun' : l'.run? handle = m.next?.bind fun next => next.run?.map (next.shard, ·))
    (heffect : Reader.Effect records count r m w w' before after) :
    ∃ count' busy', count ≤ count' ∧
      Trail sequences r.shard (moveMarks handle w w' l l' ++ log) count' busy' ∧
      (∀ mark ∈ moveMarks handle w w' l l', mark.shard = r.shard) ∧
      (before.positions.get? r.shard = Record.lastOf records count →
        after.positions.get? r.shard = Record.lastOf records count') ∧
      (∀ next ∈ m.next?, next.Fits records count' ∧ next.run?.isSome = busy') ∧
      (m.next? = none → busy' = false) := by
  cases heffect with
  | still hnone hnext hentries hpos =>
    rw [hnone] at hrun hbusy
    obtain rfl : busy = false := hbusy.symm
    have hmarks : moveMarks handle w w' l l' = [] := by
      rw [moveMarks_of_entries_eq hentries, hrun]
      rfl
    rw [hmarks]
    refine ⟨count, false, Nat.le_refl _, h, by simp, fun hp => hpos ▸ hp, fun next hm => ?_, fun _ => rfl⟩
    obtain ⟨hidle, hfits⟩ := hnext next hm
    exact ⟨hfits, by rw [hidle]; rfl⟩
  | @enters record next entry hrec hnone hm hnext hfits hentries hpath hid hpos =>
    subst hm
    rw [hnone] at hrun hbusy
    obtain rfl : busy = false := hbusy.symm
    have hmarks : moveMarks handle w w' l l' = [.entered r.shard record.sequence] := by
      rw [moveMarks, hentries, hrun, Array.toList_push, ← Array.length_toList, List.drop_left,
        ← hpath, ← hid]
      rfl
    rw [hmarks]
    refine ⟨count, true, Nat.le_refl _, .entered h ?_, by simp [Mark.shard], fun hp => hpos ▸ hp, ?_, ?_⟩
    · rw [hseq, List.getElem?_map, hrec]
      rfl
    · intro x hx
      cases hx
      exact ⟨hfits, by rw [hnext]; rfl⟩
    · intro hx
      cases hx
  | @completes record next hrec hsome hm hnext hfits hentries hpos =>
    subst hm
    rw [hsome] at hrun hbusy
    obtain rfl : busy = true := hbusy.symm
    have hmarks : moveMarks handle w w' l l' = [.completed r.shard record.sequence] := by
      rw [moveMarks_of_entries_eq hentries, hrun, hrun']
      simp [Move.next?, hnext]
    rw [hmarks]
    refine ⟨count + 1, false, Nat.le_succ _, .completed h ?_, by simp [Mark.shard], fun _ => ?_, ?_, ?_⟩
    · rw [hseq, List.getElem?_map, hrec]
      rfl
    · rw [hpos, Keyed.get?_insert_self, Record.lastOf_succ hrec]
    · intro x hx
      cases hx
      exact ⟨hfits, by rw [hnext]; rfl⟩
    · intro hx
      cases hx

/-- A move of a task leaves the positions of other shards alone, and the table in order. -/
theorem positions_of_effect {records : List Record} {r : Reader} {m : Move Reader Unit} {w w' : World}
    {before after : StreamSource} (heffect : Reader.Effect records count r m w w' before after) :
    (before.positions.Sorted → after.positions.Sorted) ∧
      ∀ shard ≠ r.shard, after.positions.get? shard = before.positions.get? shard := by
  cases heffect with
  | still _ _ _ hpos => rw [hpos]; exact ⟨id, fun _ _ => rfl⟩
  | enters _ _ _ _ _ _ _ _ hpos => rw [hpos]; exact ⟨id, fun _ _ => rfl⟩
  | completes _ _ _ _ _ _ hpos =>
    rw [hpos]
    refine ⟨fun h => h.insert _ _, fun shard hne => ?_⟩
    rw [Keyed.get?_insert, if_neg hne]

/-- A move of a task puts the task's state in its place again, or the task is gone. -/
theorem step_of_stepLive {handle : Nat} {world : World} {source : StreamSource}
    (hs : StreamSource.rules.stepLive handle s.world s.source = some (world, source)) :
    ∃ task m moved, s.source.lifecycle.task? handle = some task ∧
      StreamSource.step task.signal task.state s.world s.source = some (m, world, moved) ∧
      source.lifecycle = moved.lifecycle.moved handle task.signal m ∧
      source.positions = moved.positions ∧ source.settings = moved.settings := by
  obtain ⟨task, m, moved, htask, hstep, rfl⟩ := TaskRules.stepLive_cases hs
  exact ⟨task, m, moved, htask, hstep, rfl, rfl, rfl⟩

theorem Sound.works (h : Sound shards s) {handle : Nat} {world : World} {source : StreamSource}
    (hs : StreamSource.rules.stepLive handle s.world s.source = some (world, source)) :
    Sound shards { s with
      world, source
      log := moveMarks handle s.world world s.source.lifecycle source.lifecycle ++ s.log } := by
  obtain ⟨task, m, moved, htask, hstep, hlifecycle', hpositions, hsettings'⟩ := step_of_stepLive hs
  have hmem : (handle, task) ∈ s.source.lifecycle.live :=
    (Lifecycle.task?_eq_some h.tended.distinct).mp htask
  have hshard : task.state.shard ∈ shards := h.reads _ hmem
  obtain ⟨count, busy, hf⟩ := h.follows _ hshard
  obtain ⟨hfit, hbusy⟩ := hf.fits _ hmem rfl
  have hmoves := StreamSource.moves_of_step hstep
  have hframe := Reader.frame_of_moves hmoves
  have heffect := Reader.effect_of_moves h.ordered hf.count_le hf.position hfit hmoves
  have halive : handle ∈ s.source.lifecycle.alive := Lifecycle.mem_alive_of_task? htask
  rw [hframe.lifecycle] at hlifecycle'
  have hlifecycle : source.lifecycle = s.source.lifecycle.moved handle task.signal m := hlifecycle'
  have hsettings : source.settings = s.source.settings := hsettings'.trans hframe.settings
  have hrun : s.source.lifecycle.run? handle = task.state.run?.map (task.state.shard, ·) := by
    rw [Lifecycle.run?, htask]
    rfl
  have hrun' : source.lifecycle.run? handle =
      m.next?.bind fun next => next.run?.map (next.shard, ·) := by
    rw [Lifecycle.run?, hlifecycle, Lifecycle.task?_moved h.tended.distinct halive]
    cases m <;> rfl
  obtain ⟨count', busy', hcount, htrail, hmarks, hposition, hnext, hends⟩ :=
    trail_moveMarks rfl hf.trail hbusy hrun hrun' heffect
  obtain ⟨hsorted, hothers⟩ := positions_of_effect heffect
  have hrecords : ∀ shard, world.clients.stream.shard shard = s.records shard := hframe.records.shard_eq
  have hsorted' : source.positions.Sorted := by
    rw [hpositions]
    exact hsorted (h.sorted _ List.mem_cons_self)
  refine ⟨hframe.records.ordered h.ordered, h.settings_cons hsettings, h.sorted_cons hsorted', h.still,
    ?_, ?_, ?_, ?_, ?_, ?_⟩
  · rw [hlifecycle]
    exact h.tended.moved handle task.signal m
  · rw [hlifecycle]
    exact Lifecycle.nodup_map_moved h.tended.distinct htask Reader.shard hframe.shard h.readers
  · intro t ht
    change t ∈ source.lifecycle.live at ht
    rw [hlifecycle, Lifecycle.mem_live_moved halive] at ht
    rcases ht with ⟨hold, -⟩ | ⟨next, hm, rfl⟩
    · exact h.reads t hold
    · rw [hframe.shard next hm]
      exact hshard
  · -- A source whose task moves runs, or is being stopped.
    intro hstop hnot
    change s.stop = none at hstop
    have hidle : s.source.lifecycle.running = false := by
      change source.lifecycle.running = false at hnot
      rw [hlifecycle] at hnot
      cases m <;> exact hnot
    have hnil := h.tended.still hidle (by simp [hstop])
    rw [hnil] at hmem
    cases hmem
  · intro mark hm
    rcases List.mem_append.mp hm with hm | hm
    · rw [hmarks mark hm]
      exact hshard
    · exact h.marks mark hm
  · intro shard hs
    by_cases heq : shard = task.state.shard
    · subst heq
      refine ⟨count', busy', hf.moved h.tended h.readers htask rfl hlifecycle (hrecords _) htrail ?_ hcount
        (fun next hm => ⟨hframe.shard next hm, hnext next hm⟩) hends⟩
      rw [hpositions]
      exact hposition hf.position
    · obtain ⟨count, busy, hother⟩ := h.follows shard hs
      refine ⟨count, busy, hother.elsewhere (hrecords shard) ?_ rfl (fun t ht => ?_) rfl fun mark hm => ?_⟩
      · rw [← hothers shard heq, ← hpositions]
      · change t ∈ source.lifecycle.live ↔ _
        rw [hlifecycle]
        exact Lifecycle.mem_live_moved_iff h.tended.distinct htask Reader.shard hframe.shard (ht ▸ heq)
      · rw [hmarks mark hm]
        exact Ne.symm heq

/-! ### The law -/

/-- **One move of anybody** keeps everything in order. -/
theorem Sound.step (hd : shards.Nodup) (h : Sound shards s) (hs : Step shards s s') : Sound shards s' := by
  cases hs with
  | puts shard key data now =>
    exact h.of_world (h.ordered.put shard key data now) fun id =>
      ⟨_, RecordStream.shard_put shard key data now _ id⟩
  | passes world hsame =>
    refine h.of_world (hsame.ordered h.ordered) fun id => ⟨[], ?_⟩
    rw [List.append_nil]
    exact hsame.shard_eq id
  | supplies info settings crew hsettings =>
    obtain ⟨hsource, hshelf⟩ := List.forall_mem_cons.mp h.settings
    obtain ⟨hsorted, hsorted'⟩ := List.forall_mem_cons.mp h.sorted
    refine ⟨h.ordered, ?_, ?_, ?_, h.tended, h.readers, h.reads, h.token, h.marks, fun shard hm => ?_⟩
    · exact List.forall_mem_cons.mpr ⟨hsource, List.forall_mem_cons.mpr ⟨hsettings, hshelf⟩⟩
    · exact List.forall_mem_cons.mpr ⟨hsorted, List.forall_mem_cons.mpr ⟨Keyed.sorted_nil, hsorted'⟩⟩
    · exact List.forall_mem_cons.mpr ⟨⟨rfl, rfl⟩, h.still⟩
    · obtain ⟨count, busy, hf⟩ := h.follows shard hm
      exact ⟨count, busy, hf.trail, hf.position,
        fun hzero => List.forall_mem_cons.mpr ⟨rfl, hf.shelf hzero⟩, hf.fits, hf.idle⟩
  | starts hstop hrun =>
    exact h.launch hd hstop hrun List.mem_cons_self fun x hx => List.mem_cons_of_mem _ hx
  | @changes pre post other hshelf hstop hrun =>
    refine h.launch hd hstop hrun (by simp [hshelf]) fun x hx => ?_
    rw [hshelf]
    simp only [List.mem_append, List.mem_cons] at hx ⊢
    rcases hx with hx | rfl | hx
    · exact .inr (.inl hx)
    · exact .inl rfl
    · exact .inr (.inr (.inr hx))
  | stops force hstop =>
    have htended := h.tended
    rw [hstop] at htended
    refine ⟨h.ordered, h.settings, h.sorted, h.still, htended.ready force, h.readers, h.reads, ?_,
      h.marks, fun shard hm => ?_⟩
    · intro hnot
      cases hnot
    · obtain ⟨count, busy, hf⟩ := h.follows shard hm
      exact ⟨count, busy, hf.trail, hf.position, hf.shelf, hf.fits, hf.idle⟩
  | halts hstop hs => exact h.halts hstop hs
  | returns hstop hs => exact h.returns hstop hs
  | works hs => exact h.works hs

theorem Sound.of_reachable (hd : shards.Nodup) (h : Sound shards s)
    (hr : Relation.ReflTransGen (Step shards) s s') : Sound shards s' := by
  induction hr with
  | refl => exact h
  | tail _ hs ih => exact ih.step hd hs

/-- **No record is skipped or repeated.** However often the shards are read, by whatever sources one
after another from checkpoint to checkpoint, and however they are stopped: the function is entered with
a record once all earlier ones of its shard are completed, never with a completed one, and a second time
only when a forced stop had cut the run on it short. -/
theorem orderly_of_reachable (world : World) (info : SourceInfo) (settings : StreamSettings) (crew : Crew)
    (hd : settings.shards.Nodup)
    (hr : Relation.ReflTransGen (Step settings.shards) (fresh world info settings crew) s) : Orderly s :=
  ((sound_fresh world info settings crew).of_reachable hd hr).orderly

/-- A forced stop cuts the run on a record short; the source, started again from the checkpoint, enters
the function with it once more and completes it. -/
theorem orderly_forced_stop :
    ∃ s : StreamHistory, Relation.ReflTransGen (Step ["a"])
        (fresh (.start ⟨0, 0⟩ .echo) ⟨"reader", "kinesis", .async⟩ ⟨"stream", ["a"], 0, 10⟩
          (.ofIndices .exclusive [0])) s ∧
      s.log = [.completed "a" (RecordStream.sequenceText 1), .entered "a" (RecordStream.sequenceText 1),
        .cut "a" (RecordStream.sequenceText 1), .entered "a" (RecordStream.sequenceText 1)] ∧
      Orderly s := by
  have hstarted : Relation.ReflTransGen (Step ["a"])
      (fresh (.start ⟨0, 0⟩ .echo) ⟨"reader", "kinesis", .async⟩ ⟨"stream", ["a"], 0, 10⟩
        (.ofIndices .exclusive [0])) _ :=
    (Relation.ReflTransGen.single (Step.puts _ "a" "k" .empty ⟨0, 0⟩)).tail (Step.starts _ rfl rfl)
  have hidle := ((hstarted.tail (@Step.works _ _ 0 _ _ rfl)).tail (@Step.works _ _ 0 _ _ rfl)).tail
    (@Step.works _ _ 0 _ _ rfl)
  have hbetween := ((hidle.tail (@Step.works _ _ 0 _ _ rfl)).tail (@Step.works _ _ 0 _ _ rfl)).tail
    (@Step.works _ _ 0 _ _ rfl)
  have hentered := ((hbetween.tail (@Step.works _ _ 0 _ _ rfl)).tail (@Step.works _ _ 0 _ _ rfl)).tail
    (@Step.works _ _ 0 _ _ rfl)
  have hcut := (hentered.tail (Step.stops _ true rfl)).tail (@Step.halts _ _ _ _ _ _ rfl rfl)
  have hagain := (hcut.tail (@Step.returns _ _ _ _ _ rfl rfl)).tail (Step.starts _ rfl rfl)
  have hidle' := ((hagain.tail (@Step.works _ _ 1 _ _ rfl)).tail (@Step.works _ _ 1 _ _ rfl)).tail
    (@Step.works _ _ 1 _ _ rfl)
  have hbetween' := ((hidle'.tail (@Step.works _ _ 1 _ _ rfl)).tail (@Step.works _ _ 1 _ _ rfl)).tail
    (@Step.works _ _ 1 _ _ rfl)
  have hentered' := ((hbetween'.tail (@Step.works _ _ 1 _ _ rfl)).tail (@Step.works _ _ 1 _ _ rfl)).tail
    (@Step.works _ _ 1 _ _ rfl)
  have hcompleted := hentered'.tail (@Step.works _ _ 1 _ _ rfl)
  exact ⟨_, hcompleted, rfl, orderly_of_reachable _ _ ⟨"stream", ["a"], 0, 10⟩ _ (by decide) hcompleted⟩

end StreamHistory

end EventDispatch
