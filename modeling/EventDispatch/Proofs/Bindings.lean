import EventDispatch.Proofs.Acceptance
import EventDispatch.Proofs.Answers
import EventDispatch.Proofs.Resumption
import EventDispatch.Proofs.Sizing
import EventDispatch.Proofs.StreamHistory
import EventDispatch.Proofs.StreamMoves
import Mathlib.Data.List.Pairwise

/-!
# A worker for each shard

A source that reads a stream has a task for each shard, and as many workers. A task takes a worker when it starts and
keeps it until it ends, whatever fails in between. So in one run all records of a shard go to one worker, and records
of different shards go to different ones: a worker comes back only when its task is told to stop, and then nobody
takes another.

With one exception. A task breaks off when the range of records that it asks for ends past the last 64-bit number. Its
worker comes back while the others run, and a task that has none yet may take it.

## What is deliberately absent

Nothing is asked of the function, of the calls to the stream's service or of the clock, and the world may change in
any way between two moves, except that no record is taken out of a shard. Starts and stops come one at a time.

## Main definitions

* `Reader.Deed`: what a move does to a reader and its worker.
* `Lifecycle.Holds`: the reader of a shard has a worker.
* `Tied`: what the entries of a run say of the readers that still live.
* `Binding`, `Binding.Step`: a source, what happens around it, and what its tasks entered since it was started.
* `Binding.Bound`: the law.

## Main results

* `Reader.deed_of_moves`: there are no other moves.
* `Binding.apart_of_manned`: two readers never have one worker.
* `Tied.hires`, `Tied.enters`, `Tied.breaks`: what a reader does to what the entries say.
* `Binding.Sound.step`: what one move of anybody keeps.
* `Binding.bound_of_reachable`: the law, for every history.
-/

namespace EventDispatch

/-! ### Readers and their workers -/

namespace Reader

variable {signal : Signal} {r : Reader} {m : Move Reader Unit} {w w' : World} {s s' : StreamSource}

/-- A reader hands a record to its own worker, under the name of its own shard. -/
def Carries : Reader → Prop
  | handling shard worker _ _ _ (.ready held event) => held = worker ∧ event.path = shard
  | handling shard worker _ _ _ (.prepared held event) => held = worker ∧ event.path = shard
  | handling shard worker _ _ _ (.running held event _) => held = worker ∧ event.path = shard
  | _ => True

/-- What a move does to a reader and its worker. -/
inductive Deed (signal : Signal) (r : Reader) (m : Move Reader Unit) (w w' : World) (s : StreamSource) : Prop
  /-- The reader keeps its worker, or goes on without one. -/
  | stays {next : Reader} (hm : m = .goes next) (hshard : next.shard = r.shard)
      (hworker : next.worker? = r.worker?) (hcarries : next.Carries)
      (hentries : w'.ambient.entries = w.ambient.entries)
  /-- The reader takes a worker. -/
  | hires {next : Reader} {worker : Worker} (hsignal : s.lifecycle.isReleased signal = false)
      (hm : m = .goes next) (hshard : next.shard = r.shard) (hnone : r.worker? = none)
      (hworker : next.worker? = some worker) (hcarries : next.Carries)
      (hentries : w'.ambient.entries = w.ambient.entries)
  /-- The function is entered. -/
  | enters {next : Reader} {worker : Worker} {event : Event} (hm : m = .goes next) (hshard : next.shard = r.shard)
      (hheld : r.worker? = some worker) (hworker : next.worker? = some worker) (hcarries : next.Carries)
      (hpath : event.path = r.shard)
      (hentries : w'.ambient.entries = w.ambient.entries.push ⟨worker.knownAs, event⟩)
  /-- The reader ends. It has no worker, or it was told to. -/
  | leaves (hm : m = .ends ()) (hcause : r.worker? = none ∨ s.lifecycle.isReleased signal = true)
      (hentries : w'.ambient.entries = w.ambient.entries)
  /-- The reader breaks off. -/
  | breaks (hm : m = .ends ()) (hsignal : s.lifecycle.isReleased signal = false)
      (hheld : r.worker?.isSome = true)
      (hover : Width.natural64 ≤ (w.clients.stream.shard r.shard).length + s.settings.batchSize)
      (hentries : w'.ambient.entries = w.ambient.entries)

/-- What is prepared keeps its path. -/
theorem path_prepare (d : Desk) (event : Event) (a : Ambient) : (d.prepare event a).1.path = event.path := by
  rw [Desk.prepare]
  dsimp only
  split <;> rfl

/-- A range that ends past the last number is longer than what is left of the numbers after the records. -/
theorem le_of_overflow {stream : RecordStream} {shard position : String} {limit : Nat}
    (h : (stream.getRecords shard position limit).1 = .overflow) :
    Width.natural64 ≤ (stream.shard shard).length + limit := by
  unfold RecordStream.getRecords at h
  dsimp only at h
  split at h
  · cases h
  · split at h
    · cases h
    next number hnumber =>
      split at h
      next hover =>
        have hfirst := Nat.min_le_right number (stream.shard shard).length
        exact le_trans hover (Nat.add_le_add_right hfirst limit)
      · cases h

/-- **A reader that hands out its own records moves in no other way.** -/
theorem deed_of_moves (hc : r.Carries) (h : StreamSource.Moves signal w s r m w' s') : Deed signal r m w w' s := by
  cases h with
  | withdraws hreleased => exact .leaves rfl (.inl rfl) rfl
  | queues hsignal hacquire => exact .stays rfl rfl rfl trivial rfl
  | misses hsignal hacquire => exact .leaves rfl (.inl rfl) rfl
  | hires hsignal hacquire => exact .hires hsignal rfl rfl rfl rfl trivial rfl
  | breaks hsignal hworld hfetched =>
    exact .breaks rfl hsignal rfl (le_of_overflow hfetched) (congrArg _ hworld.ambient_eq)
  | begins hsignal => exact .stays rfl rfl rfl ⟨rfl, rfl⟩ rfl
  | @handles shard worker record rest next assignment assignment' ambient desk hassign =>
    cases assignment with
    | ready held event =>
      obtain ⟨hheld, hpath⟩ := hc
      cases hassign
      exact .stays rfl rfl rfl ⟨hheld, (path_prepare _ _ _).trans hpath⟩ (Desk.entries_prepare _ _ _)
    | prepared held event =>
      obtain ⟨rfl, hpath⟩ := hc
      cases hassign
      exact .enters rfl rfl rfl rfl ⟨rfl, hpath⟩ hpath rfl
    | running held event run =>
      rw [Assignment.step] at hassign
      split at hassign <;> cases hassign
  | @completes shard worker record rest next assignment answer ambient desk hassign =>
    cases assignment with
    | ready held event => cases hassign
    | prepared held event => cases hassign
    | running held event run =>
      rw [Assignment.step] at hassign
      split at hassign
      · cases hassign
        exact .stays rfl rfl rfl trivial rfl
      · cases hassign
  | quits hrests hreleased hworld => exact .leaves rfl (.inr hreleased) (congrArg _ hworld.ambient_eq)
  | resumes => exact .stays rfl rfl rfl trivial rfl
  | pauses => exact .stays rfl rfl rfl trivial rfl
  | requests => exact .stays rfl rfl rfl trivial rfl
  | exhausts => exact .stays rfl rfl rfl trivial rfl
  | asks hworld => exact .stays rfl rfl rfl trivial (congrArg _ hworld.ambient_eq)
  | retries hworld => exact .stays rfl rfl rfl trivial (congrArg _ hworld.ambient_eq)
  | finds hworld hposition => exact .stays rfl rfl rfl trivial (congrArg _ hworld.ambient_eq)
  | fetches hworld => exact .stays rfl rfl rfl trivial (congrArg _ hworld.ambient_eq)
  | fails hworld => exact .stays rfl rfl rfl trivial (congrArg _ hworld.ambient_eq)
  | brings hworld hfetched => exact .stays rfl rfl rfl trivial (congrArg _ hworld.ambient_eq)

/-- A reader stays with its shard. -/
theorem Deed.shard_eq (h : Deed signal r m w w' s) : ∀ next ∈ m.next?, next.shard = r.shard := by
  cases h with
  | stays hm hshard | hires _ hm hshard | enters hm hshard =>
    subst hm
    rintro _ ⟨⟩
    exact hshard
  | leaves hm | breaks hm =>
    subst hm
    rintro _ ⟨⟩

theorem Deed.carries (h : Deed signal r m w w' s) : ∀ next ∈ m.next?, next.Carries := by
  cases h with
  | stays hm _ _ hcarries | hires _ hm _ _ _ hcarries | enters hm _ _ _ hcarries =>
    subst hm
    rintro _ ⟨⟩
    exact hcarries
  | leaves hm | breaks hm =>
    subst hm
    rintro _ ⟨⟩

end Reader

/-! ### Who has which worker -/

namespace Lifecycle

variable {l l' : Lifecycle (Task Reader)} {handle : Nat} {task : Task Reader} {m : Move Reader Unit}
  {shard : String} {worker : Worker}

/-- The reader of a shard has a worker. -/
def Holds (shard : String) (worker : Worker) (l : Lifecycle (Task Reader)) : Prop :=
  ∃ t ∈ l.live, t.2.state.shard = shard ∧ t.2.state.worker? = some worker

/-- A shard has a reader. -/
def IsRead (shard : String) (l : Lifecycle (Task Reader)) : Prop := ∃ t ∈ l.live, t.2.state.shard = shard

theorem Holds.isRead (h : l.Holds shard worker) : l.IsRead shard := by
  obtain ⟨t, ht, hshard, -⟩ := h
  exact ⟨t, ht, hshard⟩

theorem isRead_moved (ht : l.task? handle = some task) (hshard : ∀ next ∈ m.next?, next.shard = task.state.shard)
    (h : (l.moved handle task.signal m).IsRead shard) : l.IsRead shard := by
  obtain ⟨t, hm, rfl⟩ := h
  rcases (mem_live_moved (mem_alive_of_task? ht)).mp hm with ⟨hold, -⟩ | ⟨next, hnext, rfl⟩
  · exact ⟨t, hold, rfl⟩
  · exact ⟨_, mem_live_of_task? ht, (hshard next hnext).symm⟩

theorem isReleased_moved (signal other : Signal) :
    (l.moved handle signal m).isReleased other = l.isReleased other := by
  cases m <;> rfl

theorem signal_moved (signal : Signal) : (l.moved handle signal m).signal = l.signal := by
  cases m <;> rfl

/-- No worker has two readers. -/
def Apart (l : Lifecycle (Task Reader)) : Prop :=
  ∀ {shard other worker held}, l.Holds shard worker → l.Holds other held → held.knownAs = worker.knownAs →
    other = shard

/-- Handles differ, and each shard has one reader at most. -/
structure Parted (l : Lifecycle (Task Reader)) : Prop where
  distinct : l.alive.Nodup
  readers : (l.live.map fun t => t.2.state.shard).Nodup

namespace Parted

theorem eq_of_shard (h : l.Parted) {t t' : Nat × Task Reader} (ht : t ∈ l.live) (ht' : t' ∈ l.live)
    (hshard : t.2.state.shard = t'.2.state.shard) : t = t' := List.inj_on_of_nodup_map h.readers ht ht' hshard

theorem moved (h : l.Parted) (ht : l.task? handle = some task)
    (hshard : ∀ next ∈ m.next?, next.shard = task.state.shard) : (l.moved handle task.signal m).Parted :=
  ⟨nodup_alive_moved h.distinct _ _, nodup_map_moved h.distinct ht Reader.shard hshard h.readers⟩

/-- The reader of a shard has the worker that it has. -/
theorem holds_iff (h : l.Parted) (ht : l.task? handle = some task) :
    l.Holds task.state.shard worker ↔ task.state.worker? = some worker := by
  have hm : (handle, task) ∈ l.live := mem_live_of_task? ht
  constructor
  · rintro ⟨t, htl, hshard, hworker⟩
    obtain rfl := h.eq_of_shard htl hm hshard
    exact hworker
  · intro hworker
    exact ⟨_, hm, rfl, hworker⟩

/-- After a move, the reader that moved has the worker that it has now. -/
theorem holds_moved_iff (h : l.Parted) (ht : l.task? handle = some task)
    (hshard : ∀ next ∈ m.next?, next.shard = task.state.shard) :
    (l.moved handle task.signal m).Holds task.state.shard worker ↔
      ∃ next ∈ m.next?, next.worker? = some worker := by
  have hm : (handle, task) ∈ l.live := mem_live_of_task? ht
  constructor
  · rintro ⟨t, htl, hsame, hworker⟩
    rcases (mem_live_moved (mem_alive_of_task? ht)).mp htl with ⟨hold, hne⟩ | ⟨next, hnext, rfl⟩
    · exact absurd (congrArg Prod.fst (h.eq_of_shard hold hm hsame)) hne
    · exact ⟨next, hnext, hworker⟩
  · rintro ⟨next, hnext, hworker⟩
    exact ⟨_, (mem_live_moved (mem_alive_of_task? ht)).mpr (.inr ⟨next, hnext, rfl⟩), hshard next hnext, hworker⟩

/-- The readers of other shards have the workers that they had. -/
theorem holds_moved_of_ne (h : l.Parted) (ht : l.task? handle = some task)
    (hshard : ∀ next ∈ m.next?, next.shard = task.state.shard) (hne : shard ≠ task.state.shard) :
    (l.moved handle task.signal m).Holds shard worker ↔ l.Holds shard worker := by
  have hothers : ∀ t : Nat × Task Reader, t.2.state.shard = shard →
      (t ∈ (l.moved handle task.signal m).live ↔ t ∈ l.live) := fun t hs =>
    mem_live_moved_iff h.distinct ht Reader.shard hshard (hs ▸ hne)
  constructor
  · rintro ⟨t, htl, hs, hworker⟩
    exact ⟨t, (hothers t hs).mp htl, hs, hworker⟩
  · rintro ⟨t, htl, hs, hworker⟩
    exact ⟨t, (hothers t hs).mpr htl, hs, hworker⟩

/-- A move in which the reader keeps its worker changes nothing. -/
theorem holds_moved_of_kept (h : l.Parted) (ht : l.task? handle = some task)
    (hshard : ∀ next ∈ m.next?, next.shard = task.state.shard)
    (hkept : ∀ held, (∃ next ∈ m.next?, next.worker? = some held) ↔ task.state.worker? = some held)
    (shard : String) (worker : Worker) :
    (l.moved handle task.signal m).Holds shard worker ↔ l.Holds shard worker := by
  by_cases hsame : shard = task.state.shard
  · subst hsame
    rw [h.holds_moved_iff ht hshard, h.holds_iff ht, hkept]
  · exact h.holds_moved_of_ne ht hshard hsame

/-- The shard of a reader that ends has no reader. -/
theorem not_isRead_finish (h : l.Parted) (ht : l.task? handle = some task) :
    ¬(l.finish handle).IsRead task.state.shard := by
  rintro ⟨t, hlive, hshard⟩
  obtain ⟨hold, hne⟩ := mem_live_finish.mp hlive
  exact hne (congrArg Prod.fst (h.eq_of_shard hold (mem_live_of_task? ht) hshard))

end Parted

end Lifecycle

/-! ### Entries and readers -/

/-- **What the entries of a run say** of the readers that still live, up to shards whose readers broke off. -/
structure Tied (l : Lifecycle (Task Reader)) (log : List Entry) (lost : List String) : Prop where
  /-- All entries of a shard are on one worker. -/
  same : ∀ e ∈ log, ∀ e' ∈ log, e.event.path = e'.event.path → e.worker = e'.worker
  /-- A later entry of another shard is on the same worker only if the first shard was lost. -/
  apart : log.Pairwise fun e e' => e.worker = e'.worker → e.event.path = e'.event.path ∨ e.event.path ∈ lost
  /-- A reader with a worker is the one whose records were entered on it. -/
  mine : ∀ {shard worker}, l.Holds shard worker → ∀ e ∈ log, e.event.path = shard → e.worker = worker.knownAs
  /-- Nothing else was entered on its worker, but of shards that were lost. -/
  alone : ∀ {shard worker}, l.Holds shard worker → ∀ e ∈ log, e.worker = worker.knownAs →
    e.event.path = shard ∨ e.event.path ∈ lost
  /-- A reader whose records were entered keeps its worker until it is told to stop. -/
  kept : ∀ e ∈ log, e.event.path ∈ lost ∨ l.isReleased l.signal = true ∨ ∃ worker, l.Holds e.event.path worker
  gone : ∀ shard ∈ lost, ¬l.IsRead shard

namespace Tied

variable {l l' : Lifecycle (Task Reader)} {log : List Entry} {lost : List String} {shard : String}
  {worker : Worker}

theorem nil (l : Lifecycle (Task Reader)) : Tied l [] [] := by
  constructor <;> simp

/-- Everybody keeps what they have. -/
theorem stays (h : Tied l log lost) (hholds : ∀ shard worker, l'.Holds shard worker ↔ l.Holds shard worker)
    (hread : ∀ shard, l'.IsRead shard → l.IsRead shard)
    (hreleased : l.isReleased l.signal = true → l'.isReleased l'.signal = true) : Tied l' log lost where
  same := h.same
  apart := h.apart
  mine hheld := h.mine ((hholds _ _).mp hheld)
  alone hheld := h.alone ((hholds _ _).mp hheld)
  kept e he := by
    rcases h.kept e he with hlost | hsent | ⟨worker, hheld⟩
    · exact .inl hlost
    · exact .inr (.inl (hreleased hsent))
    · exact .inr (.inr ⟨worker, (hholds _ _).mpr hheld⟩)
  gone shard hlost hlive := h.gone shard hlost (hread shard hlive)

/-- Once the readers are told to stop, they may go. -/
theorem leaves (h : Tied l log lost) (hholds : ∀ shard worker, l'.Holds shard worker → l.Holds shard worker)
    (hread : ∀ shard, l'.IsRead shard → l.IsRead shard) (hreleased : l'.isReleased l'.signal = true) :
    Tied l' log lost where
  same := h.same
  apart := h.apart
  mine hheld := h.mine (hholds _ _ hheld)
  alone hheld := h.alone (hholds _ _ hheld)
  kept _ _ := .inr (.inl hreleased)
  gone shard hlost hlive := h.gone shard hlost (hread shard hlive)

/-- **A reader takes a worker.** Its shard has no entry, since a reader with entries keeps its worker; and whoever has
entries on this worker is lost, since all others still have theirs. -/
theorem hires (h : Tied l log lost) (hsignal : l.isReleased l.signal = false) (hlive : l.IsRead shard)
    (hnone : ∀ other, ¬l.Holds shard other) (hself : ∀ other, l'.Holds shard other → other = worker)
    (hothers : ∀ {other w}, other ≠ shard → (l'.Holds other w ↔ l.Holds other w))
    (hread : ∀ other, l'.IsRead other → l.IsRead other)
    (hapart : ∀ {other w}, l'.Holds other w → w.knownAs = worker.knownAs → other = shard) : Tied l' log lost := by
  have hfree : ∀ e ∈ log, e.event.path ≠ shard := by
    rintro e he rfl
    rcases h.kept e he with hlost | hsent | ⟨other, hheld⟩
    · exact h.gone _ hlost hlive
    · exact Bool.false_ne_true (hsignal.symm.trans hsent)
    · exact hnone other hheld
  refine ⟨h.same, h.apart, ?_, ?_, fun e he => ?_, fun other hlost hm => h.gone other hlost (hread other hm)⟩
  · intro other w hheld e he hpath
    have hne : other ≠ shard := hpath ▸ hfree e he
    exact h.mine ((hothers hne).mp hheld) e he hpath
  · intro other w hheld e he hworker
    by_cases hne : other = shard
    · subst hne
      rw [hself w hheld] at hworker
      rcases h.kept e he with hlost | hsent | ⟨held, hkeeps⟩
      · exact .inr hlost
      · exact absurd (hsignal.symm.trans hsent) Bool.false_ne_true
      · have hsame : held.knownAs = worker.knownAs := (h.mine hkeeps e he rfl).symm.trans hworker
        exact .inl (hapart ((hothers (hfree e he)).mpr hkeeps) hsame)
    · exact h.alone ((hothers hne).mp hheld) e he hworker
  · rcases h.kept e he with hlost | hsent | ⟨held, hkeeps⟩
    · exact .inl hlost
    · exact absurd (hsignal.symm.trans hsent) Bool.false_ne_true
    · exact .inr (.inr ⟨held, (hothers (hfree e he)).mpr hkeeps⟩)

/-- **A record is entered**, on the worker of the reader of its shard. -/
theorem enters (h : Tied l log lost) {entry : Entry} (hheld : l.Holds entry.event.path worker)
    (hworker : entry.worker = worker.knownAs)
    (honly : ∀ {other}, l.Holds entry.event.path other → other = worker)
    (hapart : ∀ {shard w}, l.Holds shard w → w.knownAs = worker.knownAs → shard = entry.event.path) :
    Tied l (log ++ [entry]) lost := by
  have hmine : ∀ e ∈ log, e.event.path = entry.event.path → e.worker = entry.worker := fun e he hpath =>
    (h.mine hheld e he hpath).trans hworker.symm
  constructor
  · intro e he e' he' hpath
    rcases List.mem_append.mp he with hold | hnew
    · rcases List.mem_append.mp he' with hold' | hnew'
      · exact h.same e hold e' hold' hpath
      · rw [List.mem_singleton.mp hnew'] at hpath ⊢
        exact hmine e hold hpath
    · rw [List.mem_singleton.mp hnew] at hpath ⊢
      rcases List.mem_append.mp he' with hold' | hnew'
      · exact (hmine e' hold' hpath.symm).symm
      · rw [List.mem_singleton.mp hnew']
  · refine List.pairwise_append.mpr ⟨h.apart, List.pairwise_singleton _ _, fun e he e' he' hsame => ?_⟩
    rw [List.mem_singleton.mp he'] at hsame ⊢
    exact h.alone hheld e he (hsame.trans hworker)
  · intro shard w hkeeps e he hpath
    rcases List.mem_append.mp he with hold | hnew
    · exact h.mine hkeeps e hold hpath
    · rw [List.mem_singleton.mp hnew] at hpath ⊢
      subst hpath
      rw [hworker, honly hkeeps]
  · intro shard w hkeeps e he hsame
    rcases List.mem_append.mp he with hold | hnew
    · exact h.alone hkeeps e hold hsame
    · rw [List.mem_singleton.mp hnew] at hsame ⊢
      exact .inl (hapart hkeeps (hsame.symm.trans hworker)).symm
  · intro e he
    rcases List.mem_append.mp he with hold | hnew
    · exact h.kept e hold
    · rw [List.mem_singleton.mp hnew]
      exact .inr (.inr ⟨worker, hheld⟩)
  · exact h.gone

/-- **A reader breaks off**, and its shard is lost. -/
theorem breaks (h : Tied l log lost) (hnone : ¬l'.IsRead shard)
    (hothers : ∀ {other w}, other ≠ shard → (l'.Holds other w ↔ l.Holds other w))
    (hread : ∀ other, l'.IsRead other → l.IsRead other)
    (hreleased : l.isReleased l.signal = true → l'.isReleased l'.signal = true) :
    Tied l' log (lost ++ [shard]) := by
  have hold : ∀ {other w}, l'.Holds other w → l.Holds other w := by
    intro other w hheld
    refine (hothers ?_).mp hheld
    rintro rfl
    exact hnone hheld.isRead
  refine ⟨h.same, h.apart.imp fun {e e'} hpair hsame => (hpair hsame).imp_right (List.mem_append_left _),
    fun hheld => h.mine (hold hheld),
    fun hheld e he hsame => (h.alone (hold hheld) e he hsame).imp_right (List.mem_append_left _), ?_, ?_⟩
  · intro e he
    by_cases hpath : e.event.path = shard
    · exact .inl (List.mem_append_right _ (List.mem_singleton.mpr hpath))
    · rcases h.kept e he with hlost | hsent | ⟨worker, hkeeps⟩
      · exact .inl (List.mem_append_left _ hlost)
      · exact .inr (.inl (hreleased hsent))
      · exact .inr (.inr ⟨worker, (hothers hpath).mpr hkeeps⟩)
  · intro other hm hlive
    rcases List.mem_append.mp hm with hm | hm
    · exact h.gone other hm (hread other hlive)
    · rw [List.mem_singleton.mp hm] at hlive
      exact hnone hlive

end Tied

/-! ### Bindings -/

/-- A source that reads a stream, the world around it, the call that stops it, while there is one, and what its tasks
entered since it was started. -/
structure Binding where
  world : World
  source : StreamSource
  stop : Option Stop
  log : List Entry

namespace Binding

/-- A source that never ran. -/
def opened (world : World) (source : StreamSource) : Binding := ⟨world, source, none, []⟩

/-- What the function was entered with in a move. -/
def entered (w w' : World) : List Entry := w'.ambient.entries.toList.drop w.ambient.entries.size

/-- One move of anybody. -/
inductive Step : Binding → Binding → Prop
  /-- Anything else happens around the source. Records are put in, but none is taken out. -/
  | passes (s : Binding) (world : World)
      (h : ∀ shard, s.world.clients.stream.shard shard <+: world.clients.stream.shard shard) :
      Step s { s with world }
  /-- A task of the source moves. -/
  | works (s : Binding) {handle : Nat} {world : World} {source : StreamSource}
      (h : StreamSource.rules.stepLive handle s.world s.source = some (world, source)) :
      Step s { s with world, source, log := s.log ++ entered s.world world }
  /-- The source is started, and a run begins. -/
  | starts (s : Binding) {token : Option String} {source : StreamSource} (h : s.stop = none)
      (hs : s.source.start token = (.ok (), source)) : Step s { s with source, log := [] }
  /-- Somebody tries to start it. -/
  | refuses (s : Binding) {token : Option String} {e : Error} {source : StreamSource} (h : s.stop = none)
      (hs : s.source.start token = (.error e, source)) : Step s { s with source }
  /-- Somebody asks to stop, and nobody else does. -/
  | asks (s : Binding) (force : Bool) (h : s.stop = none) : Step s { s with stop := some (.ready force) }
  /-- The stop begins, or returns. -/
  | stops (s : Binding) {stop : Stop} {m : Move Stop Unit} {world : World} {source : StreamSource}
      (h : s.stop = some stop)
      (hs : StreamSource.rules.stop stop s.world s.source = some (m, world, source)) :
      Step s { s with world, source, stop := m.next? }

/-- No range that can be asked for in a shard ends past the last number. -/
def HasRoom (shard : String) (s : Binding) : Prop :=
  (s.world.clients.stream.shard shard).length + s.source.settings.batchSize < Width.natural64

instance (shard : String) (s : Binding) : Decidable (s.HasRoom shard) := inferInstanceAs (Decidable (_ < _))

/-- The law, for a run of a source. -/
structure Bound (s : Binding) : Prop where
  /-- All records of a shard are entered on one worker. -/
  same : ∀ e ∈ s.log, ∀ e' ∈ s.log, e.event.path = e'.event.path → e.worker = e'.worker
  /-- Records of two shards are not entered on one worker. -/
  apart : ∀ e ∈ s.log, ∀ e' ∈ s.log, s.HasRoom e.event.path → s.HasRoom e'.event.path → e.worker = e'.worker →
    e.event.path = e'.event.path
  /-- One record of a shard is in progress at most. -/
  single : ((Source.stream s.source).underway.map fun call => call.entry.event.path).Nodup

/-- What is in order between any two moves. -/
structure Sound (members : List Worker) (s : Binding) : Prop where
  tended : Tended s.stop s.source.lifecycle
  manned : StreamSource.workload.Manned StreamSource.Suits members s.source
  shards : s.source.settings.shards.Nodup
  readers : (s.source.lifecycle.live.map fun t => t.2.state.shard).Nodup
  signals : ∀ t ∈ s.source.lifecycle.live, t.2.signal = s.source.lifecycle.signal
  carries : ∀ t ∈ s.source.lifecycle.live, t.2.state.Carries
  /-- Shards are lost only where there is no room. -/
  tied : ∃ lost, Tied s.source.lifecycle s.log lost ∧ ∀ shard ∈ lost, ¬s.HasRoom shard

variable {members : List Worker} {s s' : Binding} {shard : String}

theorem Sound.parted (h : Sound members s) : s.source.lifecycle.Parted := ⟨h.tended.distinct, h.readers⟩

/-! ### No worker has two readers -/

/-- What a reader has in hand is its worker. -/
theorem held_of_worker? {r : Reader} {worker : Worker} (h : r.worker? = some worker) :
    r.duty.held = [worker] := by
  cases r with
  | hiring shard allocation => cases h
  | _ =>
    cases h
    rfl

/-- **No worker has two readers**, since every worker is idle or held, in one place. -/
theorem apart_of_manned {source : StreamSource} (hd : (members.map Worker.knownAs).Nodup)
    (h : StreamSource.workload.Manned StreamSource.Suits members source) : source.lifecycle.Apart := by
  rintro shard other worker held ⟨t, ht, rfl, hworker⟩ ⟨t', ht', rfl, hheld⟩ hknown
  by_contra hne
  have htask : source.lifecycle.task? t.1 = some t.2 := (Lifecycle.task?_eq_some h.distinct).mpr ht
  have hothers : t' ∈ (source.lifecycle.finish t.1).live := by
    refine Lifecycle.mem_live_finish.mpr ⟨ht', fun hsame => hne ?_⟩
    have htask' : source.lifecycle.task? t'.1 = some t'.2 := (Lifecycle.task?_eq_some h.distinct).mpr ht'
    rw [hsame, htask, Option.some.injEq] at htask'
    rw [htask']
  obtain ⟨hduties, -⟩ := Workload.perm_duties (k := StreamSource.workload) h.distinct htask
  have hall : (source.desk.crew.pool.idle ++ ([worker] ++
      (StreamSource.workload.duties (source.lifecycle.finish t.1)).held)).Perm members := by
    have hperm : (StreamSource.workload.duties source.lifecycle).held.Perm
        (t.2.state.duty.held ++ (StreamSource.workload.duties (source.lifecycle.finish t.1)).held) := hduties.held
    rw [held_of_worker? hworker] at hperm
    exact (hperm.symm.append_left _).trans h.staffed.accounts.workers
  have hmine : held ∈ (StreamSource.workload.duties (source.lifecycle.finish t.1)).held := by
    refine List.mem_flatMap.mpr ⟨t'.2.state.duty, List.mem_map_of_mem (f := fun t => t.2.state.duty) hothers, ?_⟩
    rw [held_of_worker? hheld]
    exact List.mem_singleton_self held
  have hnodup := (hall.map Worker.knownAs).nodup_iff.mpr hd
  rw [List.map_append, List.map_append] at hnodup
  have hrest := (List.nodup_append.mp hnodup).2.1
  rw [List.map_singleton, List.singleton_append, List.nodup_cons] at hrest
  exact hrest.1 (hknown ▸ List.mem_map_of_mem hmine)

/-! ### One move of anybody -/

theorem entered_of_eq {w w' : World} (h : w'.ambient.entries = w.ambient.entries) : entered w w' = [] := by
  rw [entered, h]
  exact List.drop_eq_nil_of_le (Nat.le_of_eq Array.length_toList)

theorem entered_of_push {w w' : World} {entry : Entry}
    (h : w'.ambient.entries = w.ambient.entries.push entry) : entered w w' = [entry] := by
  rw [entered, h, Array.toList_push]
  exact List.drop_left' Array.length_toList

/-- **What the entries say after a move of a reader.** Only a reader that breaks off is lost. -/
theorem tied_moved {source : StreamSource} {handle : Nat} {task : Task Reader} {m : Move Reader Unit} {w w' : World}
    {log : List Entry} {lost : List String} (h : Tied source.lifecycle log lost) (hp : source.lifecycle.Parted)
    (ht : source.lifecycle.task? handle = some task) (hsignal : task.signal = source.lifecycle.signal)
    (hd : task.state.Deed task.signal m w w' source)
    (hapart : (source.lifecycle.moved handle task.signal m).Apart) :
    ∃ lost', Tied (source.lifecycle.moved handle task.signal m) (log ++ entered w w') lost' ∧
      ∀ shard ∈ lost', shard ∈ lost ∨
        Width.natural64 ≤ (w.clients.stream.shard shard).length + source.settings.batchSize := by
  have hreleased : source.lifecycle.isReleased source.lifecycle.signal = true →
      (source.lifecycle.moved handle task.signal m).isReleased
        (source.lifecycle.moved handle task.signal m).signal = true := by
    rw [Lifecycle.signal_moved, Lifecycle.isReleased_moved]
    exact id
  have hkeeps := hd.shard_eq
  have hread : ∀ shard, (source.lifecycle.moved handle task.signal m).IsRead shard → source.lifecycle.IsRead shard :=
    fun _ => Lifecycle.isRead_moved ht hkeeps
  have hsame : ∀ shard ∈ lost, shard ∈ lost ∨
      Width.natural64 ≤ (w.clients.stream.shard shard).length + source.settings.batchSize := fun _ => .inl
  cases hd with
  | @stays next hm hshard hworker hcarries hentries =>
    subst hm
    rw [entered_of_eq hentries, List.append_nil]
    refine ⟨lost, h.stays (hp.holds_moved_of_kept ht hkeeps fun held => ?_) hread hreleased, hsame⟩
    simp [Move.next?, hworker]
  | @hires next worker hnot hm hshard hnone hworker hcarries hentries =>
    subst hm
    have hself : ∀ other, (source.lifecycle.moved handle task.signal (.goes next)).Holds task.state.shard other ↔
        other = worker := by
      intro other
      rw [hp.holds_moved_iff ht hkeeps]
      simp [Move.next?, hworker, eq_comm]
    rw [entered_of_eq hentries, List.append_nil]
    refine ⟨lost, h.hires (hsignal ▸ hnot) ⟨_, Lifecycle.mem_live_of_task? ht, rfl⟩ ?_ (fun other => (hself other).mp)
      (hp.holds_moved_of_ne ht hkeeps) hread (hapart ((hself worker).mpr rfl)), hsame⟩
    intro other hheld
    rw [hp.holds_iff ht, hnone] at hheld
    cases hheld
  | @enters next worker event hm hshard hheld hworker hcarries hpath hentries =>
    subst hm
    have hsteady := hp.holds_moved_of_kept ht hkeeps fun held => by simp [Move.next?, hworker, hheld]
    have hstays := h.stays hsteady hread hreleased
    have hmine : (source.lifecycle.moved handle task.signal (.goes next)).Holds event.path worker := by
      rw [hsteady, hpath, hp.holds_iff ht]
      exact hheld
    rw [entered_of_push hentries]
    refine ⟨lost, hstays.enters hmine rfl (fun {other} hother => ?_) (hapart hmine), hsame⟩
    rw [hsteady, hpath, hp.holds_iff ht, hheld] at hother
    exact (Option.some.inj hother).symm
  | leaves hm hcause hentries =>
    subst hm
    rw [entered_of_eq hentries, List.append_nil]
    rcases hcause with hnone | hsent
    · refine ⟨lost, h.stays (hp.holds_moved_of_kept ht hkeeps fun held => ?_) hread hreleased, hsame⟩
      simp [Move.next?, hnone]
    · refine ⟨lost, h.leaves (fun shard worker hheld => ?_) hread (hreleased (hsignal ▸ hsent)), hsame⟩
      obtain ⟨t, hlive, hshard, hworker⟩ := hheld
      exact ⟨t, (Lifecycle.mem_live_finish.mp hlive).1, hshard, hworker⟩
  | breaks hm hnot hheld hover hentries =>
    subst hm
    rw [entered_of_eq hentries, List.append_nil]
    refine ⟨lost ++ [task.state.shard], h.breaks (hp.not_isRead_finish ht) (hp.holds_moved_of_ne ht hkeeps) hread
      hreleased, fun shard hshard => ?_⟩
    rcases List.mem_append.mp hshard with hold | hnew
    · exact .inl hold
    · rw [List.mem_singleton.mp hnew]
      exact .inr hover

namespace Sound

/-- Records are put in. -/
theorem passes (h : Sound members s) {world : World}
    (hworld : ∀ shard, s.world.clients.stream.shard shard <+: world.clients.stream.shard shard) :
    Sound members { s with world } := by
  obtain ⟨lost, htied, hlost⟩ := h.tied
  refine { h with tied := ⟨lost, htied, fun shard hm hroom => hlost shard hm ?_⟩ }
  exact lt_of_le_of_lt (Nat.add_le_add_right (hworld shard).length_le _) hroom

/-- **A task moves.** -/
theorem works (hserial : (members.map Worker.serial).Nodup) (hd : (members.map Worker.knownAs).Nodup)
    (h : Sound members s) {handle : Nat} {world : World} {source : StreamSource}
    (hs : StreamSource.rules.stepLive handle s.world s.source = some (world, source)) :
    Sound members { s with world, source, log := s.log ++ entered s.world world } := by
  have hmanned := h.manned.works StreamSource.staffing StreamSource.workload_lawful hserial hs
  obtain ⟨task, m, s₁, htask, hstep, rfl⟩ := TaskRules.stepLive_cases hs
  have hm := Lifecycle.mem_live_of_task? htask
  have hmoves := StreamSource.moves_of_step hstep
  have hdeed := Reader.deed_of_moves (h.carries _ hm) hmoves
  obtain ⟨-, hrecords, hlifecycle, hsettings⟩ := Reader.frame_of_moves hmoves
  have hshards := hrecords.shard_eq
  have hkept : StreamSource.rules.lifecycle s₁ = s.source.lifecycle := hlifecycle
  rw [hkept] at hmanned ⊢
  have hlive : ∀ t, t ∈ (s.source.lifecycle.moved handle task.signal m).live ↔
      (t ∈ s.source.lifecycle.live ∧ t.1 ≠ handle) ∨ ∃ next ∈ m.next?, t = (handle, ⟨task.signal, next⟩) := fun _ =>
    Lifecycle.mem_live_moved (Lifecycle.mem_alive_of_task? htask)
  obtain ⟨lost, htied, hlost⟩ := h.tied
  obtain ⟨lost', htied', hlost'⟩ := tied_moved htied h.parted htask (h.signals _ hm) hdeed
    (apart_of_manned hd hmanned)
  constructor
  · exact h.tended.moved _ _ _
  · exact hmanned
  · exact hsettings ▸ h.shards
  · exact (h.parted.moved htask hdeed.shard_eq).readers
  · intro t ht
    rcases (hlive t).mp ht with ⟨hold, -⟩ | ⟨next, hnext, rfl⟩
    · exact (h.signals t hold).trans (Lifecycle.signal_moved _).symm
    · exact (h.signals _ hm).trans (Lifecycle.signal_moved _).symm
  · intro t ht
    rcases (hlive t).mp ht with ⟨hold, -⟩ | ⟨next, hnext, rfl⟩
    · exact h.carries t hold
    · exact hdeed.carries next hnext
  · refine ⟨lost', htied', fun shard hshard hroom => ?_⟩
    have hroom' : s.HasRoom shard := by
      rw [HasRoom, ← hsettings, ← hshards]
      exact hroom
    rcases hlost' shard hshard with hold | hover
    · exact hlost shard hold hroom'
    · exact absurd hroom' (Nat.not_lt.mpr hover)

/-- **A stop moves.** From the moment in which it sends the signal, readers may leave. -/
theorem stops (hserial : (members.map Worker.serial).Nodup) (h : Sound members s) {stop : Stop}
    {m : Move Stop Unit} {world : World} {source : StreamSource} (hstop : s.stop = some stop)
    (hs : StreamSource.rules.stop stop s.world s.source = some (m, world, source)) :
    Sound members { s with world, source, stop := m.next? } := by
  have hmanned := h.manned.stops StreamSource.staffing StreamSource.workload_lawful hserial hs
  have hafter := TaskRules.afterStop_of_stop StreamSource.rules_lawful hs
  have htended := (hstop ▸ h.tended).stopped hafter
  obtain ⟨rfl, -, hsettings⟩ := StreamSource.stop_frame hs
  -- Either nothing changes, or the signal is sent and some of the tasks are given up.
  have hcases : source.lifecycle = s.source.lifecycle ∨
      ∃ force, source.lifecycle = s.source.lifecycle.halted force := by
    rcases Lifecycle.afterStop_cases hafter with ⟨_, -, -, -, heq⟩ | ⟨force, -, -, -, heq⟩ | ⟨_, -, -, -, heq⟩
    · exact .inl heq
    · exact .inr ⟨force, heq⟩
    · exact .inl heq
  have hsub : source.lifecycle.live.Sublist s.source.lifecycle.live := by
    rcases hcases with heq | ⟨force, heq⟩
    · rw [heq]
    · rw [heq]
      cases force with
      | false => exact .refl _
      | true => exact List.filter_sublist
  have hsignal : source.lifecycle.signal = s.source.lifecycle.signal := by
    rcases hcases with heq | ⟨force, heq⟩ <;> rw [heq]
    rfl
  obtain ⟨lost, htied, hlost⟩ := h.tied
  refine ⟨htended, hmanned, hsettings ▸ h.shards, h.readers.sublist (hsub.map _),
    fun t ht => (h.signals t (hsub.subset ht)).trans hsignal.symm, fun t ht => h.carries t (hsub.subset ht),
    lost, ?_, fun shard hshard hroom => hlost shard hshard (by rw [HasRoom, ← hsettings]; exact hroom)⟩
  rcases hcases with heq | ⟨force, heq⟩
  · exact heq ▸ htied
  · have hsent : source.lifecycle.isReleased source.lifecycle.signal = true := by
      rw [heq]
      simp [Lifecycle.isReleased, Lifecycle.isTriggered, Lifecycle.halted]
    refine htied.leaves ?_ ?_ hsent
    · rintro shard worker ⟨t, ht, hshard, hworker⟩
      exact ⟨t, hsub.subset ht, hshard, hworker⟩
    · rintro shard ⟨t, ht, hshard⟩
      exact ⟨t, hsub.subset ht, hshard⟩

/-- Only the positions of the source change. -/
theorem advised (h : Sound members s) (given : Keyed String) :
    Sound members { s with source := s.source.advised given } where
  tended := h.tended
  manned := h.manned.alike ⟨rfl, rfl, id⟩ h.manned.suited
  shards := h.shards
  readers := h.readers
  signals := h.signals
  carries := h.carries
  tied := h.tied

/-- **A run begins.** Nothing has been entered in it. -/
theorem launched (h : Sound members s) (hstop : s.stop = none) (hrun : s.source.lifecycle.running = false) :
    Sound members { s with source := s.source.launched, log := [] } := by
  have htended := h.tended
  rw [hstop] at htended
  have hlive : s.source.lifecycle.live = [] := htended.still hrun (by simp)
  let readers : List Reader := s.source.settings.shards.map (Reader.hiring · (.asking none))
  have hstart : s.source.launched = (StreamSource.rules.start readers s.source).2 := by
    rw [TaskRules.start_eq hrun, StreamSource.launched, List.map_map]
    rfl
  have hcount : readers.length ≤ members.length := by
    rw [List.length_map]
    exact h.manned.suited
  obtain ⟨hmanned, hbegun⟩ := h.manned.begins StreamSource.staffing StreamSource.workload_lawful hrun hlive hcount
    fun r hr => by obtain ⟨shard, -, rfl⟩ := List.mem_map.mp hr; rfl
  have htasks := Lifecycle.map_snd_live_spawnAll
    (s.source.settings.shards.map fun shard => Task.mk (s.source.lifecycle.signal + 1)
      (Reader.hiring shard (.asking none)))
    { s.source.lifecycle with running := true, signal := s.source.lifecycle.signal + 1 }
  rw [hlive, List.map_nil, List.nil_append] at htasks
  have hmem : ∀ t ∈ s.source.launched.lifecycle.live, ∃ shard ∈ s.source.settings.shards,
      Task.mk (s.source.lifecycle.signal + 1) (Reader.hiring shard (.asking none)) = t.2 := fun t ht =>
    List.mem_map.mp (htasks ▸ List.mem_map_of_mem ht)
  refine ⟨?_, ?_, h.shards, ?_, fun t ht => ?_, fun t ht => ?_, [], .nil _, fun _ hm => (by cases hm)⟩
  · rw [hstart, hstop]
    exact hbegun
  · rw [hstart]
    exact hmanned
  · have hshards := congrArg (List.map fun task : Task Reader => task.state.shard) htasks
    rw [List.map_map, List.map_map] at hshards
    exact (hshards.trans (List.map_id _)).symm ▸ h.shards
  · obtain ⟨shard, -, heq⟩ := hmem t ht
    have hsignal : s.source.launched.lifecycle.signal = s.source.lifecycle.signal + 1 := by
      rw [StreamSource.launched, Lifecycle.spawnAll_eq]
    rw [← heq, hsignal]
  · obtain ⟨shard, -, heq⟩ := hmem t ht
    rw [← heq]
    trivial

/-- **One move of anybody.** -/
theorem step (hserial : (members.map Worker.serial).Nodup) (hd : (members.map Worker.knownAs).Nodup)
    (h : Sound members s) (hs : Step s s') : Sound members s' := by
  cases hs with
  | passes world hworld => exact h.passes hworld
  | works hwork => exact h.works hserial hd hwork
  | @starts token source hstop hstart =>
    rcases StreamSource.start_cases token s.source with ⟨_, _, -, -, heq⟩ | ⟨_, -, -, heq⟩ |
      ⟨given, -, hrun, heq⟩
    · rw [heq] at hstart
      cases hstart
    · rw [heq] at hstart
      cases hstart
    · rw [heq] at hstart
      cases hstart
      exact (h.advised given).launched hstop hrun
  | @refuses token e source hstop hstart =>
    rcases StreamSource.start_cases token s.source with ⟨_, _, -, -, heq⟩ | ⟨given, -, -, heq⟩ |
      ⟨_, -, -, heq⟩
    · rw [heq] at hstart
      cases hstart
      exact h
    · rw [heq] at hstart
      cases hstart
      exact h.advised given
    · rw [heq] at hstart
      cases hstart
  | asks force hstop => exact { h with tended := (hstop ▸ h.tended).ready force }
  | stops hstop hmove => exact h.stops hserial hstop hmove

theorem of_reachable (hserial : (members.map Worker.serial).Nodup) (hd : (members.map Worker.knownAs).Nodup)
    (h : Sound members s) (hr : Relation.ReflTransGen Step s s') : Sound members s' := by
  induction hr with
  | refl => exact h
  | tail _ hs ih => exact ih.step hserial hd hs

end Sound

/-! ### The law -/

/-- Each reader has one record of its shard in progress at most. -/
theorem sublist_underway (live : List (Nat × Task Reader)) (h : ∀ t ∈ live, t.2.state.Carries) :
    ((Duty.all (live.map fun t => t.2.state.duty)).calls.map fun call => call.entry.event.path).Sublist
      (live.map fun t => t.2.state.shard) := by
  have hone : ∀ r : Reader, r.Carries →
      (r.duty.calls.map fun call => call.entry.event.path).Sublist [r.shard] := by
    intro r hr
    cases r with
    | handling shard worker record rest next assignment =>
      cases assignment with
      | running held event run =>
        rw [← show event.path = shard from hr.2]
        exact .refl _
      | _ => exact List.nil_sublist _
    | _ => exact List.nil_sublist _
  induction live with
  | nil => exact .refl _
  | cons t live ih =>
    rw [List.map_cons, Duty.all_cons, Duty.and, List.map_append, List.map_cons, ← List.singleton_append]
    exact (hone _ (h t List.mem_cons_self)).append (ih fun other hm => h other (List.mem_cons_of_mem _ hm))

theorem Sound.bound (h : Sound members s) : Bound s := by
  obtain ⟨lost, htied, hlost⟩ := h.tied
  refine ⟨htied.same, fun e he e' he' hroom hroom' => ?_, ?_⟩
  · let Splits (e e' : Entry) : Prop := s.HasRoom e.event.path → s.HasRoom e'.event.path →
      e.worker = e'.worker → e.event.path = e'.event.path
    have hsymm : Std.Symm Splits := ⟨fun e e' hsplits h h' hsame => (hsplits h' h hsame.symm).symm⟩
    have hpairs : s.log.Pairwise Splits := htied.apart.imp fun hpair h _ hsame =>
      (hpair hsame).resolve_right fun hm => hlost _ hm h
    exact hpairs.forall_of_forall (fun _ _ _ _ _ => rfl) he he' hroom hroom'
  · exact h.readers.sublist (sublist_underway _ h.carries)

theorem knownAs_members (count : Nat) :
    (Crew.ofCount .exclusive count).members.map Worker.knownAs = List.range count := by
  have hfst : (Worker.knownAs ∘ fun x : Nat × Nat => (⟨x.2, x.1, x.1⟩ : Worker)) = Prod.fst := rfl
  change ((List.range count).zipIdx.map fun x : Nat × Nat => (⟨x.2, x.1, x.1⟩ : Worker)).map Worker.knownAs = _
  rw [List.map_map, hfst, List.zipIdx_map_fst]

/-- What the factory makes has a worker for each shard, and no shard twice. -/
theorem exists_of_kinesis {id : String} {trigger : TriggerSettings} {workshop : Workshop} {source : StreamSource}
    (h : SourceFactory.kinesis id trigger workshop = .ok (.stream source)) :
    ∃ settings : StreamSettings, settings.shards.Nodup ∧ source =
      .new ⟨id, "kinesis", .async⟩ settings (.ofCount .exclusive settings.shards.length) := by
  rw [SourceFactory.kinesis] at h
  split at h
  · cases h
  next settings hchecked =>
    obtain ⟨crew, hcrew, hsource⟩ := exists_of_map_eq_ok h
    cases hsource
    rw [Workshop.crew_eq_ofCount hcrew]
    refine ⟨settings, ?_, rfl⟩
    rw [TriggerSettings.checked] at hchecked
    split at hchecked
    · cases hchecked
    · obtain ⟨u, hcheck, rfl⟩ := exists_of_map_eq_ok hchecked
      rw [StreamSettings.check] at hcheck
      split at hcheck
      · cases hcheck
      · split at hcheck
        · cases hcheck
        next hnodup => exact not_not.mp hnodup

theorem sound_opened {info : SourceInfo} {settings : StreamSettings} {crew : Crew} (hfresh : crew.Fresh)
    (hcount : settings.shards.length ≤ crew.members.length) (hshards : settings.shards.Nodup) (world : World) :
    Sound crew.members (opened world (.new info settings crew)) := by
  have hstaffed : (Desk.new info crew).Staffed crew.members [] [] :=
    @Desk.staffed_of_fresh (Desk.new info crew) hfresh rfl
  exact ⟨.new, ⟨hcount, List.nodup_nil, Nat.zero_le _, hstaffed⟩, hshards, List.nodup_nil,
    fun _ hm => (by cases hm), fun _ hm => (by cases hm), [], .nil _, fun _ hm => (by cases hm)⟩

/-- **Each shard has a worker of its own.** Whatever happens to a source that the factory makes, while starts and stops
come one at a time: in the run that began last, all records of a shard are entered on one worker, and one of them is in
progress at most. Records of two shards are entered on different workers, unless a range that is asked for in one of
the two shards can end past the last number. -/
theorem bound_of_reachable {id : String} {trigger : TriggerSettings} {workshop : Workshop} {source : StreamSource}
    (hmade : SourceFactory.kinesis id trigger workshop = .ok (.stream source)) {world : World}
    (hr : Relation.ReflTransGen Step (opened world source) s) : Bound s := by
  obtain ⟨settings, hshards, rfl⟩ := exists_of_kinesis hmade
  have hfresh : (Crew.ofCount .exclusive settings.shards.length).Fresh := Crew.fresh_ofIndices _ _
  have hknown := knownAs_members settings.shards.length
  have hcount := congrArg List.length hknown
  rw [List.length_map, List.length_range] at hcount
  have hdistinct : ((Crew.ofCount .exclusive settings.shards.length).members.map Worker.knownAs).Nodup :=
    hknown ▸ List.nodup_range
  exact ((sound_opened hfresh hcount.ge hshards world).of_reachable hfresh.distinct hdistinct hr).bound

/-- The tasks behind some handles move, one after another. -/
def worked : List Nat → Binding → Option Binding
  | [], s => some s
  | handle :: handles, s =>
    match StreamSource.rules.stepLive handle s.world s.source with
    | none => none
    | some (world, source) => worked handles { s with world, source, log := s.log ++ entered s.world world }

theorem reachable_of_worked {handles : List Nat} (h : worked handles s = some s') :
    Relation.ReflTransGen Step s s' := by
  induction handles generalizing s with
  | nil =>
    rw [worked, Option.some.injEq] at h
    rw [h]
  | cons handle handles ih =>
    rw [worked] at h
    split at h
    · cases h
    next hs => exact (ih h).head (.works s hs)

/-- A stream with a record in each of two shards. -/
def twoRecords : World :=
  let w := World.start ⟨0, 0⟩ .echo
  let stream := (w.clients.stream.put "a" "k" .empty ⟨0, 0⟩).2
  { w with clients := { w.clients with stream := (stream.put "b" "k" .empty ⟨0, 0⟩).2 } }

/-- A trigger of a source that reads two shards, without a pause between two requests. -/
def twoShards (batchSize : Nat) : TriggerSettings :=
  ⟨"kinesis", none, 0, [("batch_size", .num (.natural batchSize)), ("poll_interval_ms", .num (.natural 0)),
    ("shards", .arr [.str "a", .str "b"]), ("stream_name", .str "st")]⟩

/-- The readers of two shards take a worker each, and the function runs on a record of each shard. -/
theorem bound_two_shards : ∃ source s, SourceFactory.kinesis "k" (twoShards 100) ⟨.echo, {}⟩ = .ok (.stream source) ∧
    Relation.ReflTransGen Step (opened twoRecords source) s ∧
    s.log.map (fun e => (e.event.path, e.worker)) = [("a", 1), ("b", 0)] ∧ s.HasRoom "a" ∧ s.HasRoom "b" ∧
    Bound s := by
  let source : StreamSource := .new ⟨"k", "kinesis", .async⟩ ⟨"st", ["a", "b"], 0, 100⟩ (.ofIndices .exclusive [0, 1])
  have hmade : SourceFactory.kinesis "k" (twoShards 100) ⟨.echo, {}⟩ = .ok (.stream source) := rfl
  have hstarted : Relation.ReflTransGen Step (opened twoRecords source) _ :=
    .single (@Step.starts _ none _ rfl rfl)
  have hworked : (worked [0, 0, 1, 1, 0, 0, 0, 0, 0, 0, 0, 1, 1, 1, 1, 1, 1, 1]
      { opened twoRecords source with source := (source.start none).2 }).map
      (fun s => (s.log.map fun e => (e.event.path, e.worker), decide (s.HasRoom "a"), decide (s.HasRoom "b"))) =
    some ([("a", 1), ("b", 0)], true, true) := by
    decide +kernel
  obtain ⟨s, hs, hview⟩ := Option.map_eq_some_iff.mp hworked
  simp only [Prod.mk.injEq, decide_eq_true_eq] at hview
  obtain ⟨hlog, hroom, hroom'⟩ := hview
  have hr := hstarted.trans (reachable_of_worked hs)
  exact ⟨source, s, hmade, hr, hlog, hroom, hroom', bound_of_reachable hmade hr⟩

/-- Two shards do not always have two workers. A source may be set to fetch as many records at a time as 64 bits can
count. Its first reader handles a record, and breaks off at the next request before the second reader has taken a
worker. -/
theorem not_apart_of_largest_limit : ¬ ∀ (id : String) (trigger : TriggerSettings) (workshop : Workshop)
    (source : StreamSource) (world : World) (s : Binding),
    SourceFactory.kinesis id trigger workshop = .ok (.stream source) →
      Relation.ReflTransGen Step (opened world source) s →
      ∀ e ∈ s.log, ∀ e' ∈ s.log, e.worker = e'.worker → e.event.path = e'.event.path := by
  intro hlaw
  let source : StreamSource :=
    .new ⟨"k", "kinesis", .async⟩ ⟨"st", ["a", "b"], 0, 18446744073709551615⟩ (.ofIndices .exclusive [0, 1])
  have hmade : SourceFactory.kinesis "k" (twoShards 18446744073709551615) ⟨.echo, {}⟩ = .ok (.stream source) := rfl
  have hstarted : Relation.ReflTransGen Step (opened twoRecords source) _ :=
    .single (@Step.starts _ none _ rfl rfl)
  have hworked : (worked [0, 0, 0, 0, 0, 0, 0, 0, 0, 0, 0, 0, 0, 0, 1, 1, 1, 1, 1, 1, 1, 1, 1]
      { opened twoRecords source with source := (source.start none).2 }).map
      (fun s => s.log.map fun e => (e.event.path, e.worker)) = some [("a", 1), ("b", 1)] := by
    decide +kernel
  obtain ⟨s, hs, hlog⟩ := Option.map_eq_some_iff.mp hworked
  have hfind : ∀ shard, (shard, 1) ∈ [("a", 1), ("b", 1)] → ∃ e ∈ s.log, e.event.path = shard ∧ e.worker = 1 := by
    intro shard hm
    rw [← hlog] at hm
    obtain ⟨e, he, heq⟩ := List.mem_map.mp hm
    exact ⟨e, he, congrArg Prod.fst heq, congrArg Prod.snd heq⟩
  obtain ⟨e, he, hpath, hworker⟩ := hfind "a" (by decide)
  obtain ⟨e', he', hpath', hworker'⟩ := hfind "b" (by decide)
  have hsame := hlaw _ _ _ source _ s hmade (hstarted.trans (reachable_of_worked hs)) e he e' he'
    (hworker.trans hworker'.symm)
  rw [hpath, hpath'] at hsame
  exact absurd hsame (by decide)

end Binding

end EventDispatch
