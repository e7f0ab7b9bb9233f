import EventDispatch.Proofs.Numerals
import EventDispatch.Proofs.StreamMoves

/-!
# Reading a shard

A position is a number of records in digits, and a checkpoint names the last record handled. Both say
how many records of a shard are done, and what a reader does with them keeps the two together: it goes
on with the record after the last one done, fetches what follows, and hands it out one by one.

## What is deliberately absent

Nothing is said of workers. A reader that waits for a worker, or never gets one, reads nothing.

## Main definitions

* `RecordStream.Ordered`: no two records of a shard have one sequence number.
* `Record.lastOf`: the sequence number of the last of the records done.
* `Reader.Fits`: a reader is where so many records of its shard are done.
* `Reader.Effect`: what a move of such a reader does.

## Main results

* `RecordStream.initialPosition_lastOf`, `RecordStream.getRecords_toString`: the two positions agree.
* `Reader.effect_of_moves`: every move of a reader that fits has such an effect.
-/

namespace EventDispatch

/-- The sequence number of the last of the first `count` records. -/
def Record.lastOf (records : List Record) (count : Nat) : Option String :=
  ((records.take count).map Record.sequence).getLast?

namespace Record

variable {records more : List Record} {count : Nat}

/-- Records that are appended come after those done. -/
theorem lastOf_append (hc : count ≤ records.length) : lastOf (records ++ more) count = lastOf records count := by
  rw [lastOf, lastOf, List.take_append_of_le_length hc]

theorem lastOf_succ {record : Record} (h : records[count]? = some record) :
    lastOf records (count + 1) = some record.sequence := by
  obtain ⟨hlt, rfl⟩ := List.getElem?_eq_some_iff.mp h
  rw [lastOf, List.take_succ_eq_append_getElem hlt, List.map_append]
  simp

theorem lastOf_eq_none (hc : count ≤ records.length) : lastOf records count = none ↔ count = 0 := by
  rw [lastOf, List.getLast?_eq_none_iff, List.map_eq_nil_iff, List.take_eq_nil_iff]
  refine ⟨fun h => h.elim id fun hnil => ?_, .inl⟩
  rw [hnil] at hc
  exact Nat.le_zero.mp hc

end Record

namespace RecordStream

variable {s s' : RecordStream} {shard : String} {count : Nat}

/-- Sequence numbers were given out, and no two records of a shard have the same. -/
structure Ordered (s : RecordStream) : Prop where
  issued : ∀ shard, ∀ r ∈ s.shard shard, ∃ n ≤ s.issued, r.sequence = sequenceText n
  distinct : ∀ shard, ((s.shard shard).map Record.sequence).Nodup

/-- The records are the same; only requests for them were made. -/
structure SameRecords (s s' : RecordStream) : Prop where
  shards : s'.shards = s.shards
  issued : s'.issued = s.issued

theorem SameRecords.refl (s : RecordStream) : SameRecords s s := ⟨rfl, rfl⟩

theorem SameRecords.shard_eq (h : SameRecords s s') (shard : String) : s'.shard shard = s.shard shard := by
  rw [RecordStream.shard, RecordStream.shard, h.shards]

theorem SameRecords.ordered (h : SameRecords s s') (ho : s.Ordered) : s'.Ordered := by
  refine ⟨fun shard => ?_, fun shard => ?_⟩
  · rw [h.shard_eq, h.issued]
    exact ho.issued shard
  · rw [h.shard_eq]
    exact ho.distinct shard

theorem ordered_new : Ordered new :=
  ⟨fun _ _ hr => by (cases hr), fun _ => List.nodup_nil⟩

theorem shard_put (id key : String) (data : ByteArray) (now : Timestamp) (s : RecordStream)
    (shard : String) : (s.put id key data now).2.shard shard = s.shard shard ++
      if shard = id then [⟨sequenceText (s.issued + 1), key, data, now⟩] else [] := by
  rw [put, RecordStream.shard, Keyed.get?_insert]
  split
  next h => rw [h]; rfl
  next => rw [List.append_nil]; rfl

/-- A record that is put in has a sequence number of its own. -/
theorem Ordered.put (h : s.Ordered) (id key : String) (data : ByteArray) (now : Timestamp) :
    (s.put id key data now).2.Ordered := by
  refine ⟨fun shard r hr => ?_, fun shard => ?_⟩
  · rw [shard_put, List.mem_append] at hr
    rcases hr with hr | hr
    · obtain ⟨n, hn, hq⟩ := h.issued shard r hr
      exact ⟨n, Nat.le_succ_of_le hn, hq⟩
    · split at hr
      · rw [List.mem_singleton] at hr
        exact ⟨s.issued + 1, Nat.le_refl _, by rw [hr]⟩
      · cases hr
  · rw [shard_put, List.map_append]
    split
    · refine List.nodup_append.mpr ⟨h.distinct shard, by simp, ?_⟩
      intro q hq q' hq' heq
      obtain ⟨r, hr, rfl⟩ := List.mem_map.mp hq
      obtain ⟨n, hn, hseq⟩ := h.issued shard r hr
      rw [List.map_singleton, List.mem_singleton] at hq'
      rw [hq', hseq] at heq
      have := sequenceText_injective heq
      omega
    · simpa using h.distinct shard

/-! ### Positions -/

theorem getRecords_sameRecords (shard position : String) (limit : Nat) (s : RecordStream) :
    SameRecords s (s.getRecords shard position limit).2 := by
  rw [getRecords]
  dsimp only
  split
  · exact ⟨rfl, rfl⟩
  · split
    · exact ⟨rfl, rfl⟩
    · split <;> exact ⟨rfl, rfl⟩

/-- What follows the first `count` records is fetched from the position `count`. -/
theorem getRecords_toString {b : RecordBatch} {limit : Nat} (hc : count ≤ (s.shard shard).length)
    (h : (s.getRecords shard (toString count) limit).1 = .batch b) :
    b.records <+: (s.shard shard).drop count ∧ b.nextPosition = toString (count + b.records.length) := by
  unfold getRecords at h
  rw [Decimal.natural?_toString] at h
  dsimp only at h
  split at h
  · cases h
  · split at h
    · cases h
    next number heq =>
      have hnumber : number = count := by
        split at heq
        · exact (Option.some.inj heq).symm
        · cases heq
      subst hnumber
      split at h
      · cases h
      · obtain rfl := Fetched.batch.inj h
        have hfirst : min number (s.shard shard).length = number := Nat.min_eq_left hc
        have hshard : RecordStream.shard shard { s with fetches := s.fetches ++ [(shard, toString number)] }
            = s.shard shard := rfl
        simp only [hshard, hfirst]
        refine ⟨List.take_prefix _ _, ?_⟩
        rw [List.length_take, List.length_drop]
        congr 1
        omega

/-- The record after the last one done is found under its number. -/
theorem initialPosition_lastOf {position : String} (ho : s.Ordered) (hc : count ≤ (s.shard shard).length)
    (h : s.initialPosition shard (Record.lastOf (s.shard shard) count) = .ok position) :
    position = toString count := by
  cases count with
  | zero =>
    have hnone : Record.lastOf (s.shard shard) 0 = none := rfl
    rw [hnone] at h
    exact (Except.ok.inj h).symm
  | succ k =>
    have hk : k < (s.shard shard).length := hc
    have hlast : Record.lastOf (s.shard shard) (k + 1) = some (s.shard shard)[k].sequence :=
      Record.lastOf_succ (List.getElem?_eq_getElem hk)
    have hfind : (s.shard shard).findIdx? (fun r => r.sequence == (s.shard shard)[k].sequence) = some k := by
      rw [List.findIdx?_eq_some_iff_getElem]
      refine ⟨hk, by simp, fun j hj => ?_⟩
      have hdistinct := ho.distinct shard
      simp only [beq_iff_eq]
      intro heq
      have hmap : ((s.shard shard).map Record.sequence)[j]? = ((s.shard shard).map Record.sequence)[k]? := by
        rw [List.getElem?_map, List.getElem?_map, List.getElem?_eq_getElem (Nat.lt_trans hj hk),
          List.getElem?_eq_getElem hk, Option.map_some, Option.map_some, heq]
      have := (List.getElem?_inj (by rw [List.length_map]; exact Nat.lt_trans hj hk) hdistinct).mp hmap
      omega
    rw [hlast] at h
    unfold initialPosition at h
    simp only [hfind] at h
    exact (Except.ok.inj h).symm

end RecordStream

/-! ### Readers -/

/-- Around a reader the records stay. -/
theorem World.Reads.sameRecords {w w' : World} (h : w.Reads w') :
    RecordStream.SameRecords w.clients.stream w'.clients.stream := by
  obtain ⟨⟨routes, calls, stream, rfl, hshards, hissued⟩, -⟩ := h
  exact ⟨hshards, hissued⟩

namespace Reader

/-- The shard that a task reads. -/
def shard : Reader → String
  | hiring shard _ | locating shard _ _ _ | relocating shard _ _ _ | idle shard _ _
  | pausing shard _ _ _ | fetching shard _ _ _ | between shard _ _ _ | handling shard _ _ _ _ _ => shard

/-- The record that the function runs on for a task. -/
def run? : Reader → Option String
  | handling _ _ record _ _ (.running _ _ _) => some record.sequence
  | _ => none

/-- A task that rests runs nothing. -/
theorem Rests.run_eq {r : Reader} {worker : Worker} (h : r.Rests worker) : r.run? = none := by
  cases r with
  | handling shard held record rest next assignment => exact h.elim
  | _ => rfl

/-- A task is where `count` of the records of its shard are done. -/
def Fits (records : List Record) (count : Nat) : Reader → Prop
  | hiring _ _ => True
  | locating _ _ resume _ | relocating _ _ resume _ => resume = Record.lastOf records count
  | idle _ _ position | pausing _ _ position _ | fetching _ _ position _ => position = toString count
  | between _ _ rest next => rest <+: records.drop count ∧ next = toString (count + rest.length)
  | handling shard _ record rest next assignment =>
    record :: rest <+: records.drop count ∧ next = toString (count + (rest.length + 1)) ∧
      match assignment with
      | .ready _ event | .prepared _ event => event.path = shard ∧ event.id = record.sequence
      | .running _ _ _ => True

/-- Records that are appended do not disturb a task. -/
theorem Fits.append {records : List Record} {count : Nat} {r : Reader} (h : r.Fits records count)
    (hc : count ≤ records.length) (more : List Record) : r.Fits (records ++ more) count := by
  have hdrop : (records ++ more).drop count = records.drop count ++ more :=
    List.drop_append_of_le_length hc
  cases r with
  | hiring shard allocation => trivial
  | locating shard worker resume trip => exact h.trans (Record.lastOf_append hc).symm
  | relocating shard worker resume pause => exact h.trans (Record.lastOf_append hc).symm
  | idle shard worker position => exact h
  | pausing shard worker position pause => exact h
  | fetching shard worker position trip => exact h
  | between shard worker rest next =>
    refine ⟨?_, h.2⟩
    rw [hdrop]
    exact h.1.trans (List.prefix_append _ _)
  | handling shard worker record rest next assignment =>
    refine ⟨?_, h.2⟩
    rw [hdrop]
    exact h.1.trans (List.prefix_append _ _)

/-- The first of the records that follow those done. -/
theorem getElem?_of_prefix_drop {records rest : List Record} {count : Nat} {record : Record}
    (h : record :: rest <+: records.drop count) : records[count]? = some record := by
  obtain ⟨others, hothers⟩ := h
  rw [← List.head?_drop, ← hothers]
  rfl

/-- The function runs on the record after those done. -/
theorem Fits.run_eq {records : List Record} {count : Nat} {r : Reader} {sequence : String}
    (h : r.Fits records count) (hrun : r.run? = some sequence) :
    (records.map Record.sequence)[count]? = some sequence := by
  cases r with
  | handling shard worker record rest next assignment =>
    cases assignment with
    | running worker' event run =>
      rw [List.getElem?_map, getElem?_of_prefix_drop h.1]
      exact hrun
    | _ => cases hrun
  | _ => cases hrun

/-- What a move does that starts with `count` records done. -/
inductive Effect (records : List Record) (count : Nat) (r : Reader) (m : Move Reader Unit)
    (w w' : World) (s s' : StreamSource) : Prop
  /-- No run starts or ends. -/
  | still (hrun : r.run? = none) (hnext : ∀ next ∈ m.next?, next.run? = none ∧ next.Fits records count)
      (hentries : w'.ambient.entries = w.ambient.entries) (hpos : s'.positions = s.positions)
  /-- The function is entered with the next record. -/
  | enters {record : Record} {next : Reader} {entry : Entry} (hrec : records[count]? = some record)
      (hrun : r.run? = none) (hm : m = .goes next) (hnext : next.run? = some record.sequence)
      (hfits : next.Fits records count) (hentries : w'.ambient.entries = w.ambient.entries.push entry)
      (hpath : entry.event.path = r.shard) (hid : entry.event.id = record.sequence)
      (hpos : s'.positions = s.positions)
  /-- The run on the next record is over. -/
  | completes {record : Record} {next : Reader} (hrec : records[count]? = some record)
      (hrun : r.run? = some record.sequence) (hm : m = .goes next) (hnext : next.run? = none)
      (hfits : next.Fits records (count + 1)) (hentries : w'.ambient.entries = w.ambient.entries)
      (hpos : s'.positions = s.positions.insert r.shard record.sequence)

/-- What no move changes. -/
structure Frame (r : Reader) (m : Move Reader Unit) (w w' : World) (s s' : StreamSource) : Prop where
  shard : ∀ next ∈ m.next?, next.shard = r.shard
  records : RecordStream.SameRecords w.clients.stream w'.clients.stream
  lifecycle : s'.lifecycle = s.lifecycle
  settings : s'.settings = s.settings

variable {records : List Record} {count : Nat} {r next : Reader} {m : Move Reader Unit}
  {w w' : World} {s s' : StreamSource} {signal : Signal}

/-- A task goes on without a run. -/
theorem Effect.still_goes (hrun : r.run? = none) (hnext : next.run? = none) (hfits : next.Fits records count)
    (hentries : w'.ambient.entries = w.ambient.entries) (hpos : s'.positions = s.positions) :
    Effect records count r (.goes next) w w' s s' := by
  refine .still hrun (fun x hx => ?_) hentries hpos
  cases hx
  exact ⟨hnext, hfits⟩

theorem Frame.of_goes (hshard : next.shard = r.shard)
    (hrecords : RecordStream.SameRecords w.clients.stream w'.clients.stream)
    (hlifecycle : s'.lifecycle = s.lifecycle) (hsettings : s'.settings = s.settings) :
    Frame r (.goes next) w w' s s' := by
  refine ⟨fun x hx => ?_, hrecords, hlifecycle, hsettings⟩
  cases hx
  exact hshard

/-- A task ends that runs nothing. -/
theorem Effect.still_ends (hrun : r.run? = none) (hentries : w'.ambient.entries = w.ambient.entries)
    (hpos : s'.positions = s.positions) : Effect records count r (.ends ()) w w' s s' :=
  .still hrun (fun _ hnext => by cases hnext) hentries hpos

theorem Frame.of_ends (hrecords : RecordStream.SameRecords w.clients.stream w'.clients.stream)
    (hlifecycle : s'.lifecycle = s.lifecycle) (hsettings : s'.settings = s.settings) :
    Frame r (.ends ()) w w' s s' :=
  ⟨fun _ hnext => (by cases hnext), hrecords, hlifecycle, hsettings⟩

/-- No move changes these. -/
theorem frame_of_moves (h : StreamSource.Moves signal w s r m w' s') : Frame r m w w' s s' := by
  cases h with
  | withdraws | misses => exact .of_ends (.refl _) rfl rfl
  | breaks _ hworld => exact .of_ends hworld.sameRecords rfl rfl
  | quits _ _ hworld => exact .of_ends hworld.sameRecords rfl rfl
  | asks hworld => exact .of_goes rfl hworld.sameRecords rfl rfl
  | retries hworld => exact .of_goes rfl hworld.sameRecords rfl rfl
  | finds hworld => exact .of_goes rfl hworld.sameRecords rfl rfl
  | fetches hworld => exact .of_goes rfl hworld.sameRecords rfl rfl
  | fails hworld => exact .of_goes rfl hworld.sameRecords rfl rfl
  | brings hworld => exact .of_goes rfl hworld.sameRecords rfl rfl
  | _ => exact .of_goes rfl (.refl _) rfl rfl

/-- A move of the assignment that handles a record: the event made of it keeps its id, and the function is entered. -/
theorem effect_of_handles {shard : String} {worker : Worker} {record : Record} {rest : List Record}
    {position : String} {assignment assignment' : Assignment} {ambient : Ambient} {desk : Desk}
    (ho : w.clients.stream.Ordered)
    (hfit : (handling shard worker record rest position assignment).Fits (w.clients.stream.shard shard) count)
    (hassign : assignment.step w.ambient s.desk = some (.goes assignment', ambient, desk)) :
    Effect (w.clients.stream.shard shard) count (.handling shard worker record rest position assignment)
      (.goes (.handling shard worker record rest position assignment')) w { w with ambient } s { s with desk } := by
  obtain ⟨hbatch, hposition, hevent⟩ := hfit
  have hrec := getElem?_of_prefix_drop hbatch
  cases assignment with
  | ready worker' event =>
    obtain ⟨hpath, hid⟩ := hevent
    have hne : event.id.isEmpty = false := by
      obtain ⟨n, -, hq⟩ := ho.issued shard record (List.mem_of_getElem? hrec)
      rw [hid, hq]
      exact RecordStream.isEmpty_sequenceText n
    simp only [Assignment.step, Desk.prepare, hne, Bool.false_eq_true, if_false] at hassign
    cases hassign
    exact .still_goes rfl rfl ⟨hbatch, hposition, hpath, hid⟩ rfl rfl
  | prepared worker' event =>
    obtain ⟨hpath, hid⟩ := hevent
    cases hassign
    exact .enters hrec rfl rfl rfl ⟨hbatch, hposition, trivial⟩ rfl hpath hid rfl
  | running worker' event run =>
    rw [Assignment.step] at hassign
    split at hassign <;> cases hassign

/-- The run on a record is over, and the task comes to the next one. -/
theorem effect_of_completes {shard : String} {worker : Worker} {record : Record} {rest : List Record}
    {position : String} {assignment : Assignment} {answer : Outcome × Event} {ambient : Ambient} {desk : Desk}
    (hfit : (handling shard worker record rest position assignment).Fits records count)
    (hassign : assignment.step w.ambient s.desk = some (.ends answer, ambient, desk)) :
    Effect records count (.handling shard worker record rest position assignment)
      (.goes (.between shard worker rest position)) w { w with ambient } s
      { s with desk, positions := s.positions.insert shard record.sequence } := by
  obtain ⟨hbatch, hposition, -⟩ := hfit
  have hrec := getElem?_of_prefix_drop hbatch
  have hrest : rest <+: records.drop (count + 1) := by
    obtain ⟨others, hothers⟩ := hbatch
    rw [← List.tail_drop, ← hothers]
    exact List.prefix_append rest others
  have hnext : position = toString (count + 1 + rest.length) := by
    rw [hposition]
    congr 1
    omega
  cases assignment with
  | ready worker' event => cases hassign
  | prepared worker' event => cases hassign
  | running worker' event run =>
    rw [Assignment.step] at hassign
    split at hassign
    · cases hassign
      exact .completes hrec rfl rfl rfl ⟨hrest, hnext⟩ rfl rfl
    · cases hassign

/-- **Every move of a task** that is where so many records are done enters the function with the next
record, or is over with it, or keeps everything as it is. -/
theorem effect_of_moves (ho : w.clients.stream.Ordered)
    (hc : count ≤ (w.clients.stream.shard r.shard).length)
    (hpos : s.positions.get? r.shard = Record.lastOf (w.clients.stream.shard r.shard) count)
    (hfit : r.Fits (w.clients.stream.shard r.shard) count)
    (h : StreamSource.Moves signal w s r m w' s') :
    Effect (w.clients.stream.shard r.shard) count r m w w' s s' := by
  have hentries : w.Reads w' → w'.ambient.entries = w.ambient.entries := fun hworld => by rw [hworld.ambient_eq]
  cases h with
  | withdraws | misses => exact .still_ends rfl rfl rfl
  | queues => exact .still_goes rfl rfl trivial rfl rfl
  | hires => exact .still_goes rfl rfl hpos rfl rfl
  | asks hworld => exact .still_goes rfl rfl hfit (hentries hworld) rfl
  | retries hworld => exact .still_goes rfl rfl hfit (hentries hworld) rfl
  | finds hworld hposition =>
    rw [show _ = Record.lastOf _ count from hfit] at hposition
    exact .still_goes rfl rfl (RecordStream.initialPosition_lastOf ho hc hposition) (hentries hworld) rfl
  | resumes | pauses | requests => exact .still_goes rfl rfl hfit rfl rfl
  | fetches hworld => exact .still_goes rfl rfl hfit (hentries hworld) rfl
  | fails hworld => exact .still_goes rfl rfl hfit (hentries hworld) rfl
  | brings hworld hfetched =>
    rw [show _ = toString count from hfit] at hfetched
    exact .still_goes rfl rfl (RecordStream.getRecords_toString hc hfetched) (hentries hworld) rfl
  | breaks _ hworld => exact .still_ends rfl (hentries hworld) rfl
  | exhausts => exact .still_goes rfl rfl hfit.2 rfl rfl
  | begins => exact .still_goes rfl rfl ⟨hfit.1, hfit.2, rfl, rfl⟩ rfl rfl
  | handles hassign => exact effect_of_handles ho hfit hassign
  | completes hassign => exact effect_of_completes hfit hassign
  | quits hrests _ hworld => exact .still_ends hrests.run_eq (hentries hworld) rfl

end Reader

end EventDispatch
