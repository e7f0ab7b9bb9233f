import EventDispatch.Proofs.StreamReading
import Mathlib.Logic.Relation

/-!
# Excerpts of a shard

A position that a stream has told for a shard is the number of records before it. Shards only grow, so such a
position never lies behind the end of its shard, whoever asks for it later. What a request for records is
answered with is then an excerpt of the shard: the records from the position on, as many as were asked for or
as there are, and the position right after them.

There is one exception. Where the excerpt would end is computed in 64 bits before it is cut off at the end of
the shard, and a limit may be any number of 64 bits. If a position and a limit add up to more, the request has
no answer at all, however few records there are.

## What is deliberately absent

Nothing is said of requests that are refused on purpose: no refusal may be pending. And a shard holds fewer
records than 64 bits can count.

## Main definitions

* `RecordStream.Excerpt`, `RecordStream.Delivers`: a request is answered with a range of its shard.
* `Readings`: a stream with the positions that were told.

## Main results

* `RecordStream.getRecords_position`: the answer to a request from a position of the shard.
* `Readings.delivers_iff_of_reachable`: which requests are answered, for every history of a stream.
-/

namespace EventDispatch

namespace RecordStream

variable {s : RecordStream} {shard position : String} {limit first last count : Nat}

/-- A request is answered with the records of a range of the shard. The range begins at the position, and holds
as many records as were asked for, or all that are left. -/
structure Excerpt (shard position : String) (limit first last : Nat) (s : RecordStream) : Prop where
  start : position = toString first
  ordered : first ≤ last
  within : last ≤ (s.shard shard).length
  size : last - first = min limit ((s.shard shard).length - first)
  /-- The answer names the position right after the range. -/
  answer : (s.getRecords shard position limit).1 =
    .batch ⟨((s.shard shard).drop first).take (last - first), toString last⟩

/-- A request is answered with an excerpt of the shard. -/
def Delivers (shard position : String) (limit : Nat) (s : RecordStream) : Prop :=
  ∃ first last, s.Excerpt shard position limit first last

/-- **The answer to a request from a position of the shard.** -/
theorem getRecords_position (hcount : count ≤ (s.shard shard).length)
    (hfits : (s.shard shard).length < Width.natural64) (hup : s.failing = 0) (limit : Nat) :
    (s.getRecords shard (toString count) limit).1 =
      if Width.natural64 ≤ count + limit then .overflow
      else .batch ⟨((s.shard shard).drop count).take (min limit ((s.shard shard).length - count)),
        toString (count + min limit ((s.shard shard).length - count))⟩ := by
  have hnumber : Decimal.natural? Width.natural64 (toString count).toList = some count := by
    rw [Decimal.natural?_toString, if_pos (Nat.lt_of_le_of_lt hcount hfits)]
  have hfirst : min count (s.shard shard).length = count := Nat.min_eq_left hcount
  have hlast : min (count + limit) (s.shard shard).length =
      count + min limit ((s.shard shard).length - count) := by omega
  have hshard : ∀ fetches, RecordStream.shard shard ⟨s.shards, s.issued, 0, fetches⟩ = s.shard shard :=
    fun _ => rfl
  simp only [getRecords, hup, hnumber, hshard, hfirst, hlast, Nat.add_sub_cancel_left]
  split <;> rfl

/-- A request from a position of the shard is answered if the position and the limit add up to a number of 64
bits, and only then. -/
theorem delivers_iff (hcount : count ≤ (s.shard shard).length)
    (hfits : (s.shard shard).length < Width.natural64) (hup : s.failing = 0) :
    s.Delivers shard (toString count) limit ↔ count + limit < Width.natural64 := by
  have hanswer := getRecords_position hcount hfits hup limit
  constructor
  · rintro ⟨first, last, h⟩
    by_contra hlarge
    rw [if_pos (Nat.not_lt.mp hlarge), h.answer] at hanswer
    cases hanswer
  · intro hsmall
    rw [if_neg (Nat.not_le.mpr hsmall)] at hanswer
    refine ⟨count, count + min limit ((s.shard shard).length - count), rfl, Nat.le_add_right _ _, by omega,
      by omega, ?_⟩
    rw [hanswer, Nat.add_sub_cancel_left]

end RecordStream

/-- The position that an answer names. -/
def Fetched.position? : Fetched → Option String
  | .batch b => some b.nextPosition
  | .refused _ | .overflow => none

/-- A stream, with the positions that it has told, each for a shard. -/
structure Readings where
  stream : RecordStream
  told : List (String × String)

namespace Readings

/-- A stream that holds nothing and was not asked for anything. -/
def opened : Readings := ⟨.new, []⟩

/-- One call. Requests may name any position, also one that was never told. -/
inductive Step : Readings → Readings → Prop
  /-- A record is put into a shard. -/
  | puts (s : Readings) (shard key : String) (data : ByteArray) (now : Timestamp) :
      Step s { s with stream := (s.stream.put shard key data now).2 }
  /-- So many requests are to be refused from now on. -/
  | fails (s : Readings) (count : Nat) : Step s { s with stream := { s.stream with failing := count } }
  /-- Somebody asks where a shard begins, or what comes after a record. -/
  | locates (s : Readings) {shard position : String} {after : Option String}
      (h : s.stream.initialPosition shard after = .ok position) :
      Step s { s with told := s.told ++ [(shard, position)] }
  /-- Somebody asks for records. -/
  | fetches (s : Readings) (shard position : String) (limit : Nat) :
      Step s ⟨(s.stream.getRecords shard position limit).2,
        s.told ++ (s.stream.getRecords shard position limit).1.position?.toList.map (shard, ·)⟩

/-- Each position that was told is a number of records of its shard. -/
def Sound (s : Readings) : Prop :=
  ∀ shard position, (shard, position) ∈ s.told → ∃ count ≤ (s.stream.shard shard).length, position = toString count

variable {s s' : Readings}

/-- The position of the oldest record, or the one after a record, is a number of records of the shard. -/
theorem exists_of_initialPosition {stream : RecordStream} {shard position : String} {after : Option String}
    (h : stream.initialPosition shard after = .ok position) :
    ∃ count ≤ (stream.shard shard).length, position = toString count := by
  unfold RecordStream.initialPosition at h
  split at h
  · exact ⟨0, Nat.zero_le _, (Except.ok.inj h).symm⟩
  · split at h
    next index hindex =>
      obtain ⟨hlt, -⟩ := List.findIdx?_eq_some_iff_getElem.mp hindex
      exact ⟨index + 1, hlt, (Except.ok.inj h).symm⟩
    · cases h

/-- The position that comes with records is a number of records of the shard, whatever was asked for. -/
theorem exists_of_getRecords {stream : RecordStream} {shard position next : String} {limit : Nat}
    (h : (stream.getRecords shard position limit).1.position? = some next) :
    ∃ count ≤ (stream.shard shard).length, next = toString count := by
  rw [RecordStream.getRecords] at h
  dsimp only at h
  split at h
  · cases h
  · split at h
    · cases h
    · split at h
      · cases h
      · exact ⟨_, Nat.min_le_right _ _, (Option.some.inj h).symm⟩

/-- **What one call keeps.** Shards only grow, and what is told is within them. -/
theorem Sound.step (h : s.Sound) (hs : Step s s') : s'.Sound := by
  cases hs with
  | puts id key data now =>
    intro shard position hm
    obtain ⟨count, hcount, rfl⟩ := h shard position hm
    refine ⟨count, ?_, rfl⟩
    rw [RecordStream.shard_put, List.length_append]
    exact Nat.le_add_right_of_le hcount
  | fails count => exact h
  | locates hposition =>
    intro shard position hm
    rcases List.mem_append.mp hm with hm | hm
    · exact h shard position hm
    · obtain ⟨rfl, rfl⟩ := Prod.mk.inj (List.mem_singleton.mp hm)
      exact exists_of_initialPosition hposition
  | fetches id asked limit =>
    intro shard position hm
    rw [(RecordStream.getRecords_sameRecords id asked limit s.stream).shard_eq]
    rcases List.mem_append.mp hm with hm | hm
    · exact h shard position hm
    · obtain ⟨next, hnext, heq⟩ := List.mem_map.mp hm
      obtain ⟨rfl, rfl⟩ := Prod.mk.inj heq
      exact exists_of_getRecords (Option.mem_toList.mp hnext)

theorem sound_of_reachable (hr : Relation.ReflTransGen Step opened s) : s.Sound := by
  induction hr with
  | refl => exact fun _ _ hm => by cases hm
  | tail _ hs ih => exact ih.step hs

/-- **Which requests are answered.** Whatever was put into a stream and asked of it, a position that it has told
for a shard is a number of records of that shard. A request from there is answered with the records that follow,
as many as were asked for or as are left, and with the position right after them, exactly if the position and
the limit add up to a number of 64 bits; otherwise it has no answer. -/
theorem delivers_iff_of_reachable (hr : Relation.ReflTransGen Step opened s) {shard position : String}
    (htold : (shard, position) ∈ s.told) (hfits : (s.stream.shard shard).length < Width.natural64)
    (hup : s.stream.failing = 0) :
    ∃ count ≤ (s.stream.shard shard).length, position = toString count ∧ ∀ limit,
      (s.stream.Delivers shard position limit ↔ count + limit < Width.natural64) ∧
        (Width.natural64 ≤ count + limit → (s.stream.getRecords shard position limit).1 = .overflow) := by
  obtain ⟨count, hcount, rfl⟩ := sound_of_reachable hr shard position htold
  refine ⟨count, hcount, rfl, fun limit => ⟨RecordStream.delivers_iff hcount hfits hup, fun hlarge => ?_⟩⟩
  rw [RecordStream.getRecords_position hcount hfits hup, if_pos hlarge]

/-- After one of two records, the largest limit that is answered leads to the other record, and the next larger
one leads nowhere. -/
theorem delivers_near_limit :
    ∃ s : Readings, Relation.ReflTransGen Step opened s ∧ ("s", "1") ∈ s.told ∧
      (s.stream.shard "s").length = 2 ∧ s.stream.failing = 0 ∧
      s.stream.Delivers "s" "1" (Width.natural64 - 2) ∧
      (s.stream.getRecords "s" "1" (Width.natural64 - 1)).1 = .overflow := by
  have hr := (((Relation.ReflTransGen.refl.tail
    (Step.puts opened "s" "k" .empty ⟨0, 0⟩)).tail
    (Step.puts _ "s" "k" .empty ⟨0, 0⟩)).tail
    (@Step.locates _ "s" "0" none rfl)).tail
    (Step.fetches _ "s" "0" 1)
  have htold : ("s", "1") ∈ [("s", "0"), ("s", "1")] := List.mem_cons_of_mem _ (List.mem_singleton_self _)
  obtain ⟨count, -, heq, hlaw⟩ := delivers_iff_of_reachable hr htold (by decide) rfl
  have hone : toString 1 = toString count := heq
  obtain rfl := Decimal.toString_injective hone
  exact ⟨_, hr, htold, rfl, rfl, (hlaw _).1.mpr (by decide), (hlaw _).2 (by decide)⟩

/-- A source may be set to fetch as many records at a time as 64 bits can count. Its first request is answered,
and the next one is not. -/
theorem not_delivers_of_largest_limit :
    ∃ (settings : StreamSettings) (s : Readings),
      StreamSettings.decode (.obj [("batch_size", .num (.natural 18446744073709551615)),
        ("shards", .arr [.str "s"]), ("stream_name", .str "st")]) = .ok settings ∧
      settings.check "k" = .ok () ∧ settings.batchSize < Width.natural64 ∧
      Relation.ReflTransGen Step opened s ∧ ("s", "2") ∈ s.told ∧ (s.stream.shard "s").length = 3 ∧
      s.stream.failing = 0 ∧ ¬s.stream.Delivers "s" "2" settings.batchSize := by
  have hr := ((((Relation.ReflTransGen.refl.tail
    (Step.puts opened "s" "k" .empty ⟨0, 0⟩)).tail
    (Step.puts _ "s" "k" .empty ⟨0, 0⟩)).tail
    (@Step.locates _ "s" "0" none rfl)).tail
    (Step.fetches _ "s" "0" 18446744073709551615)).tail
    (Step.puts _ "s" "k" .empty ⟨0, 0⟩)
  have htold : ("s", "2") ∈ [("s", "0"), ("s", "2")] := List.mem_cons_of_mem _ (List.mem_singleton_self _)
  refine ⟨⟨"st", ["s"], 500, 18446744073709551615⟩, _, rfl, rfl, by decide, hr, htold, rfl, rfl, ?_⟩
  rintro ⟨first, last, h⟩
  have hnone : Fetched.overflow = .batch _ := h.answer
  cases hnone

end Readings

end EventDispatch
