import EventDispatch.Proofs.SourceHistory
import EventDispatch.Proofs.Tables
import EventDispatch.Settings.Adapters
import EventDispatch.Settings.Processor

/-!
# Settings written out

Settings are read from values of many forms: a record may be an object or a list, fields may be left out, and what
nobody asks for is passed over. They are written in one form, with every field. What is written is read as the same
settings again.

## Design

A record is read field by field, so what its shape reads is put together the way the shape is: `Shape.Finds` says
that an object holds what a field, two parts or a whole record looks for, and `Shape.Yields` what is known of the
settings that come out. No record is taken apart more than once for each of the two.

## What is deliberately absent

The texts of JSON values: a value is read and written here, not its characters. The lenient reading of configuration
files takes more values and is not part of this either.

## Main definitions

* `Json.Proper`: a value whose numbers have 64 bits and whose objects are sorted.
* `Decoder.Reads`, `Shape.Finds`: a decoder reads what was written; an object holds the fields of a record.
* `Decoder.Yields`, `Shape.Yields`: what is known of everything that is read from a proper value.
* `Json.WrittenOut`: an object that has exactly the fields of a record.
* `SettingsKind`: the kinds of settings, each with how it is read, written and spelled.

## Main results

* `Shape.Finds.decodeObject`: an object that holds the fields is read as the record.
* `SettingsKind.decode_toJson`: settings of any kind are read back.
* `SettingsKind.respelled_of_decoded`: the law for whatever settings were read from.
-/

namespace EventDispatch

/-! ### Proper values -/

/-- A value as there are values: whole numbers have 64 bits, other numbers are finite, and every object is sorted by
key. -/
inductive Json.Proper : Json → Prop where
  | null : Proper .null
  | bool (b : Bool) : Proper (.bool b)
  | natural {n : Nat} (h : n < Width.natural64) : Proper (.num (.natural n))
  | negative {n : Int} (h : -(Width.integer64 : Int) ≤ n) (hneg : n < 0) : Proper (.num (.negative n))
  | real {bits : UInt64} (h : (Decimal.Binary.ofBits bits).isSome = true) : Proper (.num (.real bits))
  | str (s : String) : Proper (.str s)
  | arr {items : List Json} (h : ∀ value ∈ items, Proper value) : Proper (.arr items)
  | obj {fields : Json.Object} (hs : fields.Sorted) (h : ∀ field ∈ fields, Proper field.2) : Proper (.obj fields)

namespace Json.Proper

variable {items : List Json} {fields : Json.Object} {value : Json} {n : Nat}

theorem lt_of_natural (h : (Json.num (.natural n)).Proper) : n < Width.natural64 := by
  cases h with
  | natural h => exact h

theorem of_mem (h : (Json.arr items).Proper) (hm : value ∈ items) : value.Proper := by
  cases h with
  | arr h => exact h value hm

theorem sorted (h : (Json.obj fields).Proper) : fields.Sorted := by
  cases h with
  | obj hs _ => exact hs

theorem of_mem_fields (h : (Json.obj fields).Proper) {field : String × Json} (hm : field ∈ fields) :
    field.2.Proper := by
  cases h with
  | obj _ h => exact h field hm

theorem obj_nil : (Json.obj []).Proper := .obj Keyed.sorted_nil fun _ hm => absurd hm List.not_mem_nil

/-- Texts in a list. -/
theorem texts (items : List String) : (Json.arr (items.map .str)).Proper := by
  refine .arr fun value hm => ?_
  obtain ⟨s, -, rfl⟩ := List.mem_map.mp hm
  exact .str s

end Json.Proper

/-! ### Values that are read -/

namespace Decoder

variable {α : Type} {decoder : Decoder α} {spell : α → Json} {P : α → Prop}

/-- A decoder reads what was written. -/
def Reads (decoder : Decoder α) (spell : α → Json) : Prop := ∀ x, decoder (spell x) = .ok x

theorem reads_items (h : decoder.Reads spell) (xs : List α) : items decoder (xs.map spell) = .ok xs := by
  induction xs with
  | nil => rfl
  | cons x xs ih =>
    rw [List.map_cons, items, h x, ih]
    rfl

theorem reads_texts : (listOf text).Reads fun xs => .arr (xs.map .str) :=
  reads_items (fun _ => rfl)

theorem reads_entries (h : decoder.Reads spell) (table : Keyed α) :
    entries decoder (Keyed.mapValues spell table) = .ok table := by
  induction table with
  | nil => rfl
  | cons entry table ih =>
    have hstep : Keyed.mapValues spell (entry :: table) =
        (entry.1, spell entry.2) :: Keyed.mapValues spell table := rfl
    rw [hstep, entries, h entry.2, ih]
    rfl

/-- Everything that a decoder reads from a proper value has a property. -/
def Yields (decoder : Decoder α) (P : α → Prop) : Prop := ∀ {value x}, value.Proper → decoder value = .ok x → P x

theorem yields_true : decoder.Yields fun _ => True := fun _ _ => trivial

theorem yields_natural (expected : String) : (natural expected).Yields (· < Width.natural64) := by
  intro value n hvalue h
  unfold natural at h
  split at h
  · rw [← Except.ok.inj h]
    exact hvalue.lt_of_natural
  · cases h
  · cases h

theorem yields_object : object.Yields fun fields => (Json.obj fields).Proper := by
  intro value fields hvalue h
  unfold object at h
  split at h
  · rw [← Except.ok.inj h]
    exact hvalue
  · cases h

theorem yields_orNull (h : decoder.Yields P) : (orNull decoder).Yields fun o => ∀ x ∈ o, P x := by
  intro value o hvalue ho x hx
  unfold orNull at ho
  split at ho
  · rw [← Except.ok.inj ho] at hx
    cases hx
  · obtain ⟨y, hy, rfl⟩ := exists_of_map_eq_ok ho
    rw [← Option.some.inj hx]
    exact h hvalue hy

theorem yields_entries (h : decoder.Yields P) {fields : Json.Object} {table : Keyed α}
    (hfields : ∀ field ∈ fields, field.2.Proper) (hread : entries decoder fields = .ok table) :
    table.keys = fields.keys ∧ ∀ entry ∈ table, P entry.2 := by
  induction fields generalizing table with
  | nil =>
    rw [← Except.ok.inj hread]
    exact ⟨rfl, fun entry hm => absurd hm List.not_mem_nil⟩
  | cons field fields ih =>
    obtain ⟨key, value⟩ := field
    rw [entries] at hread
    split at hread
    · cases hread
    next x hx =>
      obtain ⟨rest, hrest, rfl⟩ := exists_of_map_eq_ok hread
      obtain ⟨hkeys, hall⟩ := ih (fun other hm => hfields other (List.mem_cons_of_mem _ hm)) hrest
      refine ⟨congrArg (key :: ·) hkeys, fun entry hm => ?_⟩
      rcases List.mem_cons.mp hm with rfl | hm
      · exact h (hfields _ List.mem_cons_self) hx
      · exact hall entry hm

theorem yields_tableOf (h : decoder.Yields P) :
    (tableOf decoder).Yields fun table => table.Sorted ∧ ∀ entry ∈ table, P entry.2 := by
  intro value table hvalue hread
  unfold tableOf at hread
  split at hread
  next fields =>
    obtain ⟨hkeys, hall⟩ := yields_entries h (fun field hm => hvalue.of_mem_fields hm) hread
    refine ⟨?_, hall⟩
    rw [Keyed.sorted_iff_keys, hkeys]
    exact Keyed.sorted_iff_keys.mp hvalue.sorted
  · cases hread

end Decoder

/-! ### Records that are read -/

namespace Shape

variable {α β : Type} {s : Shape α} {t : Shape β} {fields : Json.Object} {x : α} {y : β}

/-- The names of the fields of a record. -/
def names (s : Shape α) : List String := s.checks.map Prod.fst

/-- An object holds all fields of a record, and they are the record's. -/
structure Finds (s : Shape α) (fields : Json.Object) (x : α) : Prop where
  fits : ∀ check ∈ s.checks, ∃ value, fields.get? check.1 = some value ∧ check.2 value = .ok ()
  reads : s.ofObject fields = .ok x

theorem finds_field {name : String} {decoder : Decoder α} {default : Option α} {value : Json}
    (hget : fields.get? name = some value) (hread : decoder value = .ok x) :
    (field name decoder default).Finds fields x where
  fits := by
    intro check hm
    rw [List.mem_singleton.mp hm]
    refine ⟨value, hget, ?_⟩
    show (decoder value).map _ = _
    rw [hread]
    rfl
  reads := by
    simp only [field, hget]
    exact hread

theorem Finds.and (h : s.Finds fields x) (h' : t.Finds fields y) : (s.and t).Finds fields (x, y) where
  fits := by
    intro check hm
    rcases List.mem_append.mp hm with hm | hm
    · exact h.fits check hm
    · exact h'.fits check hm
  reads := by
    simp only [Shape.and, h.reads, h'.reads]
    rfl

theorem Finds.map (h : s.Finds fields x) (f : α → β) : (s.map f).Finds fields (f x) where
  fits := h.fits
  reads := by
    simp only [Shape.map, h.reads]
    rfl

/-- Every field of the object that the record knows is what the record looks for. -/
theorem Finds.checkFields (h : s.Finds fields x) (hs : fields.Sorted) {part : Json.Object}
    (hpart : part ⊆ fields) : s.checkFields part = .ok () := by
  induction part with
  | nil => rfl
  | cons entry part ih =>
    obtain ⟨name, value⟩ := entry
    obtain ⟨hentry, hrest⟩ := List.cons_subset.mp hpart
    rw [Shape.checkFields]
    split
    · exact ih hrest
    next check hlookup =>
      have hcheck : (name, check) ∈ s.checks := by
        obtain ⟨before, after, heq, -⟩ := List.lookup_eq_some_iff.mp hlookup
        rw [heq]
        exact List.mem_append_right _ List.mem_cons_self
      obtain ⟨found, hget, hok⟩ := h.fits _ hcheck
      have hvalue : found = value := Option.some.inj (hget.symm.trans (hs.get?_of_mem hentry))
      have hfits : check value = .ok () := hvalue ▸ hok
      rw [hfits]
      exact ih hrest

/-- **An object that holds the fields is read as the record.** -/
theorem Finds.decodeObject (h : s.Finds fields x) (hs : fields.Sorted) : s.decodeObject fields = .ok x := by
  rw [Shape.decodeObject, h.checkFields hs (List.Subset.refl fields)]
  exact h.reads

/-- What is known of all records that are read from proper values, and the rest of a list is proper too. -/
structure Yields (s : Shape α) (P : α → Prop) : Prop where
  ofObject : ∀ {fields x}, (Json.obj fields).Proper → s.ofObject fields = .ok x → P x
  ofItems : ∀ {expected index items x rest}, (∀ value ∈ items, value.Proper) →
    s.ofItems expected index items = .ok (x, rest) → P x ∧ ∀ value ∈ rest, value.Proper

variable {P : α → Prop} {Q : β → Prop}

/-- A field yields what its decoder yields, if its default is of that kind. -/
theorem yields_field {name : String} {decoder : Decoder α} {default : Option α} (h : decoder.Yields P)
    (hdefault : ∀ x ∈ default, P x) : (field name decoder default).Yields P where
  ofObject := by
    intro fields x hfields hread
    simp only [field] at hread
    split at hread
    next value _ hget => exact h (hfields.of_mem_fields (Keyed.mem_of_get? hget)) hread
    · rw [← Except.ok.inj hread]
      exact hdefault _ rfl
    · cases hread
  ofItems := by
    intro expected index items x rest hitems hread
    simp only [field] at hread
    split at hread
    next value others _ =>
      obtain ⟨read, hvalue, heq⟩ := exists_of_map_eq_ok hread
      obtain ⟨rfl, rfl⟩ := Prod.mk.inj heq
      exact ⟨h (hitems _ List.mem_cons_self) hvalue, fun other hm => hitems other (List.mem_cons_of_mem _ hm)⟩
    · obtain ⟨rfl, rfl⟩ := Prod.mk.inj (Except.ok.inj hread)
      exact ⟨hdefault _ rfl, fun other hm => absurd hm List.not_mem_nil⟩
    · cases hread

theorem yields_field_true {name : String} {decoder : Decoder α} {default : Option α} :
    (field name decoder default).Yields fun _ => True := yields_field Decoder.yields_true fun _ _ => trivial

theorem Yields.and (h : s.Yields P) (h' : t.Yields Q) : (s.and t).Yields fun p => P p.1 ∧ Q p.2 where
  ofObject := by
    intro fields p hfields hread
    simp only [Shape.and] at hread
    split at hread
    · cases hread
    next x hx =>
      obtain ⟨y, hy, rfl⟩ := exists_of_map_eq_ok hread
      exact ⟨h.ofObject hfields hx, h'.ofObject hfields hy⟩
  ofItems := by
    intro expected index items p rest hitems hread
    simp only [Shape.and] at hread
    split at hread
    · cases hread
    next x others hx =>
      obtain ⟨hP, hothers⟩ := h.ofItems hitems hx
      obtain ⟨⟨y, last⟩, hy, heq⟩ := exists_of_map_eq_ok hread
      obtain ⟨rfl, rfl⟩ := Prod.mk.inj heq
      obtain ⟨hQ, hlast⟩ := h'.ofItems hothers hy
      exact ⟨⟨hP, hQ⟩, hlast⟩

theorem Yields.map (h : s.Yields P) {f : α → β} (hf : ∀ x, P x → Q (f x)) : (s.map f).Yields Q where
  ofObject := by
    intro fields y hfields hread
    obtain ⟨x, hx, rfl⟩ := exists_of_map_eq_ok hread
    exact hf x (h.ofObject hfields hx)
  ofItems := by
    intro expected index items y rest hitems hread
    obtain ⟨⟨x, last⟩, hx, heq⟩ := exists_of_map_eq_ok hread
    obtain ⟨rfl, rfl⟩ := Prod.mk.inj heq
    obtain ⟨hP, hlast⟩ := h.ofItems hitems hx
    exact ⟨hf x hP, hlast⟩

theorem Yields.mono {Q : α → Prop} (h : s.Yields P) (hPQ : ∀ x, P x → Q x) : s.Yields Q where
  ofObject := fun hfields hread => hPQ _ (h.ofObject hfields hread)
  ofItems := fun hitems hread => (h.ofItems hitems hread).imp_left (hPQ _)

theorem Yields.decodeObject (h : s.Yields P) (hfields : (Json.obj fields).Proper)
    (hread : s.decodeObject fields = .ok x) : P x := by
  rw [Shape.decodeObject] at hread
  split at hread
  · cases hread
  · exact h.ofObject hfields hread

/-- A record yields the same from an object and from a list. -/
theorem Yields.decode (h : s.Yields P) (name : String) : (s.decode name).Yields P := by
  intro value x hvalue hread
  unfold Shape.decode at hread
  split at hread
  · exact h.decodeObject hvalue hread
  next items =>
    dsimp only at hread
    split at hread
    · cases hread
    next y hy =>
      rw [← Except.ok.inj hread]
      exact (h.ofItems (fun item hm => hvalue.of_mem hm) hy).1
    · cases hread
  · cases hread

theorem Yields.flatten (h : s.Yields P) (h' : t.Yields Q) (name : String) :
    Decoder.Yields (Shape.flatten name s t) fun p => P p.1 ∧ Q p.2 := by
  intro value p hvalue hread
  unfold Shape.flatten at hread
  split at hread
  · split at hread
    · cases hread
    next x hx =>
      obtain ⟨y, hy, rfl⟩ := exists_of_map_eq_ok hread
      exact ⟨h.decodeObject hvalue hx, h'.decodeObject hvalue hy⟩
  · cases hread

end Shape

/-! ### Records that are written -/

/-- An object with exactly the named fields. -/
def Json.WrittenOut (names : List String) (value : Json) : Prop :=
  ∃ fields : Json.Object, value = .obj fields ∧ fields.Sorted ∧ fields.keys.Perm names

/-- Records are written as objects with the given keys, one for each field. -/
structure Shape.Writes {α : Type} (s : Shape α) (toJson : α → Json) (keys : List String) : Prop where
  sorted : keys.Pairwise (· < ·)
  complete : keys.Perm s.names
  finds : ∀ x, ∃ fields : Json.Object, toJson x = .obj fields ∧ fields.keys = keys ∧ s.Finds fields x
  /-- What is read from proper values is written as proper values. -/
  proper : s.Yields fun x => ∃ fields : Json.Object, toJson x = .obj fields ∧
    fields.Forall fun field => field.2.Proper

namespace Shape.Writes

variable {α : Type} {s : Shape α} {toJson : α → Json} {keys : List String}

theorem reads (h : s.Writes toJson keys) (name : String) : (s.decode name).Reads toJson := by
  intro x
  obtain ⟨fields, hjson, hkeys, hfinds⟩ := h.finds x
  have hsorted : fields.Sorted := Keyed.sorted_iff_keys.mpr (hkeys ▸ h.sorted)
  rw [hjson]
  exact hfinds.decodeObject hsorted

theorem writtenOut (h : s.Writes toJson keys) (x : α) : (toJson x).WrittenOut s.names := by
  obtain ⟨fields, hjson, hkeys, -⟩ := h.finds x
  exact ⟨fields, hjson, Keyed.sorted_iff_keys.mpr (hkeys ▸ h.sorted), hkeys ▸ h.complete⟩

theorem yields (h : s.Writes toJson keys) : s.Yields fun x => (toJson x).Proper := by
  refine h.proper.mono fun x hx => ?_
  obtain ⟨fields, hjson, hall⟩ := hx
  obtain ⟨fields', hjson', hkeys, -⟩ := h.finds x
  obtain rfl : fields' = fields := Json.obj.inj (hjson'.symm.trans hjson)
  rw [hjson]
  exact .obj (Keyed.sorted_iff_keys.mpr (hkeys ▸ h.sorted)) (List.forall_iff_forall_mem.mp hall)

end Shape.Writes

theorem HttpSettings.writes : shape.Writes toJson ["listen_address", "max_in_flight"] where
  sorted := by decide
  complete := by decide
  finds s := by
    refine ⟨_, rfl, rfl, Shape.Finds.map (x := (s.listenAddress, s.maxInFlight)) (.and ?_ ?_) _⟩
    · exact Shape.finds_field rfl rfl
    · exact Shape.finds_field rfl rfl
  proper := by
    refine .map (.and Shape.yields_field_true
      (Shape.yields_field (Decoder.yields_natural "usize") (by decide))) ?_
    rintro ⟨address, max⟩ ⟨-, hmax⟩
    exact ⟨_, rfl, .str address, .natural hmax⟩

theorem GeneratorSettings.writes : shape.Writes toJson ["body", "max_delay_ms", "min_delay_ms"] where
  sorted := by decide
  complete := by decide
  finds s := by
    refine ⟨_, rfl, rfl,
      Shape.Finds.map (x := (s.minDelay, s.maxDelay, s.body)) (.and ?_ (.and ?_ ?_)) _⟩
    · exact Shape.finds_field rfl rfl
    · exact Shape.finds_field rfl rfl
    · exact Shape.finds_field rfl rfl
  proper := by
    refine .map (.and (Shape.yields_field (Decoder.yields_natural "u64") (by decide))
      (.and (Shape.yields_field (Decoder.yields_natural "u64") (by decide)) Shape.yields_field_true)) ?_
    rintro ⟨min, max, body⟩ ⟨hmin, hmax, -⟩
    exact ⟨_, rfl, .str body, .natural hmax, .natural hmin⟩

/-- A text or null. -/
theorem QueueSettings.groupJson_spells (s : QueueSettings) :
    Decoder.orNull .text s.groupJson = .ok s.queueName ∧ s.groupJson.Proper := by
  rw [QueueSettings.groupJson]
  cases s.queueName with
  | none => exact ⟨rfl, .null⟩
  | some name => exact ⟨rfl, .str name⟩

theorem QueueSettings.writes : shape.Writes toJson ["queue_name", "topic"] where
  sorted := by decide
  complete := by decide
  finds s := by
    refine ⟨_, rfl, rfl, Shape.Finds.map (x := (s.topic, s.queueName)) (.and ?_ ?_) _⟩
    · exact Shape.finds_field rfl rfl
    · exact Shape.finds_field rfl s.groupJson_spells.1
  proper := by
    refine .map (.and Shape.yields_field_true Shape.yields_field_true) ?_
    rintro ⟨topic, name⟩ -
    exact ⟨_, rfl, (groupJson_spells ⟨topic, name⟩).2, .str topic⟩

theorem StreamSettings.writes :
    shape.Writes toJson ["batch_size", "poll_interval_ms", "shards", "stream_name"] where
  sorted := by decide
  complete := by decide
  finds s := by
    refine ⟨_, rfl, rfl, Shape.Finds.map (x := (s.streamName, s.shards, s.pollInterval, s.batchSize))
      (.and ?_ (.and ?_ (.and ?_ ?_))) _⟩
    · exact Shape.finds_field rfl rfl
    · exact Shape.finds_field rfl (Decoder.reads_texts s.shards)
    · exact Shape.finds_field rfl rfl
    · exact Shape.finds_field rfl rfl
  proper := by
    refine .map (.and Shape.yields_field_true (.and Shape.yields_field_true
      (.and (Shape.yields_field (Decoder.yields_natural "u64") (by decide))
        (Shape.yields_field (Decoder.yields_natural "usize") (by decide))))) ?_
    rintro ⟨name, shards, interval, size⟩ ⟨-, -, hinterval, hsize⟩
    exact ⟨_, rfl, .natural hsize, .natural hinterval, .texts shards, .str name⟩

theorem PollSettings.writes : shape.Writes toJson ["interval_ms", "max_batch_size"] where
  sorted := by decide
  complete := by decide
  finds s := by
    refine ⟨_, rfl, rfl, Shape.Finds.map (x := (s.interval, s.maxBatchSize)) (.and ?_ ?_) _⟩
    · exact Shape.finds_field rfl rfl
    · exact Shape.finds_field rfl rfl
  proper := by
    refine .map (.and (Shape.yields_field (Decoder.yields_natural "u64") (by decide))
      (Shape.yields_field (Decoder.yields_natural "usize") (by decide))) ?_
    rintro ⟨interval, size⟩ ⟨hinterval, hsize⟩
    exact ⟨_, rfl, .natural hinterval, .natural hsize⟩

/-! ### Records within records -/

namespace ItemPollSettings

/-- The object that is written for a poller of items. -/
def written (s : ItemPollSettings) : Json.Object :=
  [("attributes", .arr (s.attributes.map .str)), ("incremental", .bool s.incremental),
    ("interval_ms", .num (.natural s.poll.interval)), ("max_batch_size", .num (.natural s.poll.maxBatchSize)),
    ("page_delay_ms", .num (.natural s.pageDelay)), ("page_size", .num (.natural s.pageSize)),
    ("paths", .arr (s.paths.map .str)), ("queries", .arr (s.queries.map .str)),
    ("shard_id", .num (.natural s.shardId)), ("suffixes", .arr (s.suffixes.map .str)),
    ("total_shards", .num (.natural s.totalShards))]

/-- The fields of the two records stand in one object, in order. -/
theorem toJson_eq_written (s : ItemPollSettings) : s.toJson = .obj s.written := rfl

theorem sorted_written (s : ItemPollSettings) : s.written.Sorted := by
  rw [Keyed.sorted_iff_keys]
  show ["attributes", "incremental", "interval_ms", "max_batch_size", "page_delay_ms", "page_size", "paths",
    "queries", "shard_id", "suffixes", "total_shards"].Pairwise (· < ·)
  decide

/-- The record without what every poller has. -/
theorem finds_written (s : ItemPollSettings) : shape.Finds s.written fun poll => { s with poll } := by
  refine Shape.Finds.map (x := (s.paths, s.attributes, s.queries, s.suffixes, s.incremental, s.shardId,
    s.totalShards, s.pageSize, s.pageDelay))
    (.and ?_ (.and ?_ (.and ?_ (.and ?_ (.and ?_ (.and ?_ (.and ?_ (.and ?_ ?_)))))))) _
  · exact Shape.finds_field rfl (Decoder.reads_texts s.paths)
  · exact Shape.finds_field rfl (Decoder.reads_texts s.attributes)
  · exact Shape.finds_field rfl (Decoder.reads_texts s.queries)
  · exact Shape.finds_field rfl (Decoder.reads_texts s.suffixes)
  · exact Shape.finds_field rfl rfl
  · exact Shape.finds_field rfl rfl
  · exact Shape.finds_field rfl rfl
  · exact Shape.finds_field rfl rfl
  · exact Shape.finds_field rfl rfl

/-- What every poller has, in the same object. -/
theorem finds_poll (s : ItemPollSettings) : PollSettings.shape.Finds s.written s.poll := by
  refine Shape.Finds.map (x := (s.poll.interval, s.poll.maxBatchSize)) (.and ?_ ?_) _
  · exact Shape.finds_field rfl rfl
  · exact Shape.finds_field rfl rfl

theorem reads_toJson : decode.Reads toJson := by
  intro s
  have hown := s.finds_written.decodeObject s.sorted_written
  have hpoll := s.finds_poll.decodeObject s.sorted_written
  rw [toJson_eq_written, decode, Shape.flatten, hown]
  dsimp only
  rw [hpoll]
  rfl

theorem writtenOut (s : ItemPollSettings) : s.toJson.WrittenOut (shape.names ++ PollSettings.shape.names) := by
  refine ⟨_, s.toJson_eq_written, s.sorted_written, ?_⟩
  show ["attributes", "incremental", "interval_ms", "max_batch_size", "page_delay_ms", "page_size", "paths",
    "queries", "shard_id", "suffixes", "total_shards"].Perm _
  decide

theorem yields_toJson : decode.Yields fun s => s.toJson.Proper := by
  have hown : shape.Yields fun s => ∀ poll : PollSettings, poll.interval < Width.natural64 →
      poll.maxBatchSize < Width.natural64 → (s poll).toJson.Proper := by
    refine .map (.and Shape.yields_field_true (.and Shape.yields_field_true (.and Shape.yields_field_true
      (.and Shape.yields_field_true (.and Shape.yields_field_true
        (.and (Shape.yields_field (Decoder.yields_natural "usize") (by decide))
          (.and (Shape.yields_field (Decoder.yields_natural "usize") (by decide))
            (.and (Shape.yields_field (Decoder.yields_natural "usize") (by decide))
              (Shape.yields_field (Decoder.yields_natural "u64") (by decide)))))))))) ?_
    rintro ⟨paths, attributes, queries, suffixes, incremental, shard, total, size, delay⟩
      ⟨-, -, -, -, -, hshard, htotal, hsize, hdelay⟩ poll hinterval hbatch
    rw [toJson_eq_written]
    refine .obj (sorted_written _) (List.forall_iff_forall_mem.mp ?_)
    exact ⟨.texts attributes, .bool incremental, .natural hinterval, .natural hbatch, .natural hdelay,
      .natural hsize, .texts paths, .texts queries, .natural hshard, .texts suffixes, .natural htotal⟩
  have hpoll : PollSettings.shape.Yields fun poll =>
      poll.interval < Width.natural64 ∧ poll.maxBatchSize < Width.natural64 :=
    .map (.and (Shape.yields_field (Decoder.yields_natural "u64") (by decide))
      (Shape.yields_field (Decoder.yields_natural "usize") (by decide))) fun _ h => h
  intro value s hvalue hread
  obtain ⟨⟨own, poll⟩, hflatten, rfl⟩ := exists_of_map_eq_ok hread
  obtain ⟨hfields, hinterval, hbatch⟩ := hown.flatten hpoll "ItemPollerConfig" hvalue hflatten
  exact hfields poll hinterval hbatch

end ItemPollSettings

theorem RuntimeSettings.writes :
    (shape .strict).Writes toJson ["attributes", "handler", "kind"] where
  sorted := by decide
  complete := by decide
  finds s := by
    refine ⟨_, rfl, rfl, Shape.Finds.map (x := (s.kind, s.handler, s.attributes)) (.and ?_ (.and ?_ ?_)) _⟩
    · exact Shape.finds_field rfl rfl
    · refine Shape.finds_field rfl ?_
      cases s.handler <;> rfl
    · exact Shape.finds_field rfl rfl
  proper := by
    refine .map (.and Shape.yields_field_true (.and Shape.yields_field_true
      (Shape.yields_field Decoder.yields_object ?_))) ?_
    · intro attributes hnone
      rw [← Option.some.inj hnone]
      exact .obj_nil
    · rintro ⟨kind, handler, attributes⟩ ⟨-, -, hattributes⟩
      refine ⟨_, rfl, hattributes, ?_, .str kind⟩
      cases handler with
      | none => exact .null
      | some name => exact .str name

/-- The settings of a runtime that nobody set. -/
theorem RuntimeSettings.proper_default : (toJson {}).Proper := by
  refine .obj (Keyed.sorted_iff_keys.mpr ?_) (List.forall_iff_forall_mem.mp ⟨.obj_nil, .null, .str "echo"⟩)
  show ["attributes", "handler", "kind"].Pairwise (· < ·)
  decide

theorem TriggerSettings.writes : (shape .strict).Writes toJson
    ["attributes", "kind", "num_workers", "worker_availability_timeout_ms"] where
  sorted := by decide
  complete := by decide
  finds s := by
    refine ⟨_, rfl, rfl, Shape.Finds.map (x := (s.kind, s.numWorkers, s.workerTimeout, s.attributes))
      (.and ?_ (.and ?_ (.and ?_ ?_))) _⟩
    · exact Shape.finds_field rfl rfl
    · refine Shape.finds_field rfl ?_
      cases s.numWorkers <;> rfl
    · exact Shape.finds_field rfl rfl
    · exact Shape.finds_field rfl rfl
  proper := by
    refine .map (.and Shape.yields_field_true
      (.and (Shape.yields_field (Decoder.yields_orNull (Decoder.yields_natural "usize")) ?_)
        (.and (Shape.yields_field (Decoder.yields_natural "u64") (by decide))
          (Shape.yields_field Decoder.yields_object ?_)))) ?_
    · intro count hnone
      rw [← Option.some.inj hnone]
      exact fun n hn => absurd hn.symm (Option.some_ne_none n)
    · intro attributes hnone
      rw [← Option.some.inj hnone]
      exact .obj_nil
    · rintro ⟨kind, count, timeout, attributes⟩ ⟨-, hcount, htimeout, hattributes⟩
      refine ⟨_, rfl, hattributes, .str kind, ?_, .natural htimeout⟩
      cases count with
      | none => exact .null
      | some n => exact .natural (hcount n rfl)

theorem ProcessorSettings.writes : (shape .strict).Writes toJson ["runtime", "triggers"] where
  sorted := by decide
  complete := by decide
  finds s := by
    refine ⟨_, rfl, rfl, Shape.Finds.map (x := (s.runtime, s.triggers)) (.and ?_ ?_) _⟩
    · exact Shape.finds_field rfl (RuntimeSettings.writes.reads "RuntimeConfig" s.runtime)
    · exact Shape.finds_field rfl (Decoder.reads_entries (TriggerSettings.writes.reads "TriggerConfig") s.triggers)
  proper := by
    have hruntime : (RuntimeSettings.decodeWith .strict).Yields fun s => s.toJson.Proper :=
      RuntimeSettings.writes.yields.decode "RuntimeConfig"
    have htrigger : (TriggerSettings.decodeWith .strict).Yields fun s => s.toJson.Proper :=
      TriggerSettings.writes.yields.decode "TriggerConfig"
    refine .map (.and (Shape.yields_field hruntime ?_)
      (Shape.yields_field (Decoder.yields_tableOf htrigger) ?_)) ?_
    · intro runtime hdefault
      rw [← Option.some.inj hdefault]
      exact RuntimeSettings.proper_default
    · intro triggers hdefault
      rw [← Option.some.inj hdefault]
      exact ⟨Keyed.sorted_nil, fun trigger hm => absurd hm List.not_mem_nil⟩
    · rintro ⟨runtime, triggers⟩ ⟨hproper, hsorted, hall⟩
      refine ⟨_, rfl, hproper, .obj (hsorted.mapValues _) fun field hm => ?_⟩
      obtain ⟨trigger, htrigger, rfl⟩ := List.mem_map.mp hm
      exact hall trigger htrigger

/-! ### The kinds of settings -/

/-- The kinds of settings: those of a processor, and those that the kinds of sources read from attributes. -/
inductive SettingsKind where
  | processor
  | http
  | generator
  | queue
  | stream
  | poll
  | itemPoll
deriving DecidableEq, Repr

namespace SettingsKind

/-- The settings of a kind. -/
abbrev Settings : SettingsKind → Type
  | processor => ProcessorSettings
  | http => HttpSettings
  | generator => GeneratorSettings
  | queue => QueueSettings
  | stream => StreamSettings
  | poll => PollSettings
  | itemPoll => ItemPollSettings

/-- How settings of a kind are read. -/
def decode : (k : SettingsKind) → Decoder k.Settings
  | processor => ProcessorSettings.decode
  | http => HttpSettings.decode
  | generator => GeneratorSettings.decode
  | queue => QueueSettings.decode
  | stream => StreamSettings.decode
  | poll => PollSettings.decode
  | itemPoll => ItemPollSettings.decode

/-- How settings of a kind are written. -/
def toJson : (k : SettingsKind) → k.Settings → Json
  | processor => ProcessorSettings.toJson
  | http => HttpSettings.toJson
  | generator => GeneratorSettings.toJson
  | queue => QueueSettings.toJson
  | stream => StreamSettings.toJson
  | poll => PollSettings.toJson
  | itemPoll => ItemPollSettings.toJson

/-- A value leaves nothing to defaults: it holds every field of the record, of the runtime and of each trigger
within it, and no other. -/
def SpelledOut : SettingsKind → Json → Prop
  | processor, value =>
    value.WrittenOut (ProcessorSettings.shape .strict).names ∧
      (∃ runtime, value.field? "runtime" = some runtime ∧
        runtime.WrittenOut (RuntimeSettings.shape .strict).names) ∧
      ∃ triggers, value.field? "triggers" = some (.obj triggers) ∧
        ∀ trigger ∈ triggers, trigger.2.WrittenOut (TriggerSettings.shape .strict).names
  | http, value => value.WrittenOut HttpSettings.shape.names
  | generator, value => value.WrittenOut GeneratorSettings.shape.names
  | queue, value => value.WrittenOut QueueSettings.shape.names
  | stream, value => value.WrittenOut StreamSettings.shape.names
  | poll, value => value.WrittenOut PollSettings.shape.names
  | itemPoll, value => value.WrittenOut (ItemPollSettings.shape.names ++ PollSettings.shape.names)

/-- Settings of any kind are read back. -/
theorem reads_toJson (k : SettingsKind) : k.decode.Reads k.toJson := by
  cases k with
  | processor => exact ProcessorSettings.writes.reads "ProcessorConfig"
  | http => exact HttpSettings.writes.reads "HttpConfig"
  | generator => exact GeneratorSettings.writes.reads "GeneratorConfig"
  | queue => exact QueueSettings.writes.reads "QueueConfig"
  | stream => exact StreamSettings.writes.reads "StreamConfig"
  | poll => exact PollSettings.writes.reads "PollerConfig"
  | itemPoll => exact ItemPollSettings.reads_toJson

theorem spelledOut_toJson (k : SettingsKind) (settings : k.Settings) : k.SpelledOut (k.toJson settings) := by
  cases k with
  | processor =>
    refine ⟨ProcessorSettings.writes.writtenOut settings,
      ⟨_, rfl, RuntimeSettings.writes.writtenOut settings.runtime⟩, _, rfl, fun trigger hm => ?_⟩
    obtain ⟨entry, -, rfl⟩ := List.mem_map.mp hm
    exact TriggerSettings.writes.writtenOut entry.2
  | http => exact HttpSettings.writes.writtenOut settings
  | generator => exact GeneratorSettings.writes.writtenOut settings
  | queue => exact QueueSettings.writes.writtenOut settings
  | stream => exact StreamSettings.writes.writtenOut settings
  | poll => exact PollSettings.writes.writtenOut settings
  | itemPoll => exact ItemPollSettings.writtenOut settings

theorem yields_toJson (k : SettingsKind) : k.decode.Yields fun settings => (k.toJson settings).Proper := by
  cases k with
  | processor => exact ProcessorSettings.writes.yields.decode "ProcessorConfig"
  | http => exact HttpSettings.writes.yields.decode "HttpConfig"
  | generator => exact GeneratorSettings.writes.yields.decode "GeneratorConfig"
  | queue => exact QueueSettings.writes.yields.decode "QueueConfig"
  | stream => exact StreamSettings.writes.yields.decode "StreamConfig"
  | poll => exact PollSettings.writes.yields.decode "PollerConfig"
  | itemPoll => exact ItemPollSettings.yields_toJson

/-- **Settings mean the same written out.** Whatever value settings of a kind were read from, an object or a list,
with fields left out, null or unknown: writing them and reading the result gives the same settings. What was written
leaves nothing to defaults, and it is a proper value if the first one was. -/
theorem respelled_of_decoded (k : SettingsKind) {value : Json} {settings : k.Settings}
    (h : k.decode value = .ok settings) :
    k.decode (k.toJson settings) = .ok settings ∧ k.SpelledOut (k.toJson settings) ∧
      (value.Proper → (k.toJson settings).Proper) :=
  ⟨k.reads_toJson settings, k.spelledOut_toJson settings, fun hvalue => k.yields_toJson hvalue h⟩

/-- The settings of a processor as a list, in which the runtime is a list and the trigger an object with a field
that is null and one that nobody knows. -/
theorem respelled_processor :
    ∃ settings : ProcessorSettings,
      processor.decode (.arr [.arr [.str "echo"],
        .obj [("t", .obj [("colour", .str "red"), ("kind", .str "http"), ("num_workers", .null)])]]) =
          .ok settings ∧
      processor.toJson settings = .obj
        [("runtime", .obj [("attributes", .obj []), ("handler", .null), ("kind", .str "echo")]),
          ("triggers", .obj [("t", .obj [("attributes", .obj []), ("kind", .str "http"), ("num_workers", .null),
            ("worker_availability_timeout_ms", .num (.natural 10000))])])] ∧
      processor.decode (processor.toJson settings) = .ok settings :=
  ⟨_, rfl, rfl, (@respelled_of_decoded processor (.arr [.arr [.str "echo"],
    .obj [("t", .obj [("colour", .str "red"), ("kind", .str "http"), ("num_workers", .null)])]]) _ rfl).1⟩

end SettingsKind

end EventDispatch
