import EventDispatch.Proofs.ItemTexts
import EventDispatch.Proofs.Tables

/-!
# What the attributes of an item tell

The attributes of an item tell when it changed, and the version that the stamps of a source say was
handled last. A put makes a new version, without stamps; stamps laid over an item leave its version as
it is. A listing for changed items leaves out exactly those whose stamps are not older than their
version.

## Main definitions

* `Timestamp.IsKnown`: points of the calendar, in the order of time.
* `Standing`: what attributes tell.
* `ItemStore.putAttributes`: the attributes that a put stores.

## Main results

* `Standing.alreadyStamped_iff`: when a listing for changed items leaves an item out.
* `ItemStore.standing_put`, `ItemStore.standing_merge`: what the attributes tell after a put, and after
  stamps were laid over them.
-/

namespace EventDispatch

/-! ### The order of time -/

instance : LinearOrder Timestamp where
  le t u := t.secs < u.secs ∨ t.secs = u.secs ∧ t.nanos ≤ u.nanos
  lt t u := t.secs < u.secs ∨ t.secs = u.secs ∧ t.nanos < u.nanos
  le_refl t := .inr ⟨rfl, Nat.le_refl _⟩
  le_trans t u v := by omega
  lt_iff_le_not_ge t u := by omega
  le_antisymm t u := by
    obtain ⟨secs, nanos⟩ := t
    obtain ⟨secs', nanos'⟩ := u
    rw [Timestamp.mk.injEq]
    dsimp only
    omega
  le_total t u := by omega
  toDecidableLE t u := inferInstanceAs (Decidable (t.secs < u.secs ∨ t.secs = u.secs ∧ t.nanos ≤ u.nanos))
  toDecidableLT t u := inferInstanceAs (Decidable (t.secs < u.secs ∨ t.secs = u.secs ∧ t.nanos < u.nanos))
  toDecidableEq := inferInstance

namespace Timestamp

variable {t u : Timestamp}

theorem le_iff : t ≤ u ↔ t.secs < u.secs ∨ t.secs = u.secs ∧ t.nanos ≤ u.nanos := Iff.rfl

/-- The calendar has the point. -/
def IsKnown (t : Timestamp) : Prop := ofParts? t.secs t.nanos = some t

theorem IsKnown.bounds (h : t.IsKnown) :
    -8334601228800 ≤ t.secs ∧ t.secs ≤ 8210266876799 ∧ t.nanos < 2000000000 := by
  unfold IsKnown ofParts? firstSecond lastSecond at h
  split at h
  next hin => omega
  · cases h

end Timestamp

/-! ### Numbers in attributes -/

namespace Json

theorem asInt?_ofInt {n : Int} (hlow : -(Width.integer64 : Int) ≤ n) (hhigh : n < Width.integer64) :
    (ofInt n).asInt? = some n := by
  unfold Width.integer64 at hlow hhigh
  rw [ofInt]
  by_cases hsign : 0 ≤ n
  · have hsmall : n < Width.natural64 := by
      rw [Width.natural64]
      omega
    have hfits : n.toNat < Width.integer64 := by
      rw [Width.integer64]
      omega
    rw [if_pos hsign, if_pos hsmall, asInt?, if_pos hfits, Int.toNat_of_nonneg hsign]
  · have hbound : -(Width.integer64 : Int) ≤ n := by
      rw [Width.integer64]
      omega
    rw [if_neg hsign, if_pos hbound, asInt?]

theorem asNat?_ofNat {n : Nat} (h : n < Width.natural64) : (ofNat n).asNat? = some n := by
  have hsmall : (n : Int) < Width.natural64 := by exact_mod_cast h
  rw [ofNat, ofInt, if_pos (Int.natCast_nonneg n), if_pos hsmall, asNat?, Int.toNat_natCast]

end Json

namespace Timestamp.IsKnown

variable {t : Timestamp}

theorem asInt?_secs (h : t.IsKnown) : (Json.ofInt t.secs).asInt? = some t.secs := by
  have hbounds := h.bounds
  exact Json.asInt?_ofInt (by unfold Width.integer64; omega) (by unfold Width.integer64; omega)

theorem asInt?_nanos (h : t.IsKnown) : (Json.ofNat t.nanos).asInt? = some (t.nanos : Int) := by
  have hbounds := h.bounds
  exact Json.asInt?_ofInt (by unfold Width.integer64; omega) (by unfold Width.integer64; omega)

theorem nanos_lt (h : t.IsKnown) : t.nanos < Width.natural32 :=
  h.bounds.2.2.trans (by decide)

theorem asNat?_nanos (h : t.IsKnown) : (Json.ofNat t.nanos).asNat? = some t.nanos := by
  have hbounds := h.bounds
  exact Json.asNat?_ofNat (by unfold Width.natural64; omega)

end Timestamp.IsKnown

/-! ### What attributes tell -/

namespace ItemStore

variable {attributes : Json.Object}

theorem pair?_eq_none {secs : String} (h : attributes.get? secs = none) (nsecs : String) :
    pair? attributes secs nsecs = none := by
  simp only [pair?, h, Option.bind_eq_bind, Option.bind_none]

theorem pair?_eq_some {secs nsecs : String} {a b : Json} {s n : Int}
    (hsecs : attributes.get? secs = some a) (hnsecs : attributes.get? nsecs = some b)
    (ha : a.asInt? = some s) (hb : b.asInt? = some n) : pair? attributes secs nsecs = some (s, n) := by
  simp only [pair?, hsecs, hnsecs, Option.bind_eq_bind, Option.bind_some, ha, hb]
  rfl

end ItemStore

/-- The attributes of an item tell when it changed, and the version that the stamps say was handled. -/
structure Standing (stamp : Stamp) (attributes : Json.Object) (modified : Timestamp)
    (mark : Option Timestamp) : Prop where
  modifiedAt : ∀ name, Item.modifiedAt? ⟨name, attributes⟩ = some modified
  pair : ItemStore.pair? attributes "__mtime_secs" "__mtime_nsecs" = some (modified.secs, ↑modified.nanos)
  marked : ItemStore.pair? attributes stamp.secs stamp.nsecs = mark.map fun t => (t.secs, ↑t.nanos)

namespace Standing

variable {stamp : Stamp} {attributes : Json.Object} {t t' : Timestamp} {mark mark' : Option Timestamp}

theorem unique (h : Standing stamp attributes t mark) (h' : Standing stamp attributes t' mark') :
    t = t' ∧ mark = mark' := by
  have ht := (h.modifiedAt "").symm.trans (h'.modifiedAt "")
  have hmark := h.marked.symm.trans h'.marked
  refine ⟨Option.some.inj ht, Option.map_injective (fun a b hab => ?_) hmark⟩
  obtain ⟨secs, nanos⟩ := a
  obtain ⟨secs', nanos'⟩ := b
  simp only [Prod.mk.injEq] at hab
  rw [Timestamp.mk.injEq]
  omega

theorem isKnown (h : Standing stamp attributes t mark) : t.IsKnown := by
  have hparts : ∃ secs nanos, Timestamp.ofParts? secs nanos = some t := by
    have ht := h.modifiedAt ""
    simp only [Item.modifiedAt?, Option.bind_eq_bind, Option.bind_eq_some_iff] at ht
    obtain ⟨_, -, secs, -, hsecs⟩ := ht
    split at hsecs
    · exact ⟨secs, _, hsecs⟩
    · cases hsecs
  obtain ⟨secs, nanos, hparts⟩ := hparts
  have hsame : t = ⟨secs, nanos⟩ := by
    unfold Timestamp.ofParts? at hparts
    split at hparts
    · exact (Option.some.inj hparts).symm
    · cases hparts
  subst hsame
  exact hparts

/-- A listing for changed items leaves out those whose stamps are not older than their version. -/
theorem alreadyStamped_iff {id : String} (hid : ',' ∉ id.toList)
    (h : Standing (Stamp.ofSource id) attributes t mark) {request : ListRequest} {others : List String}
    (hasked : request.attributes = requestedAttributes (Stamp.ofSource id) others) :
    ItemStore.alreadyStamped request attributes = true ↔ ∃ u ∈ mark, t ≤ u := by
  rw [ItemStore.alreadyStamped]
  rw [hasked]
  dsimp only
  rw [ItemStore.find?_secs hid, ItemStore.find?_nsecs hid]
  dsimp only
  rw [h.pair, h.marked]
  cases mark with
  | none => simp
  | some u =>
    simp only [Option.map_some, Bool.or_eq_true, decide_eq_true_eq, Bool.and_eq_true, beq_iff_eq,
      Option.mem_def, Option.some.injEq, exists_eq_left', Timestamp.le_iff]
    omega

/-- The attributes tell when the item changed, whatever else they tell. -/
theorem of_get? {secs nsecs : Json} (hsecs : attributes.get? "__mtime_secs" = some secs)
    (hnsecs : attributes.get? "__mtime_nsecs" = some nsecs) (ht : t.IsKnown)
    (hs : secs.asInt? = some t.secs) (hn : nsecs.asInt? = some ↑t.nanos)
    (hn' : nsecs.asNat? = some t.nanos)
    (hmark : ItemStore.pair? attributes stamp.secs stamp.nsecs = mark.map fun t => (t.secs, ↑t.nanos)) :
    Standing stamp attributes t mark where
  modifiedAt name := by
    simp only [Item.modifiedAt?, hsecs, hnsecs, Option.bind_eq_bind, Option.bind_some, hs, hn',
      Option.getD_some]
    rw [if_pos ht.nanos_lt]
    exact ht
  pair := ItemStore.pair?_eq_some hsecs hnsecs hs hn
  marked := hmark

/-- Only four attributes count. -/
theorem congr_get? {attributes' : Json.Object} (h : Standing stamp attributes t mark)
    (hsecs : attributes'.get? "__mtime_secs" = attributes.get? "__mtime_secs")
    (hnsecs : attributes'.get? "__mtime_nsecs" = attributes.get? "__mtime_nsecs")
    (hmark : ItemStore.pair? attributes' stamp.secs stamp.nsecs =
      mark'.map fun t => (t.secs, ↑t.nanos)) :
    Standing stamp attributes' t mark' where
  modifiedAt name := by
    rw [← h.modifiedAt name]
    simp only [Item.modifiedAt?, hsecs, hnsecs]
  pair := by
    rw [← h.pair]
    simp only [ItemStore.pair?, hsecs, hnsecs]
  marked := hmark

end Standing

/-! ### Stamps -/

namespace Stamp

/-- No attribute that an item has by itself looks like a stamp. -/
theorem startsWith_builtin : ∀ key ∈ builtinAttributes, key.startsWith ItemStore.stampStart = false := by
  decide

variable {id key : String}

theorem notMem_builtin (h : key.startsWith ItemStore.stampStart = true) : key ∉ builtinAttributes :=
  fun hm => Bool.false_ne_true ((startsWith_builtin _ hm).symm.trans h)

theorem secs_ne (id : String) (h : key ∈ builtinAttributes) : (ofSource id).secs ≠ key := by
  rintro rfl
  exact notMem_builtin (ItemStore.startsWith_stamp id "_secs") h

theorem nsecs_ne (id : String) (h : key ∈ builtinAttributes) : (ofSource id).nsecs ≠ key := by
  rintro rfl
  exact notMem_builtin (ItemStore.startsWith_stamp id "_nsecs") h

theorem secs_ne_nsecs (id : String) : (ofSource id).secs ≠ (ofSource id).nsecs := by
  intro heq
  have hends := ItemStore.endsWith_nsecs_secs id
  rw [heq] at hends
  have hnsecs : ((ofSource id).nsecs.startsWith ItemStore.stampStart &&
      (ofSource id).nsecs.endsWith "_nsecs") = true := Bool.and_eq_true_iff.mpr
    ⟨ItemStore.startsWith_stamp id "_nsecs", ItemStore.endsWith_stamp id "_nsecs"⟩
  exact Bool.false_ne_true (hends.symm.trans hnsecs)

end Stamp

namespace ItemPoller

variable {p : ItemPoller} {id key : String}

theorem get?_stampOf (event : Event) : (p.stampOf event).get? key =
    if key = p.stamp.nsecs then some (.ofNat event.timestamp.nanos)
    else if key = p.stamp.secs then some (.ofInt event.timestamp.secs) else none := by
  have hinsert : p.stampOf event = (Keyed.insert p.stamp.secs (.ofInt event.timestamp.secs) []).insert
    p.stamp.nsecs (.ofNat event.timestamp.nanos) := rfl
  rw [hinsert, Keyed.get?_insert, Keyed.get?_insert, Keyed.get?_nil]

theorem sorted_stampOf (event : Event) : (p.stampOf event).Sorted := Keyed.sorted_nil.merge _

theorem get?_merge_stampOf (attributes : Json.Object) (event : Event) :
    (attributes.merge (p.stampOf event)).get? key =
      if key = p.stamp.nsecs then some (.ofNat event.timestamp.nanos)
      else if key = p.stamp.secs then some (.ofInt event.timestamp.secs) else attributes.get? key := by
  rw [Keyed.get?_merge (sorted_stampOf event), get?_stampOf]
  split
  · rfl
  · split <;> rfl

/-- Stamps laid over an item leave what it has by itself. -/
theorem get?_merge_stampOf_builtin (hp : p.stamp = Stamp.ofSource id) (hkey : key ∈ builtinAttributes)
    (attributes : Json.Object) (event : Event) :
    (attributes.merge (p.stampOf event)).get? key = attributes.get? key := by
  rw [get?_merge_stampOf, hp, if_neg (Stamp.nsecs_ne id hkey).symm, if_neg (Stamp.secs_ne id hkey).symm]

end ItemPoller

namespace ItemStore

/-- The attributes that a put stores. -/
def putAttributes (name : String) (attributes : Json.Object) (now : Timestamp) : Json.Object :=
  ((attributes.insert "__name" (.str name)).insert "__mtime_secs" (.ofInt now.secs)).insert
    "__mtime_nsecs" (.ofNat now.nanos)

variable {id : String} {attributes : Json.Object} {t : Timestamp} {mark : Option Timestamp}

theorem get?_putAttributes_secs (name : String) :
    (putAttributes name attributes t).get? "__mtime_secs" = some (.ofInt t.secs) := by
  rw [putAttributes, Keyed.get?_insert, if_neg (by decide), Keyed.get?_insert_self]

theorem get?_putAttributes_nsecs (name : String) :
    (putAttributes name attributes t).get? "__mtime_nsecs" = some (.ofNat t.nanos) := by
  rw [putAttributes, Keyed.get?_insert_self]

theorem get?_putAttributes_of_notMem {key : String} (h : key ∉ builtinAttributes) (name : String) :
    (putAttributes name attributes t).get? key = attributes.get? key := by
  simp only [builtinAttributes, List.mem_cons, not_or] at h
  rw [putAttributes, Keyed.get?_insert, if_neg h.2.2.1, Keyed.get?_insert, if_neg h.2.1,
    Keyed.get?_insert, if_neg h.1]

/-- A put makes a new version, which has not been handled. -/
theorem standing_put (hnone : attributes.get? (Stamp.ofSource id).secs = none) (ht : t.IsKnown)
    (name : String) : Standing (Stamp.ofSource id) (putAttributes name attributes t) t none := by
  have hmark : (putAttributes name attributes t).get? (Stamp.ofSource id).secs = none := by
    rw [get?_putAttributes_of_notMem (fun h => Stamp.secs_ne id h rfl), hnone]
  exact Standing.of_get? (get?_putAttributes_secs name) (get?_putAttributes_nsecs name) ht
    ht.asInt?_secs ht.asInt?_nanos ht.asNat?_nanos (pair?_eq_none hmark _)

/-- Stamps laid over an item leave its version as it is, and say that the event's was handled. -/
theorem standing_merge (h : Standing (Stamp.ofSource id) attributes t mark) {p : ItemPoller}
    (hp : p.stamp = Stamp.ofSource id) {event : Event} (hevent : event.timestamp.IsKnown) :
    Standing (Stamp.ofSource id) (attributes.merge (p.stampOf event)) t (some event.timestamp) := by
  have hkeep : ∀ key ∈ builtinAttributes,
      (attributes.merge (p.stampOf event)).get? key = attributes.get? key := fun key hkey =>
    ItemPoller.get?_merge_stampOf_builtin hp hkey attributes event
  have hsecs : (attributes.merge (p.stampOf event)).get? (Stamp.ofSource id).secs =
      some (.ofInt event.timestamp.secs) := by
    rw [ItemPoller.get?_merge_stampOf, hp, if_neg (Stamp.secs_ne_nsecs id), if_pos rfl]
  have hnsecs : (attributes.merge (p.stampOf event)).get? (Stamp.ofSource id).nsecs =
      some (.ofNat event.timestamp.nanos) := by
    rw [ItemPoller.get?_merge_stampOf, hp, if_pos rfl]
  exact h.congr_get? (hkeep _ (by simp [builtinAttributes])) (hkeep _ (by simp [builtinAttributes]))
    (pair?_eq_some hsecs hnsecs hevent.asInt?_secs hevent.asInt?_nanos)

end ItemStore

end EventDispatch
