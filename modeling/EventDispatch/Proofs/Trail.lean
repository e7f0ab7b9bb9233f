import EventDispatch.Stream.Reader

/-!
# Trails

What happens to the records of a stream leaves marks: the function is entered with a record, and later
the run on it completes or is cut short. The marks of one shard follow a trail: there is a number of
records that are completed, and the record that the function is entered with is always the next one.

Marks are kept with the newest first, so that what happened before a mark is the list behind it.

## Main definitions

* `Mark`: the marks.
* `Trail`: the marks of a shard up to a number of completed records.

## Main results

* `Trail.completed_before`: when the function is entered with a record, all before it are completed.
* `Trail.not_entered_after`: the function is not entered with a completed record.
* `Trail.cut_between`: between two entries with one record the first of them was cut short.
-/

namespace EventDispatch

/-- What happens to a record of a shard, which is named by its sequence number. -/
inductive Mark where
  /-- The function is entered with it. -/
  | entered (shard sequence : String)
  /-- The run on it is over, whatever its outcome. -/
  | completed (shard sequence : String)
  /-- The run on it was given up. -/
  | cut (shard sequence : String)
deriving DecidableEq, Repr

/-- The shard of the record. -/
def Mark.shard : Mark → String
  | entered shard _ | completed shard _ | cut shard _ => shard

/-- The marks of a shard whose records have these sequence numbers, newest first among the marks of all
shards: so many records are completed, and the function runs on the next one or does not. -/
inductive Trail (sequences : List String) (shard : String) : List Mark → Nat → Bool → Prop
  | nil : Trail sequences shard [] 0 false
  | elsewhere {log : List Mark} {count : Nat} {busy : Bool} {mark : Mark}
      (h : Trail sequences shard log count busy) (hm : mark.shard ≠ shard) :
      Trail sequences shard (mark :: log) count busy
  | entered {log : List Mark} {count : Nat} {sequence : String}
      (h : Trail sequences shard log count false) (hq : sequences[count]? = some sequence) :
      Trail sequences shard (.entered shard sequence :: log) count true
  | completed {log : List Mark} {count : Nat} {sequence : String}
      (h : Trail sequences shard log count true) (hq : sequences[count]? = some sequence) :
      Trail sequences shard (.completed shard sequence :: log) (count + 1) false
  | cut {log : List Mark} {count : Nat} {sequence : String}
      (h : Trail sequences shard log count true) (hq : sequences[count]? = some sequence) :
      Trail sequences shard (.cut shard sequence :: log) count false

namespace Trail

variable {sequences : List String} {shard sequence : String} {log later earlier : List Mark}
  {count : Nat} {busy : Bool}

/-- Records that are appended do not disturb a trail. -/
theorem append (h : Trail sequences shard log count busy) (more : List String) :
    Trail (sequences ++ more) shard log count busy := by
  have key : ∀ {i : Nat} {q : String}, sequences[i]? = some q → (sequences ++ more)[i]? = some q := by
    intro i q hq
    obtain ⟨hi, -⟩ := List.getElem?_eq_some_iff.mp hq
    rw [List.getElem?_append_left hi, hq]
  induction h with
  | nil => exact .nil
  | elsewhere _ hm ih => exact .elsewhere ih hm
  | entered _ hq ih => exact .entered ih (key hq)
  | completed _ hq ih => exact .completed ih (key hq)
  | cut _ hq ih => exact .cut ih (key hq)

theorem count_le (h : Trail sequences shard log count busy) : count ≤ sequences.length := by
  induction h with
  | nil => exact Nat.zero_le _
  | elsewhere _ _ ih | entered _ _ ih | cut _ _ ih => exact ih
  | completed _ hq _ => exact (List.getElem?_eq_some_iff.mp hq).1

/-- What a trail is made of is a trail. -/
theorem behind (h : Trail sequences shard (later ++ earlier) count busy) :
    ∃ count busy, Trail sequences shard earlier count busy := by
  induction later generalizing count busy with
  | nil => exact ⟨count, busy, h⟩
  | cons mark later ih =>
    cases h with
    | elsewhere h _ | entered h _ | completed h _ | cut h _ => exact ih h

/-- At an entry, the record is the next one to complete. -/
theorem at_entered (h : Trail sequences shard (.entered shard sequence :: earlier) count busy) :
    Trail sequences shard earlier count false ∧ sequences[count]? = some sequence := by
  cases h with
  | elsewhere _ hm => exact absurd rfl hm
  | entered h hq => exact ⟨h, hq⟩

theorem completed_mem_iff (h : Trail sequences shard log count busy) :
    .completed shard sequence ∈ log ↔ ∃ i : Nat, i < count ∧ sequences[i]? = some sequence := by
  induction h with
  | nil => simp
  | @elsewhere log count busy mark _ hm ih =>
    rw [List.mem_cons, ih]
    refine ⟨fun h => h.resolve_left ?_, .inr⟩
    rintro rfl
    exact hm rfl
  | entered _ _ ih | cut _ _ ih =>
    rw [List.mem_cons, ih]
    exact ⟨fun h => h.resolve_left (by simp), .inr⟩
  | @completed log count q _ hq ih =>
    rw [List.mem_cons, ih]
    constructor
    · rintro (heq | ⟨i, hi, hs⟩)
      · cases heq
        exact ⟨count, Nat.lt_succ_self _, hq⟩
      · exact ⟨i, Nat.lt_succ_of_lt hi, hs⟩
    · rintro ⟨i, hi, hs⟩
      rcases Nat.lt_succ_iff_lt_or_eq.mp hi with hlt | rfl
      · exact .inr ⟨i, hlt, hs⟩
      · rw [hq, Option.some.injEq] at hs
        exact .inl (by rw [hs])

/-- In a list without repetitions an entry has one place. -/
theorem index_unique (hd : sequences.Nodup) {i j : Nat} (hi : sequences[i]? = some sequence)
    (hj : sequences[j]? = some sequence) : i = j := by
  obtain ⟨hlt, -⟩ := List.getElem?_eq_some_iff.mp hi
  exact (List.getElem?_inj hlt hd).mp (hi.trans hj.symm)

/-- **In order.** When the function is entered with a record, all records before it are completed. -/
theorem completed_before
    (h : Trail sequences shard (later ++ .entered shard sequence :: earlier) count busy) :
    ∃ k : Nat, sequences[k]? = some sequence ∧
      ∀ i < k, ∀ q, sequences[i]? = some q → .completed shard q ∈ earlier := by
  obtain ⟨k, busy', hk⟩ := h.behind
  obtain ⟨hbehind, hq⟩ := hk.at_entered
  exact ⟨k, hq, fun i hi q hs => (hbehind.completed_mem_iff).mpr ⟨i, hi, hs⟩⟩

/-- **At most once.** The function is not entered with a completed record. -/
theorem not_entered_after (hd : sequences.Nodup)
    (h : Trail sequences shard (later ++ .completed shard sequence :: earlier) count busy) :
    .entered shard sequence ∉ later := by
  intro hm
  obtain ⟨newer, older, rfl⟩ := List.mem_iff_append.mp hm
  rw [List.append_assoc, List.cons_append] at h
  obtain ⟨k, busy', hk⟩ := h.behind
  obtain ⟨hbehind, hq⟩ := hk.at_entered
  obtain ⟨i, hi, hs⟩ := (hbehind.completed_mem_iff).mp (List.mem_append_right older List.mem_cons_self)
  exact absurd (index_unique hd hs hq) (Nat.ne_of_lt hi)

/-- After an entry the record is still being handled, or completed, or was cut short. -/
theorem after_entered (hd : sequences.Nodup) {k : Nat} (hk : sequences[k]? = some sequence)
    (h : Trail sequences shard (later ++ .entered shard sequence :: earlier) count busy) :
    (count = k ∧ busy = true) ∨ k < count ∨ .cut shard sequence ∈ later := by
  induction later generalizing count busy with
  | nil =>
    have hq := h.at_entered.2
    cases h with
    | elsewhere _ hm => exact absurd rfl hm
    | entered _ _ => exact .inl ⟨index_unique hd hq hk, rfl⟩
  | cons mark later ih =>
    cases h with
    | elsewhere h _ => exact (ih h).imp_right (.imp_right (List.mem_cons_of_mem _))
    | entered h _ =>
      rcases ih h with ⟨-, hbusy⟩ | hlt | hcut
      · cases hbusy
      · exact .inr (.inl hlt)
      · exact .inr (.inr (List.mem_cons_of_mem _ hcut))
    | completed h _ =>
      rcases ih h with ⟨rfl, -⟩ | hlt | hcut
      · exact .inr (.inl (Nat.lt_succ_self _))
      · exact .inr (.inl (Nat.lt_succ_of_lt hlt))
      · exact .inr (.inr (List.mem_cons_of_mem _ hcut))
    | cut h hq =>
      rcases ih h with ⟨rfl, -⟩ | hlt | hcut
      · rw [hk, Option.some.injEq] at hq
        exact .inr (.inr (by rw [hq]; exact List.mem_cons_self))
      · exact .inr (.inl hlt)
      · exact .inr (.inr (List.mem_cons_of_mem _ hcut))

/-- **Again only after a cut.** Between two entries with one record the earlier was cut short. -/
theorem cut_between (hd : sequences.Nodup) {between : List Mark}
    (h : Trail sequences shard (later ++ .entered shard sequence ::
      (between ++ .entered shard sequence :: earlier)) count busy) :
    .cut shard sequence ∈ between := by
  obtain ⟨k, busy', hk⟩ := h.behind
  obtain ⟨hbehind, hq⟩ := hk.at_entered
  rcases hbehind.after_entered hd hq with ⟨-, hbusy⟩ | hlt | hcut
  · cases hbusy
  · exact absurd hlt (Nat.lt_irrefl _)
  · exact hcut

end Trail

end EventDispatch
