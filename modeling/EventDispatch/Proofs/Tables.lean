import EventDispatch.Keyed
import Mathlib.Data.String.Basic

/-!
# Tables in order

A table that is only changed by insertions stays sorted by key. A sorted table is what its own entries
make, and laying it over another one replaces what the two have in common.

## Main definitions

* `Keyed.Sorted`: the keys increase.

## Main results

* `Keyed.Sorted.insert`, `Keyed.Sorted.merge`: sorted tables stay sorted.
* `Keyed.ofList_eq_self`: a sorted table is made of its entries.
* `Keyed.get?_merge`: what a table holds after a sorted one was laid over it.
* `Keyed.get?_modify`, `Keyed.get?_mapValues`: what a table holds after one entry was changed, or all.
-/

namespace EventDispatch.Keyed

variable {α β : Type} {table upper : Keyed α} {key k : String} {value : α}

/-- The keys increase. -/
def Sorted (table : Keyed α) : Prop := table.Pairwise fun a b => a.1 < b.1

theorem sorted_nil : Sorted ([] : Keyed α) := List.Pairwise.nil

/-- Only the keys count. -/
theorem sorted_iff_keys : Sorted table ↔ table.keys.Pairwise (· < ·) := List.pairwise_map.symm

/-- An insertion adds no other entry. -/
theorem mem_of_mem_insert {e : String × α} (h : e ∈ table.insert key value) :
    e = (key, value) ∨ e ∈ table := by
  induction table with
  | nil => exact .inl (List.mem_singleton.mp h)
  | cons entry rest ih =>
    obtain ⟨k', v⟩ := entry
    rw [Keyed.insert] at h
    split at h
    · exact (List.mem_cons.mp h).imp_right (List.mem_cons_of_mem _)
    · split at h
      · exact List.mem_cons.mp h
      · rcases List.mem_cons.mp h with rfl | hm
        · exact .inr List.mem_cons_self
        · exact (ih hm).imp_right (List.mem_cons_of_mem _)

/-- An insertion adds no other key. -/
theorem key_of_mem_insert {e : String × α} (h : e ∈ table.insert key value) :
    e.1 = key ∨ ∃ e' ∈ table, e'.1 = e.1 := by
  rcases mem_of_mem_insert h with rfl | hm
  · exact .inl rfl
  · exact .inr ⟨e, hm, rfl⟩

theorem Sorted.insert (h : Sorted table) (key : String) (value : α) : Sorted (table.insert key value) := by
  induction table with
  | nil => exact List.pairwise_singleton _ _
  | cons entry rest ih =>
    obtain ⟨k', v⟩ := entry
    obtain ⟨hhead, htail⟩ := List.pairwise_cons.mp h
    rw [Keyed.insert]
    split
    next heq =>
      subst heq
      exact List.pairwise_cons.mpr ⟨hhead, htail⟩
    next hne =>
      split
      next hlt =>
        refine List.pairwise_cons.mpr ⟨fun e he => ?_, h⟩
        rcases List.mem_cons.mp he with rfl | hm
        · exact hlt
        · exact hlt.trans (hhead e hm)
      next hnlt =>
        have hgt : k' < key := lt_of_le_of_ne (not_lt.mp hnlt) (Ne.symm hne)
        refine List.pairwise_cons.mpr ⟨fun e he => ?_, ih htail⟩
        rcases key_of_mem_insert he with heq | ⟨e', hm, heq⟩
        · rw [heq]
          exact hgt
        · rw [← heq]
          exact hhead e' hm

theorem Sorted.merge (h : Sorted table) (upper : Keyed α) : Sorted (table.merge upper) := by
  induction upper generalizing table with
  | nil => exact h
  | cons entry upper ih => exact ih (h.insert entry.1 entry.2)

/-- An entry past all others goes to the end. -/
theorem insert_eq_append (h : ∀ e ∈ table, e.1 < key) : table.insert key value = table ++ [(key, value)] := by
  induction table with
  | nil => rfl
  | cons entry rest ih =>
    obtain ⟨k', v⟩ := entry
    have hlt : k' < key := h _ List.mem_cons_self
    have hne : key ≠ k' := hlt.ne'
    rw [Keyed.insert, if_neg hne, if_neg hlt.asymm, ih fun e hm => h e (List.mem_cons_of_mem _ hm),
      List.cons_append]

/-- An entry before all others goes to the front. -/
theorem insert_eq_cons (h : ∀ e ∈ table, key < e.1) : table.insert key value = (key, value) :: table := by
  cases table with
  | nil => rfl
  | cons entry rest =>
    obtain ⟨k, v⟩ := entry
    have hlt : key < k := h _ List.mem_cons_self
    rw [insert, if_neg hlt.ne, if_pos hlt]

/-- A sorted table is made of its entries. -/
theorem ofList_eq_self (h : Sorted table) : ofList table = table := by
  have key : ∀ (upper base : Keyed α), Sorted (base ++ upper) → merge base upper = base ++ upper := by
    intro upper
    induction upper with
    | nil => intro base _; rw [List.append_nil]; rfl
    | cons entry upper ih =>
      intro base hs
      have hlt : ∀ e ∈ base, e.1 < entry.1 := fun e he =>
        (List.pairwise_append.mp hs).2.2 e he entry List.mem_cons_self
      have hmove : base ++ entry :: upper = (base ++ [entry]) ++ upper := by simp
      rw [hmove] at hs ⊢
      rw [← ih _ hs, ← insert_eq_append hlt]
      rfl
  exact key table [] h

/-- A key before all others has no entry. -/
theorem get?_of_lt (h : ∀ e ∈ table, k < e.1) : table.get? k = none := by
  induction table with
  | nil => rfl
  | cons entry rest ih =>
    obtain ⟨k', v⟩ := entry
    have hne : k ≠ k' := (h _ List.mem_cons_self).ne
    rw [get?, if_neg hne]
    exact ih fun e hm => h e (List.mem_cons_of_mem _ hm)

theorem mem_of_get? (h : table.get? key = some value) : (key, value) ∈ table := by
  induction table with
  | nil => cases h
  | cons entry rest ih =>
    obtain ⟨k', v⟩ := entry
    rw [get?] at h
    split at h
    next heq =>
      cases h
      rw [heq]
      exact List.mem_cons_self
    · exact List.mem_cons_of_mem _ (ih h)

/-- In a sorted table every entry is found. -/
theorem Sorted.get?_of_mem (hs : Sorted table) (h : (key, value) ∈ table) :
    table.get? key = some value := by
  induction table with
  | nil => cases h
  | cons entry rest ih =>
    obtain ⟨k', v⟩ := entry
    obtain ⟨hhead, htail⟩ := List.pairwise_cons.mp hs
    rw [get?]
    rcases List.mem_cons.mp h with heq | hm
    · cases heq
      rw [if_pos rfl]
    · have hne : key ≠ k' := (hhead _ hm).ne'
      rw [if_neg hne]
      exact ih htail hm

/-- An entry that is there already changes nothing. -/
theorem Sorted.insert_eq_self (h : Sorted table) (hget : table.get? key = some value) :
    table.insert key value = table := by
  induction table with
  | nil => cases hget
  | cons entry rest ih =>
    obtain ⟨k', v⟩ := entry
    obtain ⟨hhead, htail⟩ := List.pairwise_cons.mp h
    rw [get?] at hget
    rw [Keyed.insert]
    split at hget
    next heq =>
      cases hget
      rw [if_pos heq, heq]
    next hne =>
      have hlt : k' < key := hhead _ (mem_of_get? hget)
      rw [if_neg hne, if_neg hlt.asymm, ih htail hget]

theorem Sorted.modify (h : Sorted table) (key : String) (f : α → α) : Sorted (Keyed.modify key f table) := by
  refine List.pairwise_map.mpr (h.imp fun {a b} hlt => ?_)
  have hkey : ∀ e : String × α, (if e.1 = key then (e.1, f e.2) else (e.1, e.2)).1 = e.1 := by
    intro e
    split <;> rfl
  rw [hkey, hkey]
  exact hlt

theorem Sorted.mapValues (h : Sorted table) (f : α → β) : Sorted (Keyed.mapValues f table) :=
  List.pairwise_map.mpr h

theorem get?_modify (key k : String) (f : α → α) (table : Keyed α) :
    Keyed.get? k (Keyed.modify key f table) = if k = key then (table.get? k).map f else table.get? k := by
  induction table with
  | nil => simp [modify]
  | cons entry rest ih =>
    obtain ⟨k', v⟩ := entry
    have hstep : Keyed.modify key f ((k', v) :: rest) =
        (if k' = key then (k', f v) else (k', v)) :: Keyed.modify key f rest := rfl
    rw [hstep]
    by_cases hk : k = k'
    · subst hk
      by_cases heq : k = key <;> simp [get?, heq]
    · by_cases heq : k' = key
      · subst heq
        rw [if_pos rfl, get?, if_neg hk, ih, if_neg hk, if_neg hk, get?, if_neg hk]
      · rw [if_neg heq, get?, if_neg hk, ih, get?, if_neg hk]

/-- The entries of a sorted table replace those under the same keys. -/
theorem get?_merge (h : Sorted upper) (base : Keyed α) (k : String) :
    (base.merge upper).get? k = (upper.get? k).or (base.get? k) := by
  induction upper generalizing base with
  | nil => rfl
  | cons entry upper ih =>
    obtain ⟨k', v⟩ := entry
    obtain ⟨hhead, htail⟩ := List.pairwise_cons.mp h
    have hstep : base.merge ((k', v) :: upper) = (base.insert k' v).merge upper := rfl
    rw [hstep, ih htail, get?_insert, get?]
    by_cases heq : k = k'
    · subst heq
      rw [get?_of_lt hhead, if_pos rfl, if_pos rfl]
      rfl
    · rw [if_neg heq, if_neg heq]

theorem get?_mapValues (f : α → β) (table : Keyed α) (key : String) :
    (table.mapValues f).get? key = (table.get? key).map f := by
  induction table with
  | nil => rfl
  | cons entry rest ih =>
    obtain ⟨k, v⟩ := entry
    have hstep : mapValues f ((k, v) :: rest) = (k, f v) :: mapValues f rest := rfl
    rw [hstep, get?, get?, ih]
    split <;> rfl

theorem mapValues_insert (f : α → β) (table : Keyed α) (key : String) (value : α) :
    (table.insert key value).mapValues f = (table.mapValues f).insert key (f value) := by
  induction table with
  | nil => rfl
  | cons entry rest ih =>
    obtain ⟨k, v⟩ := entry
    have hstep : mapValues f ((k, v) :: rest) = (k, f v) :: mapValues f rest := rfl
    rw [hstep, insert, insert]
    split
    · rfl
    · split
      · rfl
      · rw [← ih]
        rfl

theorem mapValues_modify {f : α → β} {g : α → α} {g' : β → β} (h : ∀ v, f (g v) = g' (f v)) (key : String)
    (table : Keyed α) :
    (Keyed.modify key g table).mapValues f = Keyed.modify key g' (table.mapValues f) := by
  simp only [modify, mapValues, List.map_map]
  refine List.map_congr_left fun entry _ => ?_
  obtain ⟨k, v⟩ := entry
  by_cases hk : k = key <;> simp [hk, h]

end EventDispatch.Keyed
