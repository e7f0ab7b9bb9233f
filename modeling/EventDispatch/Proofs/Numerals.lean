import EventDispatch.Ambient
import EventDispatch.Stream.Records

/-!
# Numbers as texts

Positions and sequence numbers are numbers written in digits, and so are the digits of an id. What is
written reads back as the same number, so two numbers written alike are one.

## Main results

* `Decimal.natural?_toString`: a number below the bound reads back.
* `Decimal.digitsFrom?_toDigits`: a number that is written to a base reads back to that base.
* `RecordStream.sequenceText_injective`: sequence numbers are told apart by their texts.
* `Ambient.idText_injective`: so are ids.
-/

namespace EventDispatch

namespace Decimal

/-- A decimal digit counts as itself. -/
theorem digit?_of_isDigit {c : Char} (h : c.isDigit = true) : digit? c = some (c.toNat - '0'.toNat) := by
  have hrange : '0' ≤ c ∧ c ≤ '9' := by
    simpa [Char.isDigit, Char.le_def] using h
  rw [digit?, if_pos hrange]

/-- Digits are read as the number that they stand for. -/
theorem digitsFrom?_of_isDigit {cs : List Char} (h : ∀ c ∈ cs, c.isDigit = true) (value : Nat) :
    digitsFrom? 10 value cs = some (Nat.ofDigitChars 10 cs value) := by
  induction cs generalizing value with
  | nil => rfl
  | cons c cs ih =>
    have hc : c.isDigit = true := h c List.mem_cons_self
    have hlt : c.toNat - '0'.toNat < 10 := by
      have hle : c.toNat ≤ '9'.toNat := (Char.isDigit_iff_toNat.mp hc).2
      have hnine : '9'.toNat = 57 := rfl
      have hzero : '0'.toNat = 48 := rfl
      omega
    have htail := ih (fun c hm => h c (List.mem_cons_of_mem _ hm)) (value * 10 + (c.toNat - '0'.toNat))
    rw [Nat.ofDigitChars_cons, Nat.mul_comm 10 value, ← htail]
    simp only [digitsFrom?, digit?_of_isDigit hc, hlt, if_true]

theorem isDigit_of_mem_toString {n : Nat} {c : Char} (h : c ∈ (toString n).toList) :
    c.isDigit = true := by
  rw [Nat.toString_eq_repr, Nat.toList_repr] at h
  exact Nat.isDigit_of_mem_toDigits (by decide) (by decide) h

/-- A number that is written in digits and lies below the bound reads back. -/
theorem natural?_toString (bound n : Nat) :
    natural? bound (toString n).toList = if n < bound then some n else none := by
  have hdigits : digits? 10 (toString n).toList = some n := by
    rw [digits?, if_neg (by simp),
      digitsFrom?_of_isDigit fun c hm => isDigit_of_mem_toString hm, Nat.toString_eq_repr,
      Nat.toList_repr, Nat.ofDigitChars_ten_toDigits]
  have hplus : ∀ rest, (toString n).toList ≠ '+' :: rest := by
    intro rest heq
    have hdigit : '+'.isDigit = true :=
      isDigit_of_mem_toString (by rw [heq]; exact List.mem_cons_self)
    exact absurd hdigit (by decide)
  have hbody : natural? bound (toString n).toList = (digits? 10 (toString n).toList).filter (· < bound) := by
    unfold natural?
    split
    next rest heq => exact absurd heq (hplus rest)
    next => rfl
  rw [hbody, hdigits]
  by_cases h : n < bound <;> simp [Option.filter, h]

/-- Two numbers in the same digits are the same. -/
theorem toString_injective : Function.Injective (toString : Nat → String) := fun i j h => by
  have hread := natural?_toString (i + 1) j
  rw [← h, natural?_toString, if_pos (Nat.lt_succ_self i)] at hread
  split at hread
  · exact Option.some.inj hread
  · cases hread

/-! ### Other bases -/

variable {base n : Nat}

theorem digit?_digitChar (h : n < 16) : digit? n.digitChar = some n := by
  have hall : ∀ d : Fin 16, digit? d.val.digitChar = some d.val := by decide
  exact hall ⟨n, h⟩

theorem digitsFrom?_append (value : Nat) (cs rest : List Char) :
    digitsFrom? base value (cs ++ rest) = (digitsFrom? base value cs).bind (digitsFrom? base · rest) := by
  induction cs generalizing value with
  | nil => rfl
  | cons c cs ih =>
    rw [List.cons_append, digitsFrom?, digitsFrom?]
    cases digit? c with
    | none => rfl
    | some d =>
      by_cases hd : d < base
      · simp only [hd, if_true, ih]
      · simp only [hd, if_false, Option.bind_none]

/-- One more digit behind the others. -/
theorem digitsFrom?_concat {value : Nat} {cs : List Char} (hn : n < base) (hbase : base ≤ 16)
    (h : digitsFrom? base 0 cs = some value) :
    digitsFrom? base 0 (cs ++ [n.digitChar]) = some (value * base + n) := by
  have hdigit := digit?_digitChar (Nat.lt_of_lt_of_le hn hbase)
  rw [digitsFrom?_append, h]
  simp only [Option.bind_some, digitsFrom?, hdigit, hn, if_true]

/-- A number that is written to a base reads back. -/
theorem digitsFrom?_toDigits (hone : 1 < base) (hbase : base ≤ 16) (n : Nat) :
    digitsFrom? base 0 (Nat.toDigits base n) = some n := by
  induction n using Nat.strongRecOn with
  | _ n ih =>
    by_cases hlt : n < base
    · have hnone : digitsFrom? base 0 [] = some 0 := rfl
      have hdigit := digitsFrom?_concat hlt hbase hnone
      rwa [List.nil_append, Nat.zero_mul, Nat.zero_add, ← Nat.toDigits_of_lt_base hlt] at hdigit
    · have hle : base ≤ n := Nat.le_of_not_lt hlt
      have hfewer := ih (n / base) (Nat.div_lt_self (by omega) hone)
      rw [Nat.toDigits_of_base_le hone hle,
        digitsFrom?_concat (Nat.mod_lt n (by omega)) hbase hfewer, Nat.div_add_mod']

/-- Zeros in front do not count. -/
theorem digitsFrom?_zeros (hbase : 0 < base) (count : Nat) (cs : List Char) :
    digitsFrom? base 0 (List.replicate count '0' ++ cs) = digitsFrom? base 0 cs := by
  induction count with
  | zero => rfl
  | succ count ih =>
    have hzero : digit? '0' = some 0 := rfl
    rw [List.replicate_succ, List.cons_append, digitsFrom?, hzero]
    simp only [hbase, if_true, Nat.zero_mul, Nat.zero_add, ih]

end Decimal

namespace RecordStream

theorem toList_sequenceText (n : Nat) : (sequenceText n).toList =
    List.replicate (20 - (toString n).length) '0' ++ Nat.toDigits 10 n := by
  rw [sequenceText, String.toList_append, String.toList_ofList, Nat.toString_eq_repr, Nat.toList_repr]

theorem sequenceText_injective : Function.Injective sequenceText := by
  intro i j h
  have key : ∀ n, Nat.ofDigitChars 10 (sequenceText n).toList 0 = n := by
    intro n
    rw [toList_sequenceText, Nat.ofDigitChars_append, Nat.ofDigitChars_replicate_zero, Nat.mul_zero,
      Nat.ofDigitChars_ten_toDigits]
  rw [← key i, ← key j, h]

/-- A sequence number is never the empty text. -/
theorem isEmpty_sequenceText (n : Nat) : (sequenceText n).isEmpty = false := by
  have hne : (sequenceText n).toList ≠ [] := by
    rw [toList_sequenceText]
    exact List.append_ne_nil_of_right_ne_nil _ Nat.toDigits_ne_nil
  simpa using hne

end RecordStream

namespace Ambient

theorem toList_hexPadded (width n : Nat) : (hexPadded width n).toList =
    List.replicate (width - (Nat.toDigits 16 n).length) '0' ++ Nat.toDigits 16 n := by
  rw [hexPadded, String.toList_ofList]

/-- Digits with zeros in front read back as the number. -/
theorem digitsFrom?_hexPadded (width n : Nat) :
    Decimal.digitsFrom? 16 0 (hexPadded width n).toList = some n := by
  rw [toList_hexPadded, Decimal.digitsFrom?_zeros (by decide),
    Decimal.digitsFrom?_toDigits (by decide) (by decide)]

theorem hexPadded_injective (width : Nat) : Function.Injective (hexPadded width) := fun i j h => by
  have hi := digitsFrom?_hexPadded width i
  rw [h, digitsFrom?_hexPadded] at hi
  exact (Option.some.inj hi).symm

/-- A number below the bound fills the width exactly. -/
theorem length_hexPadded {width n : Nat} (hwidth : 0 < width) (h : n < Nat.pow 16 width) :
    (hexPadded width n).toList.length = width := by
  have hlength := (Nat.length_toDigits_le_iff (b := 16) (by decide) hwidth).mpr h
  rw [toList_hexPadded, List.length_append, List.length_replicate]
  omega

/-- Ids are told apart by their texts. -/
theorem idText_injective : Function.Injective idText := fun i j h => by
  have hlast : ∀ n, (hexPadded 12 (n % 0x1000000000000)).toList.length = 12 := fun n => by
    refine length_hexPadded (by decide) ?_
    have hlt : n % 0x1000000000000 < 0x1000000000000 := Nat.mod_lt n (by decide)
    omega
  have hlists := congrArg String.toList h
  simp only [idText, String.toList_append] at hlists
  obtain ⟨hfront, hback⟩ := List.append_inj' hlists ((hlast i).trans (hlast j).symm)
  have hdiv := hexPadded_injective 8 (String.toList_injective (List.append_cancel_right hfront))
  have hmod := hexPadded_injective 12 (String.toList_injective hback)
  rw [← Nat.div_add_mod i 0x1000000000000, ← Nat.div_add_mod j 0x1000000000000, hdiv, hmod]

end Ambient

end EventDispatch
