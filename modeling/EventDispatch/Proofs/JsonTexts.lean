import EventDispatch.Json.Parser
import EventDispatch.Json.Printer

/-!
# Objects of texts read back

An object whose fields are all texts is written as JSON and read back field by field, in the order
written. Nothing is asked of the keys and the texts: whatever a string literal may not contain is
escaped, and every escape stands for its character again.

## What is deliberately absent

Where a reader stops is a place in the text, by line and column, and what is left. Only the latter
matters here, so the lemmas say of a cursor no more than what it still has to read.

## Main results

* `Json.readString_quote`: a string literal reads back.
* `Json.parseTexts_render`: an object of texts reads back.
-/

namespace EventDispatch.Json

variable {cur : Cursor} {rest : List Char}

@[simp] theorem rest_past (c : Char) (rest : List Char) (cur : Cursor) : (cur.past c rest).rest = rest := by
  rw [Cursor.past]
  split <;> rfl

/-! ### Escapes -/

theorem hexDigit?_hexDigit {n : Nat} (h : n < 16) : Decimal.hexDigit? (hexDigit n) = some n := by
  have hall : ∀ n < 16, Decimal.hexDigit? (hexDigit n) = some n := by decide
  exact hall n h

/-- A control character is written with the last two of four hexadecimal digits. -/
theorem readUnicode_control {c : Char} (hc : c.toNat < 32)
    (h : cur.rest = '0' :: '0' :: hexDigit (c.toNat / 16) :: hexDigit (c.toNat % 16) :: rest) :
    ∃ cur', readUnicode cur = .ok (c, cur') ∧ cur'.rest = rest := by
  have hzero : Decimal.hexDigit? '0' = some 0 := by decide
  have hhigh := hexDigit?_hexDigit (show c.toNat / 16 < 16 by omega)
  have hlow := hexDigit?_hexDigit (show c.toNat % 16 < 16 by omega)
  have hvalue : ((0 * 16 + 0) * 16 + c.toNat / 16) * 16 + c.toNat % 16 = c.toNat := by omega
  have hread : readHex cur = .ok (c.toNat, cur.beyond 4 rest) := by
    simp only [readHex, h, hzero, hhigh, hlow, hvalue]
  refine ⟨cur.beyond 4 rest, ?_, rfl⟩
  have hsurrogate : ¬ (0xDC00 ≤ c.toNat ∧ c.toNat ≤ 0xDFFF) := by omega
  have hplain : c.toNat < 0xD800 ∨ 0xDBFF < c.toNat := by omega
  simp only [readUnicode, hread, bind, Except.bind, hsurrogate, hplain, if_true, if_false, pure,
    Except.pure, Char.ofNat_toNat]

/-- An escape stands for the character that is written with it. -/
theorem readEscape_escapeChar {c : Char} {text : List Char} (hesc : escapeChar c = '\\' :: text)
    (h : cur.rest = text ++ rest) : ∃ cur', readEscape cur = .ok (c, cur') ∧ cur'.rest = rest := by
  -- One letter after the backslash.
  have letter : ∀ x : Char, '\\' :: text = ['\\', x] →
      (cur.rest = x :: rest → readEscape cur = .ok (c, cur.past x rest)) →
      ∃ cur', readEscape cur = .ok (c, cur') ∧ cur'.rest = rest := by
    intro x hx hread
    obtain rfl : text = [x] := by simpa using hx
    exact ⟨cur.past x rest, hread h, rest_past _ _ _⟩
  unfold escapeChar at hesc
  by_cases hquote : c = '"'
  · subst hquote
    exact letter '"' (by simpa using hesc.symm) fun hc => by simp [readEscape, hc]
  by_cases hback : c = '\\'
  · subst hback
    exact letter '\\' (by simpa using hesc.symm) fun hc => by simp [readEscape, hc]
  by_cases hn : c = '\n'
  · subst hn
    exact letter 'n' (by simpa using hesc.symm) fun hc => by simp [readEscape, hc]
  by_cases hr : c = '\r'
  · subst hr
    exact letter 'r' (by simpa using hesc.symm) fun hc => by simp [readEscape, hc]
  by_cases ht : c = '\t'
  · subst ht
    exact letter 't' (by simpa using hesc.symm) fun hc => by simp [readEscape, hc]
  by_cases hb : c = Char.ofNat 8
  · subst hb
    exact letter 'b' hesc.symm fun hc => by simp [readEscape, hc]
  by_cases hf : c = Char.ofNat 12
  · subst hf
    exact letter 'f' hesc.symm fun hc => by simp [readEscape, hc]
  simp only [hquote, hback, hn, hr, ht, hb, hf, if_false] at hesc
  by_cases hc : c.toNat < 32
  · rw [if_pos hc, List.cons.injEq] at hesc
    obtain rfl := hesc.2
    obtain ⟨cur', hread, hrest⟩ := readUnicode_control hc
      (show (cur.past 'u' ('0' :: '0' :: hexDigit (c.toNat / 16) :: hexDigit (c.toNat % 16) :: rest)).rest
        = _ from rest_past _ _ _)
    exact ⟨cur', by simp [readEscape, h, hread], hrest⟩
  · rw [if_neg hc, List.cons.injEq] at hesc
    exact absurd hesc.1 hback

/-- A character is written with a backslash, or as it is. -/
theorem escapeChar_cases (c : Char) : (∃ text, escapeChar c = '\\' :: text) ∨
    (escapeChar c = [c] ∧ c ≠ '"' ∧ c ≠ '\\' ∧ ¬ c.toNat < 32) := by
  rw [escapeChar]
  repeat' split
  all_goals first
    | exact .inl ⟨_, rfl⟩
    | exact .inr ⟨rfl, by assumption, by assumption, by assumption⟩

/-- One character, as it is written inside a string literal, reads back. -/
theorem readChars_escapeChar (fuel : Nat) (done : List Char) (c : Char)
    (h : cur.rest = escapeChar c ++ rest) :
    ∃ cur', readChars (fuel + 1) done cur = readChars fuel (c :: done) cur' ∧ cur'.rest = rest := by
  rcases escapeChar_cases c with ⟨text, hesc⟩ | ⟨hesc, hquote, hback, hc⟩
  · rw [hesc] at h
    obtain ⟨cur', hread, hrest⟩ := readEscape_escapeChar hesc
      (show (cur.past '\\' (text ++ rest)).rest = _ from rest_past _ _ _)
    exact ⟨cur', by simp [readChars, h, hread], hrest⟩
  · rw [hesc, List.singleton_append] at h
    exact ⟨cur.past c rest, by simp [readChars, h, hquote, hback, hc], rest_past _ _ _⟩

/-! ### String literals -/

theorem readChars_flatMap {fuel : Nat} (done cs : List Char) (hfuel : cs.length < fuel)
    (h : cur.rest = cs.flatMap escapeChar ++ '"' :: rest) :
    ∃ cur', readChars fuel done cur = .ok (String.ofList (done.reverse ++ cs), cur') ∧
      cur'.rest = rest := by
  induction cs generalizing fuel done cur with
  | nil =>
    obtain ⟨fuel, rfl⟩ := Nat.exists_eq_add_of_lt hfuel
    rw [List.flatMap_nil, List.nil_append] at h
    exact ⟨cur.past '"' rest, by simp [readChars, h], rest_past _ _ _⟩
  | cons c cs ih =>
    obtain ⟨fuel, rfl⟩ := Nat.exists_eq_add_of_lt (Nat.lt_of_le_of_lt (Nat.zero_le _) hfuel)
    rw [List.flatMap_cons, List.append_assoc] at h
    rw [Nat.zero_add] at hfuel ⊢
    obtain ⟨next, hstep, hnext⟩ := readChars_escapeChar fuel done c h
    obtain ⟨cur', hread, hrest⟩ := ih (c :: done) (Nat.lt_of_succ_lt_succ hfuel) hnext
    refine ⟨cur', ?_, hrest⟩
    rw [hstep, hread, List.reverse_cons, List.append_assoc, List.singleton_append]

theorem length_le_flatMap_escapeChar (cs : List Char) : cs.length ≤ (cs.flatMap escapeChar).length := by
  induction cs with
  | nil => exact Nat.le_refl _
  | cons c cs ih =>
    have hone : 1 ≤ (escapeChar c).length := by
      rcases escapeChar_cases c with ⟨text, hesc⟩ | ⟨hesc, -⟩ <;> rw [hesc] <;> simp
    rw [List.flatMap_cons, List.length_append, List.length_cons]
    omega

/-- A string literal reads back, after its opening quote. -/
theorem readString_quote (s : String) (h : '"' :: cur.rest = quote s ++ rest) :
    ∃ cur', readString cur = .ok (s, cur') ∧ cur'.rest = rest := by
  have hrest : cur.rest = s.toList.flatMap escapeChar ++ '"' :: rest := by
    simpa [quote] using h
  have hfuel : s.toList.length < cur.rest.length + 1 := by
    have := length_le_flatMap_escapeChar s.toList
    rw [hrest, List.length_append]
    omega
  obtain ⟨cur', hread, hend⟩ := readChars_flatMap [] s.toList hfuel hrest
  exact ⟨cur', by simpa [readString] using hread, hend⟩

/-! ### Fields -/

/-- Where no blank comes next, there is nothing to skip. -/
theorem atToken_of_rest {c : Char} (h : cur.rest = c :: rest)
    (hc : c ≠ '\n' ∧ c ≠ ' ' ∧ c ≠ '\t' ∧ c ≠ '\r') : cur.atToken = cur := by
  obtain ⟨hn, hs, ht, hr⟩ := hc
  cases cur
  subst h
  simp [Cursor.atToken, skipBlanks, hn, hs, ht, hr]

/-- The key of a field reads back; before every field but the first there is a comma. -/
theorem readKey_quote (first : Bool) (key : String)
    (h : cur.rest = (if first then [] else [',']) ++ (quote key ++ rest)) :
    ∃ cur', readKey first cur = .ok (some key, cur') ∧ cur'.rest = rest := by
  obtain ⟨body, hbody⟩ : ∃ body, quote key ++ rest = '"' :: body := ⟨_, rfl⟩
  rw [hbody] at h
  have hopened : ∀ start : Cursor, ∃ cur', readString (start.past '"' body) = .ok (key, cur') ∧
      cur'.rest = rest :=
    fun start => readString_quote key (by rw [rest_past, hbody])
  have hbrace : '"' ≠ Char.ofNat 125 := by decide
  cases first with
  | true =>
    have htoken : cur.atToken = cur := atToken_of_rest h (by decide)
    obtain ⟨cur', hread, hrest⟩ := hopened cur
    refine ⟨cur', ?_, hrest⟩
    simp only [if_true, List.nil_append] at h
    simp [readKey, htoken, h, hbrace, hread, Except.map]
  | false =>
    have htoken : cur.atToken = cur := atToken_of_rest h (by decide)
    have hcomma : ',' ≠ Char.ofNat 125 := by decide
    have hnext : (cur.past ',' ('"' :: body)).atToken = cur.past ',' ('"' :: body) :=
      atToken_of_rest (rest_past _ _ _) (by decide)
    obtain ⟨cur', hread, hrest⟩ := hopened (cur.past ',' ('"' :: body))
    refine ⟨cur', ?_, hrest⟩
    simp only [Bool.false_eq_true, if_false, List.singleton_append] at h
    simp [readKey, htoken, h, hcomma, hnext, hread, Except.map]

theorem readKey_end (first : Bool) (h : cur.rest = Char.ofNat 125 :: rest) :
    ∃ cur', readKey first cur = .ok (none, cur') ∧ cur'.rest = rest := by
  have htoken : cur.atToken = cur := atToken_of_rest h (by decide)
  exact ⟨cur.past (Char.ofNat 125) rest, by simp [readKey, htoken, h], rest_past _ _ _⟩

theorem readColon_colon (h : cur.rest = ':' :: rest) :
    ∃ cur', readColon cur = .ok cur' ∧ cur'.rest = rest := by
  have htoken : cur.atToken = cur := atToken_of_rest h (by decide)
  exact ⟨cur.past ':' rest, by simp [readColon, htoken, h], rest_past _ _ _⟩

/-! ### Objects -/

/-- The fields of an object of texts, each after the first behind a comma. -/
def moreFields (first : Bool) : List (String × String) → List Char
  | [] => []
  | (key, value) :: table =>
    (if first then [] else [',']) ++ (quote key ++ ':' :: (quote value ++ moreFields false table))

theorem fieldChars_eq_moreFields (table : List (String × String)) :
    fieldChars (Keyed.mapValues Json.str table) = moreFields true table := by
  have key : ∀ (k v : String) (table : List (String × String)),
      fieldChars (Keyed.mapValues Json.str ((k, v) :: table)) =
        quote k ++ ':' :: (quote v ++ moreFields false table) := by
    intro k v table
    induction table generalizing k v with
    | nil => simp [Keyed.mapValues, fieldChars, chars, moreFields]
    | cons field table ih =>
      obtain ⟨k', v'⟩ := field
      have htail := ih k' v'
      simp only [Keyed.mapValues, List.map_cons] at htail ⊢
      rw [fieldChars, htail]
      · simp [chars, moreFields]
      · simp
  cases table with
  | nil => rfl
  | cons field table =>
    obtain ⟨k, v⟩ := field
    rw [key, moreFields, if_pos rfl, List.nil_append]

theorem readTexts_moreFields {fuel : Nat} (first : Bool) (done table : List (String × String))
    (hfuel : table.length < fuel) (h : cur.rest = moreFields first table ++ Char.ofNat 125 :: rest) :
    ∃ cur', readTexts fuel first done cur = .ok (done.reverse ++ table, cur') ∧ cur'.rest = rest := by
  induction table generalizing fuel first done cur with
  | nil =>
    obtain ⟨fuel, rfl⟩ := Nat.exists_eq_add_of_lt hfuel
    obtain ⟨cur', hread, hrest⟩ := readKey_end first h
    exact ⟨cur', by simp [readTexts, hread], hrest⟩
  | cons field table ih =>
    obtain ⟨k, v⟩ := field
    obtain ⟨fuel, rfl⟩ := Nat.exists_eq_add_of_lt (Nat.lt_of_le_of_lt (Nat.zero_le _) hfuel)
    rw [Nat.zero_add] at hfuel ⊢
    simp only [moreFields, List.append_assoc, List.cons_append] at h
    obtain ⟨afterKey, hkey, hkeyRest⟩ := readKey_quote first k h
    obtain ⟨afterColon, hcolon, hcolonRest⟩ := readColon_colon hkeyRest
    obtain ⟨body, hbody⟩ : ∃ body, quote v ++ (moreFields false table ++ Char.ofNat 125 :: rest)
      = '"' :: body := ⟨_, rfl⟩
    rw [hbody] at hcolonRest
    have htoken : afterColon.atToken = afterColon := atToken_of_rest hcolonRest (by decide)
    have hopened : '"' :: (afterColon.past '"' body).rest
        = quote v ++ (moreFields false table ++ Char.ofNat 125 :: rest) := by
      rw [rest_past, ← hbody]
    obtain ⟨afterValue, hvalue, hvalueRest⟩ := readString_quote v hopened
    obtain ⟨cur', hread, hrest⟩ := ih false ((k, v) :: done) (Nat.lt_of_succ_lt_succ hfuel) hvalueRest
    refine ⟨cur', ?_, hrest⟩
    rw [readTexts]
    simp only [hkey, hcolon, htoken, hcolonRest, hvalue, hread, List.reverse_cons, List.append_assoc,
      List.singleton_append]

theorem length_le_moreFields (first : Bool) (table : List (String × String)) :
    table.length ≤ (moreFields first table).length := by
  induction table generalizing first with
  | nil => exact Nat.le_refl _
  | cons field table ih =>
    have := ih false
    simp only [moreFields, quote, List.length_append, List.length_cons]
    omega

/-- **An object of texts reads back**, in the order written. -/
theorem parseTexts_render (table : List (String × String)) :
    parseTexts (Json.obj (Keyed.mapValues Json.str table)).render = .ok table := by
  generalize htext : (Json.obj (Keyed.mapValues Json.str table)).render = text
  have hchars : text.toList = Char.ofNat 123 :: (moreFields true table ++ [Char.ofNat 125]) := by
    rw [← htext, render, String.toList_ofList, chars, fieldChars_eq_moreFields]
  have htoken : (Cursor.start text).atToken = Cursor.start text := atToken_of_rest hchars (by decide)
  have hfuel : table.length < text.length + 1 := by
    have := length_le_moreFields true table
    rw [← String.length_toList, hchars, List.length_cons, List.length_append]
    omega
  obtain ⟨cur', hread, hrest⟩ := readTexts_moreFields true [] table hfuel
    (rest_past (Char.ofNat 123) (moreFields true table ++ [Char.ofNat 125]) (Cursor.start text))
  have hend : cur'.atToken.rest = [] := by
    rw [Cursor.atToken, hrest, skipBlanks]
  have hstart : (Cursor.start text).rest
      = Char.ofNat 123 :: (moreFields true table ++ [Char.ofNat 125]) := hchars
  simp [parseTexts, htoken, hstart, hread, bind, Except.bind, atEnd, hend]

end EventDispatch.Json
