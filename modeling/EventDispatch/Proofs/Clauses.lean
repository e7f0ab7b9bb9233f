import EventDispatch.Poll.Query
import Mathlib.Data.List.Infix
import Mathlib.Data.List.Count
import Mathlib.Data.List.Forall2

/-!
# The clauses of a query, read back

A query is one text, and its clauses are any texts: the words between two clauses may stand inside one of them, and
so may parentheses. A reader that counts parentheses finds the clauses again, as long as the parentheses of every
clause pair up.

## What is deliberately absent

Quotes are characters like any other: a parenthesis between two quotes counts. Nothing here says what a clause means
to an item store.

## Main definitions

* `Paired`: the parentheses of a text pair up.
* `cutOutside`: a text, cut at the occurrences of the word between clauses that stand outside all parentheses.
* `readClauses?`: what a reader makes of a query.
* `QueryParts.Paired`: the parentheses of everything that enters a query pair up.

## Main results

* `cutOutside_wrapped`: nothing is cut inside a pair of parentheses.
* `readClauses?_intercalate`: clauses that are wrapped and joined are found again.
* `QueryParts.reads_back_of_paired`: so are those of a query.
-/

namespace EventDispatch

/-! ### Parentheses that pair up -/

/-- The parentheses of a text pair up. -/
structure Paired (text : List Char) : Prop where
  /-- On the way, no more is closed than was opened. -/
  sane : ∀ front, front <+: text → front.count ')' ≤ front.count '('
  /-- In the end, everything that was opened is closed. -/
  settled : text.count ')' = text.count '('

instance (text : List Char) : Decidable (Paired text) :=
  decidable_of_iff ((∀ front ∈ text.inits, front.count ')' ≤ front.count '(') ∧
      text.count ')' = text.count '(')
    ⟨fun h => ⟨fun front hf => h.1 front ((List.mem_inits front text).mpr hf), h.2⟩,
      fun h => ⟨fun front hf => h.sane front ((List.mem_inits front text).mp hf), h.settled⟩⟩

namespace Paired

variable {text text' : List Char}

theorem of_notMem (hopen : '(' ∉ text) (hclose : ')' ∉ text) : Paired text where
  sane := by
    intro front hfront
    have hnone : ')' ∉ front := fun hm => hclose (hfront.subset hm)
    rw [List.count_eq_zero_of_not_mem hnone]
    exact Nat.zero_le _
  settled := by rw [List.count_eq_zero_of_not_mem hopen, List.count_eq_zero_of_not_mem hclose]

/-- One text after another: each starts and ends with nothing open. -/
theorem append (h : Paired text) (h' : Paired text') : Paired (text ++ text') where
  sane := by
    intro front hfront
    rcases List.prefix_or_prefix_of_prefix hfront (List.prefix_append text text') with hin | ⟨more, rfl⟩
    · exact h.sane front hin
    · have hmore : more <+: text' := (List.prefix_append_right_inj text).mp hfront
      have hcounts := h'.sane more hmore
      have hsettled := h.settled
      rw [List.count_append, List.count_append]
      omega
  settled := by rw [List.count_append, List.count_append, h.settled, h'.settled]

/-- A text between parentheses. -/
theorem wrap (h : Paired text) : Paired ('(' :: (text ++ [')'])) where
  sane := by
    intro front hfront
    rcases List.prefix_cons_iff.mp hfront with rfl | ⟨inner, rfl, hinner⟩
    · simp
    · have hopen : ('(' :: inner).count '(' = inner.count '(' + 1 := List.count_cons_self
      have hclose : ('(' :: inner).count ')' = inner.count ')' := List.count_cons_of_ne (by decide)
      rcases List.prefix_concat_iff.mp hinner with rfl | hin
      · have hsettled := h.settled
        simp
        omega
      · have hcounts := h.sane inner hin
        omega
  settled := by
    have hsettled := h.settled
    simp
    omega

theorem intercalate {sep : String} (hsep : Paired sep.toList) {texts : List String}
    (h : ∀ text ∈ texts, Paired text.toList) : Paired (String.intercalate sep texts).toList := by
  induction texts with
  | nil => exact of_notMem (by simp) (by simp)
  | cons text texts ih =>
    have htext : Paired text.toList := h text List.mem_cons_self
    have hrest : Paired (String.intercalate sep texts).toList :=
      ih fun other hm => h other (List.mem_cons_of_mem _ hm)
    cases texts with
    | nil =>
      rw [String.intercalate_singleton]
      exact htext
    | cons next texts =>
      rw [String.intercalate_cons_cons, String.toList_append, String.toList_append]
      exact (htext.append hsep).append hrest

end Paired

/-! ### Cutting outside parentheses -/

/-- How many parentheses are open after one more character. One that closes nothing is passed by. -/
def depthAfter (depth : Nat) (c : Char) : Nat :=
  if c = '(' then depth + 1 else if c = ')' then depth - 1 else depth

/-- A text of which `depth` parentheses are open, cut at the occurrences of `" and "` outside all parentheses. -/
def cutOutside : Nat → List Char → List (List Char)
  | _, [] => [[]]
  | 0, ' ' :: 'a' :: 'n' :: 'd' :: ' ' :: rest => [] :: cutOutside 0 rest
  | depth, c :: rest => (cutOutside (depthAfter depth c) rest).modifyHead (c :: ·)

theorem cutOutside_sep (rest : List Char) :
    cutOutside 0 (" and ".toList ++ rest) = [] :: cutOutside 0 rest := by
  show cutOutside 0 (' ' :: 'a' :: 'n' :: 'd' :: ' ' :: rest) = _
  rw [cutOutside]

/-- Inside parentheses, a character is kept. -/
theorem cutOutside_inside (depth : Nat) (c : Char) (rest : List Char) :
    cutOutside (depth + 1) (c :: rest) =
      (cutOutside (depthAfter (depth + 1) c) rest).modifyHead (c :: ·) := by
  rw [cutOutside]
  intro _ hzero
  exact absurd hzero (Nat.succ_ne_zero depth)

/-- A character other than a blank is kept. -/
theorem cutOutside_cons (depth : Nat) {c : Char} (hc : c ≠ ' ') (rest : List Char) :
    cutOutside depth (c :: rest) = (cutOutside (depthAfter depth c) rest).modifyHead (c :: ·) := by
  rw [cutOutside]
  intro _ _ hblank
  exact absurd hblank hc

/-- How many parentheses are open besides the outermost one, after one more character. -/
theorem exists_depthAfter {depth : Nat} {c : Char} {inner : List Char}
    (h : ∀ front, front <+: c :: inner → front.count ')' ≤ front.count '(' + depth) :
    ∃ next, depthAfter (depth + 1) c = next + 1 ∧
      (∀ front, front <+: inner → front.count ')' ≤ front.count '(' + next) ∧
      inner.count '(' + next = inner.count ')' + ((c :: inner).count '(' + depth) - (c :: inner).count ')' := by
  have hafter : ∀ front, front <+: inner → (c :: front).count ')' ≤ (c :: front).count '(' + depth :=
    fun front hf => h (c :: front) ((List.prefix_cons_inj c).mpr hf)
  have hwhole := hafter inner List.prefix_rfl
  simp only [List.count_cons] at hafter hwhole ⊢
  by_cases hopen : c = '('
  · subst hopen
    refine ⟨depth + 1, rfl, fun front hf => ?_, ?_⟩
    · have := hafter front hf
      simp at this
      omega
    · simp
      omega
  · by_cases hclose : c = ')'
    · subst hclose
      have hfirst := hafter [] List.nil_prefix
      simp at hfirst hwhole
      refine ⟨depth - 1, ?_, fun front hf => ?_, ?_⟩
      · rw [depthAfter, if_neg hopen, if_pos rfl]
        omega
      · have := hafter front hf
        simp at this
        omega
      · simp
        omega
    · refine ⟨depth, by rw [depthAfter, if_neg hopen, if_neg hclose], fun front hf => ?_, ?_⟩
      · simpa [hopen, hclose] using hafter front hf
      · simp [hopen, hclose]

/-- While the outermost parenthesis stays open, nothing is cut. -/
theorem cutOutside_append {inner : List Char} {depth : Nat}
    (h : ∀ front, front <+: inner → front.count ')' ≤ front.count '(' + depth) (rest : List Char) :
    cutOutside (depth + 1) (inner ++ rest) =
      (cutOutside (inner.count '(' + depth - inner.count ')' + 1) rest).modifyHead (inner ++ ·) := by
  induction inner generalizing depth with
  | nil => rw [List.nil_append, List.count_nil, List.count_nil, Nat.zero_add, Nat.sub_zero,
      show ([] ++ · : List Char → List Char) = id from rfl, List.modifyHead_id, id]
  | cons c inner ih =>
    obtain ⟨next, hnext, hinner, hcounts⟩ := exists_depthAfter h
    have hdepth : inner.count '(' + next - inner.count ')' =
        (c :: inner).count '(' + depth - (c :: inner).count ')' := by
      have hwhole := h (c :: inner) List.prefix_rfl
      omega
    rw [List.cons_append, cutOutside_inside, hnext, ih hinner, List.modifyHead_modifyHead, hdepth]
    rfl

variable {inner : List Char}

/-- **Nothing is cut inside a pair of parentheses**, whatever stands there. -/
theorem cutOutside_wrapped (h : Paired inner) (rest : List Char) :
    cutOutside 0 ('(' :: (inner ++ ')' :: rest)) =
      (cutOutside 0 rest).modifyHead ('(' :: (inner ++ [')']) ++ ·) := by
  have hclose : cutOutside 1 (')' :: rest) = (cutOutside 0 rest).modifyHead (')' :: ·) :=
    cutOutside_inside 0 ')' rest
  have hopen : cutOutside 0 ('(' :: (inner ++ ')' :: rest)) =
      (cutOutside 1 (inner ++ ')' :: rest)).modifyHead ('(' :: ·) := cutOutside_cons 0 (by decide) _
  have hdepth : inner.count '(' + 0 - inner.count ')' + 1 = 1 := by
    have hsettled := h.settled
    omega
  rw [hopen, cutOutside_append h.sane, hdepth, hclose, List.modifyHead_modifyHead, List.modifyHead_modifyHead]
  congr 1
  funext piece
  simp

/-! ### Reading a query -/

/-- What stands between the two parentheses at the ends of a piece. -/
def unwrap? : List Char → Option (List Char)
  | '(' :: rest => if rest.getLast? = some ')' then some rest.dropLast else none
  | _ => none

theorem unwrap?_wrapped (inner : List Char) : unwrap? ('(' :: (inner ++ [')'])) = some inner := by
  rw [unwrap?, List.getLast?_concat, if_pos rfl, List.dropLast_concat]

theorem mapM_unwrap? (clauses : List String) :
    (clauses.map fun clause => '(' :: (clause.toList ++ [')'])).mapM unwrap? =
      some (clauses.map String.toList) := by
  induction clauses with
  | nil => rfl
  | cons clause clauses ih => simp [unwrap?_wrapped, ih]

/-- The clauses that a reader finds in a query: it cuts the text outside all parentheses and strips one pair of
parentheses from each piece. The empty text has no piece. -/
def readClauses? (text : String) : Option (List String) :=
  if text = "" then some []
  else ((cutOutside 0 text.toList).mapM unwrap?).map (·.map String.ofList)

/-- Clauses that are wrapped and joined, as a query has them. -/
def joined (clauses : List String) : String :=
  String.intercalate " and " (clauses.map fun clause => "(" ++ clause ++ ")")

theorem toList_close : ")".toList = [')'] := rfl

/-- The characters of a clause between parentheses. -/
theorem toList_wrap (clause : String) : ("(" ++ clause ++ ")").toList = '(' :: (clause.toList ++ [')']) := by
  rw [String.toList_append, String.toList_append, toList_close, List.append_assoc]
  rfl

theorem toList_joined_singleton (clause : String) :
    (joined [clause]).toList = '(' :: (clause.toList ++ [')']) := by
  rw [joined, List.map_singleton, String.intercalate_singleton, toList_wrap]

theorem toList_joined_cons (clause next : String) (clauses : List String) :
    (joined (clause :: next :: clauses)).toList =
      '(' :: (clause.toList ++ ')' :: (" and ".toList ++ (joined (next :: clauses)).toList)) := by
  rw [joined, List.map_cons, List.map_cons, String.intercalate_cons_cons, String.toList_append,
    String.toList_append, toList_wrap, List.append_assoc, List.cons_append, List.append_assoc]
  rfl

theorem joined_eq_empty {clauses : List String} : joined clauses = "" ↔ clauses = [] := by
  constructor
  · intro hempty
    have hchars : (joined clauses).toList = [] := by
      rw [hempty]
      rfl
    cases clauses with
    | nil => rfl
    | cons clause clauses =>
      cases clauses with
      | nil =>
        rw [toList_joined_singleton] at hchars
        exact absurd hchars (List.cons_ne_nil _ _)
      | cons next clauses =>
        rw [toList_joined_cons] at hchars
        exact absurd hchars (List.cons_ne_nil _ _)
  · rintro rfl
    rfl

/-- The pieces of wrapped and joined clauses are the wrapped clauses. -/
theorem cutOutside_joined {clauses : List String} (hne : clauses ≠ [])
    (h : ∀ clause ∈ clauses, Paired clause.toList) :
    cutOutside 0 (joined clauses).toList = clauses.map fun clause => '(' :: (clause.toList ++ [')']) := by
  induction clauses with
  | nil => exact absurd rfl hne
  | cons clause clauses ih =>
    have hclause : Paired clause.toList := h clause List.mem_cons_self
    cases clauses with
    | nil =>
      rw [toList_joined_singleton, cutOutside_wrapped hclause []]
      simp [cutOutside]
    | cons next clauses =>
      have hrest := ih (List.cons_ne_nil _ _) fun other hm => h other (List.mem_cons_of_mem _ hm)
      rw [toList_joined_cons, cutOutside_wrapped hclause, cutOutside_sep, hrest, List.modifyHead_cons,
        List.append_nil]
      rfl

/-- **Clauses that are wrapped and joined are found again**, also where they hold the word between clauses or
parentheses of their own. -/
theorem readClauses?_joined {clauses : List String} (h : ∀ clause ∈ clauses, Paired clause.toList) :
    readClauses? (joined clauses) = some clauses := by
  by_cases hnil : clauses = []
  · rw [hnil]
    rfl
  · rw [readClauses?, if_neg (joined_eq_empty.not.mpr hnil), cutOutside_joined hnil h, mapM_unwrap?,
      Option.map_some, List.map_map]
    simp

/-! ### The query of a listing -/

namespace QueryParts

variable {p : QueryParts}

/-- The parentheses of everything that enters a query pair up. -/
structure Paired (p : QueryParts) : Prop where
  suffixes : ∀ suffix ∈ p.suffixes, EventDispatch.Paired suffix.toList
  queries : ∀ query ∈ p.queries, EventDispatch.Paired query.toList
  /-- The names of the stamps count where they are asked about. -/
  stamp : p.incremental = true → p.firstPoll = false →
    EventDispatch.Paired p.stamp.secs.toList ∧ EventDispatch.Paired p.stamp.nsecs.toList

/-- Texts without parentheses around and between two texts. -/
theorem paired_incrementalClause {stamp : Stamp} (hsecs : EventDispatch.Paired stamp.secs.toList)
    (hnsecs : EventDispatch.Paired stamp.nsecs.toList) :
    EventDispatch.Paired (incrementalClause stamp).toList := by
  have hstart : EventDispatch.Paired "__mtime_secs > ".toList := Paired.of_notMem (by decide) (by decide)
  have hor : EventDispatch.Paired " or ".toList := Paired.of_notMem (by decide) (by decide)
  have hequal : EventDispatch.Paired "__mtime_secs == ".toList := Paired.of_notMem (by decide) (by decide)
  have hafter : EventDispatch.Paired " and __mtime_nsecs > ".toList :=
    Paired.of_notMem (by decide +kernel) (by decide +kernel)
  have hmiddle : " or (__mtime_secs == ".toList = " or ".toList ++ '(' :: "__mtime_secs == ".toList := by
    decide +kernel
  have hchars : (incrementalClause stamp).toList = "__mtime_secs > ".toList ++ stamp.secs.toList ++
      " or ".toList ++ '(' :: ("__mtime_secs == ".toList ++ stamp.secs.toList ++
        " and __mtime_nsecs > ".toList ++ stamp.nsecs.toList ++ [')']) := by
    unfold incrementalClause
    simp only [String.toList_append, hmiddle, toList_close, List.append_assoc, List.cons_append]
  rw [hchars]
  exact ((hstart.append hsecs).append hor).append (((hequal.append hsecs).append hafter).append hnsecs).wrap

theorem paired_suffixClause {suffixes : List String}
    (h : ∀ suffix ∈ suffixes, EventDispatch.Paired suffix.toList) :
    ∀ clause ∈ suffixClause suffixes, EventDispatch.Paired clause.toList := by
  have hor : EventDispatch.Paired " or ".toList := Paired.of_notMem (by decide) (by decide)
  have hends : EventDispatch.Paired "ends".toList := Paired.of_notMem (by decide) (by decide)
  have hname : EventDispatch.Paired "__name, '".toList := Paired.of_notMem (by decide) (by decide)
  have hquote : EventDispatch.Paired "'".toList := Paired.of_notMem (by decide) (by decide)
  intro clause hclause
  rw [suffixClause, Option.mem_def] at hclause
  split at hclause
  · exact absurd hclause (Option.some_ne_none clause).symm
  · rw [← Option.some.inj hclause]
    refine Paired.intercalate hor fun text htext => ?_
    obtain ⟨suffix, hsuffix, rfl⟩ := List.mem_map.mp htext
    have hchars : ("ends(__name, '" ++ suffix ++ "')").toList =
        "ends".toList ++ '(' :: ("__name, '".toList ++ suffix.toList ++ "'".toList ++ [')']) := by
      simp
    rw [hchars]
    exact hends.append ((hname.append (h suffix hsuffix)).append hquote).wrap

/-- The clauses of such a query are such texts. -/
theorem Paired.clauses (h : p.Paired) : ∀ clause ∈ p.clauses, EventDispatch.Paired clause.toList := by
  intro clause hclause
  rw [QueryParts.clauses, List.mem_append, List.mem_append, Option.mem_toList] at hclause
  rcases hclause with (hchanged | hsuffix) | hquery
  · split at hchanged
    next hlater =>
      rw [Bool.and_eq_true, Bool.not_eq_true'] at hlater
      obtain ⟨hsecs, hnsecs⟩ := h.stamp hlater.1 hlater.2
      rw [List.mem_singleton.mp hchanged]
      exact paired_incrementalClause hsecs hnsecs
    · exact absurd hchanged List.not_mem_nil
  · exact paired_suffixClause h.suffixes clause hsuffix
  · exact h.queries clause hquery

/-- **A query can be read back.** Where the parentheses of everything that enters it pair up, a reader finds: what
was changed, if this is a later poll of a source that wants no more; the suffixes, if there are any; the queries of
the settings, word for word. The text is empty if there is none of these, and only then. -/
theorem reads_back_of_paired (h : p.Paired) :
    readClauses? p.text = some
      ((if p.incremental = true ∧ p.firstPoll = false then [incrementalClause p.stamp] else []) ++
        (if p.suffixes ≠ [] then
          [String.intercalate " or " (p.suffixes.map fun suffix => "ends(__name, '" ++ suffix ++ "')")]
        else []) ++ p.queries) ∧
    (p.text = "" ↔ ¬(p.incremental = true ∧ p.firstPoll = false) ∧ p.suffixes = [] ∧ p.queries = []) := by
  have hclauses : p.clauses =
      (if p.incremental = true ∧ p.firstPoll = false then [incrementalClause p.stamp] else []) ++
        (if p.suffixes ≠ [] then
          [String.intercalate " or " (p.suffixes.map fun suffix => "ends(__name, '" ++ suffix ++ "')")]
        else []) ++ p.queries := by
    simp only [QueryParts.clauses, suffixClause, List.isEmpty_iff, Bool.and_eq_true, Bool.not_eq_true']
    by_cases hnone : p.suffixes = []
    · simp [hnone]
    · simp [hnone]
  have htext : p.text = joined p.clauses := rfl
  rw [htext, ← hclauses]
  refine ⟨readClauses?_joined h.clauses, ?_⟩
  rw [joined_eq_empty, hclauses]
  simp

/-- A later poll for two suffixes, with two queries of which one has words and parentheses of its own and one is
empty. -/
theorem reads_back_later_poll :
    readClauses? (text ⟨false, true, Stamp.ofSource "items", [".jpg", ".(bak)"],
        ["__size > 0 and (a or (b and c))", ""]⟩) =
      some [incrementalClause (Stamp.ofSource "items"), "ends(__name, '.jpg') or ends(__name, '.(bak)')",
        "__size > 0 and (a or (b and c))", ""] :=
  have hpaired : Paired ⟨false, true, Stamp.ofSource "items", [".jpg", ".(bak)"],
      ["__size > 0 and (a or (b and c))", ""]⟩ :=
    ⟨by decide +kernel, by decide +kernel, fun _ _ => by decide +kernel⟩
  (reads_back_of_paired hpaired).1.trans (by decide +kernel)

/-- **A name may close what it did not open.** The names of the stamps hold the id of the source. With a
parenthesis in the id the first clause falls apart, although no suffix and no query is to blame. -/
theorem not_reads_back_of_closing_id :
    ¬∀ p : QueryParts, (∀ suffix ∈ p.suffixes, EventDispatch.Paired suffix.toList) →
      (∀ query ∈ p.queries, EventDispatch.Paired query.toList) →
      readClauses? p.text = some
        ((if p.incremental = true ∧ p.firstPoll = false then [incrementalClause p.stamp] else []) ++
          (if p.suffixes ≠ [] then
            [String.intercalate " or " (p.suffixes.map fun suffix => "ends(__name, '" ++ suffix ++ "')")]
          else []) ++ p.queries) := by
  intro h
  have hsome := h ⟨false, true, Stamp.ofSource "a)", [], ["__size > 0"]⟩ (by decide) (by decide +kernel)
  have hnone : readClauses? (text ⟨false, true, Stamp.ofSource "a)", [], ["__size > 0"]⟩) = none := by
    decide +kernel
  rw [hnone] at hsome
  exact Option.some_ne_none _ hsome.symm

end QueryParts

end EventDispatch
