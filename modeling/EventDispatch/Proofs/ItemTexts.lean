import EventDispatch.Poll.Driver
import Mathlib.Data.List.DropRight

/-!
# Texts that a poller and an item store exchange

The path of an item, the names of the attributes asked for and the query are texts, which the store
takes apart again. What it finds there is what the poller meant.

## Main definitions

* `ItemStore.IsName`, `ItemStore.IsItemPath`: names of items, and the paths made of them.

## Main results

* `ItemStore.splitPath?_itemPath`: an item's path is cut where it was joined.
* `ItemStore.find?_secs`, `ItemStore.find?_nsecs`: among the attributes asked for, the store finds the
  source's own stamps.
* `ItemPoller.isIncremental_queryText`: the store knows the query of later polls.
* `ItemPoller.isIncremental_queryText_eq_any`: what it takes the query of a poller for that asks for all items.
-/

namespace EventDispatch

namespace ItemStore

/-! ### Paths of items -/

/-- A text that may name an item: it is not empty, and holds no slash. -/
def IsName (name : String) : Prop := name ≠ "" ∧ '/' ∉ name.toList

/-- A text that may be the path of an item. -/
def IsItemPath (path : String) : Prop :=
  ∃ directory name, IsName name ∧ path = ItemPoller.itemPath directory name

theorem trimSlashes_trimSlashes (path : String) : trimSlashes (trimSlashes path) = trimSlashes path := by
  have hdrop := List.rdropWhile_idempotent (fun c => decide (c = '/')) path.toList
  simp only [List.rdropWhile] at hdrop
  simp only [trimSlashes, String.toList_ofList]
  rw [hdrop]

theorem trimSlashes_normalize (path : String) : trimSlashes (normalize path) = trimSlashes path := by
  simp only [normalize]
  split
  next hempty =>
    rw [String.isEmpty_iff] at hempty
    rw [hempty]
    decide
  · exact trimSlashes_trimSlashes path

theorem normalize_trimSlashes (path : String) : normalize (trimSlashes path) = normalize path := by
  rw [normalize, normalize, trimSlashes_trimSlashes]

variable {path path' name name' : String}

/-- An item's path is cut where it was joined. -/
theorem splitPath?_itemPath (hname : '/' ∉ name.toList) :
    splitPath? (ItemPoller.itemPath path name) = some (normalize path, name) := by
  have hchars : (ItemPoller.itemPath path name).toList.reverse =
      name.toList.reverse ++ '/' :: (trimSlashes path).toList.reverse := by
    simp [ItemPoller.itemPath]
  have hkeep : ∀ c ∈ name.toList.reverse, decide (c ≠ '/') = true := by
    intro c hc
    have hne : c ≠ '/' := by
      rintro rfl
      exact hname (List.mem_reverse.mp hc)
    simpa using hne
  simp only [splitPath?, hchars]
  rw [List.dropWhile_append_of_pos hkeep, List.takeWhile_append_of_pos hkeep]
  simp [normalize_trimSlashes]

theorem itemPath_normalize (path name : String) :
    ItemPoller.itemPath (normalize path) name = ItemPoller.itemPath path name := by
  rw [ItemPoller.itemPath, trimSlashes_normalize, ← ItemPoller.itemPath]

/-- Different items have different paths. -/
theorem itemPath_inj (hname : '/' ∉ name.toList) (hname' : '/' ∉ name'.toList)
    (h : ItemPoller.itemPath path name = ItemPoller.itemPath path' name') :
    trimSlashes path = trimSlashes path' ∧ name = name' := by
  have hsplit : splitPath? (ItemPoller.itemPath path name) = some (normalize path, name) :=
    splitPath?_itemPath hname
  rw [h, splitPath?_itemPath hname', Option.some.injEq, Prod.mk.injEq] at hsplit
  refine ⟨?_, hsplit.2.symm⟩
  rw [← trimSlashes_normalize path, ← hsplit.1, trimSlashes_normalize]

/-- Paths that the store cuts alike are the same. -/
theorem IsItemPath.eq_of_splitPath? (h : IsItemPath path) (h' : IsItemPath path')
    (hsplit : splitPath? path = splitPath? path') : path = path' := by
  obtain ⟨directory, name, hname, rfl⟩ := h
  obtain ⟨directory', name', hname', rfl⟩ := h'
  rw [splitPath?_itemPath hname.2, splitPath?_itemPath hname'.2, Option.some.injEq,
    Prod.mk.injEq] at hsplit
  rw [← itemPath_normalize directory, hsplit.1, hsplit.2, itemPath_normalize]

/-! ### Attributes asked for -/

/-- One more character in front of the parts of a text. -/
def commaStep (c : Char) (parts : List (List Char)) : List (List Char) :=
  if c = ',' then [] :: parts
  else match parts with
    | part :: rest => (c :: part) :: rest
    | [] => [[c]]

theorem commaParts_eq (text : String) :
    commaParts text = (text.toList.foldr commaStep [[]]).map String.ofList := rfl

theorem foldr_commaStep {chars : List Char} (h : ',' ∉ chars) (part : List Char)
    (parts : List (List Char)) : chars.foldr commaStep (part :: parts) = (chars ++ part) :: parts := by
  induction chars with
  | nil => rfl
  | cons c chars ih =>
    rw [List.mem_cons, not_or] at h
    rw [List.foldr_cons, ih h.2, commaStep, if_neg (Ne.symm h.1), List.cons_append]

variable {part rest : String}

theorem commaParts_of_not_mem (h : ',' ∉ part.toList) : commaParts part = [part] := by
  rw [commaParts_eq, foldr_commaStep h]
  simp

theorem commaParts_append (h : ',' ∉ part.toList) :
    commaParts (part ++ "," ++ rest) = part :: commaParts rest := by
  have htext : (part ++ "," ++ rest).toList = part.toList ++ ',' :: rest.toList := by simp
  have hcomma : ∀ parts, commaStep ',' parts = [] :: parts := fun _ => rfl
  rw [commaParts_eq, htext, List.foldr_append, List.foldr_cons, hcomma, foldr_commaStep h]
  simp [commaParts_eq]

/-- Texts without commas are found again at the start of what they were joined to. -/
theorem commaParts_intercalate {parts : List String} (hne : parts ≠ [])
    (h : ∀ part ∈ parts, ',' ∉ part.toList) (others : List String) :
    ∃ more, commaParts (String.intercalate "," (parts ++ others)) = parts ++ more := by
  induction parts with
  | nil => exact absurd rfl hne
  | cons part parts ih =>
    have hpart : ',' ∉ part.toList := h part List.mem_cons_self
    by_cases hnil : parts ++ others = []
    · obtain ⟨rfl, rfl⟩ := List.append_eq_nil_iff.mp hnil
      exact ⟨[], by simp [commaParts_of_not_mem hpart]⟩
    · rw [List.cons_append, String.intercalate_cons_of_ne_nil hnil, commaParts_append hpart]
      cases parts with
      | nil => exact ⟨_, rfl⟩
      | cons next parts =>
        obtain ⟨more, hmore⟩ := ih (by simp) fun part hm => h part (List.mem_cons_of_mem _ hm)
        exact ⟨more, by rw [hmore]; rfl⟩

theorem startsWith_iff {text start : String} : text.startsWith start = true ↔
    start.toList <+: text.toList := String.startsWith_string_iff

theorem endsWith_iff {text ending : String} : text.endsWith ending = true ↔
    ending.toList <:+ text.toList := by
  rw [String.endsWith, String.Slice.endsWith_string_iff, String.copy_toSlice]

variable {id : String}

/-- A stamp is made of its start, the id and an ending. -/
theorem toList_stamp (id ending : String) : ("__eventsource_vip_" ++ id ++ ending).toList =
    stampStart.toList ++ (id.toList ++ ending.toList) := by
  rw [String.toList_append, String.toList_append, List.append_assoc]
  rfl

theorem startsWith_stamp (id ending : String) :
    ("__eventsource_vip_" ++ id ++ ending).startsWith stampStart = true := by
  rw [startsWith_iff, toList_stamp]
  exact List.prefix_append _ _

theorem endsWith_stamp (id ending : String) :
    ("__eventsource_vip_" ++ id ++ ending).endsWith ending = true := by
  rw [endsWith_iff, toList_stamp, ← List.append_assoc]
  exact List.suffix_append _ _

theorem comma_notMem_stamp (hid : ',' ∉ id.toList) {ending : String} (h : ',' ∉ ending.toList) :
    ',' ∉ ("__eventsource_vip_" ++ id ++ ending).toList := by
  have hstart : ',' ∉ stampStart.toList := by decide
  rw [toList_stamp, List.mem_append, List.mem_append]
  exact not_or.mpr ⟨hstart, not_or.mpr ⟨hid, h⟩⟩

/-- What a request asks for, as the store reads it. -/
theorem commaParts_requestedAttributes (hid : ',' ∉ id.toList) (others : List String) :
    ∃ more, commaParts (requestedAttributes (Stamp.ofSource id) others) =
      builtinAttributes ++ (Stamp.ofSource id).secs :: (Stamp.ofSource id).nsecs :: more := by
  have hbuiltin : ∀ part ∈ builtinAttributes, ',' ∉ part.toList := by decide
  have hparts : ∀ part ∈ builtinAttributes ++ [(Stamp.ofSource id).secs, (Stamp.ofSource id).nsecs],
      ',' ∉ part.toList := by
    intro part hm
    rcases List.mem_append.mp hm with hm | hm
    · exact hbuiltin part hm
    · rcases List.mem_pair.mp hm with heq | heq
      · rw [heq]
        exact comma_notMem_stamp hid (by decide)
      · rw [heq]
        exact comma_notMem_stamp hid (by decide)
  obtain ⟨more, hmore⟩ := commaParts_intercalate (by simp) hparts others
  refine ⟨more, ?_⟩
  rw [requestedAttributes, hmore, List.append_assoc]
  rfl

/-- Among the attributes asked for, the store finds the source's own stamp of seconds. -/
theorem find?_secs (hid : ',' ∉ id.toList) (others : List String) :
    (commaParts (requestedAttributes (Stamp.ofSource id) others)).find?
      (fun a => a.startsWith stampStart && a.endsWith "_secs") = some (Stamp.ofSource id).secs := by
  obtain ⟨more, hmore⟩ := commaParts_requestedAttributes hid others
  have hnone : builtinAttributes.find? (fun a => a.startsWith stampStart && a.endsWith "_secs") =
      none := by decide
  have hsecs : ((Stamp.ofSource id).secs.startsWith stampStart &&
      (Stamp.ofSource id).secs.endsWith "_secs") = true :=
    Bool.and_eq_true_iff.mpr ⟨startsWith_stamp id "_secs", endsWith_stamp id "_secs"⟩
  rw [hmore, List.find?_append, hnone, Option.none_or, List.find?_cons, hsecs]

/-- A text that ends like seconds does not end like nanoseconds. -/
theorem not_endsWith_nsecs {text : String} (h : text.endsWith "_secs" = true) :
    text.endsWith "_nsecs" = false := by
  refine Bool.eq_false_iff.mpr fun hnsecs => ?_
  have hsuffix : "_secs".toList <:+ "_nsecs".toList :=
    List.suffix_of_suffix_length_le (endsWith_iff.mp h) (endsWith_iff.mp hnsecs) (by decide)
  revert hsuffix
  decide

/-- The ending of the seconds is not the other one. -/
theorem endsWith_nsecs_secs (id : String) :
    ((Stamp.ofSource id).secs.startsWith stampStart &&
      (Stamp.ofSource id).secs.endsWith "_nsecs") = false := by
  have hends := not_endsWith_nsecs (endsWith_stamp id "_secs")
  exact Bool.and_eq_false_iff.mpr (.inr hends)

/-- Among the attributes asked for, the store finds the source's own stamp of nanoseconds. -/
theorem find?_nsecs (hid : ',' ∉ id.toList) (others : List String) :
    (commaParts (requestedAttributes (Stamp.ofSource id) others)).find?
      (fun a => a.startsWith stampStart && a.endsWith "_nsecs") = some (Stamp.ofSource id).nsecs := by
  obtain ⟨more, hmore⟩ := commaParts_requestedAttributes hid others
  have hnone : builtinAttributes.find? (fun a => a.startsWith stampStart && a.endsWith "_nsecs") =
      none := by decide
  have hnsecs : ((Stamp.ofSource id).nsecs.startsWith stampStart &&
      (Stamp.ofSource id).nsecs.endsWith "_nsecs") = true :=
    Bool.and_eq_true_iff.mpr ⟨startsWith_stamp id "_nsecs", endsWith_stamp id "_nsecs"⟩
  rw [hmore, List.find?_append, hnone, Option.none_or, List.find?_cons, endsWith_nsecs_secs,
    List.find?_cons, hnsecs]

/-! ### The query -/

theorem occurs_iff {part text : List Char} : occurs part text = true ↔ part <:+: text := by
  induction text with
  | nil => simp [occurs]
  | cons c text ih => rw [occurs, Bool.or_eq_true, ih, List.isPrefixOf_iff_prefix, List.infix_cons_iff]

/-- A text that starts before a character which it does not hold ends before it. -/
theorem prefix_append_cons {c : Char} {part : List Char} (h : c ∉ part) (front back : List Char) :
    part <+: front ++ c :: back ↔ part <+: front := by
  refine ⟨fun hprefix => ?_, fun hprefix => hprefix.trans (List.prefix_append _ _)⟩
  rcases List.prefix_or_prefix_of_prefix hprefix (List.prefix_append front (c :: back)) with hfront | ⟨more, rfl⟩
  · exact hfront
  · cases more with
    | nil => simp
    | cons d more =>
      obtain ⟨rfl, -⟩ := List.cons_prefix_cons.mp ((List.prefix_append_right_inj _).mp hprefix)
      simp at h

theorem occurs_append_cons {c : Char} {part : List Char} (h : c ∉ part) (front back : List Char) :
    occurs part (front ++ c :: back) = (occurs part front || occurs part back) := by
  rw [Bool.eq_iff_iff, Bool.or_eq_true, occurs_iff, occurs_iff, occurs_iff]
  induction front with
  | nil =>
    have hhere := prefix_append_cons h [] back
    rw [List.nil_append] at hhere
    rw [List.nil_append, List.infix_cons_iff, List.infix_nil, hhere, List.prefix_nil]
  | cons d front ih =>
    have hhere := prefix_append_cons h (d :: front) back
    rw [List.cons_append] at hhere
    rw [List.cons_append, List.infix_cons_iff, List.infix_cons_iff, ih, hhere, or_assoc]

theorem occurs_append_of_notMem {c : Char} {part front : List Char} (h : c ∉ front) (back : List Char) :
    occurs (c :: part) (front ++ back) = occurs (c :: part) back := by
  induction front with
  | nil => rfl
  | cons d front ih =>
    obtain ⟨hne, hfront⟩ := not_or.mp (List.mem_cons.not.mp h)
    rw [List.cons_append, occurs, ih hfront, List.isPrefixOf_cons_cons, beq_false_of_ne hne, Bool.false_and,
      Bool.false_or]

/-- What makes a query one for changed items starts with an underscore, so that no text without one is a part
of it. -/
theorem isIncremental_append_of_notMem {front : String} (h : '_' ∉ front.toList) (back : String) :
    isIncremental (front ++ back) = isIncremental back := by
  rw [isIncremental, isIncremental, String.toList_append]
  exact occurs_append_of_notMem h _

theorem isIncremental_parted {c : Char} (hc : c ∉ "__mtime_secs >".toList) (front mark : String)
    (hmark : mark.toList = [c]) (back : String) :
    isIncremental (front ++ (mark ++ back)) = (isIncremental front || isIncremental back) := by
  rw [isIncremental, String.toList_append, String.toList_append, hmark]
  exact occurs_append_cons hc _ _

/-- Texts that are wrapped and joined are a query for changed items exactly if one of them is. -/
theorem isIncremental_intercalate {sep : String} (hsep : '_' ∉ sep.toList) {wrap : String → String}
    (hwrap : ∀ text back, isIncremental (wrap text ++ back) = (isIncremental text || isIncremental back))
    (texts : List String) :
    isIncremental (String.intercalate sep (texts.map wrap)) = texts.any isIncremental := by
  have hempty : isIncremental "" = false := by decide
  induction texts with
  | nil => exact hempty
  | cons text texts ih =>
    rw [List.any_cons, ← ih]
    cases texts with
    | nil =>
      have hone := hwrap text ""
      rw [String.append_empty] at hone
      exact hone
    | cons next texts =>
      rw [List.map_cons, List.map_cons, String.intercalate_cons_cons, String.append_assoc, hwrap,
        isIncremental_append_of_notMem hsep]

end ItemStore

namespace ItemPoller

/-- Whatever the settings, the store knows the query of later polls as one for changed items. -/
theorem isIncremental_queryText {settings : ItemPollSettings} (h : settings.incremental = true)
    (stamp : Stamp) : ItemStore.isIncremental (queryText settings stamp false) = true := by
  obtain ⟨clauses, hclauses⟩ : ∃ clauses, QueryParts.clauses
      { firstPoll := false, incremental := settings.incremental, stamp,
        suffixes := settings.suffixes, queries := settings.queries } =
      incrementalClause stamp :: clauses := by
    simp [QueryParts.clauses, h]
  have hclause : ∃ rest, "(" ++ incrementalClause stamp ++ ")" = "(" ++ ("__mtime_secs >" ++ rest) := by
    have hstart : ∀ rest : String, "__mtime_secs > " ++ rest = "__mtime_secs >" ++ (" " ++ rest) := by
      intro rest
      rw [← String.append_assoc]
      exact congrArg (· ++ rest) (by decide)
    unfold incrementalClause
    simp only [String.append_assoc]
    exact ⟨_, congrArg ("(" ++ ·) (hstart _)⟩
  obtain ⟨rest, hrest⟩ := hclause
  have htext : ∃ back, queryText settings stamp false = "(" ++ ("__mtime_secs >" ++ back) := by
    rw [queryText, QueryParts.text, hclauses, List.map_cons, hrest]
    cases clauses with
    | nil => exact ⟨rest, String.intercalate_singleton⟩
    | cons clause clauses =>
      rw [List.map_cons, String.intercalate_cons_cons]
      simp only [String.append_assoc]
      exact ⟨_, rfl⟩
  obtain ⟨back, hback⟩ := htext
  rw [ItemStore.isIncremental, hback, ItemStore.occurs_iff, String.toList_append, String.toList_append]
  exact ⟨_, _, List.append_assoc _ _ _⟩

/-- What stands around a suffix adds nothing. -/
theorem isIncremental_suffix (suffix back : String) :
    ItemStore.isIncremental ("ends(__name, '" ++ suffix ++ "')" ++ back) =
      (ItemStore.isIncremental suffix || ItemStore.isIncremental back) := by
  have htext : "ends(__name, '" ++ suffix ++ "')" ++ back =
      "ends(__name, " ++ ("'" ++ (suffix ++ ("'" ++ (")" ++ back)))) := by
    have hfront : "ends(__name, '" = "ends(__name, " ++ "'" := by decide
    have hback : "')" = "'" ++ ")" := by decide
    rw [hfront, hback, String.append_assoc, String.append_assoc, String.append_assoc, String.append_assoc]
  have hquote : '\'' ∉ "__mtime_secs >".toList := by decide
  have hfront : ItemStore.isIncremental "ends(__name, " = false := by decide +kernel
  have hback : ItemStore.isIncremental (")" ++ back) = ItemStore.isIncremental back :=
    ItemStore.isIncremental_append_of_notMem (by decide) back
  rw [htext, ItemStore.isIncremental_parted hquote "ends(__name, " "'" rfl,
    ItemStore.isIncremental_parted hquote suffix "'" rfl, hfront, hback, Bool.false_or]

/-- What stands around a clause adds nothing. -/
theorem isIncremental_clause (clause back : String) : ItemStore.isIncremental ("(" ++ clause ++ ")" ++ back) =
    (ItemStore.isIncremental clause || ItemStore.isIncremental back) := by
  have hfront : ItemStore.isIncremental ("(" ++ (clause ++ (")" ++ back))) =
      ItemStore.isIncremental (clause ++ (")" ++ back)) := ItemStore.isIncremental_append_of_notMem (by decide) _
  have hmark : ')' ∉ "__mtime_secs >".toList := by decide
  rw [String.append_assoc, String.append_assoc, hfront, ItemStore.isIncremental_parted hmark clause ")" rfl]

/-- **What the store takes the query for** of a poller that asks for all items: it is one for changed items
exactly if one of the texts in the settings is. -/
theorem isIncremental_queryText_eq_any {settings : ItemPollSettings} (h : settings.incremental = false)
    (stamp : Stamp) (first : Bool) : ItemStore.isIncremental (queryText settings stamp first) =
      (settings.suffixes ++ settings.queries).any ItemStore.isIncremental := by
  have hor : '_' ∉ " or ".toList := by decide
  have hand : '_' ∉ " and ".toList := by decide
  have hsuffixes : (suffixClause settings.suffixes).toList.any ItemStore.isIncremental =
      settings.suffixes.any ItemStore.isIncremental := by
    rw [suffixClause]
    split
    next hnone =>
      rw [List.isEmpty_iff.mp hnone]
      rfl
    · rw [Option.toList_some, List.any_cons, List.any_nil, Bool.or_false]
      exact ItemStore.isIncremental_intercalate hor isIncremental_suffix _
  rw [queryText, QueryParts.text, ItemStore.isIncremental_intercalate hand isIncremental_clause,
    QueryParts.clauses, h, Bool.false_and, if_neg Bool.false_ne_true, List.nil_append, List.any_append,
    hsuffixes, List.any_append]

end ItemPoller

end EventDispatch
