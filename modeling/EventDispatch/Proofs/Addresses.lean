import EventDispatch.Proofs.Relisting

/-!
# The path of an item is its address

A poller makes the path of an item from the path that was listed and the item's name, and the store cuts such a
path again at its last slash. Between the two any number of slashes may stand at the end of a directory, and for
the root there may be none. So the path of an item leads back to it, whatever its directory is called, and an
update at the path changes this item and no other.

But the last slash has to be the one that the poller has written. An item may have a name with a slash in it, and
then its path leads elsewhere: an update there fails, or changes an item of another directory.

## What is deliberately absent

Which items a listing brings, and when they are stamped, is not part of it: the law is about any item that has
been listed, and any update at its path later on.

## Main definitions

* `ItemStore.SameDirectory`: two texts that name one directory.
* `ItemStore.stored?`: the attributes of the item of a name in a directory.
* `ItemStore.Addresses`: a path leads to an item.

## Main results

* `ItemStore.sameDirectory_iff`: the store knows a directory by what stands before the slashes at its end.
* `ItemStore.stored?_update_of_stored`: what an update at a path does to all items.
* `ItemPoller.addressed_iff`: which items are at the path that a poller makes for them.
-/

namespace EventDispatch

namespace ItemStore

variable {s s' : ItemStore} {path path' directory directory' name name' : String} {old : Json.Object}

/-! ### Directories and their names -/

/-- So many slashes. -/
def slashes (n : Nat) : String := String.ofList (List.replicate n '/')

/-- Two texts name one directory: but for slashes at their ends they are the same. The root is named by slashes
alone, or by nothing at all. -/
def SameDirectory (path directory : String) : Prop :=
  ∃ base m n, path = base ++ slashes m ∧ directory = base ++ slashes n

theorem trimSlashes_append_slashes (base : String) (n : Nat) :
    trimSlashes (base ++ slashes n) = trimSlashes base := by
  have hslashes : ∀ c ∈ List.replicate n '/', decide (c = '/') = true := fun c hc =>
    decide_eq_true (List.eq_of_mem_replicate hc)
  rw [trimSlashes, trimSlashes, slashes, String.toList_append, String.toList_ofList, List.reverse_append,
    List.reverse_replicate, List.dropWhile_append_of_pos hslashes]

/-- A path is what stands before its last slashes, and these. -/
theorem exists_slashes (path : String) : ∃ n, path = trimSlashes path ++ slashes n := by
  have hlast : path.toList.rtakeWhile (· = '/') =
      List.replicate (path.toList.rtakeWhile (· = '/')).length '/' :=
    List.eq_replicate_of_mem fun c hc => by simpa using List.mem_rtakeWhile_imp hc
  refine ⟨(path.toList.rtakeWhile (· = '/')).length, String.toList_inj.mp ?_⟩
  calc path.toList
      = path.toList.rdropWhile (· = '/') ++ path.toList.rtakeWhile (· = '/') :=
        List.rdropWhile_append_rtakeWhile.symm
    _ = (trimSlashes path ++ slashes (path.toList.rtakeWhile (· = '/')).length).toList := by
        rw [String.toList_append, trimSlashes, slashes, String.toList_ofList, String.toList_ofList, ← hlast]
        rfl

/-- **A directory is known** by what stands before the slashes at its end. -/
theorem sameDirectory_iff : SameDirectory path directory ↔ normalize path = normalize directory := by
  constructor
  · rintro ⟨base, m, n, rfl, rfl⟩
    rw [← normalize_trimSlashes (base ++ slashes m), ← normalize_trimSlashes (base ++ slashes n),
      trimSlashes_append_slashes, trimSlashes_append_slashes]
  · intro h
    have htrim : trimSlashes path = trimSlashes directory := by
      rw [← trimSlashes_normalize path, h, trimSlashes_normalize]
    obtain ⟨m, hm⟩ := exists_slashes path
    obtain ⟨n, hn⟩ := exists_slashes directory
    exact ⟨trimSlashes path, m, n, hm, htrim ▸ hn⟩

theorem normalize_normalize (directory : String) : normalize (normalize directory) = normalize directory := by
  rw [← normalize_trimSlashes (normalize directory), trimSlashes_normalize, normalize_trimSlashes]

/-- What a path is cut into: a directory as the store knows it, and a name without a slash. -/
theorem of_splitPath? (h : splitPath? path = some (directory, name)) :
    normalize directory = directory ∧ '/' ∉ name.toList := by
  rw [splitPath?] at h
  split at h
  · cases h
  · obtain ⟨rfl, rfl⟩ := Prod.mk.inj (Option.some.inj h)
    refine ⟨normalize_normalize _, fun hslash => ?_⟩
    rw [String.toList_ofList, List.mem_reverse] at hslash
    exact of_decide_eq_true (@List.mem_takeWhile_imp _ (fun c => decide (c ≠ '/')) _ _ hslash) rfl

/-! ### Items by directory and name -/

/-- The attributes of the item of a name in a directory. -/
def stored? (directory name : String) (s : ItemStore) : Option Json.Object := (s.entries directory).get? name

theorem stored?_eq_bind (directory name : String) (s : ItemStore) : s.stored? directory name =
    (s.directories.get? (normalize directory)).bind fun items => items.get? name := by
  rw [stored?, entries]
  cases s.directories.get? (normalize directory) <;> rfl

/-- **What an update does to all items**, at a path that is cut into the directory and the name of one. -/
theorem stored?_update_of_stored (hsplit : splitPath? path = some (normalize directory, name))
    (hstored : s.stored? directory name = some old) (attributes : Json.Object) :
    (s.update path attributes).1 = .ok () ∧ ∀ directory' name',
      (s.update path attributes).2.stored? directory' name' =
        if normalize directory' = normalize directory ∧ name' = name then some (old.merge attributes)
        else s.stored? directory' name' := by
  rw [stored?_eq_bind] at hstored
  have hupdate : s.update path attributes = (.ok (), { s with
      updates := s.updates ++ [(path, attributes)]
      directories := Keyed.modify (normalize directory) (·.insert name (old.merge attributes)) s.directories }) := by
    rw [update]
    dsimp only
    rw [hsplit]
    dsimp only
    rw [hstored]
  rw [hupdate]
  refine ⟨rfl, fun directory' name' => ?_⟩
  rw [stored?_eq_bind, stored?_eq_bind, Keyed.get?_modify]
  by_cases hdirectory : normalize directory' = normalize directory
  · obtain ⟨items, hitems, hold⟩ := Option.bind_eq_some_iff.mp hstored
    rw [if_pos hdirectory, hdirectory, hitems, Option.map_some, Option.bind_some, Option.bind_some,
      Keyed.get?_insert]
    by_cases hname : name' = name
    · rw [if_pos hname, if_pos ⟨rfl, hname⟩]
    · rw [if_neg hname, if_neg fun hboth => hname hboth.2]
  · rw [if_neg hdirectory, if_neg fun hboth => hdirectory hboth.1]

/-- An update changes no item of another name than the one that its path is cut into. -/
theorem stored?_update_of_ne (hne : ∀ directory' name', splitPath? path = some (directory', name') → name' ≠ name)
    (directory : String) (attributes : Json.Object) :
    (s.update path attributes).2.stored? directory name = s.stored? directory name := by
  rcases directories_update path attributes s with
    ⟨hsame, -⟩ | ⟨directory', name', items, before, hsplit, -, hbefore, hnew⟩
  · rw [stored?, entries, hsame, stored?, entries]
  · have hname : name ≠ name' := (hne directory' name' hsplit).symm
    rw [stored?_eq_bind, stored?_eq_bind, hnew, Keyed.get?_modify]
    split
    · cases s.directories.get? (normalize directory) with
      | none => rfl
      | some items => rw [Option.map_some, Option.bind_some, Option.bind_some, Keyed.get?_insert, if_neg hname]
    · rfl

/-! ### Addresses -/

/-- A path leads to the item of a name in a directory: an update there succeeds, and changes the attributes of
this item, and of no other. -/
structure Addresses (path directory name : String) (s : ItemStore) : Prop where
  succeeds : ∀ attributes, (s.update path attributes).1 = .ok ()
  changes : ∀ attributes, ∃ old, s.stored? directory name = some old ∧
    (s.update path attributes).2.stored? directory name = some (old.merge attributes)
  keeps : ∀ attributes directory' name', ¬(SameDirectory directory' directory ∧ name' = name) →
    (s.update path attributes).2.stored? directory' name' = s.stored? directory' name'

theorem addresses_of_splitPath? (hsplit : splitPath? path = some (normalize directory, name))
    (hstored : s.stored? directory name = some old) : s.Addresses path directory name where
  succeeds attributes := (stored?_update_of_stored hsplit hstored attributes).1
  changes attributes := ⟨old, hstored, by
    rw [(stored?_update_of_stored hsplit hstored attributes).2, if_pos ⟨rfl, rfl⟩]⟩
  keeps attributes directory' name' hother := by
    rw [sameDirectory_iff] at hother
    rw [(stored?_update_of_stored hsplit hstored attributes).2, if_neg hother]

/-- A path does not lead to an item that no update there changes. -/
theorem not_addresses_of_unchanged
    (h : ∀ attributes, (s.update path attributes).2.stored? directory name = s.stored? directory name) :
    ¬s.Addresses path directory name := by
  intro haddresses
  have hheld : ∀ value : Json, (s.stored? directory name).bind (fun held => held.get? "owner") = some value := by
    intro value
    obtain ⟨old, hold, hnew⟩ := haddresses.changes [("owner", value)]
    rw [← h [("owner", value)], hnew]
    exact Keyed.get?_insert_self "owner" value old
  have hnull := hheld .null
  rw [hheld (.bool true)] at hnull
  cases hnull

end ItemStore

namespace ItemPoller

variable {directory name : String} {item : Item}

/-- An item whose name holds a slash is not at its path. -/
theorem stored?_update_of_slash {path : String} (hslash : '/' ∈ name.toList) (s : ItemStore) (directory : String)
    (attributes : Json.Object) :
    (s.update path attributes).2.stored? directory name = s.stored? directory name := by
  refine ItemStore.stored?_update_of_ne (fun directory' name' hsplit => ?_) directory attributes
  rintro rfl
  exact (ItemStore.of_splitPath? hsplit).2 hslash

/-- **The address of an item.** Whatever has been stored, under any names and in any directories, and whatever
happens to the store after an item was listed: the path that is made of the listed path and the item's name leads
to this item, exactly if the name holds no slash. If it does, no update changes the item. -/
theorem addressed_iff {names : String → Prop} {before after s : ItemStore} {request : ListRequest}
    {page : ListPage} (hbuilt : ItemStore.new.Later names before) (hpage : before.list request = (.ok page, after))
    (hitem : item ∈ page.items) (hlater : after.Later names s)
    (hdirectory : ItemStore.SameDirectory request.path directory) (clock : Timestamp) :
    (s.Addresses (event request.path item clock).path directory item.name ↔ '/' ∉ item.name.toList) ∧
      ('/' ∈ item.name.toList → ∀ path attributes,
        (s.update path attributes).2.stored? directory item.name = s.stored? directory item.name) := by
  have hnamed := hbuilt.named (ItemStore.named_new names)
  -- The item that was listed is in its directory, and has stayed there.
  have hlisted : before.Holds request.path item.name := by
    obtain rfl := ItemStore.eq_pageAt_of_list hpage
    exact ⟨_, ((ItemStore.mem_matching_iff hnamed).mp (List.mem_of_mem_take hitem)).1⟩
  have hsince : before.Later names s := .head (.rests (by
    rw [← ItemStore.directories_list request before, hpage])) hlater
  obtain ⟨old, hold⟩ := hsince.holds hlisted
  have hsame := ItemStore.sameDirectory_iff.mp hdirectory
  have hstored : s.stored? directory item.name = some old := by
    rw [ItemStore.stored?, ItemStore.entries, ← hsame]
    exact hold
  refine ⟨⟨fun haddresses hslash => ?_, fun hname => ?_⟩, fun hslash path attributes =>
    stored?_update_of_slash hslash s directory attributes⟩
  · exact ItemStore.not_addresses_of_unchanged (stored?_update_of_slash hslash s directory) haddresses
  · exact ItemStore.addresses_of_splitPath? (hsame ▸ ItemStore.splitPath?_itemPath hname) hstored

/-- An item of the root, which was named once by two slashes, once by one and once by none. -/
theorem addressed_at_root :
    let before := (ItemStore.new.put "//" "a" [] ⟨5, 0⟩).put "/d" "a" [] ⟨6, 0⟩
    let request : ListRequest :=
      { path := "/", attributes := "", query := "", shardId := 0, totalShards := 1, limit := 10, marker := "" }
    let after := (before.list request).2
    ItemStore.new.Later (fun _ => True) before ∧ ItemStore.SameDirectory "/" "" ∧
      ∃ item ∈ (before.pageAt request).items, item.name = "a" ∧ (event "/" item ⟨0, 0⟩).path = "/a" ∧
        after.Later (fun _ => True) (after.update "/d/a" []).2 ∧
        (after.update "/d/a" []).2.Addresses (event "/" item ⟨0, 0⟩).path "" item.name := by
  intro before request after
  have hbuilt : ItemStore.new.Later (fun _ => True) before :=
    .tail (.single (.puts _ "//" [] ⟨5, 0⟩ trivial)) (.puts _ "/d" [] ⟨6, 0⟩ trivial)
  have hroot : ItemStore.SameDirectory "/" "" := ⟨"", 1, 0, by decide, by decide⟩
  have hpage : before.list request = (.ok (before.pageAt request), after) := by
    rw [ItemStore.list_eq rfl request]
    rfl
  have hnames : (before.pageAt request).items.map Item.name = ["a"] := by decide +kernel
  obtain ⟨item, hitems, hname⟩ := List.map_eq_singleton_iff.mp hnames
  have hitem : item ∈ (before.pageAt request).items := hitems ▸ List.mem_singleton_self item
  have hlater : after.Later (fun _ => True) (after.update "/d/a" []).2 := .single (.updates _ _ _)
  have hpath : (event "/" item ⟨0, 0⟩).path = "/a" := by
    change itemPath "/" item.name = "/a"
    rw [hname]
    decide
  exact ⟨hbuilt, hroot, item, hitem, hname, hpath, hlater,
    (addressed_iff hbuilt hpage hitem hlater hroot ⟨0, 0⟩).1.mpr (hname ▸ by decide)⟩

/-- The path of an item whose name holds a slash is cut within the name. -/
theorem not_addressed_of_slash :
    ¬ ∀ (before after s : ItemStore) (request : ListRequest) (page : ListPage) (item : Item) (directory : String)
      (clock : Timestamp), ItemStore.new.Later (fun _ => True) before → before.list request = (.ok page, after) →
        item ∈ page.items → after.Later (fun _ => True) s → ItemStore.SameDirectory request.path directory →
          s.Addresses (event request.path item clock).path directory item.name := by
  intro hlaw
  let before := ItemStore.new.put "/d" "x/y" [] ⟨5, 0⟩
  let request : ListRequest :=
    { path := "/d", attributes := "", query := "", shardId := 0, totalShards := 1, limit := 10, marker := "" }
  have hpage : before.list request = (.ok (before.pageAt request), (before.list request).2) := by
    rw [ItemStore.list_eq rfl request]
  have hnames : (before.pageAt request).items.map Item.name = ["x/y"] := by decide +kernel
  obtain ⟨item, hitems, hname⟩ := List.map_eq_singleton_iff.mp hnames
  have haddresses := hlaw before _ _ request _ item "/d" ⟨0, 0⟩ (.single (.puts _ "/d" [] ⟨5, 0⟩ trivial)) hpage
    (hitems ▸ List.mem_singleton_self item) .refl ⟨"/d", 0, 0, by decide, by decide⟩
  have hpath : (event "/d" item ⟨0, 0⟩).path = "/d/x/y" := by
    change itemPath "/d" item.name = "/d/x/y"
    rw [hname]
    decide
  have hsucceeds := congrArg Except.toBool (haddresses.succeeds [])
  rw [hpath] at hsucceeds
  revert hsucceeds
  decide +kernel

end ItemPoller

end EventDispatch
