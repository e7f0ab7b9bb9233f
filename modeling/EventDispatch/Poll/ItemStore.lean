import EventDispatch.Error
import EventDispatch.Event
import EventDispatch.Width

/-!
# An item store in memory

Directories of named items with attributes. Listings come in pages; an incremental listing leaves out
the items whose stamps say that they were handled since they changed.

## Main definitions

* `Item`, `Item.modifiedAt?`: an item of a listing, and when it changed.
* `ListRequest`, `ListPage`: a request for one page, and the page.
* `ItemStore`, with `put`, `item?`, `list` and `update`.
-/

namespace EventDispatch

/-- An item of a listing. -/
structure Item where
  name : String
  attributes : Json.Object
deriving Inhabited

/-- When the item changed, by its attributes; nothing if they do not tell a time of the calendar. -/
def Item.modifiedAt? (item : Item) : Option Timestamp := do
  let secs ← (← item.attributes.get? "__mtime_secs").asInt?
  let nanos := ((item.attributes.get? "__mtime_nsecs").bind Json.asNat?).getD 0
  if nanos < Width.natural32 then Timestamp.ofParts? secs nanos else none

/-- A request for one page of a directory. -/
structure ListRequest where
  path : String
  /-- The names of the attributes asked for, parted by commas. -/
  attributes : String
  query : String
  shardId : Nat
  totalShards : Nat
  limit : Nat
  /-- The name after which the page starts; empty for the first page. -/
  marker : String
deriving DecidableEq, Repr, Inhabited

/-- One page of a directory. -/
structure ListPage where
  items : List Item
  /-- The page holds the last item. -/
  isLast : Bool
  nextMarker : String
deriving Inhabited

/-- The state of a store. -/
structure ItemStore where
  /-- The items of each directory, by name. -/
  directories : Keyed (Keyed Json.Object)
  /-- All requests for pages, in order. -/
  requests : List ListRequest
  /-- All updates of items, in order. -/
  updates : List (String × Json.Object)
  /-- Requests for pages that are still to fail. -/
  failing : Nat
deriving Inhabited

namespace ItemStore

/-- A store without items. -/
def new : ItemStore := ⟨[], [], [], 0⟩

/-- A path without the slashes at its end. -/
def trimSlashes (path : String) : String :=
  String.ofList (path.toList.reverse.dropWhile (· = '/')).reverse

/-- A directory without the slashes at its end; the root keeps one. -/
def normalize (directory : String) : String :=
  let trimmed := trimSlashes directory
  if trimmed.isEmpty then "/" else trimmed

/-- The directory and the name that a path is made of: it is cut at its last slash. -/
def splitPath? (path : String) : Option (String × String) :=
  let chars := path.toList.reverse
  match chars.dropWhile (· ≠ '/') with
  | [] => none
  | _ :: directory =>
    some (normalize (String.ofList directory.reverse),
      String.ofList (chars.takeWhile (· ≠ '/')).reverse)

/-- Stores an item, stamped with its name and the time. -/
def put (directory name : String) (attributes : Json.Object) (now : Timestamp) (s : ItemStore) :
    ItemStore :=
  let attributes := ((attributes.insert "__name" (.str name)).insert
    "__mtime_secs" (.ofInt now.secs)).insert "__mtime_nsecs" (.ofNat now.nanos)
  let key := normalize directory
  let items := (s.directories.get? key).getD []
  { s with directories := s.directories.insert key (items.insert name attributes) }

/-- The attributes of the item at a path. -/
def item? (path : String) (s : ItemStore) : Option Json.Object := do
  let (directory, name) ← splitPath? path
  (← s.directories.get? directory).get? name

/-- Parts of a text between commas. -/
def commaParts (text : String) : List String :=
  let step (c : Char) (parts : List (List Char)) : List (List Char) :=
    if c = ',' then [] :: parts
    else match parts with
      | part :: rest => (c :: part) :: rest
      | [] => [[c]]
  (text.toList.foldr step [[]]).map String.ofList

/-- What the names of stamps start with. -/
def stampStart : String := "__eventsource_vip_"

/-- Two whole numbers among the attributes. -/
def pair? (attributes : Json.Object) (secs nsecs : String) : Option (Int × Int) := do
  let s ← (← attributes.get? secs).asInt?
  let n ← (← attributes.get? nsecs).asInt?
  pure (s, n)

/-- The stamps asked for say that the item was handled since it changed. -/
def alreadyStamped (request : ListRequest) (attributes : Json.Object) : Bool :=
  let asked := commaParts request.attributes
  let stamp (ending : String) := asked.find? fun a => a.startsWith stampStart && a.endsWith ending
  match stamp "_secs", stamp "_nsecs" with
  | some secs, some nsecs =>
    match pair? attributes "__mtime_secs" "__mtime_nsecs", pair? attributes secs nsecs with
    | some (s, n), some (s', n') => s < s' || s == s' && n ≤ n'
    | _, _ => false
  | _, _ => false

/-- A text occurs in another. -/
def occurs (part text : List Char) : Bool :=
  part.isPrefixOf text ||
    match text with
    | [] => false
    | _ :: rest => occurs part rest

/-- The query asks only for items that changed. -/
def isIncremental (query : String) : Bool := occurs "__mtime_secs >".toList query.toList

/-- The items that a request asks for, from its marker on, in the order of their names. -/
def matching (request : ListRequest) (s : ItemStore) : List Item :=
  let items := (s.directories.get? (normalize request.path)).getD []
  (items.filter fun (name, attributes) =>
    (request.marker.isEmpty || request.marker < name) &&
      !(isIncremental request.query && alreadyStamped request attributes)).map
    fun (name, attributes) => ⟨name, attributes⟩

/-- One page of a directory. -/
def list (request : ListRequest) (s : ItemStore) : Except Error ListPage × ItemStore :=
  let s := { s with requests := s.requests ++ [request] }
  match s.failing with
  | failing + 1 => (.error (.transport "Injected listing failure"), { s with failing })
  | 0 =>
    let items := s.matching request
    let page := items.take request.limit
    (.ok { items := page, isLast := items.length ≤ request.limit,
           nextMarker := (page.getLast?.map Item.name).getD "" }, s)

/-- Lays attributes over those of the item at a path. -/
def update (path : String) (attributes : Json.Object) (s : ItemStore) :
    Except Error Unit × ItemStore :=
  let s := { s with updates := s.updates ++ [(path, attributes)] }
  match splitPath? path with
  | none => (.error (.transport ("Invalid item path: " ++ path)), s)
  | some (directory, name) =>
    match (s.directories.get? directory).bind (·.get? name) with
    | none => (.error (.transport ("Item not found: " ++ path)), s)
    | some old =>
      (.ok (), { s with directories :=
        s.directories.modify directory (·.insert name (old.merge attributes)) })

end ItemStore

end EventDispatch
