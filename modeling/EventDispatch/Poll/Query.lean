/-!
# Queries for items

The text that asks an item store for the items of interest, and the names of the attributes by which a
source stamps the items it has handled.

## Main definitions

* `Stamp`: the names of a source's stamps.
* `requestedAttributes`: the attributes that a listing asks for.
* `QueryParts`, `QueryParts.text`: the query.
-/

namespace EventDispatch

/-- The names of the attributes by which a source stamps the items it has handled. -/
structure Stamp where
  secs : String
  nsecs : String
deriving DecidableEq, Repr, Inhabited

/-- The stamps of a source. -/
def Stamp.ofSource (id : String) : Stamp :=
  ⟨"__eventsource_vip_" ++ id ++ "_secs", "__eventsource_vip_" ++ id ++ "_nsecs"⟩

/-- The attributes that every listing asks for. -/
def builtinAttributes : List String :=
  ["__name", "__mtime_secs", "__mtime_nsecs", "__obj_type", "__size"]

/-- The attributes that a listing asks for, parted by commas: those of every listing, the stamps, and
those of the source's settings. -/
def requestedAttributes (stamp : Stamp) (others : List String) : String :=
  String.intercalate "," (builtinAttributes ++ [stamp.secs, stamp.nsecs] ++ others)

/-- The item changed after its stamps. -/
def incrementalClause (stamp : Stamp) : String :=
  "__mtime_secs > " ++ stamp.secs ++ " or (__mtime_secs == " ++ stamp.secs ++
    " and __mtime_nsecs > " ++ stamp.nsecs ++ ")"

/-- The item's name ends in one of the suffixes, if there are any. -/
def suffixClause (suffixes : List String) : Option String :=
  if suffixes.isEmpty then none
  else some (String.intercalate " or " (suffixes.map fun s => "ends(__name, '" ++ s ++ "')"))

/-- What a query is made of. -/
structure QueryParts where
  firstPoll : Bool
  incremental : Bool
  stamp : Stamp
  suffixes : List String
  queries : List String
deriving DecidableEq, Repr, Inhabited

namespace QueryParts

/-- The clauses: changed items only after the first poll, then the suffixes, then the queries of the
source's settings. -/
def clauses (p : QueryParts) : List String :=
  (if p.incremental && !p.firstPoll then [incrementalClause p.stamp] else []) ++
    (suffixClause p.suffixes).toList ++ p.queries

/-- The query: all clauses have to hold. -/
def text (p : QueryParts) : String :=
  String.intercalate " and " (p.clauses.map fun clause => "(" ++ clause ++ ")")

end QueryParts

end EventDispatch
