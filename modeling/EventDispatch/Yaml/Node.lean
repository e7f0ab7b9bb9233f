import EventDispatch.Yaml.Token
import EventDispatch.Yaml.Value

/-!
# Nodes of a YAML text

The documents of a text as trees of scalars, lists and mappings, built from its tokens. A node may have
a name under which later ones refer to it; the reference stands for a copy. No mapping holds a key
twice.

## Main definitions

* `Node`: the trees.
* `Upcoming`: the tokens to come and the names given so far.
* `Node.documents?`: the documents of a text, unless it breaks a rule.
-/

namespace EventDispatch.Yaml

/-- A node of a document. -/
inductive Node where
  /-- A node that has no value: a scalar that does not fit its tag, or a reference to a node from
  within. -/
  | undefined
  | scalar (v : Value)
  | list (items : List Node)
  | mapping (entries : List (Node × Node))
deriving Repr, Inhabited, BEq

/-- The tokens to come, the names given to nodes, and the short forms of tags. -/
structure Upcoming where
  tokens : List Token
  /-- Nodes by the order in which names were given, the last first; without a node yet while it is
  being read. -/
  nodes : List (Option Node) := []
  /-- Names and the number of the node that each stands for. -/
  names : List (String × Nat) := []
  /-- Short forms and what they stand for. -/
  shorthands : List (String × String) := []

/-- Reads nodes from the tokens to come; nothing if a rule is broken. -/
abbrev FromTokens := StateT Upcoming Option

namespace Upcoming

/-- The next token. -/
def peek : FromTokens (Option Token) := do return (← get).tokens.head?

/-- Past the next token. -/
def skip : FromTokens Unit := modify fun c => { c with tokens := c.tokens.drop 1 }

/-- The next token is one of several. -/
def isNext (ts : List Token) : FromTokens Bool := do
  match ← peek with
  | some t => return ts.contains t
  | none => return false

/-- Past the next token if it is the one given. -/
def skipIf (t : Token) : FromTokens Bool := do
  let found ← isNext [t]
  if found then skip
  return found

/-- Gives a name to the node that follows; its number. -/
def register (name : String) : FromTokens Nat := do
  let c ← get
  set { c with names := (name, c.nodes.length) :: c.names, nodes := none :: c.nodes }
  return c.nodes.length

/-- Takes note of the node of a number. -/
def complete (number : Nat) (node : Node) : FromTokens Unit :=
  modify fun c => { c with nodes := c.nodes.set (c.nodes.length - 1 - number) (some node) }

/-- The node that a name stands for. -/
def find (name : String) : FromTokens Node := do
  let c ← get
  match c.names.lookup name with
  | some number => return ((c.nodes[c.nodes.length - 1 - number]?).join).getD .undefined
  | none => failure

/-- What the tags of the language's own start with. -/
def ownTags : String := "tag:yaml.org,2002:"

/-- The full start of a tag; nothing if its handle was not declared. -/
def resolve (handle suffix : String) : FromTokens (String × String) := do
  let c ← get
  match c.shorthands.lookup handle with
  | some start => return (start, suffix)
  | none =>
    if handle = "!!" then return (ownTags, suffix)
    else if 2 ≤ handle.length && handle.endsWith "!" then failure
    else return (handle, suffix)

/-- An anchor or a tag before a node, in either order: the number of the anchor, and the tag. -/
def properties : FromTokens (Option Nat × Option (String × String)) := do
  match ← peek with
  | some (.anchor name) =>
    skip
    let number ← register name
    match ← peek with
    | some (.tag handle suffix) =>
      skip
      return (some number, some (← resolve handle suffix))
    | _ => return (some number, none)
  | some (.tag handle suffix) =>
    skip
    let tag ← resolve handle suffix
    match ← peek with
    | some (.anchor name) =>
      skip
      return (some (← register name), some tag)
    | _ => return (none, some tag)
  | _ => return (none, none)

/-- The node of a scalar. -/
def scalarNode (plain : Bool) (text : String) (tag : Option (String × String)) : Node :=
  if !plain then .scalar (.text text)
  else
    match tag with
    | none => .scalar (.ofPlain text)
    | some (start, suffix) =>
      if start = ownTags then
        match Value.ofTagged suffix text with
        | some v => .scalar v
        | none => .undefined
      else .scalar (.text text)

/-- The node that is not written. -/
def missing (tag : Option (String × String)) : Node := scalarNode true "" tag

/-- Keys with their values, from all nodes of a mapping in order. An undefined node is no key. -/
def pairUp : List Node → List (Node × Node)
  | [] => []
  | [_] => []
  | key :: value :: rest =>
    match key with
    | .undefined => pairUp (value :: rest)
    | _ => (key, value) :: pairUp rest

/-- No key stands twice. -/
def distinctKeys : List (Node × Node) → Bool
  | [] => true
  | (key, _) :: rest => !(rest.any (·.1 == key)) && distinctKeys rest

/-- The mapping of nodes in order. -/
def mappingNode (nodes : List Node) : FromTokens Node := do
  let entries := pairUp nodes
  guard (distinctKeys entries)
  return .mapping entries

mutual

/-- A node. Collections without brackets may start in a block, and a list of entries that are not
indented may start where a value or key stands. Every reader takes one unit of fuel, and between two
units of the same reader at least one token is read. -/
def node (fuel : Nat) (block flush : Bool) : FromTokens Node := do
  match fuel with
  | 0 => failure
  | fuel + 1 =>
    match ← peek with
    | some (.reference name) =>
      skip
      find name
    | _ =>
      let (number, tag) ← properties
      let written ← content fuel block flush tag
      match written, number with
      | some n, some number =>
        complete number n
        return n
      | some n, none => return n
      | none, some number =>
        complete number (missing tag)
        return missing tag
      | none, none => if tag.isSome then return missing tag else failure

/-- What a node consists of, if it is written. -/
def content (fuel : Nat) (block flush : Bool) (tag : Option (String × String)) :
    FromTokens (Option Node) := do
  match fuel with
  | 0 => failure
  | fuel + 1 =>
    match ← peek with
    | some (.scalar plain text) =>
      skip
      return some (scalarNode plain text tag)
    | some .blockEntry => if flush then return some (.list (← flushItems fuel [])) else return none
    | some .flowSequence =>
      skip
      return some (.list (← flowItems fuel true []))
    | some .flowMapping =>
      skip
      return some (← mappingNode (← flowFields fuel true []))
    | some .blockSequence =>
      if block then
        skip
        return some (.list (← blockItems fuel []))
      else return none
    | some .blockMapping =>
      if block then
        skip
        return some (← mappingNode (← blockFields fuel []))
      else return none
    | _ => return none

/-- A node, unless one of some tokens follows. -/
def nodeUnless (fuel : Nat) (block flush : Bool) (ends : List Token) : FromTokens Node := do
  match fuel with
  | 0 => failure
  | fuel + 1 => if ← isNext ends then return missing none else node fuel block flush

/-- The items of an indented list, onto those so far in reverse. -/
def blockItems (fuel : Nat) (done : List Node) : FromTokens (List Node) := do
  match fuel with
  | 0 => failure
  | fuel + 1 =>
    if ← skipIf .blockEntry then
      let item ← nodeUnless fuel true false [.blockEntry, .blockEnd]
      blockItems fuel (item :: done)
    else
      guard (← skipIf .blockEnd)
      return done.reverse

/-- The items of a list that is not indented, onto those so far in reverse. -/
def flushItems (fuel : Nat) (done : List Node) : FromTokens (List Node) := do
  match fuel with
  | 0 => failure
  | fuel + 1 =>
    if ← skipIf .blockEntry then
      let item ← nodeUnless fuel true false [.blockEntry, .key, .value, .blockEnd]
      flushItems fuel (item :: done)
    else return done.reverse

/-- The keys and values of an indented mapping, onto those so far in reverse. -/
def blockFields (fuel : Nat) (done : List Node) : FromTokens (List Node) := do
  match fuel with
  | 0 => failure
  | fuel + 1 =>
    let ends : List Token := [.key, .value, .blockEnd]
    if ← skipIf .blockEnd then return done.reverse
    else
      guard (← isNext [.key, .value])
      let key ← if ← skipIf .key then nodeUnless fuel true true ends else pure (missing none)
      let value ← if ← skipIf .value then nodeUnless fuel true true ends else pure (missing none)
      blockFields fuel (value :: key :: done)

/-- The keys and values of a mapping in braces, onto those so far in reverse. -/
def flowFields (fuel : Nat) (first : Bool) (done : List Node) : FromTokens (List Node) := do
  match fuel with
  | 0 => failure
  | fuel + 1 =>
    if ← skipIf .flowMappingEnd then return done.reverse
    else
      guard (first || (← skipIf .flowEntry))
      if ← skipIf .flowMappingEnd then return done.reverse
      else if ← isNext [.key, .value] then
        let key ← if ← skipIf .key then nodeUnless fuel false false [.value, .flowEntry, .flowMappingEnd]
          else pure (missing none)
        let value ← if ← skipIf .value then nodeUnless fuel false false [.flowEntry, .flowMappingEnd]
          else pure (missing none)
        flowFields fuel false (value :: key :: done)
      else
        let key ← node fuel false false
        flowFields fuel false (missing none :: key :: done)

/-- The items of a list in brackets, onto those so far in reverse. A marked key makes an item that is a
mapping of a single pair. -/
def flowItems (fuel : Nat) (first : Bool) (done : List Node) : FromTokens (List Node) := do
  match fuel with
  | 0 => failure
  | fuel + 1 =>
    if ← skipIf .flowSequenceEnd then return done.reverse
    else
      guard (first || (← skipIf .flowEntry))
      if ← skipIf .flowSequenceEnd then return done.reverse
      else if ← skipIf .key then
        let ends : List Token := [.value, .flowEntry, .flowSequenceEnd]
        let bare ← isNext ends
        let key ← nodeUnless fuel false false ends
        -- What follows a key that is not written is passed over with it.
        if bare then skip
        let value ← if ← skipIf .value then nodeUnless fuel false false [.flowEntry, .flowSequenceEnd]
          else pure (missing none)
        let item ← mappingNode [key, value]
        flowItems fuel false (item :: done)
      else
        let item ← node fuel false false
        flowItems fuel false (item :: done)

end

/-! ### Documents -/

/-- Past the directives before a document. At most one gives the version. -/
def directives (versionSeen : Bool) : Nat → FromTokens Unit
  | 0 => pure ()
  | fuel + 1 => do
    match ← peek with
    | some .version =>
      guard (!versionSeen)
      skip
      modify fun c => { c with shorthands := [] }
      directives true fuel
    | some (.shorthand handle full) =>
      skip
      modify fun c => { c with shorthands := [(handle, full)] }
      directives versionSeen fuel
    | _ => pure ()

/-- Past the marks that end documents; whether there were any. -/
def documentEnds : Nat → FromTokens Bool
  | 0 => pure false
  | fuel + 1 => do
    if ← skipIf .documentEnd then
      discard (documentEnds fuel)
      return true
    else return false

/-- The next token is a directive. -/
def atDirective : FromTokens Bool := do
  match ← peek with
  | some .version => return true
  | some (.shorthand _ _) => return true
  | _ => return false

/-- The documents to come, onto those so far in reverse. The first document, and one after a mark that
ended the one before, may start without a mark. -/
def documents (fuel : Nat) (implicit : Bool) (done : List Node) : FromTokens (List Node) := do
  match fuel with
  | 0 => failure
  | fuel + 1 =>
    discard (documentEnds fuel)
    if (← peek).isNone then return done.reverse
    else
      let isMarked := (← atDirective) || (← isNext [.documentStart])
      directives false fuel
      let written ← skipIf .documentStart
      guard (written || (implicit && !isMarked))
      let isEmpty := (← atDirective) || (← isNext [.documentStart, .documentEnd]) || (← peek).isNone
      let root ← if written && isEmpty then pure (missing none) else node (4 * fuel) true false
      let ended ← documentEnds fuel
      modify fun c => { c with shorthands := [] }
      guard (ended || !(← atDirective))
      documents fuel ended (root :: done)

end Upcoming

/-- The documents of a text; nothing if it breaks a rule. -/
def Node.documents? (text : String) : Option (List Node) := do
  let tokens ← Token.scan? text
  (Upcoming.documents (tokens.length + 2) true [] |>.run { tokens }).map Prod.fst

end EventDispatch.Yaml
