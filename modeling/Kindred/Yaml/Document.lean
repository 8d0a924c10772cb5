import Kindred.Yaml.Node
import Kindred.Yaml.Token

/-!
# Documents

From tokens to nodes. Parts that may be missing are empty scalars; an alias stands for the node with
its anchor.

- `Composing`: reading tokens, with the nodes that have anchors.
- `node`: the node at the front of the tokens.
- `document`: the node of the only document.
-/

namespace Kindred.Yaml

/-- The tokens that are left, and the nodes that have anchors so far. -/
structure Progress where
  tokens : List Token
  anchors : List (String × Node) := []

/-- Reading tokens. -/
abbrev Composing := StateT Progress (Except Flaw)

/-- What handles of tags stand for. -/
abbrev Handles := List (String × String)

namespace Composing

/-- The next token. A flaw is met here. -/
def peek : Composing Token := do
  match (← get).tokens with
  | [] => throw .malformed
  | .flaw why :: _ => throw why
  | t :: _ => return t

/-- Drops the next token. -/
def drop : Composing Unit := modify fun p => { p with tokens := p.tokens.tail }

/-- Drops the next token if it is the given one, and tells whether it was. -/
def dropIf (t : Token) : Composing Bool := do
  if (← peek) == t then
    drop
    return true
  else return false

/-- Whether the next token is one of some. -/
def comes (ts : List Token) : Composing Bool := return ts.contains (← peek)

/-- Gives a node its anchor. -/
def define (anchor : Option String) (n : Node) : Composing Unit :=
  match anchor with
  | some name => modify fun p => { p with anchors := (name, n) :: p.anchors }
  | none => pure ()

/-- The node with an anchor. -/
def resolve (name : String) : Composing Node := do
  match (← get).anchors.lookup name with
  | some n => return n
  | none => throw .malformed

end Composing

open Composing

/-! ### Properties -/

/-- What stands in front of a node. -/
structure Properties where
  anchor : Option String := none
  /-- The full text of the tag. -/
  tag : Option String := none

/-- The anchor in front of a node, if there is one. -/
def anchorAhead : Composing (Option String) := do
  match ← peek with
  | .anchor name =>
    drop
    return some name
  | _ => return none

/-- The full text of the tag in front of a node, if there is one. -/
def tagAhead : Composing (Option TagText) := do
  match ← peek with
  | .tag t =>
    drop
    return some t
  | _ => return none

/-- The full text of a tag. -/
def fullTag (handles : Handles) (t : TagText) : Except Flaw String :=
  match t.handle with
  | none => .ok t.suffix
  | some handle => orMalformed ((handles.lookup handle).map (· ++ t.suffix))

/-- The anchor and the tag in front of a node, in any order. -/
def properties (handles : Handles) : Composing Properties := do
  let first ← anchorAhead
  let tag ← tagAhead
  let anchor ← if first.isNone && tag.isSome then anchorAhead else pure first
  match tag with
  | none => return ⟨anchor, none⟩
  | some t => return ⟨anchor, some (← fullTag handles t)⟩

/-- A scalar without content. -/
def emptyNode : Node := .ofScalar .null []

/-- The kind of a scalar. -/
def scalarTag (tag : Option String) (text : String) (isPlain : Bool) : Tag :=
  match tag with
  | none => if isPlain then .ofPlain text.toList else .str
  | some "!" => .ofPlain text.toList
  | some t => .ofText t

/-- The kind of a list or map, given the usual one. -/
def collectionTag (tag : Option String) (usual : Tag) : Tag :=
  match tag with
  | none => usual
  | some "!" => usual
  | some t => .ofText t

/-! ### Nodes -/

/-- A list or map with its properties, if there is room for one more. Inside, its anchor stands for
something around. -/
def collection (p : Properties) (room : Nat) (read : Nat → Composing Node) : Composing Node :=
  match room with
  | 0 => throw .tooDeep
  | room + 1 => do
    define p.anchor .around
    let n ← read room
    define p.anchor n
    return n

mutual

/-- The node at the front of the tokens. `inBlock` tells whether lists and maps may be told by
indentation, and `loose` whether elements of a list may come without further indentation. `room`
tells how many lists and maps may still be entered. -/
def node (handles : Handles) (room fuel : Nat) (inBlock loose : Bool) : Composing Node :=
  match fuel with
  | 0 => throw .malformed
  | fuel + 1 => do
    match ← peek with
    | .alias name =>
      drop
      resolve name
    | _ =>
      let p ← properties handles
      let t ← peek
      if let some name := p.anchor then
        if ((← get).anchors.lookup name).isSome then throw .malformed
      match t with
      | .scalar text isPlain =>
        drop
        let n := Node.ofScalar (scalarTag p.tag text isPlain) text.toList
        define p.anchor n
        return n
      | .openList => collection p room fun room => do
        drop
        return .ofItems (collectionTag p.tag .seq) (← items handles room fuel true)
      | .openMap => collection p room fun room => do
        drop
        return .ofEntries (collectionTag p.tag .map) (← entries handles room fuel true)
      | _ =>
        if loose && t == .entry then collection p room fun room => do
          return .ofItems (collectionTag p.tag .seq) (← looseElements handles room fuel)
        else if inBlock && t == .listStart then collection p room fun room => do
          drop
          return .ofItems (collectionTag p.tag .seq) (← blockElements handles room fuel)
        else if inBlock && t == .mapStart then collection p room fun room => do
          drop
          return .ofEntries (collectionTag p.tag .map) (← blockEntries handles room fuel)
        else if p.anchor.isSome || p.tag.isSome then
          let n := Node.ofScalar (scalarTag p.tag "" true) []
          define p.anchor n
          return n
        else throw .malformed

/-- The elements of a list that is told by indentation, up to its end. -/
def blockElements (handles : Handles) (room fuel : Nat) : Composing (List Node) :=
  match fuel with
  | 0 => throw .malformed
  | fuel + 1 => do
    if ← dropIf .entry then
      let n ← if ← comes [.entry, .blockEnd] then pure emptyNode
        else node handles room fuel true false
      return n :: (← blockElements handles room fuel)
    else if ← dropIf .blockEnd then return []
    else throw .malformed

/-- The elements of a list that is indented like the key that it belongs to. -/
def looseElements (handles : Handles) (room fuel : Nat) : Composing (List Node) :=
  match fuel with
  | 0 => throw .malformed
  | fuel + 1 => do
    if ← dropIf .entry then
      let n ← if ← comes [.entry, .key, .value, .blockEnd] then pure emptyNode
        else node handles room fuel true false
      return n :: (← looseElements handles room fuel)
    else return []

/-- The entries of a map that is told by indentation, up to its end. -/
def blockEntries (handles : Handles) (room fuel : Nat) : Composing (List (Node × Node)) :=
  match fuel with
  | 0 => throw .malformed
  | fuel + 1 => do
    if ← dropIf .key then
      let key ← if ← comes [.key, .value, .blockEnd] then pure emptyNode
        else node handles room fuel true true
      let value ← if ← dropIf .value then
          if ← comes [.key, .value, .blockEnd] then pure emptyNode
          else node handles room fuel true true
        else pure emptyNode
      return (key, value) :: (← blockEntries handles room fuel)
    else if ← dropIf .blockEnd then return []
    else throw .malformed

/-- The value behind a key between brackets; empty if one of some tokens ends it. -/
def flowValue (handles : Handles) (room fuel : Nat) (ends : List Token) : Composing Node :=
  match fuel with
  | 0 => throw .malformed
  | fuel + 1 => do
    if ← dropIf .value then
      if ← comes ends then return emptyNode else node handles room fuel false false
    else return emptyNode

/-- The items of a list between brackets, up to its end. -/
def items (handles : Handles) (room fuel : Nat) (isFirst : Bool) : Composing (List Node) :=
  match fuel with
  | 0 => throw .malformed
  | fuel + 1 => do
    if ← dropIf .closeList then return []
    if !isFirst then
      if !(← dropIf .comma) then throw .malformed
    if ← dropIf .key then
      let n ← collection {} room fun room => do
        let key ← if ← comes [.value, .comma, .closeList] then pure emptyNode
          else node handles room fuel false false
        let value ← flowValue handles room fuel [.comma, .closeList]
        return .ofEntries .map [(key, value)]
      return n :: (← items handles room fuel false)
    else if ← dropIf .closeList then return []
    else
      let n ← node handles room fuel false false
      return n :: (← items handles room fuel false)

/-- The entries of a map between brackets, up to its end. -/
def entries (handles : Handles) (room fuel : Nat) (isFirst : Bool) :
    Composing (List (Node × Node)) :=
  match fuel with
  | 0 => throw .malformed
  | fuel + 1 => do
    if ← dropIf .closeMap then return []
    if !isFirst then
      if !(← dropIf .comma) then throw .malformed
    if ← dropIf .key then
      let key ← if ← comes [.value, .comma, .closeMap] then pure emptyNode
        else node handles room fuel false false
      let value ← flowValue handles room fuel [.comma, .closeMap]
      return (key, value) :: (← entries handles room fuel false)
    else if ← dropIf .closeMap then return []
    else
      let key ← node handles room fuel false false
      return (key, emptyNode) :: (← entries handles room fuel false)

end

/-! ### Documents -/

/-- What handles stand for unless a directive says otherwise. -/
def usualHandles : Handles := [("!", "!"), ("!!", Tag.family)]

/-- Reads the directives in front of a document. There may be one version, of which the first part
has to be one, and one meaning for a handle. -/
def directives (fuel : Nat) (versioned : Bool) (handles : Handles) : Composing Handles :=
  match fuel with
  | 0 => throw .malformed
  | fuel + 1 => do
    match ← peek with
    | .directive (.version major) =>
      if versioned || major != 1 then throw .malformed
      drop
      directives fuel true handles
    | .directive (.handle name tag) =>
      if (handles.lookup name).isSome then throw .malformed
      drop
      directives fuel versioned ((name, tag) :: handles)
    | .directive .other =>
      drop
      directives fuel versioned handles
    | _ => return handles

/-- How deep lists and maps may lie inside one another. -/
def greatestDepth : Nat := 488

/-- The node of a document without a mark in front of it. -/
def bareDocument (fuel : Nat) : Composing Node :=
  node usualHandles greatestDepth fuel true false

/-- The node of a document with its directives and its mark. -/
def markedDocument (fuel : Nat) : Composing Node := do
  let handles ← directives fuel false []
  if !(← dropIf .documentStart) then throw .malformed
  match ← peek with
  | .directive _ | .documentStart | .documentEnd | .streamEnd => return emptyNode
  | _ => node (handles ++ usualHandles) greatestDepth fuel true false

/-- Drops marks that end a document. -/
def dropEnds : Nat → Composing Unit
  | 0 => pure ()
  | fuel + 1 => do
    if ← dropIf .documentEnd then dropEnds fuel

/-- The node of the only document, if there is one. -/
def document (fuel : Nat) : Composing (Option Node) := do
  let root ← match ← peek with
    | .streamEnd => pure none
    | .directive _ | .documentStart => some <$> markedDocument fuel
    | _ => some <$> bareDocument fuel
  dropEnds fuel
  if (← peek) == .streamEnd then return root else throw .malformed

end Kindred.Yaml
