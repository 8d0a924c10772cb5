import Kindred.Yaml.Scalar

/-!
# Nodes

The scalars, lists and maps of a YAML text, each with its kind and with what it stands for. A node
that occurs in several places is the same node, so what it stands for is kept with it.

- `Meaning`: what a node stands for, or the flaws that are found in it.
- `Node`: a node.
- `Node.ofScalar`, `Node.ofItems`, `Node.ofEntries`: nodes from their parts.
- `Node.read`: the value of a node.
-/

namespace Kindred.Yaml

/-- What a node stands for. -/
structure Meaning where
  /-- The value, unless there is a flaw. -/
  value : Data := .null
  /-- Whether the value may be a key. -/
  isKey : Bool := false
  /-- The text of a scalar, which a map may bring too. -/
  text : Option (List Char) := none
  /-- The first flaw at every depth. Values are read level by level, so a flaw further up counts
  before one that lies deeper. -/
  flaws : List (Option Flaw) := []

/-- A node. -/
inductive Node where
  | scalar (tag : Tag) (meaning : Meaning)
  | list (tag : Tag) (items : List Node) (meaning : Meaning)
  /-- A map. Next to the entries as they are written it holds all its entries, which include those
  that it takes from other maps, if these can be taken. -/
  | map (tag : Tag) (written entries : List (Node × Node)) (isSound : Bool) (meaning : Meaning)
  /-- A list or map that the node itself lies in. -/
  | around

/-- Flaws of two parts, in the order in which they are found. -/
def firstFlaws : List (Option Flaw) → List (Option Flaw) → List (Option Flaw)
  | [], more => more
  | some_, [] => some_
  | f :: fs, g :: gs => f.or g :: firstFlaws fs gs

namespace Meaning

/-- The meaning of something that makes no sense at once. -/
def broken (why : Flaw) : Meaning := { flaws := [some why] }

/-- The meaning of a list or map from what it holds. -/
def ofParts (value : Data) (flaws : List (List (Option Flaw))) : Meaning :=
  { value := value, flaws := none :: flaws.foldl firstFlaws [] }

/-- The meaning of a list or map that makes no sense once its content is read. -/
def brokenWithin : Meaning := ofParts .null [[some .malformed]]

/-- The meaning of a scalar. -/
def ofScalar (tag : Tag) (text : List Char) : Meaning :=
  match scalarValue tag text with
  | .ok value => { value := value, isKey := true, text := some text }
  | .error why => { isKey := true, text := some text, flaws := [some why] }

end Meaning

namespace Node

/-- The kind of a node. -/
def tag : Node → Option Tag
  | scalar tag _ => some tag
  | list tag _ _ => some tag
  | map tag _ _ _ _ => some tag
  | around => none

/-- What a node stands for. A value that lies in itself fits in no record. -/
def meaning : Node → Meaning
  | scalar _ m => m
  | list _ _ m => m
  | map _ _ _ _ m => m
  | around => { value := .scalar (.other "..." false) }

/-- A scalar. -/
def ofScalar (tag : Tag) (text : List Char) : Node := scalar tag (.ofScalar tag text)

/-! ### Lists -/

/-- The flaws of a pair in a list of pairs, where no key has a meaning of its own. -/
def pairFlaws : Node → List (List (Option Flaw))
  | map _ [(key, value)] _ _ _ => [key.meaning.flaws, value.meaning.flaws]
  | _ => [[some .malformed]]

/-- What a list stands for. -/
def listMeaning (tag : Tag) (items : List Node) : Meaning :=
  match tag with
  | .seq => .ofParts (.list (items.map (·.meaning.value))) (items.map (·.meaning.flaws))
  | .pairs =>
    .ofParts (.list (items.map fun _ => .scalar (.other "()" false))) (items.flatMap pairFlaws)
  | .map => .brokenWithin
  | .set => .brokenWithin
  | _ => .broken .malformed

/-- A list. -/
def ofItems (tag : Tag) (items : List Node) : Node := list tag items (listMeaning tag items)

/-! ### Maps -/

/-- The entries that a map takes from a node, and whether it can take any: those of a map, or those
of the maps of a list, of which the first one counts before the others. -/
def taken : Node → List (Node × Node) × Bool
  | map _ _ entries isSound _ => (entries, isSound)
  | list _ items _ =>
    (items.reverse.flatMap fun
      | map _ _ entries _ _ => entries
      | _ => [],
    items.all fun
      | map _ _ _ isSound _ => isSound
      | around => true
      | _ => false)
  | around => ([], true)
  | scalar _ _ => ([], false)

/-- A key that brings a single value is a text like others where a map is read. -/
def asKey : Node → Node
  | scalar .value m => ofScalar .str (m.text.getD [])
  | n => n

/-- Whether a key brings the entries of other maps. -/
def isMerge (n : Node) : Bool := n.tag == some .merge

/-- The flaws of an entry of a map. -/
def entryFlaws : Node × Node → List (List (Option Flaw))
  | (key, value) =>
    let unfit := if key.meaning.isKey then [] else [some .malformed]
    [key.meaning.flaws, unfit, value.meaning.flaws]

/-- An entry of a map. -/
def entryValue : Node × Node → Option (Scalar × Data)
  | (key, value) =>
    match key.meaning.value with
    | .scalar s => some (s, value.meaning.value)
    | _ => none

/-- The text of the single value that entries bring. -/
def broughtText? (entries : List (Node × Node)) : Option (List Char) :=
  (entries.find? fun (key, _) => key.tag == some .value).bind (·.2.meaning.text)

/-- What a map stands for, given all its entries and the text that it brings. -/
def mapMeaning (tag : Tag) (entries : List (Node × Node)) (isSound : Bool)
    (text : Option (List Char)) : Meaning :=
  let unfit := if isSound then [] else [some .malformed]
  let flaws := unfit :: entries.flatMap entryFlaws
  match tag with
  | .map => { Meaning.ofParts (Data.mapOf (entries.filterMap entryValue)) flaws with text := text }
  | .set => { Meaning.ofParts (.scalar (.other "set()" entries.isEmpty)) flaws with text := text }
  | .seq => .brokenWithin
  | .pairs => .brokenWithin
  | tag =>
    match text with
    | some text => .ofScalar tag text
    | none => .broken .malformed

/-- A map. Entries that are taken from other maps come first. -/
def ofEntries (tag : Tag) (written : List (Node × Node)) : Node :=
  let sources := (written.filter (·.1.isMerge)).map (taken ·.2)
  let own := (written.filter (!·.1.isMerge)).map fun (key, value) => (asKey key, value)
  let entries := sources.flatMap (·.1) ++ own
  let isSound := sources.all (·.2)
  map tag written entries isSound (mapMeaning tag entries isSound (broughtText? written))

/-- The value of a node. -/
def read (n : Node) : Except Flaw Data :=
  match n.meaning.flaws.findSome? id with
  | some why => .error why
  | none => .ok n.meaning.value

end Node

end Kindred.Yaml
