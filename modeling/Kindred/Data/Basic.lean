import Kindred.Number.Basic
import Kindred.Text.Blank

/-!
# Loose data

Values as files hold them, before anything is known about their meaning.

- `Scalar`, `Data`: single values, and values built from lists and maps.
- `Scalar.same`: when two single values are one key.
- `Data.insert`, `Data.withoutRepeats`: entries of a map; a key that is there keeps its place and
  gets the new value.
- `Data.field?`: the value under a name.
-/

namespace Kindred

open Kindred.Text

/-- A single value. -/
inductive Scalar where
  | null
  | bool (b : Bool)
  | int (n : Int)
  | float (x : Float)
  | text (s : String)
  | bytes (bs : List UInt8)
  /-- A value of a kind that no record holds, such as a date: the text by which messages show it,
  and whether it is without content. -/
  | other (text : String) (empty : Bool)
deriving Repr, Inhabited

namespace Scalar

/-- The number that a value counts as: truth values count as zero and one. -/
def number? : Scalar → Option Number
  | bool b => some (.int (if b then 1 else 0))
  | int n => some (.int n)
  | float x => some (.float x)
  | _ => none

/-- Whether two single values are equal as keys. Equal numbers are, whatever their kind, and what is
not a number is equal to itself. -/
def same (a b : Scalar) : Bool :=
  match a, b with
  | null, null => true
  | text s, text t => s == t
  | bytes s, bytes t => s == t
  | other s _, other t _ => s == t
  | a, b =>
    match a.number?, b.number? with
    | some (.float x), some (.float y) => x == y || (x.isNaN && y.isNaN)
    | some m, some n => Number.compare? m n == some .eq
    | _, _ => false

end Scalar

/-- A value of a file. Maps keep the order of their entries. -/
inductive Data where
  | scalar (s : Scalar)
  | list (ds : List Data)
  | map (entries : List (Scalar × Data))
deriving Repr, Inhabited

namespace Data

/-- The absent value. -/
@[match_pattern] def null : Data := .scalar .null

/-- A truth value. -/
@[match_pattern] def bool (b : Bool) : Data := .scalar (.bool b)

/-- An integer. -/
@[match_pattern] def int (n : Int) : Data := .scalar (.int n)

/-- A double. -/
@[match_pattern] def float (x : Float) : Data := .scalar (.float x)

/-- A text. -/
@[match_pattern] def text (s : String) : Data := .scalar (.text s)

/-- A map with the given names as keys. -/
def record (fields : List (String × Data)) : Data :=
  .map (fields.map fun (name, d) => (.text name, d))

/-- The value of an optional part. -/
def ofOption (f : α → Data) : Option α → Data
  | none => null
  | some a => f a

/-- The entries with one more, which replaces an entry of the same key in its place. -/
def insert (key : Scalar) (d : Data) : List (Scalar × Data) → List (Scalar × Data)
  | [] => [(key, d)]
  | (k, old) :: rest => if k.same key then (k, d) :: rest else (k, old) :: insert key d rest

/-- The entries without repetition: the last one of a key, in the place of the first one. -/
def withoutRepeats (entries : List (Scalar × Data)) : List (Scalar × Data) :=
  entries.foldl (fun es (k, d) => insert k d es) []

/-- The map with the given entries, of which the last one of a key counts. -/
def mapOf (entries : List (Scalar × Data)) : Data := .map (withoutRepeats entries)

/-- Whether a key is the given name. -/
def isName (name : String) : Scalar → Bool
  | .text s => s == name
  | _ => false

/-- The value under a name, the last one if there are several. -/
def field? (name : String) (entries : List (Scalar × Data)) : Option Data :=
  (entries.reverse.find? fun (k, _) => isName name k).map (·.2)

/-- A number as a value. -/
def ofNumber : Number → Data
  | .int n => int n
  | .float x => float x

/-- Whether a value is empty: nothing, false, zero, or a text, list or map without content. -/
def isEmpty : Data → Bool
  | null => true
  | bool b => !b
  | int n => n == 0
  | float x => x == 0
  | text s => s.isEmpty
  | scalar (.bytes bs) => bs.isEmpty
  | scalar (.other _ empty) => empty
  | list ds => ds.isEmpty
  | map es => es.isEmpty

end Data

end Kindred
