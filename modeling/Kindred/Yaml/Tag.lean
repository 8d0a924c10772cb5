import Kindred.Text.CodePoint
import Kindred.Yaml.Time

/-!
# Tags

The kinds of values. A tag is written in front of a value, or follows from what a plain scalar looks
like.

- `Tag`: the kinds that can be told apart.
- `Tag.ofText`: the kind that the full text of a tag means.
- `Tag.ofPlain`: the kind of a plain scalar without a tag.
-/

namespace Kindred.Yaml

open Kindred.Text

/-- The kind of a value. -/
inductive Tag where
  | null
  | bool
  | int
  | float
  | binary
  | timestamp
  /-- A text. -/
  | str
  /-- A list. -/
  | seq
  /-- A map. -/
  | map
  | set
  /-- A list of pairs. -/
  | pairs
  /-- The key under which a map brings the entries of other maps. -/
  | merge
  /-- The key under which a map brings a single value to stand for it. -/
  | value
  /-- A kind that is not known. -/
  | unknown
deriving DecidableEq, Repr

namespace Tag

/-- What all known tags start with. -/
def family : String := "tag:yaml.org,2002:"

/-- The known tags by the rest of their text. -/
def known : List (String × Tag) :=
  [("null", null), ("bool", bool), ("int", int), ("float", float), ("binary", binary),
   ("timestamp", timestamp), ("str", str), ("seq", seq), ("map", map), ("set", set),
   ("omap", pairs), ("pairs", pairs), ("merge", merge), ("value", value)]

/-- The kind that the full text of a tag means. -/
def ofText (text : String) : Tag :=
  if text.startsWith family then
    (known.lookup (String.ofList (text.toList.drop family.length))).getD unknown
  else unknown

/-! ### Plain scalars -/

/-- A word in small letters, with a capital in front, and in capitals. -/
def spellings (word : String) : List String :=
  let capital := match word.toList with
    | [] => ""
    | c :: cs => String.ofList (c.toUpper :: cs)
  [word, capital, word.map Char.toUpper]

/-- The words for truth values. -/
def truthWords : List String := ["yes", "no", "true", "false", "on", "off"].flatMap spellings

/-- The words for nothing. -/
def nullWords : List String := ["~"] ++ spellings "null"

/-- A text without a sign in front. -/
def withoutSign : List Char → List Char
  | '-' :: s => s
  | '+' :: s => s
  | s => s

/-- Whether a text is not empty and made of such characters. -/
def madeOf (p : Char → Bool) (s : List Char) : Bool := !s.isEmpty && s.all p

/-- A digit or an underscore. -/
def isLooseDigit (c : Char) : Bool := c.isDigit || c == '_'

/-- A hexadecimal digit or an underscore. -/
def isLooseHex (c : Char) : Bool := (hexValue? c).isSome || c == '_'

/-- Whether a digit comes first, and digits and underscores after it. -/
def isLooseNumeral (s : List Char) : Bool := s.head?.any Char.isDigit && s.all isLooseDigit

/-- A group of a number in base sixty: one digit, or two of which the first is below six. -/
def isSixtieth : List Char → Bool
  | [d] => d.isDigit
  | [t, d] => '0' ≤ t && t ≤ '5' && d.isDigit
  | _ => false

/-- Whether a text looks like an integer: in base two, eight, sixteen, ten or sixty. -/
def looksInt (s : List Char) : Bool :=
  match withoutSign s with
  | '0' :: 'b' :: ds => madeOf (fun c => c == '0' || c == '1' || c == '_') ds
  | '0' :: 'x' :: ds => madeOf isLooseHex ds
  | '0' :: ds => ds.all fun c => ('0' ≤ c && c ≤ '7') || c == '_'
  | s =>
    match s.splitOn ':' with
    | whole :: groups => isLooseNumeral whole && groups.all isSixtieth
    | [] => false

/-- Whether a power of ten with its sign comes, or nothing. -/
def isSignedPower (s : List Char) : Bool :=
  match s with
  | [] => true
  | e :: sign :: ds =>
    (e == 'e' || e == 'E') && (sign == '+' || sign == '-') && madeOf Char.isDigit ds
  | _ => false

/-- Whether a text without a sign looks like digits of a double with a point. -/
def looksPointed (signed : Bool) (s : List Char) : Bool :=
  let (whole, rest) := s.span fun c => isLooseDigit c || c == ':'
  match rest with
  | '.' :: rest =>
    let (part, power) := rest.span isLooseDigit
    match whole.splitOn ':' with
    | [[]] => !signed && isLooseNumeral part && isSignedPower power
    | [whole] => isLooseNumeral whole && isSignedPower power
    | whole :: groups => isLooseNumeral whole && groups.all isSixtieth && power.isEmpty
    | [] => false
  | _ => false

/-- Whether a text looks like a double. -/
def looksFloat (s : List Char) : Bool :=
  let bare := withoutSign s
  let signed := bare.length != s.length
  let word := String.ofList bare
  [".inf", ".Inf", ".INF"].contains word || (!signed && [".nan", ".NaN", ".NAN"].contains word) ||
    looksPointed signed bare

/-- The kind of a plain scalar without a tag. A line feed at its end does not count. -/
def ofPlain (s : List Char) : Tag :=
  let bare := withoutLineFeed s
  let word := String.ofList bare
  if s.isEmpty then null
  else if truthWords.contains word then bool
  else if looksFloat bare then float
  else if looksInt bare then int
  else if word == "<<" then merge
  else if nullWords.contains word then null
  else if looksTime bare then timestamp
  else if word == "=" then value
  else if ["!", "&", "*"].contains word then unknown
  else str

end Tag

end Kindred.Yaml
