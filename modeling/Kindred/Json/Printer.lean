import Kindred.Data.Basic
import Kindred.Text.CodePoint
import Kindred.Text.Quoted

/-!
# Writing JSON

Loose data as JSON text, on one line without blanks or indented by two blanks a level. Characters
outside ASCII stand for themselves.

- `compact`: on one line.
- `indented`: over several lines.
-/

namespace Kindred.Json

open Kindred.Text Kindred.Number

/-- One character of a JSON string. -/
def escaped (c : Char) : List Char :=
  if c == '"' then ['\\', '"']
  else if c == '\\' then ['\\', '\\']
  else if c == '\n' then ['\\', 'n']
  else if c == '\r' then ['\\', 'r']
  else if c == '\t' then ['\\', 't']
  else if c.toNat == 8 then ['\\', 'b']
  else if c.toNat == 12 then ['\\', 'f']
  else if c.toNat < 32 then '\\' :: 'u' :: hexDigits 4 c.toNat
  else [c]

/-- A JSON string. -/
def string (s : String) : List Char := '"' :: s.toList.flatMap escaped ++ ['"']

/-- A single value. -/
def scalar : Scalar → List Char
  | .null => ['n', 'u', 'l', 'l']
  | .bool true => ['t', 'r', 'u', 'e']
  | .bool false => ['f', 'a', 'l', 's', 'e']
  | .int n => intText n
  | .float x => (recordLayout.text x).toList
  | .text s => string s
  | .bytes bs => string ((textOfBytes? bs).getD "")
  | .other text _ => string text

/-- The text of a key, which is a name in every record. -/
def keyText : Scalar → String
  | .text s => s
  | key => String.ofList (scalar key)

mutual

/-- A value on one line, in front of a text. -/
def compactFrom : Data → List Char → List Char
  | .scalar s, rest => scalar s ++ rest
  | .list [], rest => '[' :: ']' :: rest
  | .list (d :: ds), rest => '[' :: compactFrom d (compactElements ds (']' :: rest))
  | .map [], rest => '{' :: '}' :: rest
  | .map ((k, d) :: es), rest =>
    '{' :: string (keyText k) ++ ':' :: compactFrom d (compactEntries es ('}' :: rest))

/-- The further elements of a list. -/
def compactElements : List Data → List Char → List Char
  | [], rest => rest
  | d :: ds, rest => ',' :: compactFrom d (compactElements ds rest)

/-- The further entries of a map. -/
def compactEntries : List (Scalar × Data) → List Char → List Char
  | [], rest => rest
  | (k, d) :: es, rest =>
    ',' :: string (keyText k) ++ ':' :: compactFrom d (compactEntries es rest)

end

/-- A line break and the indentation of a level. -/
def newLine (level : Nat) : List Char := '\n' :: List.replicate (2 * level) ' '

mutual

/-- A value over several lines, in front of a text. -/
def indentedFrom (level : Nat) : Data → List Char → List Char
  | .scalar s, rest => scalar s ++ rest
  | .list [], rest => '[' :: ']' :: rest
  | .list (d :: ds), rest =>
    '[' :: newLine (level + 1) ++
      indentedFrom (level + 1) d (indentedElements level ds (newLine level ++ ']' :: rest))
  | .map [], rest => '{' :: '}' :: rest
  | .map ((k, d) :: es), rest =>
    '{' :: newLine (level + 1) ++ string (keyText k) ++ ':' :: ' ' ::
      indentedFrom (level + 1) d (indentedEntries level es (newLine level ++ '}' :: rest))

/-- The further elements of a list at a level. -/
def indentedElements (level : Nat) : List Data → List Char → List Char
  | [], rest => rest
  | d :: ds, rest =>
    ',' :: newLine (level + 1) ++ indentedFrom (level + 1) d (indentedElements level ds rest)

/-- The further entries of a map at a level. -/
def indentedEntries (level : Nat) : List (Scalar × Data) → List Char → List Char
  | [], rest => rest
  | (k, d) :: es, rest =>
    ',' :: newLine (level + 1) ++ string (keyText k) ++ ':' :: ' ' ::
      indentedFrom (level + 1) d (indentedEntries level es rest)

end

/-- JSON text on one line. -/
def compact (d : Data) : String := String.ofList (compactFrom d [])

/-- JSON text over several lines. -/
def indented (d : Data) : String := String.ofList (indentedFrom 0 d [])

end Kindred.Json
