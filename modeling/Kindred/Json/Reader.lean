import Kindred.Data.Basic
import Kindred.Json.Flaw
import Kindred.Number.Decimal
import Kindred.Text.CodePoint

/-!
# Reading JSON

JSON text as loose data. The names `NaN`, `Infinity` and `-Infinity` are read as doubles.

- `Rules`: what differs between files of content and saved records.
- `value`: the value at the front of a text, and the rest.
- `read`: the value that takes up a whole text.
-/

namespace Kindred.Json

open Kindred.Text Kindred.Number

/-- How far a text is followed, and what is accepted in it. -/
structure Rules where
  /-- How many lists and maps a value may lie in. -/
  depth : Nat
  /-- Whether an escape may stand for one half of a character that takes two. -/
  loneHalves : Bool
  /-- Whether a number that is no integer may have a whole part of any length. -/
  longReals : Bool
  /-- Whether all entries of a map are kept; otherwise the last one of a key counts. -/
  repeats : Bool
deriving DecidableEq, Repr

namespace Rules

/-- The rules for files of content. -/
def file : Rules := ⟨985, true, true, false⟩

/-- The rules for saved records. -/
def record : Rules := ⟨200, false, false, true⟩

end Rules

/-- A value that is there, or a malformed text. -/
def orMalformed : Option α → Except Flaw α
  | some a => .ok a
  | none => .error .malformed

/-- The blanks of JSON. -/
def isSpace (c : Char) : Bool := c == ' ' || c == '\n' || c == '\r' || c == '\t'

/-- Drops the blanks in front. -/
def skipSpace (s : List Char) : List Char := s.dropWhile isSpace

/-! ### Strings -/

/-- The code point of four hexadecimal digits at the front of a text, and the rest. -/
def hexUnit? : List Char → Option (Nat × List Char)
  | a :: b :: c :: d :: rest => (hexNumber? [a, b, c, d]).map (·, rest)
  | _ => none

/-- The second half of a character, written as an escape at the front of a text, and the rest. -/
def secondHalf? : List Char → Option (Nat × List Char)
  | '\\' :: 'u' :: s => (hexUnit? s).filter fun (n, _) => isSecondHalf n
  | _ => none

/-- The character of one escape behind its `u`, or of two that are its halves, and the rest. A half
that stands alone is shown by the replacement character, if it is accepted. -/
def escapedUnit? (r : Rules) (s : List Char) : Option (Char × List Char) := do
  let (n, rest) ← hexUnit? s
  if isFirstHalf n then
    match secondHalf? rest with
    | some (m, rest) => return (ofHalves n m, rest)
    | none => if r.loneHalves then return (replacement, rest) else none
  else if isSecondHalf n && !r.loneHalves then none
  else return (ofCodePoint n, rest)

/-- The character that an escape with one letter stands for. -/
def escapeOf? (c : Char) : Option Char :=
  [('"', '"'), ('\\', '\\'), ('/', '/'), ('b', '\x08'), ('f', '\x0c'), ('n', '\n'), ('r', '\r'),
   ('t', '\t')].lookup c

/-- The contents of a string up to its closing quote, and the rest. -/
def stringBody (r : Rules) (fuel : Nat) (s : List Char) : Option (List Char × List Char) :=
  match fuel, s with
  | _, '"' :: rest => some ([], rest)
  | fuel + 1, '\\' :: 'u' :: rest => do
    let (c, rest) ← escapedUnit? r rest
    let (body, rest) ← stringBody r fuel rest
    return (c :: body, rest)
  | fuel + 1, '\\' :: e :: rest => do
    let c ← escapeOf? e
    let (body, rest) ← stringBody r fuel rest
    return (c :: body, rest)
  | fuel + 1, c :: rest =>
    if c.toNat < 32 || c == '\\' then none
    else do
      let (body, rest) ← stringBody r fuel rest
      return (c :: body, rest)
  | _, _ => none

/-! ### Numbers -/

/-- The part after the point: nothing, or a point and at least one digit. -/
def fractionPart : List Char → List Char × List Char
  | '.' :: s =>
    let (ds, rest) := spanAsciiDigits s
    if ds.isEmpty then ([], '.' :: s) else ('.' :: ds, rest)
  | s => ([], s)

/-- The power of ten: nothing, or `e`, an optional sign and at least one digit. -/
def powerPart : List Char → List Char × List Char
  | [] => ([], [])
  | e :: s =>
    if e == 'e' || e == 'E' then
      let (sign, t) := match s with
        | '-' :: t => (['-'], t)
        | '+' :: t => (['+'], t)
        | t => ([], t)
      let (ds, rest) := spanAsciiDigits t
      if ds.isEmpty then ([], e :: s) else (e :: sign ++ ds, rest)
    else ([], e :: s)

/-- The number at the front of a text, and the rest. -/
def number (r : Rules) (s : List Char) :
    Except Flaw (Data × List Char) := do
  let (negative, t) := match s with
    | '-' :: t => (true, t)
    | t => (false, t)
  let (whole, rest) := match t with
    | '0' :: rest => (['0'], rest)
    | t => spanAsciiDigits t
  if whole.isEmpty then throw .malformed
  let (part, rest) := fractionPart rest
  let (power, rest) := powerPart rest
  let isInteger := part.isEmpty && power.isEmpty
  if longestNumeral < whole.length && (isInteger || !r.longReals) then
    throw (.numeralTooLong whole.length)
  if isInteger then
    let n : Int := digitsValue whole
    return (.int (if negative then -n else n), rest)
  else
    let d ← orMalformed (Decimal.ofText? (whole ++ part ++ power))
    return (.float ({ d with negative := negative } : Decimal).toFloat, rest)

/-- The rest behind a word at the front of a text. -/
def dropWord? (word : List Char) (s : List Char) : Option (List Char) :=
  if word.isPrefixOf s then some (s.drop word.length) else none

/-- The values that are written as words. -/
def words : List (List Char × Data) :=
  [("null".toList, .null), ("true".toList, .bool true), ("false".toList, .bool false),
   ("NaN".toList, .float (Float.ofBits 0x7FF8000000000000)),
   ("Infinity".toList, .float (infinity false)),
   ("-Infinity".toList, .float (infinity true))]

/-- The word at the front of a text, and the rest. -/
def word (s : List Char) : Option (Data × List Char) :=
  words.findSome? fun (w, d) => (dropWord? w s).map (d, ·)

/-! ### Values -/

mutual

/-- The value at the front of a text without blanks in front, and the rest. `room` tells how many
lists and maps may still be entered. -/
def value (r : Rules) (room fuel : Nat) (s : List Char) :
    Except Flaw (Data × List Char) :=
  match fuel, s with
  | fuel + 1, '"' :: rest => do
    let (body, rest) ← orMalformed (stringBody r fuel rest)
    return (.text (String.ofList body), rest)
  | fuel + 1, '[' :: rest =>
    match skipSpace rest, room with
    | ']' :: rest, _ => .ok (.list [], rest)
    | _, 0 => .error .listTooDeep
    | rest, room + 1 => do
      let (ds, rest) ← elements r room fuel rest
      return (.list ds, rest)
  | fuel + 1, '{' :: rest =>
    match skipSpace rest, room with
    | '}' :: rest, _ => .ok (.map [], rest)
    | _, 0 => .error .mapTooDeep
    | rest, room + 1 => do
      let (es, rest) ← entries r room fuel rest
      return (if r.repeats then .map es else Data.mapOf es, rest)
  | _ + 1, s =>
    match word s with
    | some found => .ok found
    | none => number r s
  | 0, _ => .error .malformed

/-- The elements of a list up to its closing bracket, and the rest. -/
def elements (r : Rules) (room fuel : Nat) (s : List Char) :
    Except Flaw (List Data × List Char) :=
  match fuel with
  | 0 => .error .malformed
  | fuel + 1 => do
    let (d, rest) ← value r room fuel (skipSpace s)
    match skipSpace rest with
    | ',' :: rest => do
      let (ds, rest) ← elements r room fuel rest
      return (d :: ds, rest)
    | ']' :: rest => return ([d], rest)
    | _ => .error .malformed

/-- The entries of a map up to its closing bracket, and the rest. -/
def entries (r : Rules) (room fuel : Nat) (s : List Char) :
    Except Flaw (List (Scalar × Data) × List Char) :=
  match fuel, skipSpace s with
  | fuel + 1, '"' :: rest => do
    let (key, rest) ← orMalformed (stringBody r fuel rest)
    match skipSpace rest with
    | ':' :: rest => do
      let (d, rest) ← value r room fuel (skipSpace rest)
      let entry := (Scalar.text (String.ofList key), d)
      match skipSpace rest with
      | ',' :: rest => do
        let (es, rest) ← entries r room fuel rest
        return (entry :: es, rest)
      | '}' :: rest => return ([entry], rest)
      | _ => .error .malformed
    | _ => .error .malformed
  | _, _ => .error .malformed

end

/-- The value that takes up a whole text, blanks around it aside. -/
def read (r : Rules) (text : String) : Except Flaw Data := do
  let s := text.toList
  let (d, rest) ← value r r.depth (2 * s.length + 1) (skipSpace s)
  if (skipSpace rest).isEmpty then return d else throw .malformed

end Kindred.Json
