import Kindred.Text.CodePoint
import Kindred.Text.Digit
import Kindred.Yaml.Cursor
import Kindred.Yaml.Flaw

/-!
# Names, tags and directives

What stands in front of a value to name it or to tell its kind, and what stands in front of a
document.

- `name`: the name of an anchor or an alias.
- `TagText`, `tagText`: a tag as it is written.
- `Directive`, `directive`: a line in front of a document.
-/

namespace Kindred.Yaml

open Kindred.Text

/-- The characters of names. -/
def isNameChar (c : Char) : Bool := c.isAlphanum || c == '-' || c == '_'

/-- The characters of tags. -/
def isTagChar (c : Char) : Bool :=
  c.isAlphanum || "-;/?:@&=+$,_.!~*'()[]%".toList.contains c

/-- Whether a name may end in front of this text. -/
def endsName : List Char → Bool
  | [] => true
  | c :: _ => atGap [c] || "?:,]\x7d%@`".toList.contains c

/-- The name at a cursor behind its mark, and the cursor behind it. -/
def name (c : Cursor) : Except Flaw (String × Cursor) :=
  let (s, c) := c.span isNameChar
  if s.isEmpty || !endsName c.rest then .error .malformed else .ok (String.ofList s, c)

/-! ### Tags -/

/-- The bytes of characters that are written as `%` and two hexadecimal digits, and the cursor
behind them. -/
def escapedBytes (fuel : Nat) (c : Cursor) : Except Flaw (List UInt8 × Cursor) :=
  match fuel, c.rest with
  | fuel + 1, '%' :: a :: b :: _ => do
    let n ← orMalformed (hexNumber? [a, b])
    let (more, c) ← escapedBytes fuel (c.skip 3)
    return (UInt8.ofNat n :: more, c)
  | _, '%' :: _ => .error .malformed
  | _, _ => .ok ([], c)

/-- The characters of a tag from a cursor on, and the cursor behind them. -/
def tagChars (fuel : Nat) (c : Cursor) : Except Flaw (List Char × Cursor) :=
  match fuel, c.rest with
  | fuel + 1, '%' :: _ => do
    let (bytes, c) ← escapedBytes (c.rest.length + 1) c
    let s ← orMalformed (textOfBytes? bytes)
    let (more, c) ← tagChars fuel c
    return (s.toList ++ more, c)
  | fuel + 1, ch :: _ =>
    if isTagChar ch then do
      let (more, c) ← tagChars fuel c.next
      return (ch :: more, c)
    else .ok ([], c)
  | _, _ => .ok ([], c)

/-- The part of a tag behind its handle, and the cursor behind it. There has to be one. -/
def tagSuffix (c : Cursor) : Except Flaw (String × Cursor) := do
  let (s, after) ← tagChars (c.rest.length + 1) c
  if after.index == c.index then throw .malformed
  return (String.ofList s, after)

/-- The handle of a tag, from one exclamation mark to another one, which may be the same where a
space follows. -/
def tagHandle (c : Cursor) : Except Flaw (String × Cursor) :=
  match c.rest with
  | '!' :: ' ' :: _ => .ok ("!", c.next)
  | '!' :: _ =>
    let (s, after) := c.next.span isNameChar
    if after.rest.head? == some '!' then .ok (String.ofList ('!' :: s ++ ['!']), after.next)
    else .error .malformed
  | _ => .error .malformed

/-- A tag as it is written. -/
structure TagText where
  /-- The handle that stands for the front of the tag, if there is one. -/
  handle : Option String
  suffix : String
deriving DecidableEq, Repr

/-- Whether a second exclamation mark comes before the word ends. -/
def hasHandle (s : List Char) : Bool :=
  (s.takeWhile fun c => !(c == ' ' || isBreak c)).contains '!'

/-- The tag at a cursor in front of its exclamation mark, and the cursor behind it. -/
def tagText (c : Cursor) : Except Flaw (TagText × Cursor) := do
  let behind := c.next
  let (tag, c) : TagText × Cursor ← (
    if behind.rest.head? == some '<' then do
      let (suffix, c) ← tagSuffix behind.next
      if c.rest.head? != some '>' then throw .malformed
      return (⟨none, suffix⟩, c.next)
    else if atGap behind.rest then return (⟨none, "!"⟩, behind)
    else if hasHandle behind.rest then do
      let (handle, c) ← tagHandle c
      let (suffix, c) ← tagSuffix c
      return (⟨some handle, suffix⟩, c)
    else do
      let (suffix, c) ← tagSuffix behind
      return (⟨some "!", suffix⟩, c))
  if atSpace c.rest then return (tag, c) else throw .malformed

/-! ### Directives -/

/-- A line in front of a document. -/
inductive Directive where
  /-- The version of the format, of which the first part counts. -/
  | version (major : Nat)
  /-- What a handle stands for. -/
  | handle (name tag : String)
  | other
deriving DecidableEq, Repr

/-- The number at a cursor, and the cursor behind it. -/
def versionPart (c : Cursor) : Except Flaw (Nat × Cursor) :=
  let (ds, c) := c.span Char.isDigit
  if ds.isEmpty then .error .malformed
  else if longestNumeral < ds.length then .error (.numeralTooLong ds.length)
  else .ok (digitsValue ds, c)

/-- The version behind its word, and the cursor behind it. -/
def version (c : Cursor) : Except Flaw (Directive × Cursor) := do
  let (major, c) ← versionPart c.skipSpaces
  if c.rest.head? != some '.' then throw .malformed
  let (_, c) ← versionPart c.next
  if atSpace c.rest then return (.version major, c) else throw .malformed

/-- A handle and its meaning behind their word, and the cursor behind them. -/
def handleMeaning (c : Cursor) : Except Flaw (Directive × Cursor) := do
  let (handle, c) ← tagHandle c.skipSpaces
  if c.rest.head? != some ' ' then throw .malformed
  let (tag, c) ← tagSuffix c.skipSpaces
  if atSpace c.rest then return (.handle handle tag, c) else throw .malformed

/-- The directive at a cursor behind its mark, and the cursor behind its line. -/
def directive (c : Cursor) : Except Flaw (Directive × Cursor) := do
  let (word, c) := c.span isNameChar
  if word.isEmpty || !atSpace c.rest then throw .malformed
  let (d, c) ← match String.ofList word with
    | "YAML" => version c
    | "TAG" => handleMeaning c
    | _ => pure (.other, c.skipAll (!isBreak ·))
  return (d, ← orMalformed c.endOfLine?)

end Kindred.Yaml
