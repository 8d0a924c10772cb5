import Kindred.Text.CodePoint
import Kindred.Yaml.Cursor
import Kindred.Yaml.Flaw

/-!
# Quoted scalars

Scalars between single or double quotes. A line break inside is folded into a space; between double
quotes a backslash starts an escape.

- `quotedScalar`: the scalar at a cursor.
-/

namespace Kindred.Yaml

open Kindred.Text

/-- The characters that an escape with one letter stands for. -/
def escapes : List (Char × Char) :=
  [('0', '\x00'), ('a', '\x07'), ('b', '\x08'), ('t', '\t'), ('\t', '\t'), ('n', '\n'),
   ('v', '\x0b'), ('f', '\x0c'), ('r', '\r'), ('e', '\x1b'), (' ', ' '), ('"', '"'),
   ('\\', '\\'), ('/', '/'), ('N', '\u0085'), ('_', '\u00a0'), ('L', '\u2028'), ('P', '\u2029')]

/-- The number of hexadecimal digits behind an escape letter. -/
def hexEscapes : List (Char × Nat) := [('x', 2), ('u', 4), ('U', 8)]

/-- The character with a number. Halves of characters that take two are shown by the replacement
character. -/
def character (n : Nat) : Except Flaw Char :=
  if 0x80000000 ≤ n then .error (.scalar .characterTooLarge)
  else if 0x110000 ≤ n then .error (.scalar .noCharacter)
  else .ok (ofCodePoint n)

/-- Line breaks with the blanks around them, as they are kept, and the cursor behind them. A line
that starts or ends a document must not come. -/
def blankLines (fuel : Nat) (c : Cursor) : Except Flaw (List Char × Cursor) :=
  match fuel with
  | 0 => .error .malformed
  | fuel + 1 =>
    if c.atMarker then .error .malformed
    else
      let c := c.skipAll fun ch => ch == ' ' || ch == '\t'
      match c.lineBreak with
      | ([], c) => .ok ([], c)
      | (one, c) => do
        let (more, c) ← blankLines fuel c
        return (one ++ more, c)

/-- What stands for blanks inside a scalar, and the cursor behind them. -/
def quotedGap (fuel : Nat) (c : Cursor) : Except Flaw (List Char × Cursor) :=
  let (blanks, c) := c.span fun ch => ch == ' ' || ch == '\t'
  match c.rest, c.lineBreak with
  | [], _ => .error .malformed
  | _, ([], c) => .ok (blanks, c)
  | _, (first, c) => do
    let (more, c) ← blankLines fuel c
    return (folded first more, c)

/-- What an escape behind its backslash stands for, and the cursor behind it. -/
def escape (fuel : Nat) (c : Cursor) : Except Flaw (List Char × Cursor) := do
  let e ← orMalformed c.rest.head?
  match escapes.lookup e, hexEscapes.lookup e with
  | some ch, _ => return ([ch], c.next)
  | none, some width =>
    let digits := c.next.rest.take width
    if digits.length < width then throw .malformed
    let ch ← character (← orMalformed (hexNumber? digits))
    return ([ch], c.skip (1 + width))
  | none, none => if isBreak e then blankLines fuel c.lineBreak.2 else throw .malformed

/-- The contents of a scalar up to its closing quote, and the cursor behind it. -/
def quotedBody (fuel : Nat) (quote : Char) (c : Cursor) : Except Flaw (List Char × Cursor) :=
  match fuel, c.rest with
  | 0, _ => .error .malformed
  | _, [] => .error .malformed
  | fuel + 1, ch :: s => do
    if ch == quote then
      if quote == '\'' && s.head? == some '\'' then
        let (more, c) ← quotedBody fuel quote (c.skip 2)
        return ('\'' :: more, c)
      else return ([], c.next)
    else
      let (part, c) ←
        if ch == '\\' && quote == '"' then escape fuel c.next
        else if atGap c.rest then quotedGap fuel c
        else pure ([ch], c.next)
      let (more, c) ← quotedBody fuel quote c
      return (part ++ more, c)

/-- The scalar at a cursor in front of a quote, and the cursor behind it. -/
def quotedScalar (c : Cursor) : Except Flaw (List Char × Cursor) := do
  let quote ← orMalformed c.rest.head?
  quotedBody (c.rest.length + 1) quote c.next

end Kindred.Yaml
