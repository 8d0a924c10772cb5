import Kindred.Yaml.Cursor
import Kindred.Yaml.Flaw

/-!
# Block scalars

Scalars that take up whole indented lines. Behind `|` the lines are kept as they are, behind `>`
they are folded. A sign tells what becomes of the breaks at the end, a digit how far the lines are
indented.

- `BlockHead`: what the first line tells.
- `blockScalar`: the scalar at a cursor.
-/

namespace Kindred.Yaml

/-- What becomes of the line breaks at the end of a block scalar. -/
inductive Chomping where
  /-- One is kept. -/
  | clip
  /-- None is kept. -/
  | strip
  /-- All are kept. -/
  | keep
deriving DecidableEq, Repr

/-- What the first line of a block scalar tells. -/
structure BlockHead where
  chomping : Chomping
  /-- How much further than around it the lines are indented. -/
  indent : Option Nat
deriving DecidableEq, Repr

/-- The sign at a cursor, if there is one. -/
def chompingAt? (c : Cursor) : Option Chomping :=
  match c.rest with
  | '+' :: _ => some .keep
  | '-' :: _ => some .strip
  | _ => none

/-- The digit at a cursor, if there is one. -/
def digitAt? (c : Cursor) : Option Nat :=
  match c.rest with
  | d :: _ => if d.isDigit then some (d.toNat - 48) else none
  | _ => none

/-- What the first line tells, and the cursor behind it. -/
def blockHead (c : Cursor) : Except Flaw (BlockHead × Cursor) := do
  let (head, c) : BlockHead × Cursor :=
    match chompingAt? c, digitAt? c with
    | some chomping, _ =>
      match digitAt? c.next with
      | some n => (⟨chomping, some n⟩, c.skip 2)
      | none => (⟨chomping, none⟩, c.next)
    | none, some n =>
      match chompingAt? c.next with
      | some chomping => (⟨chomping, some n⟩, c.skip 2)
      | none => (⟨.clip, some n⟩, c.next)
    | none, none => (⟨.clip, none⟩, c)
  if head.indent == some 0 || !atSpace c.rest then throw .malformed
  return (head, ← orMalformed c.endOfLine?)

/-- The line breaks in front of the first line, the greatest column reached by spaces between them,
and the cursor behind them. -/
def leadingBreaks (fuel : Nat) (greatest : Nat) (c : Cursor) : List Char × Nat × Cursor :=
  match fuel with
  | 0 => ([], greatest, c)
  | fuel + 1 =>
    let c := c.skipSpaces
    let greatest := max greatest c.column
    match c.lineBreak with
    | ([], c) => ([], greatest, c)
    | (one, c) =>
      let (more, found) := leadingBreaks fuel greatest c
      (one ++ more, found)

/-- Moves behind spaces, but not beyond a column. -/
def skipIndent (indent : Nat) (c : Cursor) : Cursor :=
  c.skip (min (indent - c.column) (c.rest.takeWhile (· == ' ')).length)

/-- The breaks of lines that hold at most the indentation, and the cursor behind them. -/
def emptyLines (fuel : Nat) (indent : Nat) (c : Cursor) : List Char × Cursor :=
  match fuel with
  | 0 => ([], c)
  | fuel + 1 =>
    let c := skipIndent indent c
    match c.lineBreak with
    | ([], c) => ([], c)
    | (one, c) =>
      let (more, c) := emptyLines fuel indent c
      (one ++ more, c)

/-- Whether a line starts with a blank. -/
def startsBlank (c : Cursor) : Bool := c.rest.head?.any fun ch => ch == ' ' || ch == '\t'

/-- The lines from a cursor on, with the breaks `before` in front of the first of them, and the
cursor behind them. -/
def blockLines (fuel : Nat) (isFolded : Bool) (chomping : Chomping) (indent : Nat)
    (before : List Char) (c : Cursor) : List Char × Cursor :=
  match fuel with
  | 0 => (before, c)
  | fuel + 1 =>
    let (line, after) := c.span (!isBreak ·)
    let (ending, after) := after.lineBreak
    let (breaks, after) := emptyLines (after.rest.length + 1) indent after
    if after.column == indent && !after.rest.isEmpty then
      let joint :=
        if isFolded && ending == ['\n'] && !startsBlank c && !startsBlank after then
          if breaks.isEmpty then [' '] else []
        else ending
      let (more, after) := blockLines fuel isFolded chomping indent breaks after
      (before ++ line ++ joint ++ more, after)
    else
      let final := match chomping with
        | .clip => ending
        | .strip => []
        | .keep => ending ++ breaks
      (before ++ line ++ final, after)

/-- The block scalar at a cursor behind its mark, inside something indented to `parent`, and the
cursor behind it. -/
def blockScalar (isFolded : Bool) (parent : Int) (c : Cursor) :
    Except Flaw (List Char × Cursor) := do
  let (head, c) ← blockHead c
  let least := (max 1 (parent + 1)).toNat
  let fuel := c.rest.length + 1
  let (indent, breaks, c) : Nat × List Char × Cursor :=
    match head.indent with
    | some n =>
      let indent := least + n - 1
      (indent, emptyLines fuel indent c)
    | none =>
      let (breaks, greatest, c) := leadingBreaks fuel 0 c
      (max least greatest, breaks, c)
  if c.column == indent && !c.rest.isEmpty then
    return blockLines fuel isFolded head.chomping indent breaks c
  else return (if head.chomping == .keep then breaks else [], c)

end Kindred.Yaml
