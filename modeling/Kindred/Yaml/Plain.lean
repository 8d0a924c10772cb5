import Kindred.Yaml.Cursor

/-!
# Plain scalars

Scalars without quotes. They reach to a colon, a comment or a line that is indented less; line
breaks inside are folded into spaces.

- `startsPlain`: whether a plain scalar may start at a place.
- `plainScalar`: the plain scalar at a cursor.
-/

namespace Kindred.Yaml

/-- Characters with a meaning of their own, which start no plain scalar. -/
def indicators : List Char := "-?:,[]{}#&*!|>'\"%@`".toList

/-- Whether a plain scalar may start here. Between brackets fewer characters may. -/
def startsPlain (between : Bool) : List Char → Bool
  | [] => false
  | c :: s =>
    if atGap [c] then false
    else if !indicators.contains c then true
    else !atGap s && (c == '-' || (!between && (c == '?' || c == ':')))

/-- Whether a piece of a plain scalar ends in front of this text. -/
def endsPiece (between : Bool) : List Char → Bool
  | [] => true
  | c :: s =>
    atGap [c] ||
    (c == ':' && (atGap s || (between && s.head?.any [',', '[', ']', '{', '}'].contains))) ||
    (between && [',', '?', '[', ']', '{', '}'].contains c)

/-- The characters up to the end of a piece. -/
def piece (between : Bool) : List Char → List Char
  | [] => []
  | c :: s => if endsPiece between (c :: s) then [] else c :: piece between s

/-- Line breaks with the spaces around them, as they are kept, and the cursor behind them; nothing
in place of the breaks if a line comes that starts or ends a document. -/
def breaksBetween (fuel : Nat) (c : Cursor) : Option (List Char) × Cursor :=
  match fuel with
  | 0 => (none, c)
  | fuel + 1 =>
    if c.atMarker then (none, c)
    else
      let c := c.skipSpaces
      match c.lineBreak with
      | ([], c) => (some [], c)
      | (one, c) =>
        let (more, c) := breaksBetween fuel c
        (more.map (one ++ ·), c)

/-- What stands between two pieces of a plain scalar. -/
structure PlainGap where
  /-- The text for it; nothing where no further piece may follow. -/
  text : Option (List Char)
  /-- Whether it holds a line break. -/
  crossed : Bool
  after : Cursor

/-- The gap at a cursor. -/
def plainGap (c : Cursor) : PlainGap :=
  let (spaces, after) := c.span (· == ' ')
  match after.lineBreak with
  | ([], _) => ⟨if spaces.isEmpty then none else some spaces, false, after⟩
  | (first, beyond) =>
    let (more, after) := breaksBetween (c.rest.length + 1) beyond
    ⟨more.map (folded first ·), true, after⟩

/-- A plain scalar. -/
structure PlainScalar where
  text : List Char
  /-- Whether line breaks follow it. -/
  crossed : Bool
  after : Cursor

/-- The plain scalar at a cursor. Its further lines have to be indented to `indent` at least, unless
it stands between brackets. -/
def plainScalar (fuel : Nat) (between : Bool) (indent : Int) (c : Cursor) : PlainScalar :=
  let first := piece between c.rest
  let gap := plainGap (c.skip first.length)
  match fuel, gap.text with
  | fuel + 1, some space =>
    let ends := gap.after.rest.head? == some '#' || (!between && gap.after.column < indent) ||
      endsPiece between gap.after.rest
    if ends then ⟨first, gap.crossed, gap.after⟩
    else
      let more := plainScalar fuel between indent gap.after
      ⟨first ++ space ++ more.text, more.crossed, more.after⟩
  | _, _ => ⟨first, gap.crossed, gap.after⟩

end Kindred.Yaml
