/-!
# Places in a YAML text

- `Cursor`: the rest of a text, and where it starts.
- `isBreak`, `atGap`: the characters that end a line, and those that end a word.
- `Cursor.lineBreak`: the line break at a cursor.
-/

namespace Kindred.Yaml

/-- The characters that end a line. -/
def isBreak (c : Char) : Bool :=
  c == '\n' || c == '\r' || c == '\u0085' || c == '\u2028' || c == '\u2029'

/-- Whether a line ends here. -/
def atLineEnd : List Char → Bool
  | [] => true
  | c :: _ => isBreak c

/-- Whether a line ends here or a space comes. -/
def atSpace : List Char → Bool
  | [] => true
  | c :: _ => c == ' ' || isBreak c

/-- Whether a line ends here or a space or tab comes. -/
def atGap : List Char → Bool
  | [] => true
  | c :: _ => c == ' ' || c == '\t' || isBreak c

/-- The mark that may stand in front of a text, and takes up no column. -/
def isMark (c : Char) : Bool := c.toNat == 0xFEFF

/-- The rest of a text, and where it starts. -/
structure Cursor where
  /-- The number of characters in front. -/
  index : Nat
  /-- The number of lines in front. -/
  line : Nat
  /-- The number of characters in front on the same line. -/
  column : Nat
  rest : List Char
deriving Repr

namespace Cursor

/-- The start of a text. -/
def ofText (s : List Char) : Cursor := ⟨0, 0, 0, s⟩

/-- Moves behind one character. A carriage return in front of a line feed ends no line yet. -/
def next (c : Cursor) : Cursor :=
  match c.rest with
  | [] => c
  | ch :: s =>
    let ends := if ch == '\r' then s.head? != some '\n' else isBreak ch
    if ends then ⟨c.index + 1, c.line + 1, 0, s⟩
    else ⟨c.index + 1, c.line, if isMark ch then c.column else c.column + 1, s⟩

/-- Moves behind some characters. -/
def skip : Cursor → Nat → Cursor
  | c, 0 => c
  | c, n + 1 => c.next.skip n

/-- The characters of a kind from a cursor on, and the cursor behind them. -/
def span (c : Cursor) (p : Char → Bool) : List Char × Cursor :=
  let s := c.rest.takeWhile p
  (s, c.skip s.length)

/-- Moves behind the characters of a kind. -/
def skipAll (c : Cursor) (p : Char → Bool) : Cursor := (c.span p).2

/-- Moves behind spaces. -/
def skipSpaces (c : Cursor) : Cursor := c.skipAll (· == ' ')

/-- Moves to the end of a line, if a comment starts here. -/
def skipComment (c : Cursor) : Cursor :=
  if c.rest.head? == some '#' then c.skipAll (!isBreak ·) else c

/-- The line break at a cursor as it is kept, if there is one, and the cursor behind it. All breaks
but the separators of lines and paragraphs are kept as line feeds. -/
def lineBreak (c : Cursor) : List Char × Cursor :=
  match c.rest with
  | [] => ([], c)
  | '\r' :: '\n' :: _ => (['\n'], c.skip 2)
  | ch :: _ =>
    if ch == '\u2028' || ch == '\u2029' then ([ch], c.next)
    else if isBreak ch then (['\n'], c.next)
    else ([], c)

/-- Moves behind the rest of a line that holds at most a comment; nothing if it holds more. -/
def endOfLine? (c : Cursor) : Option Cursor :=
  let c := c.skipSpaces.skipComment
  if atLineEnd c.rest then some c.lineBreak.2 else none

/-- Whether three times a character and a gap start the line here. -/
def atRow (c : Cursor) (ch : Char) : Bool :=
  c.column == 0 && [ch, ch, ch].isPrefixOf c.rest && atGap (c.rest.drop 3)

/-- Whether a line here starts or ends a document. -/
def atMarker (c : Cursor) : Bool := c.atRow '-' || c.atRow '.'

end Cursor

/-- The text for the line breaks inside a scalar: the first one becomes a space if it stands alone
and is dropped otherwise, unless it is a separator. -/
def folded (first : List Char) (more : List Char) : List Char :=
  if first != ['\n'] then first ++ more else if more.isEmpty then [' '] else more

end Kindred.Yaml
