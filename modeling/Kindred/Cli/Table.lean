import Kindred.Number.Binary
import Kindred.Text.Markup
import Kindred.Text.Wrap

/-!
# Tables on a terminal

Tables drawn with box characters. A table with headings has heavy lines around them; one without
headings has light lines only, and no blank at its outer edges.

- `Table`: a title, headings and rows.
- `Table.lines`: the lines that show a table.
-/

namespace Kindred.Cli

open Kindred.Text

/-- A table. The headings may be absent. -/
structure Table where
  title : String
  headings : List String := []
  rows : List (List String) := []
deriving Repr

/-- The columns of a terminal. -/
def terminalWidth : Nat := 1000

/-- Characters that move the cursor are not shown. -/
def isShown (c : Char) : Bool := !([7, 8, 11, 12, 13].contains c.toNat)

/-- The lines that show a text on a terminal. -/
def shownLines (s : String) : List String :=
  (wrap terminalWidth .fold (s.toList.filter isShown)).map String.ofList

/-- The text of a cell. -/
def cellText (s : String) : Except MarkupFlaw (List Char) :=
  List.filter isShown <$> withoutTags s.toList

/-- Whether a line of a cell ends where its width is measured. -/
def endsLine (c : Char) : Bool :=
  [10, 28, 29, 30, 0x85, 0x2028, 0x2029].contains c.toNat

/-- The width that a cell asks for: that of its widest line, where a tab has no width. -/
def cellWidth (s : List Char) : Nat :=
  ((s.splitOnP endsLine).map Text.width).foldl max 0

/-- The characters of a horizontal line: its two ends, its stroke and its crossings. -/
structure Rule where
  left : Char
  stroke : Char
  crossing : Char
  right : Char

/-- A horizontal line over columns of given widths. -/
def Rule.line (r : Rule) (widths : List Nat) : String :=
  String.ofList (r.left :: [r.crossing].intercalate (widths.map (List.replicate · r.stroke)) ++
    [r.right])

/-- The blanks on the two sides of a cell. A table without headings has none at its outer edges. -/
structure Margins where
  left : Bool
  right : Bool

/-- The margins of the columns of a table. -/
def margins (edges : Bool) (columns : Nat) : List Margins :=
  (List.range columns).map fun i => ⟨edges || i != 0, edges || i + 1 != columns⟩

/-- The width that margins add. -/
def Margins.width (m : Margins) : Nat := m.left.toNat + m.right.toNat

/-- A line of a cell between its margins, in a column of a given width. -/
def Margins.frame (m : Margins) (columns : Nat) (s : List Char) : List Char :=
  List.replicate m.left.toNat ' ' ++ fit (columns - m.width) s ++ List.replicate m.right.toNat ' '

/-- The lines of a row between vertical strokes. A cell without room shows nothing. -/
def rowLines (stroke : Char) (widths : List Nat) (ms : List Margins) (cells : List (List Char)) :
    List String :=
  let columns := (cells.zip (widths.zip ms)).map fun (cell, columns, m) =>
    (columns, m, if columns ≤ m.width then [] else wrap (columns - m.width) .cut cell)
  let height := (columns.map fun (_, _, ls) => ls.length).foldl max 1
  (List.range height).map fun i =>
    let parts := columns.map fun (columns, m, ls) => m.frame columns (ls.getD i [])
    String.ofList (stroke :: [stroke].intercalate parts ++ [stroke])

/-! ### Widths of columns -/

/-- Takes an excess from the widths that have a share in it, each as much as its part of what is
left but at most `most`. -/
def takeShares (most : Nat) : Nat → Nat → List (Nat × Bool) → List Nat
  | _, _, [] => []
  | excess, shares, (w, true) :: more =>
    let part := min most (Number.roundDivEven excess shares)
    (w - part) :: takeShares most (excess - part) (shares - 1) more
  | excess, shares, (w, false) :: more => w :: takeShares most excess shares more

/-- Makes the widest columns narrower until all fit. Each round brings the widest ones down to the
next narrower width, so `fuel` need not exceed the number of widths and two. -/
def narrow (most : Nat) : Nat → List Nat → List Nat
  | 0, widths => widths
  | fuel + 1, widths =>
    let excess := widths.sum - most
    let widest := widths.foldl max 0
    let next := (widths.filter (· != widest)).foldl max 0
    if excess = 0 || widest = next then widths
    else
      let shares := widths.map fun w => (w, w == widest)
      narrow most fuel
        (takeShares (min excess (widest - next)) excess (widths.count widest) shares)

namespace Table

/-- The number of columns. -/
def columns (t : Table) : Nat := (t.headings :: t.rows).foldl (fun n cells => max n cells.length) 0

/-- The widths of columns with their margins: each is as wide as its widest cell, unless they do not
fit on the terminal together. -/
def widths (ms : List Margins) (rows : List (List (List Char))) : List Nat :=
  let most := terminalWidth - (ms.length + 1)
  let natural := ms.zipIdx.map fun (m, i) =>
    min most ((rows.map fun cells => cellWidth (cells.getD i []) + m.width).foldl max 0)
  narrow most (ms.length + 2) natural

/-- The lines of a title, centred over a width. -/
def centred (columns : Nat) (title : String) : List String :=
  (wrap columns .fold title.toList).map fun line =>
    let line := dropBlanksRight line
    let spare := columns - Text.width line
    String.ofList (List.replicate (spare / 2) ' ' ++ line ++ List.replicate (spare - spare / 2) ' ')

/-- The texts of the cells, row by row. Their markup is read column by column. -/
def cells (t : Table) : Except MarkupFlaw (List (List (List Char))) := do
  let columns ← (List.range t.columns).mapM fun i =>
    t.rows.mapM fun cells => cellText (cells.getD i "")
  return (List.range t.rows.length).map fun j => columns.map (·.getD j [])

/-- The lines that show a table, unless the markup in a cell has a flaw. A table without columns is
an empty line. -/
def lines (t : Table) : Except MarkupFlaw (List String) := do
  if t.columns = 0 then return [""]
  let headings := t.headings.map String.toList
  let rows ← t.cells
  let ms := margins (!t.headings.isEmpty) t.columns
  let widths := widths ms (if t.headings.isEmpty then rows else headings :: rows)
  let body := rows.flatMap (rowLines '│' widths ms)
  let bottom := (Rule.mk '└' '─' '┴' '┘').line widths
  let top :=
    if t.headings.isEmpty then [(Rule.mk '┌' '─' '┬' '┐').line widths]
    else (Rule.mk '┏' '━' '┳' '┓').line widths :: rowLines '┃' widths ms headings ++
      [(Rule.mk '┡' '━' '╇' '┩').line widths]
  -- every column has a stroke behind it, and the first one also in front
  return centred (widths.foldl (fun n w => n + w + 1) 1) t.title ++ top ++ body ++ [bottom]

end Table

end Kindred.Cli
