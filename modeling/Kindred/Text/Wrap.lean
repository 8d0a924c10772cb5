import Kindred.Text.Blank
import Kindred.Text.Width

/-!
# Lines of a given width

How a text is broken into lines that fit on a terminal: between words, or inside a word that is
wider than a line.

- `LongWord`: what happens to a word that is wider than a line.
- `wrap`: the lines of a text.
- `fit`: a line cut or filled up to a width.
-/

namespace Kindred.Text

/-- The characters that fit into some columns. -/
def takeColumns : Nat → List Char → List Char
  | _, [] => []
  | columns, c :: s =>
    if charWidth c ≤ columns then c :: takeColumns (columns - charWidth c) s else []

/-- A text filled up with blanks to a width. -/
def padRight (columns : Nat) (s : List Char) : List Char :=
  s ++ List.replicate (columns - width s) ' '

/-- A text cut or filled up to a width. -/
def fit (columns : Nat) (s : List Char) : List Char :=
  if width s ≤ columns then padRight columns s else padRight columns (takeColumns columns s)

/-- A text without its tabs: blanks up to the next column that is a multiple of eight stand for
each. `column` is where the text starts. -/
def expandTabs (column : Nat) : List Char → List Char
  | [] => []
  | '\t' :: s =>
    List.replicate (8 - column % 8) ' ' ++ expandTabs (column + (8 - column % 8)) s
  | c :: s => c :: expandTabs (column + charWidth c) s

/-! ### Words -/

/-- The words of a text, each with the blanks behind it. The first one also has the blanks in front
of it. -/
def words (s : List Char) : List (List Char) :=
  match s.splitBy fun a b => isBlank b || !isBlank a with
  | lead :: word :: more =>
    if isBlankText lead then (lead ++ word) :: more else lead :: word :: more
  | parts => parts

/-! ### Lines -/

/-- What happens to a word that is wider than a line. -/
inductive LongWord where
  /-- It goes on in the next line. -/
  | fold
  /-- Its end is left out, and dots tell so. -/
  | cut
deriving DecidableEq, Repr

/-- The parts of a text that fit into a width each, when `used` columns of it are taken. -/
def chop (columns : Nat) : Nat → List Char → List (List Char)
  | _, [] => [[]]
  | used, c :: s =>
    if columns < used + charWidth c then
      match chop columns (charWidth c) s with
      | part :: more => [] :: (c :: part) :: more
      | [] => [[], [c]]
    else
      match chop columns (used + charWidth c) s with
      | part :: more => (c :: part) :: more
      | [] => [[c]]

/-- The parts of a word that is wider than a line. -/
def LongWord.parts (columns : Nat) (word : List Char) : LongWord → List (List Char)
  | fold => chop columns 0 word
  | cut => [word]

/-- Lines of words. A word goes on a line if it fits there without the blanks behind it. `line` is
what the first line holds so far, and `used` are the columns that it takes. -/
def fill (columns : Nat) (long : LongWord) (line : List Char) (used : Nat) :
    List (List Char) → List (List Char)
  | [] => [line]
  | word :: more =>
    let bare := width (dropBlanksRight word)
    if used + bare ≤ columns then fill columns long (line ++ word) (used + width word) more
    else if columns < bare then
      let parts := long.parts columns word
      let last := parts.getLastD []
      (if line.isEmpty then [] else [line]) ++ parts.dropLast ++
        fill columns long last (width last) more
    else if line.isEmpty || used == 0 then fill columns long (line ++ word) used more
    else line :: fill columns long word (width word) more

/-- A line without those blanks at its end that make it too long. -/
def cropBlanks (columns : Nat) (s : List Char) : List Char :=
  let blanks := s.length - (dropBlanksRight s).length
  s.take (s.length - min blanks (s.length - columns))

/-- A line that is cut if it is too wide. -/
def LongWord.limit (columns : Nat) (s : List Char) (long : LongWord) : List Char :=
  if width s ≤ columns then s
  else match long with
    | fold => fit columns s
    | cut => fit (columns - 1) s ++ ['…']

/-- The lines of a text. -/
def wrap (columns : Nat) (long : LongWord) (s : List Char) : List (List Char) :=
  (s.splitOn '\n').flatMap fun line =>
    (fill columns long [] 0 (words (expandTabs 0 line))).map fun line =>
      long.limit columns (cropBlanks columns line)

end Kindred.Text
