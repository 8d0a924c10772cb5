import Kindred.Number.Shortest

/-!
# Fixed decimals

A double with a given number of digits after the point, rounded from its exact value; a tie goes to
the even digit.

- `fixedText`: the text with all its digits.
- `dropTrailingZeros`: the text without the zeros that say nothing.
-/

namespace Kindred.Number

open Kindred.Text

/-- The text of a double with `places` digits after the point. -/
def fixedText (places : Nat) (x : Float) : List Char :=
  match Binary.ofFloat? x with
  | some b =>
    let (num, den) := b.ratio
    let scaled := roundDivEven (num * Nat.pow 10 places) den
    let whole := natText (scaled / Nat.pow 10 places)
    let part := padLeft places (natText (scaled % Nat.pow 10 places))
    (if b.negative then ['-'] else []) ++ whole ++ '.' :: part
  | none => (valueLayout.text x).toList

/-- Drops a run of one character at the end. -/
def dropRight (c : Char) (s : List Char) : List Char := (s.reverse.dropWhile (· == c)).reverse

/-- Drops the zeros at the end, and then a point that is left at the end. -/
def dropTrailingZeros (s : List Char) : List Char := dropRight '.' (dropRight '0' s)

end Kindred.Number
