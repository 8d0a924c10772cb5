/-!
# Blank characters

Which characters separate words, and how blanks are cut from the ends of a text.

- `isBlank`: the space, the control characters that separate lines and records, and the Unicode
  separators.
- `trim`: a text without the blanks at its two ends.
- `isBlankText`: a text that holds nothing but blanks.
-/

namespace Kindred.Text

/-- The characters that count as white space. -/
def isBlank (c : Char) : Bool :=
  let n := c.toNat
  (9 ≤ n && n ≤ 13) || (28 ≤ n && n ≤ 32) || n == 0x85 || n == 0xA0 || n == 0x1680 ||
  (0x2000 ≤ n && n ≤ 0x200A) || n == 0x2028 || n == 0x2029 || n == 0x202F || n == 0x205F ||
  n == 0x3000

/-- Drops the blanks in front. -/
def dropBlanks (s : List Char) : List Char := s.dropWhile isBlank

/-- Drops the blanks at the end. -/
def dropBlanksRight (s : List Char) : List Char := (dropBlanks s.reverse).reverse

/-- A text without the blanks at its two ends. -/
def trim (s : List Char) : List Char := dropBlanksRight (dropBlanks s)

/-- Holds of a text made of blanks only, the empty text included. -/
def isBlankText (s : List Char) : Bool := s.all isBlank

/-- The text of a string without the blanks at its two ends. -/
def trimmed (s : String) : String := String.ofList (trim s.toList)

/-- Whether a string is made of blanks only. -/
def isBlankString (s : String) : Bool := isBlankText s.toList

end Kindred.Text
