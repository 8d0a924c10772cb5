import Kindred.Text.Printable

/-!
# Quoted texts

How a message shows a text: between quotes, with what cannot be shown written as an escape.

- `quoteOf`: single quotes, unless the text has a single quote and no double quote.
- `quoted`: the text between its quotes.
- `quotedBytes`: bytes in the same way.
-/

namespace Kindred.Text

/-- The last `width` hexadecimal digits of a number, in small letters. -/
def hexDigits : Nat → Nat → List Char
  | 0, _ => []
  | width + 1, n => hexDigits width (n / 16) ++ [(n % 16).digitChar]

/-- `hexDigits` gives exactly as many digits as it was asked for. -/
@[simp] theorem length_hexDigits (width n : Nat) : (hexDigits width n).length = width := by
  induction width generalizing n with
  | zero => rfl
  | succ k ih => simp [hexDigits, ih]

/-- The quote that goes around a text. -/
def quoteOf (s : List Char) : Char :=
  if s.contains '\'' && !s.contains '"' then '"' else '\''

/-- One character of a quoted text. -/
def quotedChar (quote c : Char) : List Char :=
  if c == quote || c == '\\' then ['\\', c]
  else if c == '\t' then ['\\', 't']
  else if c == '\n' then ['\\', 'n']
  else if c == '\r' then ['\\', 'r']
  else if isPrintable c then [c]
  else if c.toNat < 0x100 then '\\' :: 'x' :: hexDigits 2 c.toNat
  else if c.toNat < 0x10000 then '\\' :: 'u' :: hexDigits 4 c.toNat
  else '\\' :: 'U' :: hexDigits 8 c.toNat

/-- A text between quotes, as messages show it. -/
def quoted (s : List Char) : List Char :=
  let quote := quoteOf s
  quote :: s.flatMap (quotedChar quote) ++ [quote]

/-- One byte between quotes: a character of ASCII, or an escape. -/
def quotedByte (quote : Char) (b : UInt8) : List Char :=
  if b.toNat < 127 then quotedChar quote (Char.ofNat b.toNat)
  else '\\' :: 'x' :: hexDigits 2 b.toNat

/-- Bytes between quotes, as messages show them. -/
def quotedBytes (bs : List UInt8) : List Char :=
  let quote := quoteOf (bs.map fun b => Char.ofNat b.toNat)
  'b' :: quote :: bs.flatMap (quotedByte quote) ++ [quote]

/-- The quoted form of a string. -/
def quotedString (s : String) : String := String.ofList (quoted s.toList)

end Kindred.Text
