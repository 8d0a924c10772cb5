/-!
# Decimal digits

The decimal digits of every script. They come in runs of ten, so a run is given by its zero and the
value of a digit is its distance from that zero.

- `digitValue?`: the value of a decimal digit.
- `digitsValue`: the number that a row of digits writes.
- `spanDigits`: the row of digits at the front of a text.
- `longestNumeral`: how many digits an integer may have where it is read or written.
- `Short`: whether an integer has no more.
-/

namespace Kindred.Text

/-- The zeros of the decimal digit runs outside ASCII, in increasing order. -/
def digitZeros : List Nat :=
  [0x660, 0x6F0, 0x7C0, 0x966, 0x9E6, 0xA66, 0xAE6, 0xB66, 0xBE6, 0xC66, 0xCE6, 0xD66, 0xDE6,
   0xE50, 0xED0, 0xF20, 0x1040, 0x1090, 0x17E0, 0x1810, 0x1946, 0x19D0, 0x1A80, 0x1A90, 0x1B50,
   0x1BB0, 0x1C40, 0x1C50, 0xA620, 0xA8D0, 0xA900, 0xA9D0, 0xA9F0, 0xAA50, 0xABF0, 0xFF10,
   0x104A0, 0x10D30, 0x11066, 0x110F0, 0x11136, 0x111D0, 0x112F0, 0x11450, 0x114D0, 0x11650,
   0x116C0, 0x11730, 0x118E0, 0x11950, 0x11C50, 0x11D50, 0x11DA0, 0x16A60, 0x16AC0, 0x16B50,
   0x1D7CE, 0x1D7D8, 0x1D7E2, 0x1D7EC, 0x1D7F6, 0x1E140, 0x1E2F0, 0x1E950, 0x1FBF0]

/-- The value of a decimal digit of any script. -/
def digitValue? (c : Char) : Option Nat :=
  if c.isDigit then some (c.toNat - 48)
  else if c.toNat < 128 then none
  else (digitZeros.find? fun z => z ≤ c.toNat && c.toNat < z + 10).map (c.toNat - ·)

/-- Whether a character is a decimal digit of any script. -/
def isDecimal (c : Char) : Bool := (digitValue? c).isSome

/-- Every ASCII digit is a decimal digit. -/
theorem isDecimal_of_isDigit {c : Char} (h : c.isDigit = true) : isDecimal c = true := by
  simp [isDecimal, digitValue?, h]

/-- The number that a row of digits writes; characters that are no digits count as zero. -/
def digitsValue (ds : List Char) : Nat :=
  ds.foldl (fun n c => 10 * n + (digitValue? c).getD 0) 0

/-- The digits at the front of a text, and the rest. -/
def spanDigits (s : List Char) : List Char × List Char := s.span isDecimal

/-- The ASCII digits at the front of a text, and the rest. -/
def spanAsciiDigits (s : List Char) : List Char × List Char := s.span Char.isDigit

/-- A natural number in decimal. -/
def natText (n : Nat) : List Char := Nat.toDigits 10 n

/-- An integer in decimal, with a minus sign in front of a negative one. -/
def intText : Int → List Char
  | .ofNat n => natText n
  | .negSucc n => '-' :: natText (n + 1)

/-- The greatest number of digits of an integer that is read or written. -/
def longestNumeral : Nat := 4300

/-- Whether an integer has few enough digits to be read and to be written. -/
def Short (n : Int) : Prop := (natText n.natAbs).length ≤ longestNumeral

instance (n : Int) : Decidable (Short n) := inferInstanceAs (Decidable (_ ≤ _))

/-- A row of at least one digit and nothing else. -/
def isDigits (s : List Char) : Bool := !s.isEmpty && s.all isDecimal

end Kindred.Text
