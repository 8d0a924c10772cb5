/-!
# Characters by number

Characters that are written by their number in hexadecimal digits, or by their bytes. Some formats
write a character of a great number as two halves.

- `hexNumber?`: the number that hexadecimal digits write.
- `isFirstHalf`, `isSecondHalf`, `ofHalves`: halves of characters.
- `ofCodePoint`: the character with a number.
- `textOfBytes?`: the text that bytes hold.
-/

namespace Kindred.Text

/-- The value of a hexadecimal digit. -/
def hexValue? (c : Char) : Option Nat :=
  if c.isDigit then some (c.toNat - 48)
  else if 'a' ≤ c && c ≤ 'f' then some (c.toNat - 87)
  else if 'A' ≤ c && c ≤ 'F' then some (c.toNat - 55)
  else none

/-- The number that hexadecimal digits write. -/
def hexNumber? (ds : List Char) : Option Nat :=
  ds.foldl (fun n c => do return 16 * (← n) + (← hexValue? c)) (some 0)

/-- Whether a code point is the first half of a character that takes two. -/
def isFirstHalf (n : Nat) : Bool := 0xD800 ≤ n && n < 0xDC00

/-- Whether a code point is the second half of a character that takes two. -/
def isSecondHalf (n : Nat) : Bool := 0xDC00 ≤ n && n < 0xE000

/-- The character that two halves make up. -/
def ofHalves (first second : Nat) : Char :=
  Char.ofNat (0x10000 + (first - 0xD800) * 0x400 + (second - 0xDC00))

/-- The character that stands for what is none. -/
def replacement : Char := '\uFFFD'

/-- The character with a number; the replacement character for a half that stands alone. -/
def ofCodePoint (n : Nat) : Char :=
  if isFirstHalf n || isSecondHalf n then replacement else Char.ofNat n

/-- The text that bytes hold, if they hold one. -/
def textOfBytes? (bs : List UInt8) : Option String := String.fromUTF8? ⟨bs.toArray⟩

end Kindred.Text
