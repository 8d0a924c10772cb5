import Kindred.Fault
import Kindred.Text.Digit

/-!
# Numerals of limited length

Rows of digits that are read by themselves, outside of expressions: numbers of dice, bounds of
ranges, sizes of litters. Such a numeral has at most 4300 digits, and so has every integer that is
written into a formula or into a message.

- `readNumeral`: the number that a row of digits writes.
- `writeNumeral`: the text of an integer.
-/

namespace Kindred

open Kindred.Text

/-- The number that a row of digits writes, if the row is not too long. -/
def readNumeral (ds : List Char) : Except Fault Nat :=
  if longestNumeral < ds.length then .error (.numeralTooLong ds.length) else .ok (digitsValue ds)

/-- A numeral that is not too long is read. -/
theorem readNumeral_of_length_le {ds : List Char} (h : ds.length ≤ longestNumeral) :
    readNumeral ds = .ok (digitsValue ds) := by
  simp [readNumeral, Nat.not_lt.2 h]

/-- The text of an integer, if it is not too long. -/
def writeNumeral (n : Int) : Except Fault String :=
  if Short n then .ok (Number.int n).text else .error .integerTooLong

/-- An integer that is not too long is written. -/
theorem writeNumeral_of_short {n : Int} (h : Short n) :
    writeNumeral n = .ok (Number.int n).text := if_pos h

/-- What is written is not too long. -/
theorem short_of_writeNumeral {n : Int} {s : String} (h : writeNumeral n = .ok s) :
    Short n := by
  unfold writeNumeral at h
  split at h
  · assumption
  · cases h

end Kindred
