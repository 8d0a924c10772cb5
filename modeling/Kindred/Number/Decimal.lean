import Kindred.Number.Binary
import Kindred.Text.Digit

/-!
# Decimal numerals

Numerals with an optional point and an optional power of ten, and the double nearest to one.

- `Decimal`: a sign, the digits as one number and the power of ten that the last digit counts.
- `Decimal.toFloat`: the nearest double; what is too large is infinite.
- `Decimal.ofText?`: reads a numeral that takes up the whole text.
- `floatOfText?`: reads a numeral or one of the names of the doubles that are not finite.
-/

namespace Kindred.Number

open Kindred.Text

/-- The number `± digits · 10 ^ exponent`. -/
structure Decimal where
  /-- Whether a minus sign was written. -/
  negative : Bool
  /-- All digits, read as one number. -/
  digits : Nat
  /-- The power of ten that the last digit counts. -/
  exponent : Int
deriving DecidableEq, Repr

/-- How many decimal digits a number has; none for zero. -/
def digitCount (n : Nat) : Nat := if n = 0 then 0 else (natText n).length

/-- The nearest double. Beyond these powers of ten every double is infinite or zero, so the powers
themselves are computed only in between. -/
def Decimal.toFloat (d : Decimal) : Float :=
  let top := (digitCount d.digits : Int) + d.exponent
  if d.digits = 0 || top < -330 then assemble d.negative 0 0
  else if top > 310 then infinity d.negative
  else match d.exponent with
    | .ofNat e => ofRatio d.negative (d.digits * Nat.pow 10 e) 1
    | .negSucc e => ofRatio d.negative d.digits (Nat.pow 10 (e + 1))

/-- A sign at the front of a text, and the rest. -/
def spanSign : List Char → Bool × List Char
  | '-' :: s => (true, s)
  | '+' :: s => (false, s)
  | s => (false, s)

/-- The power of ten after a mantissa: nothing, or `e`, an optional sign and digits. -/
def readPower? : List Char → Option Int
  | [] => some 0
  | c :: s =>
    if c == 'e' || c == 'E' then
      let (negative, ds) := spanSign s
      if isDigits ds then
        let n : Int := digitsValue ds
        some (if negative then -n else n)
      else none
    else none

/-- Reads a numeral: a sign, digits with at most one point among them and at least one digit, and a
power of ten. -/
def Decimal.ofText? (s : List Char) : Option Decimal :=
  let (negative, s) := spanSign s
  let (whole, s) := spanDigits s
  let (part, s) := match s with
    | '.' :: s => spanDigits s
    | s => ([], s)
  if whole.isEmpty && part.isEmpty then none
  else (readPower? s).map fun power =>
    ⟨negative, digitsValue (whole ++ part), power - part.length⟩

/-- The two infinities and the value that is not a number, by name. -/
def namedFloat? (s : List Char) : Option Float :=
  let (negative, s) := spanSign s
  let name := String.ofList (s.map Char.toLower)
  if name == "inf" || name == "infinity" then some (infinity negative)
  else if name == "nan" then some (Float.ofBits 0x7FF8000000000000)
  else none

/-- Reads a double from a numeral or a name. -/
def floatOfText? (s : List Char) : Option Float :=
  ((Decimal.ofText? s).map Decimal.toFloat).or (namedFloat? s)

end Kindred.Number
