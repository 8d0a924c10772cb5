import Kindred.Number.Decimal

/-!
# Shortest decimal text of a double

A double is written with the fewest digits that read back as the same double, and with the nearest
such digits. How these digits are laid out depends on the format.

- `shortest`: the digits and the place of the point.
- `Layout`, `Layout.text`: from digits to text.
- `valueLayout`, `recordLayout`: the two formats in use.
-/

namespace Kindred.Number

open Kindred.Text

/-- The power of ten just above `num / den`: `10 ^ (p - 1) ≤ num / den < 10 ^ p`, for a quotient
that is not zero. -/
def pointPlace (num den : Nat) : Int :=
  let g : Int := (digitCount num : Int) - digitCount den
  let reached : Bool := match g with
    | .ofNat e => den * Nat.pow 10 e ≤ num
    | .negSucc e => den ≤ num * Nat.pow 10 (e + 1)
  if reached then g + 1 else g

/-- The quotient `num / den` counted in units of `10 ^ unit`, again as a quotient. -/
def inUnits (num den : Nat) (unit : Int) : Nat × Nat :=
  match unit with
  | .ofNat e => (num, den * Nat.pow 10 e)
  | .negSucc e => (num * Nat.pow 10 (e + 1), den)

/-- Of the two neighbours of `num / den` on the grid of `10 ^ unit`, the nearer one that reads back
as `x`, if any does. Of two that are equally near the even one counts as the nearer. -/
def onGrid? (x : Float) (num den : Nat) (unit : Int) : Option Nat :=
  let (n, d) := inUnits num den unit
  let low := n / d
  let near := roundDivEven n d
  let far := if near = low then low + 1 else low
  [near, far].find? fun k => (Decimal.toFloat ⟨false, k, unit⟩).toBits == x.toBits

/-- Drops trailing zeros, at most `fuel` of them. -/
def dropZeros : Nat → Nat → Int → Nat × Int
  | 0, n, e => (n, e)
  | fuel + 1, n, e => if n % 10 == 0 && n != 0 then dropZeros fuel (n / 10) (e + 1) else (n, e)

/-- The first digit count from `n` up, at most `fuel` of them, whose grid has a numeral that reads
back as `x`. -/
def searchGrid (x : Float) (num den : Nat) (place : Int) : Nat → Nat → Nat × Int
  | 0, _ => (num / den, 0)
  | fuel + 1, n =>
    match onGrid? x num den (place - n) with
    | some k => dropZeros 20 k (place - n)
    | none => searchGrid x num den place fuel (n + 1)

/-- The fewest digits that read back as the magnitude of a finite double, with the power of ten that
the last one counts. Seventeen digits always do. -/
def shortest (b : Binary) : Nat × Int :=
  if b.mantissa = 0 then (0, 0)
  else
    let (num, den) := b.ratio
    searchGrid (ofRatio false num den) num den (pointPlace num den) 17 1

/-- How a format lays out the digits of a number. -/
structure Layout where
  /-- The least power of ten of a first digit that is written without an exponent. -/
  plainFrom : Int
  /-- The first power of ten of a first digit that is written with an exponent again. -/
  plainTo : Int
  /-- The least number of digits of an exponent. -/
  exponentDigits : Nat
  /-- The name of infinity. -/
  infinity : String
  /-- The name of infinity below zero. -/
  negativeInfinity : String
  /-- The name of what is not a number. -/
  undefined : String

/-- Values in messages and formulas: plain from four zeros after the point up to 10 ^ 16. -/
def valueLayout : Layout := ⟨-4, 16, 2, "inf", "-inf", "nan"⟩

/-- Numbers in saved records: plain from one zero more after the point, exponents of one digit, and
null for everything that is not finite. -/
def recordLayout : Layout := ⟨-5, 16, 1, "null", "null", "null"⟩

/-- Fills up with zeros in front. -/
def padLeft (width : Nat) (s : List Char) : List Char :=
  List.replicate (width - s.length) '0' ++ s

/-- The exponent of a number, with its mark and its sign. -/
def Layout.exponentText (l : Layout) (e : Int) : List Char :=
  let sign := if e < 0 then '-' else '+'
  'e' :: sign :: padLeft l.exponentDigits (natText e.natAbs)

/-- The text of `digits · 10 ^ exponent`. There is always a digit on either side of the point. -/
def Layout.magnitudeText (l : Layout) (digits : Nat) (exponent : Int) : List Char :=
  let ds := natText digits
  let first := (ds.length : Int) - 1 + exponent
  if digits = 0 then ['0', '.', '0']
  else if l.plainFrom ≤ first && first < l.plainTo then
    if exponent ≥ 0 then ds ++ List.replicate exponent.toNat '0' ++ ['.', '0']
    else if first ≥ 0 then
      let (whole, part) := ds.splitAt (first.toNat + 1)
      whole ++ '.' :: part
    else '0' :: '.' :: List.replicate ((-first).toNat - 1) '0' ++ ds
  else
    let mantissa := match ds with
      | d :: e :: rest => d :: '.' :: e :: rest
      | ds => ds
    mantissa ++ l.exponentText first

/-- The text of a double in a format. -/
def Layout.text (l : Layout) (x : Float) : String :=
  match Binary.ofFloat? x with
  | some b =>
    let (digits, exponent) := shortest b
    let magnitude := l.magnitudeText digits exponent
    String.ofList (if b.negative then '-' :: magnitude else magnitude)
  | none =>
    if x.isNaN then l.undefined
    else if x < 0 then l.negativeInfinity else l.infinity

end Kindred.Number
