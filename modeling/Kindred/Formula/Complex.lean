import Kindred.Number.Basic
import Kindred.Formula.Error

/-!
# Powers and complex numbers

A negative number with a fractional exponent has a complex power. Complex numbers cannot be the
value of a formula, but their magnitude can.

- `Complex`: a complex number, and its arithmetic.
- `realPower`: the power of two doubles, complex where it has to be.
-/

namespace Kindred.Formula

open Kindred.Number

/-- A complex number. -/
structure Complex where
  re : Float
  im : Float
deriving Repr

namespace Complex

/-- The complex number on the real line. -/
def ofReal (x : Float) : Complex := ⟨x, 0⟩

/-- The sum, part by part. -/
def add (a b : Complex) : Complex := ⟨a.re + b.re, a.im + b.im⟩

/-- The difference, part by part. -/
def sub (a b : Complex) : Complex := ⟨a.re - b.re, a.im - b.im⟩

/-- The product. -/
def mul (a b : Complex) : Complex := ⟨a.re * b.re - a.im * b.im, a.re * b.im + a.im * b.re⟩

/-- The opposite number. -/
def neg (a : Complex) : Complex := ⟨-a.re, -a.im⟩

/-- The quotient, scaled by the larger part of the divisor. -/
def div (a b : Complex) : Except EvalError Complex :=
  if b.im.abs ≤ b.re.abs then
    if b.re.abs == 0 then .error .complexDivisionByZero
    else
      let ratio := b.im / b.re
      let scale := b.re + b.im * ratio
      .ok ⟨(a.re + a.im * ratio) / scale, (a.im - a.re * ratio) / scale⟩
  else if b.re.abs ≤ b.im.abs then
    let ratio := b.re / b.im
    let scale := b.re * ratio + b.im
    .ok ⟨(a.re * ratio + a.im) / scale, (a.im * ratio - a.re) / scale⟩
  else .ok ⟨0.0 / 0.0, 0.0 / 0.0⟩

/-- The root of the sum of the squares of `x` and `y`, for `0 ≤ y ≤ x`: the root of the rounded sum,
and one step from there towards the exact one. -/
def steppedRoot (x y : Float) : Float :=
  let h := (x * x + y * y).sqrt
  let (s, t) :=
    if h ≤ 2 * y then
      let d := h - y
      (x * (2 * d - x), (d - 2 * (x - y)) * d)
    else
      let d := h - x
      (2 * d * (x - 2 * y), (4 * d - y) * y + d * d)
  h - (s + t) / (2 * h)

/-- The power of two with an exponent from -1022 to 1023. -/
def powerOfTwo (e : Int) : Float := assemble false (Nat.pow 2 52) (e - 52)

/-- The longest side of a right-angled triangle with the given other sides. Sides so large or small
that their squares are not doubles are scaled, and a side that is lost beside the other is added to
it. -/
def hypotenuse (a b : Float) : Float :=
  if a.isInf || b.isInf then infinity false
  else if a.isNaN || b.isNaN then a + b
  else
    let (x, y) := if a.abs < b.abs then (b.abs, a.abs) else (a.abs, b.abs)
    if y ≤ x * powerOfTwo (-54) then x + y
    else if x > powerOfTwo 511 then
      steppedRoot (x * powerOfTwo (-600)) (y * powerOfTwo (-600)) * powerOfTwo 600
    else if y < powerOfTwo (-459) then
      steppedRoot (x * powerOfTwo 600) (y * powerOfTwo 600) * powerOfTwo (-600)
    else steppedRoot x y

/-- The distance from zero. -/
def abs (a : Complex) : Float := hypotenuse a.re a.im

/-- The distance from zero, unless it is too large for a double. -/
def magnitude (a : Complex) : Except EvalError Float :=
  if a.abs.isInf && Number.isFinite a.re && Number.isFinite a.im then .error .magnitudeTooLarge
  else .ok a.abs

/-- The power with a small natural exponent, by repeated squaring of the lowest bits first. -/
def powNat (fuel : Nat) (result base : Complex) (n : Nat) : Complex :=
  match fuel with
  | 0 => result
  | fuel + 1 =>
    let result := if n % 2 == 1 then result.mul base else result
    if n < 2 then result else powNat fuel result (base.mul base) (n / 2)

/-- The power by polar coordinates. -/
def powPolar (a b : Complex) : Complex :=
  let size := abs a
  let angle := Float.atan2 a.im a.re
  let length := Float.pow size b.re
  let phase := angle * b.re
  if b.im == 0 then ⟨length * phase.cos, length * phase.sin⟩
  else
    let length := length * Float.exp (-angle * b.im)
    let phase := phase + b.im * size.log
    ⟨length * phase.cos, length * phase.sin⟩

/-- The power of two complex numbers. Small whole exponents are multiplied out. -/
def pow (a b : Complex) : Except EvalError Complex :=
  let whole := b.im == 0 && b.re == b.re.floor && b.re.abs ≤ 100
  let zeroBase := a.re == 0 && a.im == 0
  let result : Except EvalError Complex :=
    if whole then
      let n := b.re.abs.toUInt64.toNat
      let power := powNat 10 (ofReal 1) a n
      if b.re > 0 || n == 0 then .ok power
      else match (ofReal 1).div power with
        | .ok c => .ok c
        | .error _ => .error .complexZeroPower
    else if zeroBase then
      if b.im != 0 || b.re < 0 then .error .complexZeroPower else .ok (ofReal 0)
    else .ok (powPolar a b)
  match result with
  | .ok c => if c.re.isInf || c.im.isInf then .error .complexPowerTooLarge else .ok c
  | .error why => .error why

end Complex

/-! ### Powers of doubles -/

/-- Whether a double is an odd integer. -/
def isOdd (x : Float) : Bool :=
  (Binary.ofFloat? x).any fun b => b.isInteger && b.floor % 2 == 1

/-- The magnitude of a power whose base or exponent is infinite, or whose exponent is zero. -/
def infinitePower (x y : Float) : Float :=
  if y.isInf then
    let size := x.abs
    if size == 1 then 1 else if (y > 0) == (size > 1) then y.abs else 0
  else if y > 0 then if isOdd y then x else x.abs
  else if isOdd y && x < 0 then -0.0 else 0

/-- The power of two doubles. Zero has no negative power, and a negative base with a fractional
exponent has a complex one. -/
def realPower (x y : Float) : Except EvalError (Float ⊕ Complex) :=
  if y == 0 then .ok (.inl 1)
  else if x.isNaN then .ok (.inl x)
  else if y.isNaN then .ok (.inl (if x == 1 then 1 else y))
  else if x.isInf || y.isInf then .ok (.inl (infinitePower x y))
  else if x == 0 then
    if y < 0 then .error .zeroToNegative else .ok (.inl (if isOdd y then x else 0))
  else if x < 0 && y != y.floor then
    match (Complex.ofReal x).pow (Complex.ofReal y) with
    | .ok c => .ok (.inr c)
    | .error why => .error why
  else
    let size := if x.abs == 1 then 1 else Float.pow x.abs y
    if size.isInf then .error .powerTooLarge
    else .ok (.inl (if x < 0 && isOdd y then -size else size))

/-- The power of two doubles that has to be a double itself. -/
def strictPower (x y : Float) : Except EvalError Float :=
  if y == 0 then .ok 1
  else if x.isNaN then .ok x
  else if y.isNaN then .ok (if x == 1 then 1 else y)
  else if x.isInf || y.isInf then .ok (infinitePower x y)
  else
    let r := Float.pow x y
    if r.isNaN then .error .outsideDomain
    else if r.isInf then .error (if x == 0 then .outsideDomain else .outsideRange)
    else .ok r

end Kindred.Formula
