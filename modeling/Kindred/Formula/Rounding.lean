import Kindred.Fault

/-!
# Rounding

From the number that a formula yields to an integer.

- `Number.floorInt`, `Number.ceilInt`: the integers next to a number.
- `roundHalfUp`: the nearest integer, halves upwards, computed on doubles.
- `clampAge`: an age, which is not negative.
- `floorNonNegative`: a count, which is not negative.
-/

namespace Kindred

open Kindred.Number

/-- An integer next to a double. -/
def floatToInt (round : Binary → Int) (x : Float) : Except Fault Int :=
  match Binary.ofFloat? x with
  | some b => .ok (round b)
  | none => .error (if x.isNaN then .undefined else .infinite)

/-- The greatest integer that is not above a number. -/
def Number.floorInt : Number → Except Fault Int
  | .int n => .ok n
  | .float x => floatToInt Binary.floor x

/-- The least integer that is not below a number. -/
def Number.ceilInt : Number → Except Fault Int
  | .int n => .ok n
  | .float x => floatToInt Binary.ceil x

/-- The integer nearest to a number, halves upwards: one half is added as a double. -/
def roundHalfUp (n : Number) : Except Fault Int :=
  match n.toFloat? with
  | some x => floatToInt Binary.floor (x + 0.5)
  | none => .error .tooLarge

/-- The age that a number stands for. -/
def clampAge (n : Number) : Except Fault Int := (roundHalfUp n).map (max 0)

/-- The count that a number stands for. -/
def floorNonNegative (n : Number) : Except Fault Nat := n.floorInt.map Int.toNat

/-- The count of an integer is the integer, or zero. -/
@[simp] theorem floorNonNegative_int (n : Int) : floorNonNegative (.int n) = .ok n.toNat := rfl

end Kindred
