import Kindred.Number.Shortest

/-!
# Numbers

The numbers of formulas and records: integers of any size and doubles, kept apart.

- `Number`: an integer or a double.
- `Number.compare?`: the exact order; nothing where one side is not a number.
- `Number.text`: the number as messages show it.
- `Number.toFloat?`: the nearest double, where there is a finite one for an integer.
-/

namespace Kindred

open Kindred.Text Kindred.Number

/-- An integer or a double. -/
inductive Number where
  | int (n : Int)
  | float (x : Float)
deriving Repr, Inhabited

namespace Number

instance : OfNat Number n := ⟨.int n⟩

/-- The double nearest to an integer; nothing where that is infinite. -/
def finiteOfInt? (n : Int) : Option Float :=
  let x := ofInt n
  if isFinite x then some x else none

/-- The number as a double; nothing for an integer too large for one. -/
def toFloat? : Number → Option Float
  | .int n => finiteOfInt? n
  | .float x => some x

/-- The number as a double; an integer too large for one becomes infinite. -/
def toFloat : Number → Float
  | .int n => ofInt n
  | .float x => x

/-- The number in decimal, as messages show it. -/
def text : Number → String
  | .int n => String.ofList (intText n)
  | .float x => valueLayout.text x

/-- The order of a double against an integer, both taken exactly. -/
def compareFloatInt? (x : Float) (n : Int) : Option Ordering :=
  match Binary.ofFloat? x with
  | some b => some (b.compareInt n)
  | none => if x.isNaN then none else if x < 0 then some .lt else some .gt

/-- The exact order of two numbers; nothing where one side is not a number. -/
def compare? : Number → Number → Option Ordering
  | .int a, .int b => some (compare a b)
  | .int a, .float y => (compareFloatInt? y a).map Ordering.swap
  | .float x, .int b => compareFloatInt? x b
  | .float x, .float y =>
    if x.isNaN || y.isNaN then none
    else if x < y then some .lt else if y < x then some .gt else some .eq

/-- Whether one number is at most another. -/
def le (a b : Number) : Bool := (compare? a b).any (·.isLE)

/-- Whether one number is below another. -/
def lt (a b : Number) : Bool := compare? a b == some .lt

/-- Among integers the order is the usual one. -/
@[simp] theorem le_int (a b : Int) : le (.int a) (.int b) = decide (a ≤ b) := by
  simp only [le, compare?, Option.any_some]
  rcases Int.lt_trichotomy a b with h | h | h
  · have : compare a b = .lt := by simp [compare, compareOfLessAndEq, h]
    simp [this, Int.le_of_lt h]
  · subst h
    simp [compare, compareOfLessAndEq]
  · have : compare a b = .gt := by
      simp [compare, compareOfLessAndEq, Int.not_lt.2 (Int.le_of_lt h), Int.ne_of_gt h]
    simp [this, h]

end Number

end Kindred
