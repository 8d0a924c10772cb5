/-!
# Binary floating point, exactly

A finite double is a sign, a mantissa and a power of two. The functions here take a double apart,
compute on the parts with exact integers, and put the nearest double together again.

- `Binary`, `Binary.ofFloat?`: the parts of a finite double.
- `Binary.floor`, `Binary.ceil`, `Binary.roundEven`: to an integer.
- `Binary.compareInt`: the order between a double and an integer.
- `ofRatio`: the double nearest to a quotient, a tie going to the even mantissa.
-/

namespace Kindred.Number

/-! ### Quotients rounded to integers -/

/-- The integer nearest to `num / den`, a tie going to the even one. -/
def roundDivEven (num den : Nat) : Nat :=
  let q := num / den
  let r := num % den
  if 2 * r < den then q
  else if den < 2 * r then q + 1
  else if q % 2 = 0 then q else q + 1

/-- The rounded quotient is the floor or the number after it. -/
theorem roundDivEven_eq_or (num den : Nat) :
    roundDivEven num den = num / den ∨ roundDivEven num den = num / den + 1 := by
  unfold roundDivEven
  simp only
  split
  · exact Or.inl rfl
  · split
    · exact Or.inr rfl
    · split
      · exact Or.inl rfl
      · exact Or.inr rfl

/-- Rounding leaves a quotient without remainder as it is. -/
theorem roundDivEven_mul (q den : Nat) (h : 0 < den) : roundDivEven (q * den) den = q := by
  simp [roundDivEven, Nat.mul_mod_left, Nat.mul_div_cancel q h, h]

/-! ### Taking a double apart -/

/-- The finite double `± mantissa · 2 ^ exponent`. -/
structure Binary where
  /-- Whether the sign bit is set; zero has a sign too. -/
  negative : Bool
  /-- The mantissa, hidden bit included. -/
  mantissa : Nat
  /-- The power of two that the mantissa counts. -/
  exponent : Int
deriving DecidableEq, Repr

namespace Binary

/-- The parts of a finite double; nothing for the infinities and for what is not a number. -/
def ofFloat? (x : Float) : Option Binary :=
  let bits : Nat := x.toBits.toNat
  let negative := bits / Nat.pow 2 63 == 1
  let field : Nat := bits / Nat.pow 2 52 % Nat.pow 2 11
  let fraction : Nat := bits % Nat.pow 2 52
  if field == 2047 then none
  else if field == 0 then some ⟨negative, fraction, -1074⟩
  else some ⟨negative, Nat.pow 2 52 + fraction, (field : Int) - 1075⟩

/-- The magnitude as a quotient of two natural numbers. -/
def ratio (b : Binary) : Nat × Nat :=
  match b.exponent with
  | .ofNat e => (b.mantissa * Nat.pow 2 e, 1)
  | .negSucc e => (b.mantissa, Nat.pow 2 (e + 1))

/-- The integer with the sign of `b` and the given magnitude. -/
def signed (b : Binary) (n : Nat) : Int := if b.negative then -(n : Int) else n

/-- The greatest integer that is not above. -/
def floor (b : Binary) : Int :=
  Int.fdiv (b.signed b.ratio.1) b.ratio.2

/-- The least integer that is not below. -/
def ceil (b : Binary) : Int :=
  Int.neg (Int.fdiv (-b.signed b.ratio.1) b.ratio.2)

/-- The nearest integer, a tie going to the even one. -/
def roundEven (b : Binary) : Int :=
  b.signed (roundDivEven b.ratio.1 b.ratio.2)

/-- Whether the number has no fractional part. -/
def isInteger (b : Binary) : Bool :=
  b.ratio.1 % b.ratio.2 == 0

/-- The order of the number against an integer. -/
def compareInt (b : Binary) (n : Int) : Ordering :=
  compare (b.signed b.ratio.1) (n * b.ratio.2)

end Binary

/-! ### Putting a double together -/

/-- The double with the given sign whose magnitude is `mantissa · 2 ^ exponent`, for a mantissa of
at most 53 bits and an exponent from -1074 on. A mantissa of 2 ^ 53 carries into the exponent, and
what is too large is infinite. -/
def assemble (negative : Bool) (mantissa : Nat) (exponent : Int) : Float :=
  let sign : Nat := if negative then Nat.pow 2 63 else 0
  let field : Nat := if mantissa < Nat.pow 2 52 then 0 else (exponent + 1074).toNat
  let magnitude := field * Nat.pow 2 52 + mantissa
  Float.ofBits (UInt64.ofNat (sign + min magnitude (2047 * Nat.pow 2 52)))

/-- The infinite double with the given sign. -/
def infinity (negative : Bool) : Float := assemble negative (Nat.pow 2 52) 972

/-- The power of two that the last bit of a double near `num / den` counts. -/
def lastBit (num den : Nat) : Int :=
  let guess : Int := (num.log2 : Int) - (den.log2 : Int) - 52
  -- `num / den` lies between `2 ^ (guess + 51)` and `2 ^ (guess + 53)`
  let small : Bool := match guess with
    | .ofNat e => num < den * Nat.pow 2 (52 + e)
    | .negSucc e => num * Nat.pow 2 (e + 1) < den * Nat.pow 2 52
  max (-1074) (if small then guess - 1 else guess)

/-- The double nearest to `± num / den`, a tie going to the even mantissa. A quotient too large for
a finite double becomes infinite. -/
def ofRatio (negative : Bool) (num den : Nat) : Float :=
  if num = 0 || den = 0 then assemble negative 0 0
  else
    let e := lastBit num den
    let m := match e with
      | .ofNat k => roundDivEven num (den * Nat.pow 2 k)
      | .negSucc k => roundDivEven (num * Nat.pow 2 (k + 1)) den
    assemble negative m e

/-- The double nearest to an integer. -/
def ofInt (n : Int) : Float := ofRatio (n < 0) n.natAbs 1

/-- Whether a double is neither infinite nor undefined. -/
def isFinite (x : Float) : Bool := (Binary.ofFloat? x).isSome

end Kindred.Number
