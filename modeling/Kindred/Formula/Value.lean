import Kindred.Formula.Complex

/-!
# Values

What the parts of an expression evaluate to, and the operators on them. Integers stay exact;
a quotient is always a double; a double on one side makes the result a double.

- `Value`: a number, a complex number, a list or a function.
- `UnaryOp`, `BinaryOp`, `Function`: the operators and functions of the dialects.
- `UnaryOp.apply`, `BinaryOp.apply`, `Function.apply`: what they yield.
-/

namespace Kindred.Formula

open Kindred.Number

/-- The functions that an expression may name. -/
inductive Function where
  | pow
  | min
  | max
  | log
deriving DecidableEq, Repr

/-- The name of a function. -/
def Function.name : Function → String
  | pow => "pow"
  | min => "min"
  | max => "max"
  | log => "log"

/-- The function with a name. -/
def Function.ofName? (name : String) : Option Function :=
  [pow, min, max, log].find? (·.name == name)

/-- The operators in front of an operand. -/
inductive UnaryOp where
  | neg
  | sqrt
  | abs
  | floor
  | ceil
  | round
  | exp
deriving DecidableEq, Repr

/-- The spelling of an operator in front of an operand. -/
def UnaryOp.name : UnaryOp → String
  | neg => "-"
  | sqrt => "sqrt"
  | abs => "abs"
  | floor => "floor"
  | ceil => "ceil"
  | round => "round"
  | exp => "exp"

/-- The operators between two operands. -/
inductive BinaryOp where
  | add
  | sub
  | mul
  | div
  | pow
  | comma
deriving DecidableEq, Repr

/-- The spelling of an operator between two operands. -/
def BinaryOp.name : BinaryOp → String
  | add => "+"
  | sub => "-"
  | mul => "*"
  | div => "/"
  | pow => "^"
  | comma => ","

/-- A value in the course of an evaluation. -/
inductive Value where
  | number (n : Number)
  | complex (c : Complex)
  | list (vs : List Value)
  | function (f : Function)
deriving Repr, Inhabited

namespace Value

/-- The kind of a value. -/
def kind : Value → Kind
  | number (.int _) => .int
  | number (.float _) => .float
  | complex _ => .complex
  | list _ => .list
  | function _ => .function

/-- An integer as a value. -/
def ofInt (n : Int) : Value := number (.int n)

/-- A double as a value. -/
def ofFloat (x : Float) : Value := number (.float x)

/-- An integer as a double; one that is too large has none. -/
def intToFloat (n : Int) : Except EvalError Float :=
  match finiteOfInt? n with
  | some x => .ok x
  | none => .error .intTooLarge

/-- A number as a double. -/
def numberToFloat : Number → Except EvalError Float
  | .int n => intToFloat n
  | .float x => .ok x

/-- A value as a double, for the functions on doubles. -/
def toReal : Value → Except EvalError Float
  | number n => numberToFloat n
  | v => .error (.notReal v.kind)

/-! ### Arithmetic -/

/-- Two operands brought to a common type. -/
inductive Pair where
  | ints (a b : Int)
  | reals (x y : Float)
  | complexes (a b : Complex)
  | others

/-- A number or complex number as a complex number. -/
def toComplex? : Value → Option (Except EvalError Complex)
  | number n => some ((numberToFloat n).map Complex.ofReal)
  | complex c => some (.ok c)
  | _ => none

/-- Brings two operands to the wider of their types. -/
def pair (a b : Value) : Except EvalError Pair :=
  match a, b with
  | number (.int m), number (.int n) => .ok (.ints m n)
  | number m, number n => do return .reals (← numberToFloat m) (← numberToFloat n)
  | _, _ =>
    match toComplex? a, toComplex? b with
    | some x, some y => do return .complexes (← x) (← y)
    | _, _ => .ok .others

/-- The greatest length of a list: so many addresses of eight bytes have a size of 63 bits. -/
def maxLength : Nat := Nat.pow 2 60 - 1

/-- A list repeated; no times for a count below zero. -/
def repeated (vs : List Value) (count : Int) : Except EvalError Value :=
  if count.natAbs ≥ Nat.pow 2 63 then .error .countTooLarge
  else if maxLength < vs.length * count.toNat then .error .listTooLong
  else .ok (.list (List.replicate count.toNat vs).flatten)

/-- The sum of two values; lists are joined. -/
def add (a b : Value) : Except EvalError Value := do
  match ← pair a b with
  | .ints m n => return ofInt (m + n)
  | .reals x y => return ofFloat (x + y)
  | .complexes x y => return complex (x.add y)
  | .others =>
    match a, b with
    | list vs, list ws => return list (vs ++ ws)
    | list _, _ => throw (.notConcatenable b.kind)
    | _, _ => throw (.operands "+" a.kind b.kind)

/-- The difference of two values. -/
def sub (a b : Value) : Except EvalError Value := do
  match ← pair a b with
  | .ints m n => return ofInt (m - n)
  | .reals x y => return ofFloat (x - y)
  | .complexes x y => return complex (x.sub y)
  | .others => throw (.operands "-" a.kind b.kind)

/-- The product of two values; a list is repeated by an integer. -/
def mul (a b : Value) : Except EvalError Value := do
  match ← pair a b with
  | .ints m n => return ofInt (m * n)
  | .reals x y => return ofFloat (x * y)
  | .complexes x y => return complex (x.mul y)
  | .others =>
    match a, b with
    | list vs, number (.int n) => repeated vs n
    | number (.int n), list vs => repeated vs n
    | list _, _ => throw (.notRepeatable b.kind)
    | _, list _ => throw (.notRepeatable a.kind)
    | _, _ => throw (.operands "*" a.kind b.kind)

/-- The double nearest to the quotient of two integers. -/
def divInts (m n : Int) : Except EvalError Value :=
  if n = 0 then .error .divisionByZero
  else
    let q := ofRatio ((m < 0) != (n < 0)) m.natAbs n.natAbs
    if isFinite q then .ok (ofFloat q) else .error .quotientTooLarge

/-- The quotient of two values. -/
def div (a b : Value) : Except EvalError Value := do
  match ← pair a b with
  | .ints m n => divInts m n
  | .reals x y => if y == 0 then throw .floatDivisionByZero else return ofFloat (x / y)
  | .complexes x y => return complex (← x.div y)
  | .others => throw (.operands "/" a.kind b.kind)

/-- The power of two doubles as a value. -/
def powReals (x y : Float) : Except EvalError Value := do
  match ← realPower x y with
  | .inl r => return ofFloat r
  | .inr c => return complex c

/-- The power of two values. A negative exponent takes integers to doubles. -/
def pow (a b : Value) : Except EvalError Value := do
  match ← pair a b with
  | .ints m n =>
    if n < 0 then powReals (← intToFloat m) (← intToFloat n) else return ofInt (Int.pow m n.toNat)
  | .reals x y => powReals x y
  | .complexes x y => return complex (← x.pow y)
  | .others => throw (.operands "** or pow()" a.kind b.kind)

/-- A list with one element more, or the list of two values. -/
def append (a b : Value) : Value :=
  match a with
  | list vs => list (vs ++ [b])
  | a => list [a, b]

/-! ### Order -/

/-- Whether two numbers or complex numbers are equal. -/
def sameNumber (a b : Number) : Bool := Number.compare? a b == some .eq

mutual

/-- Whether two values are equal. -/
def same : Value → Value → Bool
  | number a, number b => sameNumber a b
  | complex a, complex b => a.re == b.re && a.im == b.im
  | complex a, number b => a.im == 0 && sameNumber (.float a.re) b
  | number a, complex b => b.im == 0 && sameNumber a (.float b.re)
  | function f, function g => f == g
  | list vs, list ws => sameList vs ws
  | _, _ => false

/-- Whether two lists are equal element by element. -/
def sameList : List Value → List Value → Bool
  | [], [] => true
  | v :: vs, w :: ws => same v w && sameList vs ws
  | _, _ => false

end

mutual

/-- Whether the first value lies on the side of the second that `wanted` names. Lists compare by
their first difference. -/
def ordered (wanted : Ordering) : Value → Value → Except EvalError Bool
  | number a, number b => .ok (Number.compare? a b == some wanted)
  | list vs, list ws => orderedLists wanted vs ws
  | v, w => .error (.notOrdered (if wanted == .gt then ">" else "<") v.kind w.kind)

/-- The same for lists. -/
def orderedLists (wanted : Ordering) : List Value → List Value → Except EvalError Bool
  | [], [] => .ok false
  | [], _ :: _ => .ok (wanted == .lt)
  | _ :: _, [] => .ok (wanted == .gt)
  | v :: vs, w :: ws => if same v w then orderedLists wanted vs ws else ordered wanted v w

end

/-- The first of the extreme values of a list. -/
def extreme (wanted : Ordering) (best : Value) : List Value → Except EvalError Value
  | [] => .ok best
  | v :: vs => do
    if ← ordered wanted v best then extreme wanted v vs else extreme wanted best vs

end Value

/-! ### Functions -/

/-- The natural logarithm of a value. Integers of any size have one. -/
def naturalLog (v : Value) : Except EvalError Float :=
  match v with
  | .number (.int n) =>
    if n ≤ 0 then .error .outsideDomain
    else match finiteOfInt? n with
      | some x => .ok x.log
      | none =>
        -- the integer is a fraction between one half and one, times a power of two
        let e := n.natAbs.log2 + 1
        .ok ((ofRatio false n.natAbs (Nat.pow 2 e)).log + (2.0 : Float).log * ofInt e)
  | v => do
    let x ← v.toReal
    if x.isNaN then return x
    else if x ≤ 0 then throw .outsideDomain
    else return x.log

/-- The least or greatest of the arguments; a single argument has to be a list itself. -/
def extremeOf (f : Function) (wanted : Ordering) : List Value → Except EvalError Value
  | [] => .error (.noArguments f.name)
  | [.list []] => .error (.emptySequence f.name)
  | [.list (v :: vs)] => v.extreme wanted vs
  | [v] => .error (.notIterable v.kind)
  | v :: vs => v.extreme wanted vs

/-- The value of a function. -/
def Function.apply (f : Function) (args : List Value) : Except EvalError Value :=
  match f with
  | .pow => match args with
    | [a, b] => do return .ofFloat (← strictPower (← a.toReal) (← b.toReal))
    | args => .error (.powArguments args.length)
  | .log => match args with
    | [a] => do return .ofFloat (← naturalLog a)
    | [a, b] => do
      let num ← naturalLog a
      let den ← naturalLog b
      if den == 0 then throw .floatDivisionByZero else return .ofFloat (num / den)
    | _ => .error .logArguments
  | .min => extremeOf f .lt args
  | .max => extremeOf f .gt args

/-! ### Operators -/

/-- A double rounded to an integer, which only finite doubles can be. -/
def toInteger (round : Binary → Int) (x : Float) : Except EvalError Value :=
  match Binary.ofFloat? x with
  | some b => .ok (.ofInt (round b))
  | none => .error (if x.isNaN then .undefined else .infinite)

/-- The integer next to a number, in the direction that `round` takes. -/
def nextInteger (round : Binary → Int) (v : Value) : Except EvalError Value :=
  match v with
  | .number (.int n) => .ok (.ofInt n)
  | .number (.float x) => toInteger round x
  | v => .error (.notReal v.kind)

/-- The square root of a double. -/
def squareRoot (x : Float) : Except EvalError Float :=
  if x < 0 then .error .outsideDomain else .ok x.sqrt

/-- The exponential of a double. -/
def exponential (x : Float) : Except EvalError Float :=
  let r := x.exp
  if r.isInf && isFinite x then .error .outsideRange else .ok r

/-- The value of an operator in front of an operand. -/
def UnaryOp.apply (op : UnaryOp) (v : Value) : Except EvalError Value :=
  match op with
  | .neg => match v with
    | .number (.int n) => .ok (.ofInt (-n))
    | .number (.float x) => .ok (.ofFloat (-x))
    | .complex c => .ok (.complex c.neg)
    | v => .error (.noNegation v.kind)
  | .abs => match v with
    | .number (.int n) => .ok (.ofInt n.natAbs)
    | .number (.float x) => .ok (.ofFloat x.abs)
    | .complex c => do return .ofFloat (← c.magnitude)
    | v => .error (.noAbs v.kind)
  | .floor => nextInteger Binary.floor v
  | .ceil => nextInteger Binary.ceil v
  | .round => match v with
    | .number n => nextInteger Binary.roundEven (.number n)
    | v => .error (.noRounding v.kind)
  | .sqrt => do return .ofFloat (← squareRoot (← v.toReal))
  | .exp => do return .ofFloat (← exponential (← v.toReal))

/-- The value of an operator between two operands. -/
def BinaryOp.apply (op : BinaryOp) (a b : Value) : Except EvalError Value :=
  match op with
  | .add => a.add b
  | .sub => a.sub b
  | .mul => a.mul b
  | .div => a.div b
  | .pow => a.pow b
  | .comma => .ok (a.append b)

end Kindred.Formula
