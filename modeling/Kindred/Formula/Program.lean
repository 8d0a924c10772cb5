import Kindred.Formula.Dialect
import Kindred.Formula.Postfix
import Kindred.Formula.Value

/-!
# Programs

A postfix form that a dialect allows, ready to be evaluated.

- `Instruction`, `accept`: one allowed entry, and the test of an entry.
- `run`: evaluation on a stack.
- `evaluate`: from a text to a finite number.
-/

namespace Kindred.Formula

open Kindred.Text Kindred.Number

/-- An allowed entry of a postfix form. -/
inductive Instruction where
  | number (n : Number)
  | unary (op : UnaryOp)
  | binary (op : BinaryOp)
  | function (f : Function)
  | call
deriving Repr

/-- The operators in front of an operand that every dialect has, and those of the functions. -/
def unaryOps (functions : Bool) : List UnaryOp :=
  if functions then [.neg, .sqrt, .abs, .floor, .ceil, .round, .exp] else [.neg]

/-- The operators between operands that every dialect has, and those that come with functions. -/
def binaryOps (functions : Bool) : List BinaryOp :=
  if functions then [.add, .sub, .mul, .div, .pow, .comma] else [.add, .sub, .mul, .div]

/-- The functions that a dialect may name. -/
def functionNamed? (functions : Bool) (name : String) : Option Function :=
  if functions then Function.ofName? name else none

/-- The instruction for one entry, if the dialect allows it. -/
def accept (d : Dialect) (expr : String) : Item → Except FormulaError Instruction
  | .number n => .ok (.number n)
  | .literal => .error (.literal expr)
  | .unary name =>
    match (unaryOps d.functions).find? (·.name == name) with
    | some op => .ok (.unary op)
    | none => .error (.operator name expr)
  | .binary name =>
    match (binaryOps d.functions).find? (·.name == name) with
    | some op => .ok (.binary op)
    | none => .error (.operator name expr)
  | .name name =>
    match functionNamed? d.functions name with
    | some f => .ok (.function f)
    | none => .error (.unresolved name expr)
  | .call => if d.functions then .ok .call else .error (.call expr)

/-- The program for a whole postfix form; the first entry that is not allowed decides. -/
def program? (d : Dialect) (expr : String) (items : List Item) :
    Except FormulaError (List Instruction) :=
  items.mapM (accept d expr)

/-! ### Evaluation -/

/-- Calls a value with an argument; a list is spread into several arguments. -/
def callValue (f arg : Value) : Except EvalError Value :=
  match f with
  | .function f => f.apply (match arg with | .list vs => vs | v => [v])
  | .list _ => .error (.notConcatenable .text)
  | v => .error (.operands "+" v.kind .text)

/-- The effect of one instruction on the stack. -/
def Instruction.step (i : Instruction) (stack : List Value) : Except EvalError (List Value) :=
  match i, stack with
  | .number n, stack => .ok (.number n :: stack)
  | .function f, stack => .ok (.function f :: stack)
  | .unary op, v :: stack => do return (← op.apply v) :: stack
  | .binary op, b :: a :: stack => do return (← op.apply a b) :: stack
  | .call, arg :: f :: stack => do return (← callValue f arg) :: stack
  | _, _ => .error .missingOperand

/-- Runs a program on a stack. -/
def run : List Instruction → List Value → Except EvalError (List Value)
  | [], stack => .ok stack
  | i :: is, stack => do run is (← i.step stack)

/-- The value that a program leaves on an empty stack. -/
def result (is : List Instruction) : Except EvalError Value := do
  match ← run is [] with
  | [v] => return v
  | [] => throw .missingOperand
  | _ => throw .surplusOperand

/-- What evaluating an expression may come to besides a number: an error of the formula, or an
integer beyond every double. -/
inductive Shortfall where
  | formula (why : FormulaError)
  | tooLarge
deriving DecidableEq, Repr

/-- The number that a value is, if it is a finite one. -/
def finiteNumber (expr : String) : Value → Except Shortfall Number
  | .number (.int n) =>
    match finiteOfInt? n with
    | some _ => .ok (.int n)
    | none => .error .tooLarge
  | .number (.float x) =>
    if isFinite x then .ok (.float x) else .error (.formula (.notFinite expr))
  | _ => .error (.formula (.notFinite expr))

/-- The value of a postfix form in a dialect. -/
def evaluateItems (d : Dialect) (expr : String) (items : List Item) : Except Shortfall Number :=
  match program? d expr items with
  | .error why => .error (.formula why)
  | .ok is =>
    match result is with
    | .error why => .error (.formula (.failed expr why))
    | .ok v => finiteNumber expr v

/-- The value of a text without names and dice in a dialect. -/
def evaluate (d : Dialect) (expr : String) : Except Shortfall Number :=
  if isBlankString expr then .error (.formula .emptyExpression)
  else
    match postfix? expr.toList with
    | .error why => .error (.formula (.unreadable expr why))
    | .ok items => evaluateItems d expr items

end Kindred.Formula
