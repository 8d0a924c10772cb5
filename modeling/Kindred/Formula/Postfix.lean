import Kindred.Formula.Lexeme

/-!
# Postfix form

An expression in the order in which it is evaluated: operands first, then their operator. It is
read from the lexemes with a stack of operators that wait for their right operand. An operator
makes all waiting operators of its rank or above come out first, and this holds of a sign, too.

- `Item`: one entry of the postfix form.
- `Expect`: what may stand next.
- `Reading.step`: the effect of one lexeme.
- `postfix?`: the postfix form of a text.
-/

namespace Kindred.Formula

open Kindred.Text

/-- One entry of a postfix form. -/
inductive Item where
  | number (n : Number)
  /-- A quoted text or an empty argument list. -/
  | literal
  | unary (name : String)
  | binary (name : String)
  | name (name : String)
  | call
deriving Repr

/-- How many operands an entry takes, one of which is replaced by its result. -/
def Item.arity : Item → Nat
  | unary _ => 1
  | binary _ => 2
  | call => 2
  | _ => 0

/-- What may stand next in an expression. -/
inductive Expect where
  /-- An operand: at the start and behind an operator or a comma. -/
  | operand
  /-- An operand or the closing bracket: behind an opening one. -/
  | opened
  /-- An opening bracket: behind a named operator. -/
  | argument
  /-- An operator, a closing bracket or a comma: behind a numeral. -/
  | operator
  /-- The same or an opening bracket: behind a name or a closing bracket. -/
  | callable
deriving DecidableEq, Repr

namespace Expect

/-- Whether an operand or a sign may stand next. -/
def takesOperand : Expect → Bool
  | operand | opened => true
  | _ => false

/-- Whether an opening bracket may stand next. -/
def takesOpening : Expect → Bool
  | operator => false
  | _ => true

/-- Whether a closing bracket may stand next. -/
def takesClosing : Expect → Bool
  | opened | operator | callable => true
  | _ => false

/-- Whether a comma may stand next. -/
def takesComma : Expect → Bool
  | operator | callable => true
  | _ => false

end Expect

/-- The state of a reader between two lexemes. -/
structure Reading where
  /-- What may stand next. -/
  expect : Expect := .operand
  /-- Ten times the number of open brackets; every operator inside them outranks those outside. -/
  depth : Int := 0
  /-- The number of operands that the operators met so far take. -/
  operands : Nat := 0
  /-- The entries that have come out, the last one first. -/
  output : List Item := []
  /-- The waiting operators with their ranks, the last one first. -/
  waiting : List (Item × Int) := []
deriving Repr

namespace Reading

/-- Moves the waiting operators of at least the given rank to the output. -/
def release (rank : Int) : List Item → List (Item × Int) → List Item × List (Item × Int)
  | output, [] => (output, [])
  | output, (item, r) :: rest =>
    if rank ≤ r then release rank (item :: output) rest else (output, (item, r) :: rest)

/-- Lets an operator wait for its right operand. -/
def push (r : Reading) (item : Item) (rank : Int) : Reading :=
  let rank := rank + r.depth
  let (output, waiting) := release rank r.output r.waiting
  { r with operands := r.operands + item.arity, output := output,
           waiting := (item, rank) :: waiting }

/-- Puts an operand out. -/
def emit (r : Reading) (item : Item) (next : Expect) : Reading :=
  { r with expect := next, output := item :: r.output }

/-- The effect of an operator or a sign. A plus sign has none but to ask for an operand. -/
def operator (r : Reading) (name : String) (rank : Int) : Reading :=
  let signed :=
    if r.expect.takesOperand && name == "-" then r.push (.unary name) 5
    else if r.expect.takesOperand && name == "+" then r
    else if r.expect.takesOperand && name == "not" then r.push (.unary name) 2
    else r.push (.binary name) rank
  { signed with expect := .operand }

/-- The effect of one lexeme. -/
def step (r : Reading) (p : Placed) : Except ReadError Reading :=
  let refuse (part : Misplaced) : Except ReadError Reading :=
    .error (.flaw p.stop (.unexpected part))
  match p.lexeme with
  | .blank | .comment => .ok r
  | .broken why => .error why
  | .operator name rank => .ok (r.operator name rank)
  | .number n => .ok (r.emit (.number n) .operator)
  | .text => if r.expect.takesOperand then .ok (r.emit .literal .operator) else refuse .text
  | .constant x =>
    if r.expect.takesOperand then .ok (r.emit (.number (.float x)) .operator) else refuse .constant
  | .name name =>
    if r.expect.takesOperand then .ok (r.emit (.name name) .callable) else refuse .name
  | .unaryName name =>
    if r.expect.takesOperand then .ok { r.push (.unary name) 9 with expect := .argument }
    else refuse .function
  | .binaryName name =>
    if r.expect.takesOperand then .ok { r.push (.binary name) 9 with expect := .argument }
    else refuse .function
  | .opening =>
    if r.expect.takesOpening then
      let deeper := { r with depth := r.depth + 10 }
      let called := if r.expect == .callable then deeper.push .call (-2) else deeper
      .ok { called with expect := .opened }
    else refuse .opening
  | .closing =>
    if r.expect == .opened then .ok { r.emit .literal .callable with depth := r.depth - 10 }
    else if r.expect.takesClosing then .ok { r with depth := r.depth - 10, expect := .callable }
    else refuse .closing
  | .comma =>
    if r.expect.takesComma then .ok { r.push (.binary ",") (-1) with expect := .operand }
    else refuse .comma

/-- The effect of all lexemes, up to the first error. -/
def steps (r : Reading) : List Placed → Except ReadError Reading
  | [] => .ok r
  | p :: ps => match r.step p with
    | .ok r => r.steps ps
    | .error why => .error why

/-- The whole postfix form, once the text has ended: no bracket may be open, and the operators must
take all operands but one. -/
def finish (r : Reading) (stop : Nat) : Except ReadError (List Item) :=
  if r.depth < 0 || 10 ≤ r.depth then .error (.flaw stop .unmatched)
  else
    let items := r.output.reverse ++ r.waiting.map (·.1)
    if r.operands + 1 == items.length then .ok items else .error (.flaw stop .parity)

end Reading

/-- The postfix form of a text. -/
def postfix? (s : List Char) : Except ReadError (List Item) := do
  let r ← Reading.steps {} (lexemes s)
  r.finish s.length

end Kindred.Formula
