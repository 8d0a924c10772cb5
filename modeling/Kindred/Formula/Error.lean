import Kindred.Number.Basic
import Kindred.Text.Quoted

/-!
# What goes wrong in a formula

Causes of failure, each with the words a reader sees.

- `ReadError`: the text is no expression.
- `EvalError`: the expression has no value.
- `FormulaError`: both of these, and what a dialect does not allow.
-/

namespace Kindred

open Kindred.Text

/-- A part of an expression that stands where it may not. -/
inductive Misplaced where
  | text
  | opening
  | closing
  | comma
  | constant
  | function
  | name
deriving DecidableEq, Repr

/-- The word for a misplaced part. -/
def Misplaced.label : Misplaced → String
  | text => "string"
  | opening => "\"(\""
  | closing => "\")\""
  | comma => "\",\""
  | constant => "constant"
  | function => "function"
  | name => "variable"

/-- What is wrong at one place of an expression. -/
inductive Flaw where
  | unexpected (part : Misplaced)
  | unmatched
  | parity
  | unknownCharacter
  | illegalEscape (c : Char)
deriving DecidableEq, Repr

/-- The words for a flaw. -/
def Flaw.message : Flaw → String
  | unexpected part => "unexpected " ++ part.label
  | unmatched => "unmatched \"()\""
  | parity => "parity"
  | unknownCharacter => "unknown character"
  | illegalEscape c => "Illegal escape sequence: '\\" ++ c.toString ++ "'"

/-- Why a text is no expression. -/
inductive ReadError where
  /-- A flaw at a column, counted from zero. -/
  | flaw (column : Nat) (what : Flaw)
  /-- A numeral that is none. -/
  | numeral (text : String)
  /-- The text ends where more has to follow. -/
  | unfinished
  /-- A comment without an end. -/
  | openComment
  /-- An escape by code point, which quoted texts do not have. -/
  | codePointEscape
deriving DecidableEq, Repr

/-- The words for a reading error of an expression. -/
def ReadError.message (expr : String) : ReadError → String
  | flaw column what =>
    "parse error [column " ++ (Number.int column).text ++ "]: " ++ what.message ++
      ", expression: " ++ expr
  | numeral text => "could not convert string to float: " ++ quotedString text
  | unfinished => "string index out of range"
  | openComment => "substring not found"
  | codePointEscape => "string indices must be integers, not 'tuple'"

/-- The kinds of values that an expression works on. -/
inductive Kind where
  | int
  | float
  | complex
  | list
  | function
  | text
deriving DecidableEq, Repr

/-- The name of a kind of values. -/
def Kind.name : Kind → String
  | int => "int"
  | float => "float"
  | complex => "complex"
  | list => "list"
  | function => "builtin_function_or_method"
  | text => "str"

/-- Why an expression has no value. -/
inductive EvalError where
  | divisionByZero
  | floatDivisionByZero
  | complexDivisionByZero
  | zeroToNegative
  | complexZeroPower
  | complexPowerTooLarge
  | magnitudeTooLarge
  | powerTooLarge
  | outsideDomain
  | outsideRange
  | intTooLarge
  | quotientTooLarge
  | infinite
  | undefined
  | missingOperand
  | surplusOperand
  | notIterable (kind : Kind)
  | powArguments (count : Nat)
  | logArguments
  | noArguments (name : String)
  | emptySequence (name : String)
  | notReal (kind : Kind)
  | noAbs (kind : Kind)
  | noNegation (kind : Kind)
  | noRounding (kind : Kind)
  | operands (op : String) (left right : Kind)
  | notConcatenable (kind : Kind)
  | notRepeatable (kind : Kind)
  | notOrdered (op : String) (left right : Kind)
  | countTooLarge
  | listTooLong
deriving DecidableEq, Repr

/-- The words for an evaluation error. -/
def EvalError.message : EvalError → String
  | divisionByZero => "division by zero"
  | floatDivisionByZero => "float division by zero"
  | complexDivisionByZero => "complex division by zero"
  | zeroToNegative => "0.0 cannot be raised to a negative power"
  | complexZeroPower => "0.0 to a negative or complex power"
  | complexPowerTooLarge => "complex exponentiation"
  | magnitudeTooLarge => "absolute value too large"
  | powerTooLarge => "(34, 'Numerical result out of range')"
  | outsideDomain => "math domain error"
  | outsideRange => "math range error"
  | intTooLarge => "int too large to convert to float"
  | quotientTooLarge => "integer division result too large for a float"
  | infinite => "cannot convert float infinity to integer"
  | undefined => "cannot convert float NaN to integer"
  | missingOperand => "pop from empty list"
  | surplusOperand => "invalid Expression (parity)"
  | notIterable kind => "'" ++ kind.name ++ "' object is not iterable"
  | powArguments count => "pow expected 2 arguments, got " ++ (Number.int count).text
  | logArguments => "math.log requires 1 to 2 arguments"
  | noArguments name => name ++ " expected at least 1 argument, got 0"
  | emptySequence name => name ++ "() arg is an empty sequence"
  | notReal kind => "must be real number, not " ++ kind.name
  | noAbs kind => "bad operand type for abs(): '" ++ kind.name ++ "'"
  | noNegation kind => "bad operand type for unary -: '" ++ kind.name ++ "'"
  | noRounding kind => "type " ++ kind.name ++ " doesn't define __round__ method"
  | operands op left right =>
    "unsupported operand type(s) for " ++ op ++ ": '" ++ left.name ++ "' and '" ++
      right.name ++ "'"
  | notConcatenable kind => "can only concatenate list (not \"" ++ kind.name ++ "\") to list"
  | notRepeatable kind => "can't multiply sequence by non-int of type '" ++ kind.name ++ "'"
  | notOrdered op left right =>
    "'" ++ op ++ "' not supported between instances of '" ++ left.name ++ "' and '" ++
      right.name ++ "'"
  | countTooLarge => "cannot fit 'int' into an index-sized integer"
  | listTooLong => ""

/-- Why a formula has no value. Where an expression is at fault it is named; it is the formula after
its names and dice were replaced. -/
inductive FormulaError where
  | emptyFormula
  | emptyExpression
  | unreadable (expr : String) (why : ReadError)
  | literal (expr : String)
  | operator (name expr : String)
  | unresolved (name expr : String)
  | call (expr : String)
  | failed (expr : String) (why : EvalError)
  | notFinite (expr : String)
deriving DecidableEq, Repr

/-- The words for a formula error. -/
def FormulaError.message : FormulaError → String
  | emptyFormula => "empty formula"
  | emptyExpression => "empty expression"
  | unreadable expr why => "cannot parse " ++ quotedString expr ++ ": " ++ why.message expr
  | literal expr => "non-numeric literal in " ++ quotedString expr
  | operator name expr =>
    "operator " ++ quotedString name ++ " not allowed in " ++ quotedString expr
  | unresolved name expr =>
    "unresolved name " ++ quotedString name ++ " in " ++ quotedString expr
  | call expr => "function call not allowed in " ++ quotedString expr
  | failed expr why => "cannot evaluate " ++ quotedString expr ++ ": " ++ why.message
  | notFinite expr => quotedString expr ++ " did not produce a finite number"

end Kindred
