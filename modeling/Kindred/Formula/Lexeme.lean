import Kindred.Formula.Error
import Kindred.Text.Blank
import Kindred.Text.Letter
import Kindred.Text.Word

/-!
# Lexemes

The smallest parts of an expression: numerals, operators, names, brackets, quoted texts, blanks and
comments. Each part ends before a column, and the first part that cannot be read ends the row.

- `Lexeme`, `Placed`: a part, and a part with the column after it.
- `lexemeAt`: the part at the front of a text and its length.
- `lexemes`: all parts of a text.
-/

namespace Kindred.Formula

open Kindred.Text Kindred.Number

/-- A part of an expression. -/
inductive Lexeme where
  | blank
  | comment
  | number (n : Number)
  /-- A quoted text, which no formula has a use for. -/
  | text
  /-- An operator between its operands, or a sign in front of one, with its rank. -/
  | operator (name : String) (rank : Int)
  | opening
  | closing
  | comma
  | constant (x : Float)
  | binaryName (name : String)
  | unaryName (name : String)
  | name (name : String)
  | broken (why : ReadError)
deriving Repr

/-- A lexeme with the column after it. -/
structure Placed where
  lexeme : Lexeme
  stop : Nat
deriving Repr

/-! ### Operators -/

/-- The operators in the order in which they are tried: spelling, name and rank. -/
def operatorTable : List (List Char × String × Int) :=
  [(['*', '*'], "**", 8), (['^'], "^", 8), (['%'], "%", 6), (['/'], "/", 6),
   (['\u2219'], "*", 5), (['\u2022'], "*", 5), (['*'], "*", 5), (['+'], "+", 4), (['-'], "-", 4),
   (['|', '|'], "||", 3), (['=', '='], "==", 3), (['!', '='], "!=", 3), (['<', '='], "<=", 3),
   (['>', '='], ">=", 3), (['<'], "<", 3), (['>'], ">", 3), (['i', 'n', ' '], "in", 3),
   (['n', 'o', 't', ' '], "not", 2), (['a', 'n', 'd', ' '], "and", 1),
   (['x', 'o', 'r', ' '], "xor", 0), (['o', 'r', ' '], "or", 0)]

/-- The characters before the first `*/`. -/
def commentBody? : List Char → Option (List Char)
  | '*' :: '/' :: _ => some []
  | c :: s => (commentBody? s).map (c :: ·)
  | [] => none

/-- The operator at the front of a text. A slash with a star behind it opens a comment, and one
that ends the text is an error. -/
def operatorAt? (s : List Char) : Option (Lexeme × Nat) :=
  (operatorTable.find? fun (spelling, _, _) => spelling.isPrefixOf s).map
    fun (spelling, name, rank) =>
      let rest := s.drop spelling.length
      if name == "/" then
        match rest with
        | [] => (.broken .unfinished, 1)
        | '*' :: _ =>
          match commentBody? rest with
          | some body => (.comment, body.length + 3)
          | none => (.broken .openComment, 1)
        | _ => (.operator name rank, 1)
      else (.operator name rank, spelling.length)

/-! ### Numerals -/

/-- The exponent at the front of a text: `e`, an optional sign and at least one digit. -/
def exponentAt? : List Char → Option (List Char)
  | [] => none
  | e :: s =>
    if e == 'e' || e == 'E' then
      let (sign, s) := match s with
        | '-' :: s => (['-'], s)
        | '+' :: s => (['+'], s)
        | s => ([], s)
      let (digits, _) := spanAsciiDigits s
      if digits.isEmpty then none else some (e :: sign ++ digits)
    else none

/-- The numeral with an exponent at the front of a text. -/
def scientificAt? (s : List Char) : Option (List Char) :=
  let (whole, s) := spanAsciiDigits s
  let (part, s) := match s with
    | '.' :: s =>
      let (ds, s) := spanAsciiDigits s
      ('.' :: ds, s)
    | s => ([], s)
  (exponentAt? s).map (whole ++ part ++ ·)

/-- The most digits that a whole number may have; longer ones count as infinite. -/
def maxDigits : Nat := 4300

/-- A numeral of digits and points only. A point in front stands for `0.`, and a second point is an
error as soon as it is reached. -/
def plainNumber (run : List Char) : Lexeme :=
  let full := if run.head? == some '.' then '0' :: run else run
  let (whole, rest) := full.span (· != '.')
  match rest with
  | [] =>
    if whole.length ≤ maxDigits then .number (.int (digitsValue whole))
    else .number (.float (Decimal.toFloat ⟨false, digitsValue whole, 0⟩))
  | point :: rest =>
    let (part, more) := rest.span (· != '.')
    match more with
    | [] => .number (.float
        (Decimal.toFloat ⟨false, digitsValue (whole ++ part), -(part.length : Int)⟩))
    | second :: _ =>
      .broken (.numeral (String.ofList (whole ++ point :: part ++ [second])))

/-- The numeral at the front of a text. -/
def numberAt? (s : List Char) : Option (Lexeme × Nat) :=
  if s.head? == some 'E' then none
  else match scientificAt? s with
    | some numeral =>
      let value := match Decimal.ofText? numeral with
        | some d => .number (.float d.toFloat)
        | none => .broken (.numeral (String.ofList numeral))
      some (value, numeral.length)
    | none =>
      let run := s.takeWhile fun c => c.isDigit || c == '.'
      if run.isEmpty then none else some (plainNumber run, run.length)

/-! ### Quoted texts -/

/-- The contents of a text up to its closing quote. A quote behind a backslash does not close. -/
def quotedBody? (quote : Char) (escaped : Bool) : List Char → Option (List Char)
  | [] => none
  | c :: s =>
    if c == quote && !escaped then some []
    else (quotedBody? quote (c == '\\') s).map (c :: ·)

/-- The first escape in the contents of a quoted text: its place and its character. -/
def firstEscape? : Nat → List Char → Option (Nat × Char)
  | place, '\\' :: c :: _ => some (place + 1, c)
  | place, _ :: s => firstEscape? (place + 1) s
  | _, [] => none

/-- The quoted text at the front of a text. Its first escape decides whether it is well formed. -/
def quotedAt? (column : Nat) : List Char → Option (Lexeme × Nat)
  | [] => none
  | quote :: s =>
    if quote == '\'' || quote == '"' then
      match quotedBody? quote false s with
      | none => some (.broken .unfinished, 1)
      | some body =>
        let lexeme := match firstEscape? 0 body with
          | none => .text
          | some (place, c) =>
            if ['\'', '\\', '/', 'b', 'f', 'n', 'r', 't'].contains c then .text
            else if c == 'u' then .broken .codePointEscape
            else .broken (.flaw (column + place) (.illegalEscape c))
        some (lexeme, body.length + 2)
    else none

/-! ### Names -/

/-- The word at the front of a text: a letter, then letters, underscores and ASCII digits. -/
def wordAt (s : List Char) : List Char :=
  match s with
  | [] => []
  | c :: s =>
    if isCased c then c :: s.takeWhile fun c => isCased c || c == '_' || c.isDigit else []

/-- The rest of a variable's name. Points and double quotes belong to it, and between two double
quotes everything does. -/
def variableTail (quoting : Bool) : List Char → List Char
  | [] => []
  | c :: s =>
    if quoting || isCased c || c == '_' || c == '.' || c == '"' || c.isDigit then
      c :: variableTail (if c == '"' then !quoting else quoting) s
    else []

/-- The variable's name at the front of a text. -/
def variableAt (s : List Char) : List Char :=
  match s with
  | [] => []
  | c :: s => if isCased c then c :: variableTail false s else []

/-- The names of operators that stand between two operands. -/
def binaryNames : List String := ["and", "or", "xor", "in", "D"]

/-- The names of operators that stand in front of one operand. -/
def unaryNames : List String :=
  ["sin", "cos", "tan", "asin", "acos", "atan", "sind", "cosd", "tand", "asind", "acosd", "atand",
   "sqrt", "abs", "ceil", "floor", "round", "not", "exp"]

/-- Euler's number and the half circumference of the unit circle. -/
def constants : List (List Char × Float) :=
  [(['E'], Float.ofBits 0x4005BF0A8B145769), (['P', 'I'], Float.ofBits 0x400921FB54442D18)]

/-- The constant at the front of a text, unless a letter, a digit or an underscore follows. -/
def constantAt? (s : List Char) : Option (Lexeme × Nat) :=
  (constants.find? fun (spelling, _) =>
    spelling.isPrefixOf s && !(s.drop spelling.length).head?.any isWordChar).map
      fun (spelling, x) => (.constant x, spelling.length)

/-- The named operator or variable at the front of a text. -/
def nameAt? (s : List Char) : Option (Lexeme × Nat) :=
  let word := String.ofList (wordAt s)
  if binaryNames.contains word then some (.binaryName word, (wordAt s).length)
  else if unaryNames.contains word then some (.unaryName word, (wordAt s).length)
  else
    let free := variableAt s
    if free.isEmpty then none else some (.name (String.ofList free), free.length)

/-! ### All parts -/

/-- A bracket or a comma. -/
def markAt? : List Char → Option (Lexeme × Nat)
  | '(' :: _ => some (.opening, 1)
  | ')' :: _ => some (.closing, 1)
  | ',' :: _ => some (.comma, 1)
  | _ => none

/-- The part at the front of a text that starts at a column, and its length. -/
def lexemeAt (column : Nat) (s : List Char) : Lexeme × Nat :=
  (operatorAt? s <|> numberAt? s <|> quotedAt? column s <|> markAt? s <|> constantAt? s <|>
    nameAt? s).getD
      (if s.head?.any isBlank then (.blank, 1) else (.broken (.flaw column .unknownCharacter), 1))

/-- The parts of the text from a column on; the first `skip` characters belong to the part
before. -/
def lexemesFrom : Nat → Nat → List Char → List Placed
  | _, _, [] => []
  | column, skip + 1, _ :: s => lexemesFrom (column + 1) skip s
  | column, 0, c :: s =>
    let (lexeme, length) := lexemeAt column (c :: s)
    match lexeme with
    | .broken _ => [⟨lexeme, column + length⟩]
    | _ => ⟨lexeme, column + length⟩ :: lexemesFrom (column + 1) (length - 1) s

/-- The parts of a text. -/
def lexemes (s : List Char) : List Placed := lexemesFrom 0 0 s

end Kindred.Formula
