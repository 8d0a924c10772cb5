import Kindred.Formula.Dialect
import Kindred.Text.Blank
import Kindred.Text.Digit
import Kindred.Text.Word

/-!
# Dice in a text

The notations `ObNT6`, `NT6`, `NT10` and `NT100`, and where they stand in a formula. A notation does
not start behind a letter, a digit, an underscore or a point, and no digit follows it.

- `DiceToken`: a notation with its form and the digits of its count.
- `diceAt?`: the notation at the front of a text.
- `pieces`: a text as a row of notations and other characters.
- `DiceToken.ofText?`: a text that is one notation, blanks around it aside.
-/

namespace Kindred

open Kindred.Text

/-- A dice notation. -/
structure DiceToken where
  form : DiceForm
  /-- The digits of the number of dice. -/
  digits : List Char
  /-- The notation as it was written. -/
  text : List Char
deriving DecidableEq, Repr

/-- The number of dice. -/
def DiceToken.count (t : DiceToken) : Nat := digitsValue t.digits

/-- Whether a digit stands at the front. -/
def startsWithDigit (s : List Char) : Bool := s.head?.any isDecimal

/-- Whether a character is a letter, as a capital or small. -/
def isLetter (capital c : Char) : Bool := c == capital || c == capital.toLower

/-- The numbers of sides, in the order in which they are tried. -/
def sideSpellings : List (DiceForm × List Char) :=
  [(.t100, ['1', '0', '0']), (.t10, ['1', '0']), (.t6, ['6'])]

/-- The number of sides at the front of a text, if no digit follows it. -/
def sidesAt? (s : List Char) : Option (DiceForm × List Char) :=
  sideSpellings.find? fun (_, sides) =>
    sides.isPrefixOf s && !startsWithDigit (s.drop sides.length)

/-- An open-ended notation at the front of a text. -/
def openEndedAt? : List Char → Option DiceToken
  | o :: b :: s =>
    if isLetter 'O' o && isLetter 'B' b then
      match spanDigits s with
      | ([], _) => none
      | (ds, t :: '6' :: rest) =>
        if isLetter 'T' t && !startsWithDigit rest then
          some ⟨.openEnded, ds, o :: b :: ds ++ [t, '6']⟩
        else none
      | _ => none
    else none
  | _ => none

/-- A notation with a number of sides at the front of a text. -/
def sidedAt? (s : List Char) : Option DiceToken :=
  match spanDigits s with
  | ([], _) => none
  | (ds, t :: rest) =>
    if isLetter 'T' t then
      (sidesAt? rest).map fun (form, sides) => ⟨form, ds, ds ++ t :: sides⟩
    else none
  | _ => none

/-- The notation at the front of a text. -/
def diceAt? (s : List Char) : Option DiceToken := openEndedAt? s <|> sidedAt? s

/-- A part of a text: one character, or a dice notation. -/
inductive Piece where
  | char (c : Char)
  | dice (t : DiceToken)
deriving DecidableEq, Repr

/-- Whether no notation may start behind a character. -/
def joins (c : Char) : Bool := isWordChar c || c == '.'

/-- The parts of a text. `joined` tells that the character in front of it lets no notation start,
and the first `skip` characters belong to the notation before. -/
def piecesFrom : Bool → Nat → List Char → List Piece
  | _, _, [] => []
  | _, skip + 1, c :: s => piecesFrom (joins c) skip s
  | joined, 0, c :: s =>
    match if joined then none else diceAt? (c :: s) with
    | some t => .dice t :: piecesFrom (joins c) (t.text.length - 1) s
    | none => .char c :: piecesFrom (joins c) 0 s

/-- The parts of a text. -/
def pieces (s : List Char) : List Piece := piecesFrom false 0 s

/-- A text that is one notation, blanks around it aside. -/
def DiceToken.ofText? (s : String) : Option DiceToken :=
  let bare := trim s.toList
  match diceAt? bare with
  | some t => if t.text == bare then some t else none
  | none => none

end Kindred
