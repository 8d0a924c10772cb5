import Kindred.Dice.Basic
import Kindred.Number.Decimal

/-!
# Genders

A gender comes from a chance of being male, written as a decimal or as two percentages, or from
dice whose ranges carry labels. Whatever is written differently is an even chance.

- `GenderRule`: a rule of one of the three forms, and `GenderRule.ofText?`, which reads it.
- `drawGender`: a gender by the text of a rule.
-/

namespace Kindred

open Kindred.Text Kindred.Number

variable {σ : Type}

/-- A range of totals with its label. The bounds are kept as digits. -/
structure GenderRange where
  low : List Char
  high : List Char
  label : List Char
deriving DecidableEq, Repr

/-- How a gender is found. Numbers are kept as digits where they may be too long to be read. -/
inductive GenderRule where
  /-- The chance of being male. -/
  | chance (male : Float)
  /-- The percentage that is male. -/
  | share (percent : List Char)
  /-- Dice whose total decides. -/
  | ranges (count sides : List Char) (table : List GenderRange)
deriving Repr

/-! ### Reading rules -/

/-- A range at the front of a text: two rows of digits with a dash between them, an equals sign, and
a label. -/
def rangeAt? (s : List Char) : Option GenderRange :=
  match spanDigits s with
  | ([], _) => none
  | (low, '-' :: s) =>
    match spanDigits s with
    | ([], _) => none
    | (high, '=' :: c :: label) => some ⟨low, high, c :: label⟩
    | _ => none
  | _ => none

/-- The first range in a text. -/
def rangeIn? : List Char → Option GenderRange
  | [] => none
  | c :: s => rangeAt? (c :: s) <|> rangeIn? s

/-- Whether a text is a decimal from zero to one: a zero that digits may follow behind a point, or a
one that zeros may follow. -/
def isChance : List Char → Bool
  | '0' :: '.' :: ds => isDigits ds
  | '1' :: '.' :: ds => !ds.isEmpty && ds.all (· == '0')
  | s => s == ['0'] || s == ['1']

/-- The percentage in front of another one. -/
def shareOf? (s : List Char) : Option (List Char) :=
  match spanDigits s with
  | ([], _) => none
  | (male, '-' :: female) => if isDigits female then some male else none
  | _ => none

/-- A number of dice, a number of sides, and what follows the colon on the same line. -/
def tableOf? (s : List Char) : Option (List Char × List Char × List Char) :=
  match spanDigits s with
  | ([], _) => none
  | (count, t :: s) =>
    match spanDigits s with
    | ([], _) => none
    | (sides, ':' :: c :: rest) =>
      if isLetter 'T' t && !(c :: rest).contains '\n' then some (count, sides, c :: rest) else none
    | _ => none
  | _ => none

/-- The rule that a text writes, if it has one of the three forms. -/
def GenderRule.ofText? (formula : String) : Option GenderRule :=
  let s := trim formula.toList
  if isChance s then (floatOfText? s).map .chance
  else match shareOf? s with
    | some male => some (.share male)
    | none => (tableOf? s).map fun (count, sides, rest) =>
      .ranges count sides ((rest.splitOn ',').filterMap rangeIn?)

/-! ### Drawing genders -/

/-- Male with a chance, and female otherwise. -/
def byChance (male : Float) : Roll σ String := do
  return if (← Roll.drawFraction) < male then "male" else "female"

/-- A percentage as a fraction. -/
def percentage (percent : List Char) : Except Fault Float := do
  let n ← readNumeral percent
  let x := ofRatio false n 100
  if isFinite x then return x else throw .quotientTooLarge

/-- Whether a range holds a total. The upper bound is read only if the lower one allows it. -/
def GenderRange.holds (r : GenderRange) (total : Int) : Except Fault Bool := do
  if (← readNumeral r.low) ≤ total then return decide (total ≤ (← readNumeral r.high))
  else return false

/-- The label of the first range that holds a total. -/
def labelOf (total : Int) : List GenderRange → Except Fault (Option String)
  | [] => return none
  | r :: rs => do
    if ← r.holds total then return some (String.ofList (trim r.label)) else labelOf total rs

/-- The label that dice decide on, or an even chance. Only dice with 6, 10 or 100 sides are
rolled. -/
def byRanges (count sides : Nat) (table : List GenderRange) : Roll σ String := do
  if sides = 6 ∨ sides = 10 ∨ sides = 100 then
    let roll := totalOf (← dice count sides)
    match ← Roll.ofExcept (labelOf roll table) with
    | some label => return label
    | none => byChance 0.5
  else byChance 0.5

/-- A gender by a rule. -/
def GenderRule.draw : GenderRule → Roll σ String
  | chance male => byChance male
  | share percent => do byChance (← Roll.ofExcept (percentage percent))
  | ranges count sides table => do
    let count ← Roll.ofExcept (readNumeral count)
    let sides ← Roll.ofExcept (readNumeral sides)
    byRanges count sides table

/-- A gender by the text of a rule; an even chance if the text has none of the three forms. -/
def drawGender (formula : String) : Roll σ String :=
  match GenderRule.ofText? formula with
  | some rule => rule.draw
  | none => byChance 0.5

end Kindred
