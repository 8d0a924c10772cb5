import Kindred.Dice.Record
import Kindred.Formula.Evaluate
import Kindred.Formula.Rounding

/-!
# Litters

How many litters there are on one side, and how many siblings a litter has. A number of litters that
starts with dice keeps them for display.

- `LeadingDice`: the dice at the front of a formula, with the modifier behind them.
- `LitterRoll`: what was rolled for a number of litters.
- `litterCount`, `litterSize`: the two numbers.
-/

namespace Kindred

open Kindred.Text Kindred.Number Kindred.Formula Kindred.Record

variable {σ : Type}

/-- The dice that a number of litters may start with: open-ended ones, or plain ones with six
sides. -/
inductive LitterDice where
  | openEnded
  | plain
deriving DecidableEq, Repr

/-- The name of a kind of dice. -/
def LitterDice.name : LitterDice → String
  | openEnded => "Ob"
  | plain => "T6"

/-- Dice at the front of a formula. -/
structure LeadingDice where
  kind : LitterDice
  /-- The digits of the number of dice. -/
  digits : List Char
  /-- What stands behind the dice. -/
  modifier : List Char
deriving DecidableEq, Repr

namespace LeadingDice

/-- Dice with six sides at the front of a text. -/
def sixesAt? (kind : LitterDice) (s : List Char) : Option LeadingDice :=
  match spanDigits s with
  | ([], _) => none
  | (ds, t :: '6' :: rest) => if isLetter 'T' t then some ⟨kind, ds, rest⟩ else none
  | _ => none

/-- The dice at the front of a formula, blanks aside. -/
def ofText? (formula : String) : Option LeadingDice :=
  let s := dropBlanks formula.toList
  match s with
  | o :: b :: rest =>
    if isLetter 'O' o && isLetter 'B' b then sixesAt? .openEnded rest else sixesAt? .plain s
  | _ => none

end LeadingDice

/-! ### What was rolled -/

/-- What was rolled for a number of litters. -/
structure LitterRoll where
  kind : LitterDice
  diceCount : Int
  /-- The roll of open-ended dice. -/
  roll : Option OpenEnded
  /-- The results of plain dice. -/
  rolls : Option (List Int)
  /-- The total of the dice. -/
  base : Int
  /-- What stands behind the dice, without blanks around it. -/
  modifier : Option String
  /-- The value of what stands behind the dice; the integer zero where a record does not tell it. -/
  modifierValue : Number
  /-- The total with the modifier. -/
  result : Float
  formula : String
deriving Repr

namespace LitterRoll

/-- The roll as loose data. -/
def toData (r : LitterRoll) : Data :=
  .record [("type", .text r.kind.name), ("dice_count", .int r.diceCount),
    ("roll", .ofOption OpenEnded.toData r.roll), ("rolls", .ofOption intsData r.rolls),
    ("base_result", .int r.base), ("modifier", .ofOption .text r.modifier),
    ("modifier_value", .ofNumber r.modifierValue), ("final_result", .float r.result),
    ("formula", .text r.formula)]

/-- Accepts the name of a kind of dice. -/
def checkKind : Check LitterDice :=
  oneOf [(LitterDice.openEnded.name, .openEnded), (LitterDice.plain.name, .plain)]

/-- The roll in the form in which it is saved: with a double for what stands behind the dice. -/
def saved (r : LitterRoll) : LitterRoll :=
  { r with modifierValue := .float r.modifierValue.toFloat }

/-- Builds a roll from its parts. -/
def build (fromText : Bool) (es : Fields) : Checked LitterRoll :=
  LitterRoll.mk <$> es.required ["type"] checkKind
    <*> es.required ["dice_count"] int
    <*> es.optional ["roll"] OpenEnded.check
    <*> es.optional ["rolls"] (listOf int)
    <*> es.required ["base_result"] int
    <*> es.optional ["modifier"] text
    <*> es.withDefault ["modifier_value"] (fun d => .float <$> real fromText d) 0
    <*> es.required ["final_result"] (real fromText)
    <*> es.required ["formula"] text

/-- Reads a roll. -/
def check (fromText : Bool) : Check LitterRoll := record "LitterRollData" (build fromText)

end LitterRoll

/-- A number of litters with what was rolled for it. -/
structure LitterCount where
  count : Nat
  roll : Option LitterRoll := none
deriving Repr

/-- The number as loose data. -/
def LitterCount.toData (c : LitterCount) : Data :=
  .record [("count", .int c.count), ("roll_data", .ofOption LitterRoll.toData c.roll)]

/-! ### The number of litters -/

/-- The value of what stands behind dice, read as if a zero stood in front of it. -/
def modifierValue (bs : Bindings) (modifier : List Char) : Roll σ Number :=
  if isBlankText modifier then return 0
  else return (← evaluateFormula .sibling bs (String.ofList ('0' :: modifier))).value

/-- A total of dice with a modifier. -/
def withModifier (total : Int) : Number → Number
  | .int n => .int (total + n)
  | .float x => .float (ofInt total + x)

/-- A number, or zero in place of one that is not above zero. -/
def atLeastZero (n : Number) : Number := if Number.lt 0 n then n else 0

/-- A text without blanks around it, if anything is left. -/
def bareText? (s : List Char) : Option String :=
  let bare := trim s
  if bare.isEmpty then none else some (String.ofList bare)

/-- The double that is recorded for a total. An integer too large for one is rejected. -/
def recordedTotal (n : Number) : Except Fault Float :=
  match n.toFloat? with
  | some x => .ok x
  | none => .error (.rejected ⟨"LitterRollData", false, [⟨[.name "final_result"], .notNumber⟩]⟩)

/-- A number of litters that starts with dice. -/
def leadingCount (formula : String) (bs : Bindings) (lead : LeadingDice) : Roll σ LitterCount := do
  let n ← Roll.ofExcept (readNumeral lead.digits)
  match lead.kind with
  | .openEnded =>
    let roll ← openEnded n
    let modifier ← modifierValue bs lead.modifier
    let sum := withModifier roll.total modifier
    let result ← Roll.ofExcept (recordedTotal (atLeastZero sum))
    let data : LitterRoll := ⟨.openEnded, n, some roll, none, roll.total, bareText? lead.modifier,
      .float modifier.toFloat, result, formula⟩
    return ⟨← Roll.ofExcept (floorNonNegative sum), some data⟩
  | .plain =>
    let rolls ← dice n 6
    let modifier ← modifierValue bs lead.modifier
    let sum := withModifier (totalOf rolls) modifier
    let result ← Roll.ofExcept (recordedTotal sum)
    let data : LitterRoll := ⟨.plain, n, none, some rolls, totalOf rolls, bareText? lead.modifier,
      .float modifier.toFloat, result, formula⟩
    return ⟨← Roll.ofExcept (floorNonNegative sum), some data⟩

/-- The number of litters that a formula gives. -/
def litterCount (formula : String) (bs : Bindings) : Roll σ LitterCount :=
  match LeadingDice.ofText? formula with
  | some lead => leadingCount formula bs lead
  | none => do
    let result ← evaluateFormula .sibling bs formula
    return { count := ← Roll.ofExcept (floorNonNegative result.value) }

/-! ### The size of a litter -/

/-- The number of siblings in a litter. A blank text means one sibling, a numeral is taken as it is,
and what is computed is rounded up. -/
def litterSize (formula : String) (bs : Bindings) : Roll σ Nat := do
  if isBlankString formula then return 1
  let bare := trim formula.toList
  if isDigits bare then Roll.ofExcept (readNumeral bare)
  else
    let result ← evaluateFormula .litterSize bs (String.ofList bare)
    return (← Roll.ofExcept result.value.ceilInt).toNat

end Kindred
