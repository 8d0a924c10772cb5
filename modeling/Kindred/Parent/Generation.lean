import Kindred.Age.Conversion
import Kindred.Dice.Record
import Kindred.Parent.Status
import Kindred.Sibling.Basic

/-!
# Rolling parents

- `StatusRoll`, `rollStatus`: a roll for the parents' status.
- `ParentAge`, `rollParentAge`: a roll for the age of one of them.
- `oldestApparent`: the apparent age of the oldest sibling, which a parent's age is based on.
-/

namespace Kindred

open Kindred.Text Kindred.Record Kindred.Formula

variable {σ : Type}

/-- A text, or another one in place of the empty text. -/
def orIfEmpty (s otherwise : String) : String := if s.isEmpty then otherwise else s

/-! ### The status -/

/-- A roll for the parents' status. -/
structure StatusRoll where
  formula : String
  /-- The apparent age of the character at the time of the roll. -/
  apparentAge : Int
  result : Int
  status : String
deriving DecidableEq, Repr

namespace StatusRoll

/-- The roll as loose data. -/
def toData (r : StatusRoll) : Data :=
  .record [("formula", .text r.formula), ("apparent_age", .int r.apparentAge),
    ("result", .int r.result), ("status", .text r.status)]

/-- Builds a roll from its parts. -/
def build (es : Fields) : Checked StatusRoll :=
  StatusRoll.mk <$> es.required ["formula"] text
    <*> es.required ["apparent_age"] int
    <*> es.required ["result"] int
    <*> es.required ["status"] text

/-- Reads a roll. -/
def check : Check StatusRoll := record "ParentRoll" build

end StatusRoll

/-- Rolls the parents' status for a character of an apparent age. -/
def rollStatus (rules : ParentRules) (age : Int) : Roll σ StatusRoll := do
  let result ← evaluateFormula .parentStatus [("characterApparentAge", .int age)] rules.formula
  let value ← Roll.ofExcept result.value.floorInt
  let status := determineStatus rules.table value
  Roll.tell "Fam" do
    return "parents: " ++ orIfEmpty result.expression rules.formula ++ " = " ++
      (← writeNumeral value) ++ " -> " ++ status
  return ⟨rules.formula, age, value, status⟩

/-! ### Ages -/

/-- A roll for a parent's age. -/
structure ParentAge where
  formula : String
  /-- The apparent age that the roll is based on. -/
  baseAge : Int
  apparentAge : Int
  actualAge : Int
  roll : Option OpenEnded := none
deriving DecidableEq, Repr

namespace ParentAge

/-- The roll as loose data. -/
def toData (a : ParentAge) : Data :=
  .record [("formula", .text a.formula), ("base_age", .int a.baseAge),
    ("apparent_age", .int a.apparentAge), ("actual_age", .int a.actualAge),
    ("roll_details", .ofOption OpenEnded.toData a.roll)]

/-- Builds a roll from its parts. -/
def build (es : Fields) : Checked ParentAge :=
  ParentAge.mk <$> es.required ["formula"] text
    <*> es.required ["base_age"] int
    <*> es.required ["apparent_age"] int
    <*> es.required ["actual_age"] int
    <*> es.optional ["roll_details"] OpenEnded.check

/-- Reads a roll. -/
def check : Check ParentAge := record "ParentAgeResult" build

end ParentAge

/-- How old the oldest sibling looks; without siblings, how old the character looks. The conversion
leaves no lines in the trace. -/
def oldestApparent (siblings : List Sibling) (age : Int) (m : Option AgeMapping) : Roll σ Int :=
  match (siblings.map (·.age)).max? with
  | none => return age
  | some oldest => Roll.quietly (actualToApparent m oldest)

/-- Rolls a parent's age for a character of an apparent age. -/
def rollParentAge (formula : String) (siblings : List Sibling) (age : Int)
    (m : Option AgeMapping) : Roll σ ParentAge := do
  let base ← oldestApparent siblings age m
  let result ←
    evaluateFormula .parentAge [("oldestSiblingOrCharacterApparentAge", .int base)] formula
  let apparent ← Roll.ofExcept (floorNonNegative result.value)
  let actual := max 0 (← apparentToActual m apparent)
  Roll.tell "Fam" do
    return "parent age: " ++ orIfEmpty result.expression formula ++ " -> looks " ++
      (← writeNumeral apparent) ++ ", age " ++ (← writeNumeral actual)
  return ⟨formula, base, apparent, actual, result.openEnded⟩

end Kindred
