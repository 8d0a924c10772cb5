import Kindred.Record.Check
import Kindred.Text.Blank

/-!
# Age mappings

How old someone looks at an age, and the way back: by a formula, or by brackets of ages that share
one apparent age.

- `AgeBracket`, `AgeMapping`: a bracket, and a mapping.
- `AgeMapping.check`: reads a mapping; brackets that are malformed are left out.
-/

namespace Kindred

open Kindred.Text Kindred.Record

/-- Ages that share one apparent age. -/
structure AgeBracket where
  minActual : Int
  maxActual : Int
  apparent : Int
deriving DecidableEq, Repr

namespace AgeBracket

/-- Whether an age lies in the bracket. -/
def contains (b : AgeBracket) (age : Number) : Bool :=
  Number.le (.int b.minActual) age && Number.le age (.int b.maxActual)

/-- For whole ages this is the usual order. -/
theorem contains_int (b : AgeBracket) (age : Int) :
    b.contains (.int age) = (decide (b.minActual ≤ age) && decide (age ≤ b.maxActual)) := by
  simp [contains]

/-- Builds a bracket from its parts. -/
def build (es : Fields) : Checked AgeBracket :=
  AgeBracket.mk <$> es.required ["min_actual_age", "minActualAge"] int
    <*> es.required ["max_actual_age", "maxActualAge"] int
    <*> es.required ["apparent_age", "apparentAge"] int

/-- Reads a bracket. -/
def check : Check AgeBracket := record "AgeRange" build

/-- The bracket as loose data. -/
def toData (b : AgeBracket) : Data :=
  .record [("min_actual_age", .int b.minActual), ("max_actual_age", .int b.maxActual),
    ("apparent_age", .int b.apparent)]

end AgeBracket

/-- A mapping between actual and apparent ages. Any part may be absent. -/
structure AgeMapping where
  /-- From an actual to an apparent age. -/
  apparentFormula : Option String := none
  /-- From an apparent to an actual age. -/
  actualFormula : Option String := none
  table : List AgeBracket := []
deriving DecidableEq, Repr

/-- A formula of a record: numbers count as their text, and blanks and all else as no formula. -/
def formulaOrNone : Check (Option String)
  | .text s => .ok (if isBlankString s then none else some s)
  | .int n => some <$> .ofExcept (textOfInt n)
  | .float x => .ok (some (Number.float x).text)
  | _ => .ok none

namespace AgeMapping

/-- Reads a table of brackets. What is no list counts as an empty table. -/
def checkTable : Check (List AgeBracket)
  | .list ds =>
    let (rows, remarks) := usableRows "apparentAgeTable" AgeBracket.check 0 ds
    ⟨remarks, .ok rows⟩
  | _ => .ok []

/-- Builds a mapping from its parts. -/
def build (es : Fields) : Checked AgeMapping :=
  AgeMapping.mk
    <$> es.withDefault ["apparent_age_formula", "apparentAgeFormula"] formulaOrNone none
    <*> es.withDefault ["actual_age_from_apparent_formula", "actualAgeFromApparentFormula"]
      formulaOrNone none
    <*> es.withDefault ["apparent_age_table", "apparentAgeTable"] checkTable []

/-- Reads a mapping. -/
def check : Check AgeMapping := record "AgeMapping" build

/-- The fields of the mapping as loose data. -/
def fields (m : AgeMapping) : List (String × Data) :=
  [("apparent_age_formula", .ofOption .text m.apparentFormula),
    ("actual_age_from_apparent_formula", .ofOption .text m.actualFormula),
    ("apparent_age_table", .list (m.table.map AgeBracket.toData))]

/-- The mapping as loose data. -/
def toData (m : AgeMapping) : Data := .record m.fields

end AgeMapping

end Kindred
