import Kindred.Age.Conversion
import Kindred.Sibling.Basic
import Kindred.Sibling.Gender
import Kindred.Sibling.Litter
import Kindred.Sibling.Rules

/-!
# Rolling siblings

One side is rolled litter by litter: the size of the litter, its age, and the gender of each
sibling.

- `SideRoll`: the siblings of one side, with what was rolled for the number of litters.
- `rollLitter`, `rollLitters`: one litter, and several with consecutive numbers.
- `rollSide`: one side, its litters numbered from a start.
- `rollBothSides`: the older side, and the younger one numbered after it.
-/

namespace Kindred

open Kindred.Formula Kindred.Text

variable {σ : Type}

/-- The siblings of one side. -/
structure SideRoll where
  side : Side
  siblings : List Sibling
  litters : Nat
  roll : Option LitterRoll
deriving Repr

/-- The roll as loose data. -/
def SideRoll.toData (r : SideRoll) : Data :=
  .record [("side", .text r.side.name), ("siblings", .list (r.siblings.map Sibling.toData)),
    ("litters", .int r.litters), ("roll_data", .ofOption LitterRoll.toData r.roll)]

/-- The formula for the age of a litter on a side. -/
def SiblingRules.ageFormula (r : SiblingRules) : Side → String
  | .older => r.olderAge
  | .younger => r.youngerAge

/-- The names that the formulas for siblings may use. Both stand for the apparent age. -/
def siblingBindings (age : Int) : Bindings :=
  [("characterAge", .int age), ("characterApparentAge", .int age)]

/-- The siblings of a litter with the genders given. -/
def litterOf (side : Side) (rules : SiblingRules) (litter age : Int) (genders : List String) :
    List Sibling :=
  genders.zipIdx.map fun (gender, i) =>
    { litter := litter, position := i + 1, age := age, gender := gender,
      isOlder := side == .older, ageFormula := rules.ageFormula side,
      relationship := side.relationship }

/-- Rolls one litter. -/
def rollLitter (side : Side) (rules : SiblingRules) (age : Int) (m : Option AgeMapping)
    (litter : Int) : Roll σ (List Sibling) := do
  let bs := siblingBindings age
  let size ← litterSize rules.litterSize bs
  let looks ← evaluateFormula .sibling bs (rules.ageFormula side)
  let apparent ← Roll.ofExcept (floorNonNegative looks.value)
  let actual := max 0 (← apparentToActual m apparent)
  let genders ← times (drawGender rules.gender) size
  Roll.tell "Fam" do
    return "litter " ++ (← writeNumeral litter) ++ ": " ++ (← writeNumeral size) ++
      " sibling(s), looks " ++ (← writeNumeral apparent) ++ ", age " ++ (← writeNumeral actual)
  return litterOf side rules litter actual genders

/-- Rolls a number of litters, numbered from a start. -/
def rollLitters (side : Side) (rules : SiblingRules) (age : Int) (m : Option AgeMapping) :
    Nat → Int → Roll σ (List Sibling)
  | 0, _ => return []
  | n + 1, litter => do
    let first ← rollLitter side rules age m litter
    let rest ← rollLitters side rules age m n (litter + 1)
    return first ++ rest

/-- Rolls one side of siblings for a character of an apparent age. -/
def rollSide (side : Side) (rules : SiblingRules) (age : Int) (m : Option AgeMapping)
    (start : Int) : Roll σ SideRoll := do
  let count ← litterCount rules.litters (siblingBindings age)
  Roll.tell "Fam" do
    return side.name ++ " litters: " ++ rules.litters ++ " -> " ++ (← writeNumeral count.count)
  let siblings ← rollLitters side rules age m count.count start
  return ⟨side, siblings, count.count, count.roll⟩

/-- Rolls both sides. Older litters are numbered from one, and younger ones after them. -/
def rollBothSides (rules : SiblingRules) (age : Int) (m : Option AgeMapping) :
    Roll σ (SideRoll × SideRoll) := do
  let older ← rollSide .older rules age m 1
  let younger ← rollSide .younger rules age m (maxLitter older.siblings + 1)
  return (older, younger)

end Kindred
