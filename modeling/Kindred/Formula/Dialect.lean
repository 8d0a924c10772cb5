/-!
# Formula dialects

Each place where a formula may stand has its own dialect: the names that have a value there, the
dice that are rolled there, and whether functions may be used.

- `DiceForm`: the four forms of dice.
- `Dialect`: one dialect, and the seven built-in ones.
-/

namespace Kindred

/-- The forms of dice: an open-ended roll of six-sided dice, or dice with a number of sides. -/
inductive DiceForm where
  | openEnded
  | t100
  | t10
  | t6
deriving DecidableEq, Repr

/-- The name of a form of dice. -/
def DiceForm.name : DiceForm → String
  | openEnded => "Ob"
  | t100 => "T100"
  | t10 => "T10"
  | t6 => "T6"

/-- A formula dialect. -/
structure Dialect where
  name : String
  /-- The names that are replaced by values. -/
  parameters : List String := []
  /-- The forms of dice that are rolled. -/
  dice : List DiceForm := []
  /-- Whether mathematical functions may be used. -/
  functions : Bool := false
deriving DecidableEq, Repr

namespace Dialect

/-- Numbers of litters and ages of siblings. -/
def sibling : Dialect :=
  { name := "sibling", parameters := ["characterApparentAge", "characterAge"],
    dice := [.openEnded, .t6] }

/-- Sizes of litters. -/
def litterSize : Dialect := { sibling with name := "litter-size" }

/-- The roll for the parents' status. -/
def parentStatus : Dialect :=
  { name := "parent-status", parameters := ["characterApparentAge"], dice := [.t100, .t6] }

/-- A parent's apparent age. -/
def parentAge : Dialect :=
  { name := "parent-age", parameters := ["oldestSiblingOrCharacterApparentAge"],
    dice := [.openEnded, .t100, .t10, .t6] }

/-- From an actual to an apparent age. -/
def apparentAge : Dialect :=
  { name := "apparent-age", parameters := ["actualAge"], functions := true }

/-- From an apparent to an actual age. -/
def actualAge : Dialect :=
  { name := "actual-age", parameters := ["apparentAge"], functions := true }

/-- Plain arithmetic. -/
def arithmetic : Dialect := { name := "arithmetic" }

/-- The built-in dialects. -/
def builtin : List Dialect :=
  [sibling, litterSize, parentStatus, parentAge, apparentAge, actualAge, arithmetic]

/-- The built-in dialect with a name. -/
def named? (name : String) : Option Dialect := builtin.find? (·.name == name)

/-- The ages' dialects roll no dice. -/
theorem dice_apparentAge : apparentAge.dice = [] := rfl

end Dialect

end Kindred
