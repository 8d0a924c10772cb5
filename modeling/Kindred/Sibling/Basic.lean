import Kindred.Record.Check

/-!
# Siblings

- `Side`: the older or the younger siblings of a character.
- `Sibling`: one sibling. Siblings of one litter share their age.
- `maxLitter`: the greatest number of a litter.
-/

namespace Kindred

open Kindred.Record

/-- The older or the younger siblings. -/
inductive Side where
  | older
  | younger
deriving DecidableEq, Repr

namespace Side

/-- The name of a side. -/
def name : Side → String
  | older => "older"
  | younger => "younger"

/-- What a sibling on a side is to the character. -/
def relationship : Side → String
  | older => "Äldre syskon"
  | younger => "Yngre syskon"

end Side

/-- One sibling. -/
structure Sibling where
  /-- The number of the litter. -/
  litter : Int
  /-- The place within the litter, counted from one. -/
  position : Int
  /-- The actual age, which a litter shares. -/
  age : Int
  gender : String
  isOlder : Bool
  /-- The formula that the age comes from. -/
  ageFormula : String := ""
  relationship : String := ""
deriving DecidableEq, Repr

namespace Sibling

/-- The sibling as loose data. -/
def toData (s : Sibling) : Data :=
  .record [("litter", .int s.litter), ("position", .int s.position), ("age", .int s.age),
    ("gender", .text s.gender), ("is_older", .bool s.isOlder), ("age_formula", .text s.ageFormula),
    ("relationship", .text s.relationship)]

/-- Builds a sibling from its parts. -/
def build (es : Fields) : Checked Sibling :=
  Sibling.mk <$> es.required ["litter"] int
    <*> es.required ["position"] int
    <*> es.required ["age"] int
    <*> es.required ["gender"] text
    <*> es.required ["is_older"] bool
    <*> es.withDefault ["age_formula"] text ""
    <*> es.withDefault ["relationship"] text ""

/-- Reads a sibling. -/
def check : Check Sibling := record "Sibling" build

end Sibling

/-- The greatest number of a litter; zero without siblings. -/
def maxLitter (siblings : List Sibling) : Int := ((siblings.map (·.litter)).max?).getD 0

end Kindred
