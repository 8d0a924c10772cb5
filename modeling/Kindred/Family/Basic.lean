import Kindred.Family.Budget
import Kindred.Parent.Generation
import Kindred.Sibling.Generation

/-!
# Families

What has been rolled for one character so far.

- `Family`: siblings, the parents' status and ages, and the reroll tokens.
- `Family.check`, `Family.toData`: reads and writes a family.
-/

namespace Kindred

open Kindred.Record

/-- What has been rolled for one character so far. -/
structure Family where
  characterAge : Option Int := none
  /-- The older siblings, followed by the younger ones. -/
  siblings : List Sibling := []
  olderLitters : Int := 0
  youngerLitters : Int := 0
  olderRoll : Option LitterRoll := none
  youngerRoll : Option LitterRoll := none
  statusRoll : Option StatusRoll := none
  motherAge : Option ParentAge := none
  fatherAge : Option ParentAge := none
  budget : RerollBudget := {}
deriving Repr

namespace Family

/-- The older siblings. -/
def older (f : Family) : List Sibling := f.siblings.filter (·.isOlder)

/-- The younger siblings. -/
def younger (f : Family) : List Sibling := f.siblings.filter (!·.isOlder)

/-- The parents' status, if it was rolled. -/
def status (f : Family) : Option String := f.statusRoll.map (·.status)

/-- Whether the character has an age. Nothing is rolled before. -/
def hasAge (f : Family) : Bool := f.characterAge.any (0 < ·)

/-- The recorded age of a parent. -/
def parentAge (f : Family) : Parent → Option ParentAge
  | .mother => f.motherAge
  | .father => f.fatherAge

/-- The family with another record of a parent's age. -/
def withParentAge (f : Family) (p : Parent) (age : Option ParentAge) : Family :=
  match p with
  | .mother => { f with motherAge := age }
  | .father => { f with fatherAge := age }

/-- The family with newly rolled siblings on one side; the other side stays. -/
def withSide (f : Family) (r : SideRoll) : Family :=
  match r.side with
  | .older =>
    { f with siblings := r.siblings ++ f.younger, olderLitters := r.litters, olderRoll := r.roll }
  | .younger =>
    { f with siblings := f.older ++ r.siblings, youngerLitters := r.litters,
             youngerRoll := r.roll }

/-- The number of the first litter on a side. Younger litters come after the older ones. -/
def firstLitter (f : Family) : Side → Int
  | .older => 1
  | .younger => maxLitter f.older + 1

/-- Builds a family from its parts. -/
def build (fromText : Bool) (es : Fields) : Checked Family :=
  Family.mk <$> es.optional ["character_age"] int
    <*> es.withDefault ["siblings"] (listOf Sibling.check) []
    <*> es.withDefault ["older_litters"] int 0
    <*> es.withDefault ["younger_litters"] int 0
    <*> es.optional ["older_roll"] (LitterRoll.check fromText)
    <*> es.optional ["younger_roll"] (LitterRoll.check fromText)
    <*> es.optional ["parent_roll"] StatusRoll.check
    <*> es.optional ["mother_age"] ParentAge.check
    <*> es.optional ["father_age"] ParentAge.check
    <*> es.withDefault ["budget"] RerollBudget.check {}

/-- Reads a family. -/
def check (fromText : Bool) : Check Family := record "FamilyState" (build fromText)

/-- The family as loose data. -/
def toData (f : Family) : Data :=
  .record [("character_age", .ofOption .int f.characterAge),
    ("siblings", .list (f.siblings.map Sibling.toData)),
    ("older_litters", .int f.olderLitters), ("younger_litters", .int f.youngerLitters),
    ("older_roll", .ofOption LitterRoll.toData f.olderRoll),
    ("younger_roll", .ofOption LitterRoll.toData f.youngerRoll),
    ("parent_roll", .ofOption StatusRoll.toData f.statusRoll),
    ("mother_age", .ofOption ParentAge.toData f.motherAge),
    ("father_age", .ofOption ParentAge.toData f.fatherAge),
    ("budget", f.budget.toData)]

/-- The family in the form in which it is saved. -/
def saved (f : Family) : Family :=
  { f with olderRoll := f.olderRoll.map (·.saved), youngerRoll := f.youngerRoll.map (·.saved) }

end Family

end Kindred
