import Kindred.Parent.Status
import Kindred.Sibling.Rules

/-!
# Rules of a race

A race and its category may each bring rules of their own. What the race brings comes first, then
what the category brings, then the defaults.

- `Customs`: the rules that a race or a category brings.
- `FamilyRules`, `FamilyRules.resolve`: the rules that are in force.
-/

namespace Kindred

open Kindred.Text Kindred.Record

/-- The formula for a parent's age where none is given. -/
def defaultParentAge : String := "oldestSiblingOrCharacterApparentAge + 14 + Ob2T6"

/-- The rules that a race or a category brings. Any of them may be absent. -/
structure Customs where
  siblings : Option SiblingRules := none
  parents : Option ParentRules := none
  /-- The formula for a parent's age. -/
  parentAge : Option String := none
deriving DecidableEq, Repr

namespace Customs

/-- Accepts maps; all else counts as absent. -/
def mapOrNone (check : Check α) : Check (Option α)
  | .map es => some <$> check (.map es)
  | _ => .ok none

/-- Accepts texts that are not blank; all else counts as absent. -/
def textOrNone : Check (Option String)
  | .text s => .ok (if isBlankString s then none else some s)
  | _ => .ok none

/-- Builds rules from their parts. -/
def build (es : Fields) : Checked Customs :=
  Customs.mk
    <$> es.withDefault ["sibling_formula", "siblingFormula"] (mapOrNone SiblingRules.check) none
    <*> es.withDefault ["parent_formula", "parentFormula"] (mapOrNone ParentRules.check) none
    <*> es.withDefault ["parent_age_formula", "parentAgeFormula"] textOrNone none

/-- The fields of the rules as loose data. -/
def fields (c : Customs) : List (String × Data) :=
  [("sibling_formula", .ofOption SiblingRules.toData c.siblings),
    ("parent_formula", .ofOption ParentRules.toData c.parents),
    ("parent_age_formula", .ofOption .text c.parentAge)]

/-- The rules of one, with those of another where it brings none. -/
def or (first second : Customs) : Customs :=
  ⟨first.siblings.or second.siblings, first.parents.or second.parents,
    first.parentAge.or second.parentAge⟩

end Customs

/-- The rules that are in force. -/
structure FamilyRules where
  siblings : SiblingRules := {}
  parents : ParentRules := {}
  parentAge : String := defaultParentAge
deriving DecidableEq, Repr

/-- The rules in force for a race and a category, either of which may be absent. -/
def FamilyRules.resolve (race category : Option Customs) : FamilyRules :=
  let c := (race.getD {}).or (category.getD {})
  ⟨c.siblings.getD {}, c.parents.getD {}, c.parentAge.getD defaultParentAge⟩

end Kindred
