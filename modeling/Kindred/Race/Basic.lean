import Kindred.Age.Mapping
import Kindred.Race.Rules

/-!
# Races and categories

- `RaceCategory`: races that age alike.
- `Race`, `RaceMetadata`: a race, and what is stored with it.
-/

namespace Kindred

open Kindred.Record

/-- Races that age alike, with the rules they share. -/
structure RaceCategory where
  mapping : AgeMapping := {}
  name : String
  ruleset : String := "EON"
  description : String := ""
  customs : Customs := {}
deriving DecidableEq, Repr

namespace RaceCategory

/-- Builds a category from its parts. -/
def build (es : Fields) : Checked RaceCategory :=
  RaceCategory.mk <$> AgeMapping.build es
    <*> es.required ["name"] text
    <*> es.withDefault ["ruleset"] text "EON"
    <*> es.withDefault ["description"] text ""
    <*> Customs.build es

/-- Reads a category. -/
def check : Check RaceCategory := record "RaceCategory" build

/-- The category as loose data. -/
def toData (c : RaceCategory) : Data :=
  .record (c.mapping.fields ++ [("name", .text c.name), ("ruleset", .text c.ruleset),
    ("description", .text c.description)] ++ c.customs.fields)

end RaceCategory

/-- What is stored with a race. -/
structure RaceMetadata where
  description : String := ""
  customs : Customs := {}
deriving DecidableEq, Repr

namespace RaceMetadata

/-- Builds metadata from its parts. -/
def build (es : Fields) : Checked RaceMetadata :=
  RaceMetadata.mk <$> es.withDefault ["description"] text "" <*> Customs.build es

/-- Reads metadata. -/
def check : Check RaceMetadata := record "RaceMetadata" build

/-- The metadata as loose data. -/
def toData (m : RaceMetadata) : Data :=
  .record (("description", .text m.description) :: m.customs.fields)

end RaceMetadata

/-- A race. -/
structure Race where
  name : String
  ruleset : String := "EON"
  /-- The name of the category; empty if the race has none. -/
  category : String := ""
  /-- What the race adds to attributes. -/
  modifiers : List (String × Int) := []
  metadata : RaceMetadata := {}
deriving DecidableEq, Repr

namespace Race

/-- Accepts maps as metadata; all else counts as empty metadata. -/
def checkMetadata : Check RaceMetadata
  | .map es => RaceMetadata.check (.map es)
  | _ => RaceMetadata.check (.map [])

/-- Builds a race from its parts. -/
def build (es : Fields) : Checked Race :=
  Race.mk <$> es.required ["name"] text
    <*> es.withDefault ["ruleset"] text "EON"
    <*> es.withDefault ["category"] text ""
    <*> es.withDefault ["modifiers"] (mapOf int) []
    <*> es.withDefault ["metadata"] checkMetadata {}

/-- Reads a race. -/
def check : Check Race := record "Race" build

/-- The race as loose data. -/
def toData (r : Race) : Data :=
  .record [("name", .text r.name), ("ruleset", .text r.ruleset), ("category", .text r.category),
    ("modifiers", .record (r.modifiers.map fun (name, n) => (name, .int n))),
    ("metadata", r.metadata.toData)]

end Race

/-- The rules in force for a race, with its category if that is known. -/
def Race.rules (r : Race) (category : Option RaceCategory) : FamilyRules :=
  FamilyRules.resolve (some r.metadata.customs) (category.map (·.customs))

end Kindred
