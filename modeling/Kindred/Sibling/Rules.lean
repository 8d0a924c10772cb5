import Kindred.Record.Check
import Kindred.Text.Blank

/-!
# Rules for siblings

The formulas by which siblings are rolled.

- `SiblingRules`: the five texts, with their defaults.
- `SiblingRules.check`: reads rules; what is malformed gives way to a default.
-/

namespace Kindred

open Kindred.Text Kindred.Record

/-- The formulas for one side of siblings. -/
structure SiblingRules where
  /-- The number of litters on one side. -/
  litters : String := "Ob1T6-2"
  /-- The number of siblings in a litter. -/
  litterSize : String := "1"
  /-- The apparent age of an older litter. -/
  olderAge : String := "characterAge + Ob1T6"
  /-- The apparent age of a younger litter. -/
  youngerAge : String := "characterAge - Ob1T6"
  /-- How a gender is found. -/
  gender : String := "0.5"
deriving DecidableEq, Repr

/-- Whether a value has a text, or needs none to stand for a formula or not: an integer may be too
long to be written. -/
def isWritable : Data → Bool
  | .int n => Short n
  | _ => true

/-- Whether a value that is writable can stand for a formula: a number, or a text that is not
blank. -/
def isFormula : Data → Bool
  | .text s => !isBlankString s
  | .int _ => true
  | .float _ => true
  | _ => false

/-- Accepts texts, and numbers as their text. -/
def textOrNumber : Check String
  | .text s => .ok s
  | .int n => .ofExcept (textOfInt n)
  | .float x => .ok (Number.float x).text
  | _ => .complain .notText

namespace SiblingRules

/-- Builds rules from entries that can stand for a formula. -/
def ofFormulas (usable : Fields) : Checked SiblingRules :=
  let field (names : List String) (default : String) :=
    usable.withDefault names textOrNumber default
  SiblingRules.mk <$> field ["number_of_litters", "numberOfLitters"] "Ob1T6-2"
    <*> field ["litter_size", "litterSize"] "1"
    <*> field ["older_sibling_age_formula", "olderSiblingAgeFormula"] "characterAge + Ob1T6"
    <*> field ["younger_sibling_age_formula", "youngerSiblingAgeFormula"] "characterAge - Ob1T6"
    <*> field ["gender_formula", "genderFormula"] "0.5"

/-- Builds rules from their parts. Entries that cannot stand for a formula count as absent. To tell
them apart every entry is written, whatever its name is. -/
def build (es : Fields) : Checked SiblingRules :=
  let entries : Fields := Data.withoutRepeats es
  if entries.all fun (_, d) => isWritable d then
    ofFormulas (entries.filter fun (_, d) => isFormula d)
  else .complain .intUnwritable

/-- Reads rules. -/
def check : Check SiblingRules := record "SiblingFormula" build

/-- The rules as loose data. -/
def toData (r : SiblingRules) : Data :=
  .record [("number_of_litters", .text r.litters), ("litter_size", .text r.litterSize),
    ("older_sibling_age_formula", .text r.olderAge),
    ("younger_sibling_age_formula", .text r.youngerAge), ("gender_formula", .text r.gender)]

end SiblingRules

end Kindred
