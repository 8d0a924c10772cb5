/-!
# Log records

Remarks on things that went wrong or need attention, apart from the results.

- `Level`: how grave a remark is, and `threshold?`, which reads a least gravity.
- `Origin`: the part of the program that makes it.
- `Remark`: one record.
-/

namespace Kindred

/-- How grave a remark is. -/
inductive Level where
  | info
  | warning
deriving DecidableEq, Repr

namespace Level

/-- The name of a level in a log. -/
def name : Level → String
  | info => "INFO"
  | warning => "WARNING"

/-- The rank of a level; a threshold lets through what is not below it. -/
def rank : Level → Nat
  | info => 20
  | warning => 30

/-- The names of thresholds with their ranks. -/
def thresholds : List (String × Nat) :=
  [("CRITICAL", 50), ("FATAL", 50), ("ERROR", 40), ("WARN", 30), ("WARNING", 30), ("INFO", 20),
   ("DEBUG", 10), ("NOTSET", 0)]

/-- The rank of a threshold. -/
def threshold? (name : String) : Option Nat := thresholds.lookup name

end Level

/-- The part of the program that makes a remark. -/
inductive Origin where
  | formulas
  | ages
  | family
  | rerolls
  | records
deriving DecidableEq, Repr

/-- The name under which a part of the program logs. -/
def Origin.name : Origin → String
  | formulas => "eonchar.engine.expr"
  | ages => "eonchar.engine.ages"
  | family => "eonchar.engine.family"
  | rerolls => "eonchar.engine.rerolls"
  | records => "eonchar.engine.schema_models"

/-- One log record. -/
structure Remark where
  level : Level
  origin : Origin
  message : String
deriving DecidableEq, Repr

/-- The text of a log record. -/
def Remark.text (r : Remark) : String :=
  r.level.name ++ " " ++ r.origin.name ++ ": " ++ r.message

end Kindred
