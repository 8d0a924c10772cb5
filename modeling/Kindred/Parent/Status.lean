import Kindred.Record.Check
import Kindred.Sibling.Rules
import Kindred.Sort

/-!
# The parents' status

Which of the parents are alive, found by a roll in a table. Tables may bring statuses of their own
and say who is alive under them.

- `Parent`, `Alive`: a parent, and which of them are alive.
- `StatusRow`: a row of a table.
- `determineStatus`: the status for a number.
- `ParentRules`: the formula and the table, with `ParentRules.eligibility`.
-/

namespace Kindred

open Kindred.Text Kindred.Record

/-- One of the parents. -/
inductive Parent where
  | mother
  | father
deriving DecidableEq, Repr

namespace Parent

/-- The name of a parent. -/
def name : Parent → String
  | mother => "mother"
  | father => "father"

end Parent

/-- Which of the parents are alive. -/
structure Alive where
  mother : Bool
  father : Bool
deriving DecidableEq, Repr

/-- Whether a parent is alive. -/
def Alive.has (a : Alive) : Parent → Bool
  | .mother => a.mother
  | .father => a.father

namespace Status

/-! ### The built-in statuses -/

/-- Both parents live. -/
def bothAlive : String := "both parents alive"

/-- The mother lives, and nobody knows the father. -/
def fatherUnknown : String := "father unknown"

/-- Only the mother lives. -/
def motherAlive : String := "mother alive"

/-- Only the father lives. -/
def fatherAlive : String := "father alive"

/-- Neither parent lives. -/
def bothDead : String := "both dead"

/-- The built-in statuses, and who is alive under them. -/
def builtin : List (String × Alive) :=
  [(bothAlive, ⟨true, true⟩), (fatherUnknown, ⟨true, false⟩), (motherAlive, ⟨true, false⟩),
   (fatherAlive, ⟨false, true⟩), (bothDead, ⟨false, false⟩)]

/-- Who is alive under a status; nobody under one that is not built in. -/
def alive (status : String) : Alive := (builtin.lookup status).getD ⟨false, false⟩

end Status

/-! ### Tables -/

/-- A row of a table: numbers that lead to a status. A row may say who is alive under it. -/
structure StatusRow where
  min : Int
  max : Int
  result : String
  motherAlive : Option Bool := none
  fatherAlive : Option Bool := none
deriving DecidableEq, Repr

namespace StatusRow

/-- Whether a number lies in the row. -/
def holds (r : StatusRow) (n : Number) : Bool :=
  Number.le (.int r.min) n && Number.le n (.int r.max)

/-- Whether an integer lies in the row. -/
def contains (r : StatusRow) (n : Int) : Bool := r.holds (.int n)

/-- For integers this is the usual order. -/
theorem contains_eq (r : StatusRow) (n : Int) :
    r.contains n = (decide (r.min ≤ n) && decide (n ≤ r.max)) := by
  simp [contains, holds]

/-- Who is alive under the status of the row. -/
def eligibility (r : StatusRow) : Alive :=
  let usual := Status.alive r.result
  ⟨r.motherAlive.getD usual.mother, r.fatherAlive.getD usual.father⟩

/-- Builds a row from its parts. -/
def build (es : Fields) : Checked StatusRow :=
  StatusRow.mk <$> es.required ["min"] int
    <*> es.required ["max"] int
    <*> es.required ["result"] text
    <*> es.optional ["mother_alive", "motherAlive"] bool
    <*> es.optional ["father_alive", "fatherAlive"] bool

/-- Reads a row. -/
def check : Check StatusRow := record "ParentStatusRange" build

/-- The row as loose data. -/
def toData (r : StatusRow) : Data :=
  .record [("min", .int r.min), ("max", .int r.max), ("result", .text r.result),
    ("mother_alive", .ofOption .bool r.motherAlive),
    ("father_alive", .ofOption .bool r.fatherAlive)]

/-- The table that is used where none is given. -/
def defaults : List StatusRow :=
  [{ min := 1, max := 60, result := Status.bothAlive },
   { min := 61, max := 80, result := Status.fatherUnknown },
   { min := 81, max := 88, result := Status.motherAlive },
   { min := 89, max := 95, result := Status.fatherAlive },
   { min := 96, max := 999, result := Status.bothDead }]

end StatusRow

/-- The rows in the order in which they are tried: those with the greatest upper bound first, and
among those with the same bound in the order of the table. -/
def greatestFirst (table : List StatusRow) : List StatusRow :=
  sortBy (fun a b => b.max ≤ a.max) table

/-- The row that a number leads to. If no row holds the number it is the last one. -/
def selectRow? (table : List StatusRow) (n : Int) : Option StatusRow :=
  (greatestFirst table).find? (·.contains n) <|> table.getLast?

/-- The status that a number leads to. -/
def determineStatus (table : List StatusRow) (n : Int) : String :=
  ((selectRow? table n).map (·.result)).getD Status.bothAlive

/-! ### Rules -/

/-- The formula for the roll, and the table that it is looked up in. -/
structure ParentRules where
  formula : String := "1T100 + characterApparentAge"
  table : List StatusRow := StatusRow.defaults
deriving DecidableEq, Repr

/-- Whether an entry of a record was left empty: nothing, an empty text or an empty list. -/
def isLeftEmpty : Data → Bool
  | .null => true
  | .text s => s.isEmpty
  | .list ds => ds.isEmpty
  | _ => false

namespace ParentRules

/-- Accepts texts, and numbers as their text; all else counts as the default. -/
def checkFormula : Check String
  | .text s => .ok s
  | .int n => .ofExcept (textOfInt n)
  | .float x => .ok (Number.float x).text
  | _ => .ok "1T100 + characterApparentAge"

/-- Reads a table. Without a row that is of use the default table stands in. -/
def checkTable : Check (List StatusRow)
  | .list ds =>
    let (rows, remarks) := usableRows "parentFormula.table" StatusRow.check 0 ds
    ⟨remarks, .ok (if rows.isEmpty then StatusRow.defaults else rows)⟩
  | _ => .ok StatusRow.defaults

/-- Builds rules from their parts. Entries left empty count as absent. -/
def build (es : Fields) : Checked ParentRules :=
  let usable : Fields := (Data.withoutRepeats es).filter fun (_, d) => !isLeftEmpty d
  ParentRules.mk
    <$> usable.withDefault ["formula"] checkFormula "1T100 + characterApparentAge"
    <*> usable.withDefault ["table"] checkTable StatusRow.defaults

/-- Reads rules. -/
def check : Check ParentRules := record "ParentFormula" build

/-- The rules as loose data. -/
def toData (r : ParentRules) : Data :=
  .record [("formula", .text r.formula), ("table", .list (r.table.map StatusRow.toData))]

/-- Who is alive under a status: by the first row with that status, or as usual. -/
def eligibility (r : ParentRules) (status : String) : Alive :=
  match r.table.find? (·.result == status) with
  | some row => row.eligibility
  | none => Status.alive status

/-- Whether a parent is alive under a status, so that an age can be rolled. -/
def isEligible (r : ParentRules) (p : Parent) (status : String) : Bool :=
  (r.eligibility status).has p

end ParentRules

end Kindred
