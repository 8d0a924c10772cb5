import Kindred.Fault
import Kindred.Record.Check

/-!
# Reroll tokens

Three parts of a family may be rerolled: the older siblings, the younger siblings and the parents.
Each of them pays one token, at its first reroll. A first reroll without tokens left is allowed; it
costs nothing, and the part still has to pay later.

- `Facet`: a part that may be rerolled.
- `RerollBudget`: the tokens left, and the parts that have paid.
- `RerollBudget.charge`: accounts for one reroll.
-/

namespace Kindred

open Kindred.Record

/-- A part of a family that may be rerolled. -/
inductive Facet where
  | older
  | younger
  | parent
deriving DecidableEq, Repr

namespace Facet

/-- The name of a part. -/
def name : Facet → String
  | older => "older"
  | younger => "younger"
  | parent => "parent"

end Facet

/-- The tokens left, and the parts that have paid. -/
structure RerollBudget where
  remaining : Nat := 0
  olderUsed : Bool := false
  youngerUsed : Bool := false
  parentUsed : Bool := false
deriving DecidableEq, Repr

namespace RerollBudget

/-- Whether a part has paid. -/
def isUsed (b : RerollBudget) : Facet → Bool
  | .older => b.olderUsed
  | .younger => b.youngerUsed
  | .parent => b.parentUsed

/-- The budget with a part marked as paid. -/
def markUsed (b : RerollBudget) : Facet → RerollBudget
  | .older => { b with olderUsed := true }
  | .younger => { b with youngerUsed := true }
  | .parent => { b with parentUsed := true }

/-- Whether a reroll of a part costs a token. -/
def pays (b : RerollBudget) (f : Facet) : Bool := !b.isUsed f && b.remaining != 0

/-- Whether a reroll of a part would cost a token if there was one. -/
def lacks (b : RerollBudget) (f : Facet) : Bool := !b.isUsed f && b.remaining == 0

/-- The budget after one reroll of a part. -/
def charge (b : RerollBudget) (f : Facet) : RerollBudget :=
  if b.pays f then { b with remaining := b.remaining - 1 }.markUsed f else b

/-- Marking a part does not change the tokens left. -/
@[simp] theorem remaining_markUsed (b : RerollBudget) (f : Facet) :
    (b.markUsed f).remaining = b.remaining := by cases f <;> rfl

/-- A marked part has paid, and the other parts stay as they were. -/
@[simp] theorem isUsed_markUsed (b : RerollBudget) (f g : Facet) :
    (b.markUsed f).isUsed g = (decide (f = g) || b.isUsed g) := by
  cases f <;> cases g <;> simp [markUsed, isUsed]

/-- A budget with a number of tokens, of which no part has paid one. -/
def ofTokens (n : Int) : Except Fault RerollBudget :=
  if 0 ≤ n then .ok { remaining := n.toNat }
  else .error (.rejected ⟨"RerollBudget", false, [⟨[.name "remaining"], .belowZero⟩]⟩)

/-- Builds a budget from its parts. -/
def build (es : Fields) : Checked RerollBudget :=
  RerollBudget.mk <$> es.withDefault ["remaining"] natural 0
    <*> es.withDefault ["older_used"] bool false
    <*> es.withDefault ["younger_used"] bool false
    <*> es.withDefault ["parent_used"] bool false

/-- Reads a budget. -/
def check : Check RerollBudget := record "RerollBudget" build

/-- The budget as loose data. -/
def toData (b : RerollBudget) : Data :=
  .record [("remaining", .int b.remaining), ("older_used", .bool b.olderUsed),
    ("younger_used", .bool b.youngerUsed), ("parent_used", .bool b.parentUsed)]

end RerollBudget

end Kindred
