import Kindred.Dice.Basic
import Kindred.Formula.Names

/-!
# Evaluating formulas

A formula is evaluated in three steps: names are replaced by values, dice are rolled from left to
right and replaced by their totals, and the arithmetic that is left is worked out.

- `Evaluation`: the value of a formula with what was rolled for it.
- `rollPieces`: the dice of a text.
- `evaluateStrict`: fails where the formula does.
- `evaluateFormula`: puts zero in the place of a formula that fails, and says so.
-/

namespace Kindred

open Kindred.Text Kindred.Formula

variable {σ : Type}

/-- The value of a formula with what was rolled for it. -/
structure Evaluation where
  formula : String
  value : Number := 0
  /-- The formula after its names and dice were replaced. -/
  expression : String := ""
  ok : Bool := true
  error : Option String := none
  /-- The notations rolled, with their totals. -/
  dice : List (String × Int) := []
  /-- The first open-ended roll. -/
  openEnded : Option OpenEnded := none
deriving Repr

/-- A text whose dice were rolled. -/
structure Rolled where
  text : List Char := []
  dice : List (String × Int) := []
  openEnded : Option OpenEnded := none
deriving Repr

/-- The total of a notation, with the roll if it is open-ended. -/
def rollToken (t : DiceToken) : Roll σ (Int × Option OpenEnded) := do
  let count ← Roll.ofExcept t.readCount
  match t.form with
  | .openEnded =>
    let r ← Kindred.openEnded count
    return (r.total, some r)
  | form =>
    let results ← dice count form.sides
    return (totalOf results, none)

/-- Rolls the dice of a text from left to right. Forms that the dialect does not roll stay as they
are. -/
def rollPieces (d : Dialect) : List Piece → Roll σ Rolled
  | [] => return {}
  | .char c :: ps => do
    let r ← rollPieces d ps
    return { r with text := c :: r.text }
  | .dice t :: ps =>
    if d.dice.contains t.form then do
      let (total, own) ← rollToken t
      let digits ← Roll.ofExcept (writeNumeral total)
      let r ← rollPieces d ps
      return { text := digits.toList ++ r.text, dice := (String.ofList t.text, total) :: r.dice,
               openEnded := own.or r.openEnded }
    else do
      let r ← rollPieces d ps
      return { r with text := t.text ++ r.text }

/-- The text of a formula with its names replaced. -/
def replaceNames (d : Dialect) (bs : Bindings) (formula : String) : Except Fault (List Char) :=
  let bare := trim formula.toList
  let bare := if d.functions then dropMathPrefix bare else bare
  substitute (bs.within d.parameters) bare

/-- The value of a formula, or the fault that keeps it from having one. -/
def evaluateStrict (d : Dialect) (bs : Bindings) (formula : String) : Roll σ Evaluation := do
  if isBlankString formula then throw (.formula .emptyFormula)
  let named ← Roll.ofExcept (replaceNames d bs formula)
  let rolled ← rollPieces d (pieces named)
  let expression := String.ofList rolled.text
  let value ← Roll.evaluate d expression
  return { formula := formula, value := value, expression := expression, dice := rolled.dice,
           openEnded := rolled.openEnded }

/-- The strict evaluation of a text that is not blank replaces its names, rolls its dice and works
out what that gives. -/
theorem evaluateStrict_of_not_blank {d : Dialect} {bs : Bindings} {s : String}
    (h : isBlankString s = false) : (evaluateStrict d bs s : Roll σ Evaluation) = do
      let named ← Roll.ofExcept (replaceNames d bs s)
      let rolled ← rollPieces d (pieces named)
      let value ← Roll.evaluate d (String.ofList rolled.text)
      return { formula := s, value := value, expression := String.ofList rolled.text,
               dice := rolled.dice, openEnded := rolled.openEnded } := by
  unfold evaluateStrict
  rw [h]
  rfl

/-- The value of a formula. One that fails counts as zero and is reported. -/
def evaluateFormula (d : Dialect) (bs : Bindings) (formula : String) : Roll σ Evaluation :=
  (evaluateStrict d bs formula).orElseFormula fun why => do
    Roll.remark .warning .formulas ("formula " ++ quotedString formula ++ " (" ++ d.name ++
      ") failed: " ++ why.message)
    Roll.note "Formula" (d.name ++ " formula " ++ quotedString formula ++ " failed (" ++
      why.message ++ "); using 0")
    return { formula := formula, ok := false, error := some why.message }

end Kindred
