import Kindred.Dice.Token
import Kindred.Numeral
import Kindred.Roll

/-!
# Rolling dice

- `die`, `dice`: one die, and several.
- `Percentile`: two ten-sided dice read as two digits.
- `OpenEnded`: six-sided dice of which every six adds one more.
- `DiceRoll`: the roll of a notation.
-/

namespace Kindred

open Kindred.Text

variable {σ : Type}

/-- One die with a number of sides. -/
def die (sides : Int) : Roll σ Int := Roll.drawInt 1 sides

/-- A computation several times in a row. -/
def times (x : Roll σ α) : Nat → Roll σ (List α)
  | 0 => return []
  | n + 1 => do
    let a ← x
    let rest ← times x n
    return a :: rest

/-! ### Two ten-sided dice -/

/-- Two ten-sided dice read as the digits of a number; two zeros are a hundred. -/
structure Percentile where
  tens : Int
  ones : Int
  value : Int
deriving DecidableEq, Repr

/-- The number that two digits make. -/
def Percentile.ofDigits (tens ones : Int) : Percentile :=
  ⟨tens, ones, if tens = 0 ∧ ones = 0 then 100 else tens * 10 + ones⟩

/-- Rolls two ten-sided dice. -/
def percentile : Roll σ Percentile := do
  let tens ← die 10
  let ones ← die 10
  return .ofDigits (tens - 1) (ones - 1)

/-- Several dice. A hundred sides are two ten-sided dice each. -/
def dice (count : Nat) (sides : Int) : Roll σ (List Int) :=
  if sides = 100 then times (do return (← percentile).value) count else times (die sides) count

/-- The total of several results. -/
def totalOf (results : List Int) : Int := results.foldr (· + ·) 0

/-- Without results the total is zero. -/
@[simp] theorem totalOf_nil : totalOf [] = 0 := rfl

/-- A result adds to the total. -/
@[simp] theorem totalOf_cons (n : Int) (ns : List Int) : totalOf (n :: ns) = n + totalOf ns := rfl

/-- The totals of two rows of results add up. -/
@[simp] theorem totalOf_append (ns ms : List Int) :
    totalOf (ns ++ ms) = totalOf ns + totalOf ms := by
  induction ns with
  | nil => simp
  | cons n ns ih => simp only [List.cons_append, totalOf_cons, ih]; omega

/-! ### Open-ended rolls -/

/-- An open-ended roll: the dice of the throw, the dice that the sixes added, and their total. -/
structure OpenEnded where
  initial : List Int
  extra : List Int
  total : Int
  /-- Whether the throw may be a perfect success. -/
  perfect : Bool
  /-- Whether the throw may be a fumble. -/
  fumble : Bool
deriving DecidableEq, Repr

namespace OpenEnded

/-- All dice in the order in which they were rolled. -/
def all (r : OpenEnded) : List Int := r.initial ++ r.extra

/-- A single die may be perfect with a one, two or three; several dice with ones on all but one of
them. -/
def isPerfect (initial : List Int) : Bool :=
  match initial with
  | [r] => r == 1 || r == 2 || r == 3
  | rs => (rs.count 1 : Int) == (rs.length : Int) - 1

/-- The roll with the given dice. Two sixes in the throw may be a fumble. -/
def ofDice (initial extra : List Int) : OpenEnded :=
  ⟨initial, extra, totalOf initial + totalOf extra, isPerfect initial, 2 ≤ initial.count 6⟩

end OpenEnded

/-- The dice that one six adds: one die, and another one as long as sixes come. -/
def chain : Nat → Roll σ (List Int)
  | 0 => throw .endless
  | fuel + 1 => do
    let r ← die 6
    if r = 6 then
      let rest ← chain fuel
      return r :: rest
    else return [r]

/-- The dice that all sixes of a throw add. -/
def chains (fuel : Nat) : List Int → Roll σ (List Int)
  | [] => return []
  | r :: rs =>
    if r = 6 then do
      let added ← chain fuel
      let rest ← chains fuel rs
      return added ++ rest
    else chains fuel rs

/-- Rolls a number of six-sided dice, open-ended. -/
def openEnded (count : Nat) : Roll σ OpenEnded := do
  let initial ← times (die 6) count
  let fuel ← Roll.patience
  let extra ← chains fuel initial
  return .ofDice initial extra

/-! ### Rolling a notation -/

/-- The number of dice of a notation, if it is not too long to be read. -/
def DiceToken.readCount (t : DiceToken) : Except Fault Nat := readNumeral t.digits

/-- The number of sides of a form of dice. -/
def DiceForm.sides : DiceForm → Int
  | openEnded => 6
  | t100 => 100
  | t10 => 10
  | t6 => 6

/-- The roll of a notation. -/
structure DiceRoll where
  /-- The notation as it was written. -/
  text : String
  form : DiceForm
  results : List Int
  total : Int
  /-- The pairs of dice of a roll with a hundred sides. -/
  percentiles : Option (List Percentile)
  openEnded : Option OpenEnded
deriving DecidableEq, Repr

/-- Rolls a text that is one dice notation. -/
def rollText (s : String) : Roll σ DiceRoll := do
  match DiceToken.ofText? s with
  | none => throw (.notDice s)
  | some t =>
    let count ← Roll.ofExcept t.readCount
    let text := trimmed s
    match t.form with
    | .openEnded =>
      let r ← Kindred.openEnded count
      return ⟨text, .openEnded, [r.total], r.total, none, some r⟩
    | .t100 =>
      let ps ← times percentile count
      let results := ps.map (·.value)
      return ⟨text, .t100, results, totalOf results, some ps, none⟩
    | form =>
      let results ← dice count form.sides
      return ⟨text, form, results, totalOf results, none, none⟩

end Kindred
