import Kindred.Age.Mapping
import Kindred.Formula.Evaluate
import Kindred.Formula.Rounding

/-!
# Converting ages

- `actualToApparent`: how old someone looks. A formula comes first, then the first bracket that
  holds the age, then the age itself.
- `apparentToActual`: an age at which someone looks that old, drawn by chance where brackets leave a
  choice.
- `characterAge`: the age of a new character.
- `ageBonus`: the bonus that comes with an age.
-/

namespace Kindred

open Kindred.Text

variable {σ : Type}

/-- The age that a formula gives. One that fails is reported and gives none. -/
def formulaAge (d : Dialect) (formula name : String) (age : Int) : Roll σ (Option Int) := do
  let result ← ((some <$> evaluateStrict d [(name, .int age)] formula).orElseFormula fun why => do
    -- a record that cannot be written is left out
    if let .ok digits := writeNumeral age then
      Roll.remark .warning .ages (d.name ++ " formula " ++ quotedString formula ++ " failed for " ++
        name ++ "=" ++ digits ++ ": " ++ why.message)
    Roll.note "Age" (d.name ++ " formula failed (" ++ why.message ++ "); falling back")
    return none)
  match result with
  | none => return none
  | some e => return some (← Roll.ofExcept (clampAge e.value))

/-- The age that the formula of a mapping gives, if there is one that works. -/
def mappedAge (d : Dialect) (formula : Option String) (name : String) (age : Int) :
    Roll σ (Option Int) :=
  match formula with
  | none => return none
  | some "" => return none
  | some f => formulaAge d f name age

/-- How old someone of an age looks by the table, or without one. -/
def tableApparent (m : Option AgeMapping) (age : Int) : Except Fault Int :=
  match m.bind fun m => m.table.find? (·.contains (.int age)) with
  | some b => .ok (max 0 b.apparent)
  | none => clampAge (.int age)

/-- How old someone of an age looks. -/
def actualToApparent (m : Option AgeMapping) (age : Int) : Roll σ Int := do
  match ← mappedAge .apparentAge (m.bind (·.apparentFormula)) "actualAge" age with
  | some apparent => return apparent
  | none => Roll.ofExcept (tableApparent m age)

/-- The ages of a bracket that are not negative, from and to; at least one. -/
def AgeBracket.span (b : AgeBracket) : Int × Int :=
  (max 0 b.minActual, max (max 0 b.minActual) b.maxActual)

/-- The span of ages is not empty. -/
theorem AgeBracket.span_le (b : AgeBracket) : b.span.1 ≤ b.span.2 := by
  simp only [span]; omega

/-- Draws an age from one of the brackets, each bracket being as likely as the others. -/
def drawAge (brackets : List AgeBracket) (apparent : Int) : Roll σ Int := do
  match brackets with
  | [] => return max 0 apparent
  | first :: _ =>
    let i ← Roll.drawInt 0 (brackets.length - 1)
    let chosen := brackets.getD i.toNat first
    Roll.drawInt chosen.span.1 chosen.span.2

/-- An age at which someone looks that old. -/
def apparentToActual (m : Option AgeMapping) (apparent : Int) : Roll σ Int := do
  match ← mappedAge .actualAge (m.bind (·.actualFormula)) "apparentAge" apparent with
  | some age => return age
  | none =>
    let table := (m.map (·.table)).getD []
    drawAge (table.filter fun b => b.apparent = apparent) apparent

/-! ### A new character -/

/-- The least ages with a bonus, the greatest first. -/
def ageBonuses : List (Int × Int) :=
  [(100, 45), (90, 40), (80, 35), (70, 30), (60, 25), (50, 20), (40, 15), (30, 10)]

/-- The bonus that comes with an age. -/
def ageBonus (age : Int) : Int :=
  ((ageBonuses.find? fun (least, _) => least ≤ age).map (·.2)).getD 0

/-- The age of a new character with what was rolled for it. -/
structure CharacterAge where
  /-- The base that the dice are added to. -/
  base : Int
  roll : OpenEnded
  age : Int
  apparent : Int
  bonus : Int
deriving Repr

/-- A list of numbers between square brackets. -/
def listText (ns : List Int) : Except Fault String := do
  return "[" ++ ", ".intercalate (← ns.mapM writeNumeral) ++ "]"

/-- Rolls the age of a new character: a base and three open-ended dice. -/
def characterAge (base : Int) (m : Option AgeMapping) : Roll σ CharacterAge := do
  let roll ← openEnded 3
  let age := max 0 (base + roll.total)
  let apparent ← actualToApparent m age
  let bonus := ageBonus age
  Roll.tell "Age" do
    return "BIL " ++ (← writeNumeral base) ++ " + Ob3T6 " ++ (← listText roll.all) ++ " = " ++
      (← writeNumeral age) ++ " (looks " ++ (← writeNumeral apparent) ++ "), bonus " ++
      (← writeNumeral bonus)
  return ⟨base, roll, age, apparent, bonus⟩

end Kindred
