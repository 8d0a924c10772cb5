import Kindred.Chance.Twister
import Kindred.Content.Index
import Kindred.Formula.Evaluate
import Kindred.Sibling.Gender

/-!
# Reviewing content

Content is reviewed as a whole: every record is read, every formula is tried once with sample
values, and everything that is found is listed. Errors make the content invalid; warnings and
remarks do not.

- `checkFormula`: tries one formula.
- `isGenderForm`: whether the text of a gender rule has one of the known forms.
- `Finding`: one thing that was found.
- `Review`, `Content.review`: all that was found in a folder.
-/

namespace Kindred

open Kindred.Text Kindred.Record

/-! ### Trying formulas -/

/-- The value that every name of a dialect has while a formula is tried. -/
def sampleValue : Int := 30

/-- Tries a formula once, with dice of a fixed seed. The answer is the reason why it has no value,
if it has none. -/
def checkFormula (d : Dialect) (formula : String) : Except Fault (Option FormulaError) :=
  let sample := d.parameters.map fun name => (name, Number.int sampleValue)
  match ((evaluateStrict d sample formula).outcome Twister.source
      (World.start (Twister.ofSeed 0))).1 with
  | .ok _ => .ok none
  | .error (.formula why) => .ok (some why)
  | .error f => .error f

/-! ### Forms of gender rules -/

/-- Whether a text is a range of numbers with a label. -/
def isLabelledRange (s : List Char) : Bool := (rangeAt? s).isSome

/-- Whether a text is a number of dice with 6, 10 or 100 sides, and a list of labelled ranges. -/
def isRangeList (s : List Char) : Bool :=
  match spanDigits s with
  | ([], _) => false
  | (_, t :: rest) =>
    isLetter 'T' t && (["6:", "10:", "100:"].any fun sides =>
      sides.toList.isPrefixOf rest && ((rest.drop sides.length).splitOn ',').all isLabelledRange)
  | _ => false

/-- Whether the text of a gender rule has one of the known forms. -/
def isGenderForm (formula : String) : Bool :=
  let s := trim formula.toList
  isChance s || (shareOf? s).isSome || isRangeList s

/-! ### Findings -/

/-- One thing that was found in the content. Paths tell the file, and labels the place in it. -/
inductive Finding where
  /-- A row of a table was left out. -/
  | rowIgnored (remark : String)
  /-- A record was rejected. -/
  | recordRejected (path : Path) (why : Rejection)
  /-- A category occurs again. -/
  | categoryAgain (name : String) (path first : Path)
  /-- A race occurs again. -/
  | raceAgain (name : String) (path : Path)
  /-- A formula has no value. -/
  | formulaFails (label : String) (why : FormulaError)
  /-- The bounds of an age bracket, which are given as texts, are the wrong way round. -/
  | bracketReversed (label : String) (row : Nat) (max min : String)
  /-- The bounds of a row, which are given as texts, are the wrong way round. -/
  | rowReversed (label : String) (row : Nat) (max min : String)
  /-- A gender rule has none of the known forms. -/
  | genderUnknown (label : String) (formula : String)
  /-- A race names a category that does not exist. -/
  | categoryUnknown (race category : String)
deriving Repr

/-- How grave a finding is. -/
inductive Gravity where
  | remark
  | warning
  | error
deriving DecidableEq, Repr

namespace Finding

/-- How grave a finding is. -/
def gravity : Finding → Gravity
  | rowIgnored _ => .remark
  | genderUnknown _ _ => .warning
  | categoryUnknown _ _ => .warning
  | _ => .error

/-- The headline of a rejection: how many complaints there are, and about what. -/
def headline (why : Rejection) : String :=
  let n := why.complaints.length
  (Number.int n).text ++ (if n = 1 then " validation error for " else " validation errors for ") ++
    why.model

/-- A place in a list. -/
def indexed (label : String) (row : Nat) : String := label ++ "[" ++ (Number.int row).text ++ "]"

/-- The words for a finding. -/
def message : Finding → String
  | rowIgnored remark => remark
  | recordRejected path why => path.text ++ ": " ++ headline why
  | categoryAgain name path first =>
    "Duplicate race category " ++ name ++ " in " ++ path.text ++ " (first in " ++ first.text ++ ")"
  | raceAgain name path => "Duplicate race " ++ name ++ " in " ++ path.text
  | formulaFails label why => label ++ ": " ++ why.message
  | bracketReversed label row max min =>
    indexed label row ++ ": maxActualAge " ++ max ++ " < minActualAge " ++ min
  | rowReversed label row max min => indexed label row ++ ": max " ++ max ++ " < min " ++ min
  | genderUnknown label formula =>
    label ++ " " ++ quotedString formula ++ " not recognised; 50/50 will be used"
  | categoryUnknown race category =>
    "Race " ++ race ++ " refers to unknown category " ++ quotedString category ++
      "; defaults will be used"

/-- The line that reports a finding. -/
def line (f : Finding) : String :=
  match f.gravity with
  | .remark => f.message
  | .warning => "[WARN] " ++ f.message
  | .error => "[ERROR] " ++ f.message

end Finding

/-! ### Reviewing one record -/

/-- Tries a formula at a place. -/
def formulaFindings (label : String) (d : Dialect) (formula : String) :
    Except Fault (List Finding) := do
  match ← checkFormula d formula with
  | some why => return [.formulaFails label why]
  | none => return []

/-- Tries a formula that may be absent. -/
def optionalFindings (label : String) (d : Dialect) : Option String → Except Fault (List Finding)
  | none => return []
  | some "" => return []
  | some formula => formulaFindings label d formula

/-- Reports the rows of a table whose bounds are the wrong way round. -/
def reversedFindings (finding : Nat → String → String → Finding) (bounds : List (Int × Int)) :
    Except Fault (List Finding) :=
  (bounds.zipIdx.filter fun ((min, max), _) => max < min).mapM fun ((min, max), i) =>
    return finding i (← writeNumeral max) (← writeNumeral min)

/-- What is found in an age mapping. -/
def mappingFindings (label : String) (m : AgeMapping) : Except Fault (List Finding) := do
  let forward ← optionalFindings (label ++ ".apparentAgeFormula") .apparentAge m.apparentFormula
  let back ← optionalFindings (label ++ ".actualAgeFromApparentFormula") .actualAge m.actualFormula
  let rows ← reversedFindings (.bracketReversed (label ++ ".apparentAgeTable"))
    (m.table.map fun b => (b.minActual, b.maxActual))
  return forward ++ back ++ rows

/-- What is found in rules for siblings. -/
def siblingFindings (label : String) (r : SiblingRules) : Except Fault (List Finding) := do
  let litters ← formulaFindings (label ++ ".numberOfLitters") .sibling r.litters
  let size ← formulaFindings (label ++ ".litterSize") .litterSize r.litterSize
  let older ← formulaFindings (label ++ ".olderSiblingAgeFormula") .sibling r.olderAge
  let younger ← formulaFindings (label ++ ".youngerSiblingAgeFormula") .sibling r.youngerAge
  let gender := if isGenderForm r.gender then []
    else [Finding.genderUnknown (label ++ ".genderFormula") r.gender]
  return litters ++ size ++ older ++ younger ++ gender

/-- What is found in rules for parents. -/
def parentFindings (label : String) (r : ParentRules) : Except Fault (List Finding) := do
  let formula ← formulaFindings (label ++ ".formula") .parentStatus r.formula
  let rows ← reversedFindings (.rowReversed (label ++ ".table"))
    (r.table.map fun row => (row.min, row.max))
  return formula ++ rows

/-- What is found in the rules of a race or a category. -/
def customsFindings (label : String) (c : Customs) : Except Fault (List Finding) := do
  let siblings ← match c.siblings with
    | some r => siblingFindings (label ++ ".siblingFormula") r
    | none => pure []
  let parents ← match c.parents with
    | some r => parentFindings (label ++ ".parentFormula") r
    | none => pure []
  let age ← optionalFindings (label ++ ".parentAgeFormula") .parentAge c.parentAge
  return siblings ++ parents ++ age

/-! ### Reviewing a folder -/

/-- What has been found so far. -/
structure Review where
  findings : List Finding := []
  /-- The names of the categories, each with the file it was last found in. -/
  categories : List (String × Path) := []
  /-- The names of the races, each with the category it names. -/
  races : List (String × String) := []
deriving Repr

namespace Review

/-- Whether nothing speaks against the content. -/
def isValid (r : Review) : Bool := r.findings.all (·.gravity != .error)

/-- The review with more findings. -/
def find (r : Review) (more : List Finding) : Review := { r with findings := r.findings ++ more }

end Review

/-- An entry more under a name, or another value for it. -/
def setEntry (name : String) (a : α) : List (String × α) → List (String × α)
  | [] => [(name, a)]
  | (n, old) :: rest => if n == name then (n, a) :: rest else (n, old) :: setEntry name a rest

/-- Reviewing: what was found before a fault stays found. -/
abbrev Reviewing := EStateM Fault Review

namespace Reviewing

/-- Lists findings. -/
def find (more : List Finding) : Reviewing Unit := modify (·.find more)

/-- A value that is there, or a fault. -/
def ofExcept (x : Except Fault α) : Reviewing α := fun r =>
  match x with
  | .ok a => .ok a r
  | .error f => .error f r

/-- Lists findings that come one after the other, unless a fault ends them. -/
def findAll (x : Except Fault (List Finding)) : Reviewing Unit := do
  find (← ofExcept x)

/-- Reads a record. One that is rejected is listed. -/
def validated (r : Register α) (path : Path) (d : Data) : Reviewing (Option α) := do
  let (remarks, outcome) := validate r.model false r.check d
  find (remarks.map .rowIgnored)
  match outcome with
  | .ok a => return some a
  | .error why =>
    find [.recordRejected path why]
    return none

/-- Reviews a category. -/
def category (path : Path) (d : Data) : Reviewing Unit := do
  match ← validated .categories path d with
  | none => return
  | some c =>
    if let some first := (← get).categories.lookup c.name then
      find [.categoryAgain c.name path first]
    modify fun r => { r with categories := setEntry c.name path r.categories }
    let label := path.text ++ ":" ++ c.name
    findAll do
      return (← mappingFindings label c.mapping) ++ (← customsFindings label c.customs)

/-- Reviews a race. -/
def race (path : Path) (d : Data) : Reviewing Unit := do
  match ← validated .races path d with
  | none => return
  | some a =>
    if ((← get).races.lookup a.name).isSome then find [.raceAgain a.name path]
    modify fun r => { r with races := setEntry a.name a.category r.races }
    findAll (customsFindings (path.text ++ ":" ++ a.name ++ ".metadata") a.metadata.customs)

/-- Reviews the records of a file. -/
def file (root : Path) (one : Path → Data → Reviewing Unit) (f : SourceFile) : Reviewing Unit := do
  let ds ← ofExcept f.records
  ds.forM (one (root.join f.parts))

/-- The races that name a category which does not exist, in the order of their names. -/
def strays (r : Review) : List (String × String) :=
  ((r.races.mergeSort fun a b => !decide (b.1 < a.1)).filter fun (_, category) =>
    !category.isEmpty && (r.categories.lookup category).isNone)

/-- Reviews a folder. -/
def folder (root : Path) (files : List SourceFile) : Reviewing Unit := do
  (sourceFiles Register.categories.folder files).forM (file root category)
  (sourceFiles Register.races.folder files).forM (file root race)
  find ((strays (← get)).map fun (name, category) => .categoryUnknown name category)

end Reviewing

/-- Reviews the content of a folder; what was found before a fault comes with it. -/
def Content.review (root : Path) (files : List SourceFile) : Review × Option Fault :=
  match Reviewing.folder root files {} with
  | .ok _ r => (r, none)
  | .error f r => (r, some f)

end Kindred
