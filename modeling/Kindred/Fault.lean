import Kindred.Formula.Error
import Kindred.Json.Flaw
import Kindred.Record.Complaint
import Kindred.Text.Markup
import Kindred.Yaml.Flaw

/-!
# Faults

Everything that can end an operation without a result. A formula that fails is the mildest of them:
most operations go on with a value in its place.

- `Fault`: the causes.
- `Fault.message`: the words for each of them.
- `Fault.ofJson`, `Fault.ofYaml`: flaws of files as faults.
-/

namespace Kindred

open Kindred.Text

/-- What is listed by name in the content. -/
inductive Entry where
  | category
  | race
deriving DecidableEq, Repr

/-- The words for a kind of entry. -/
def Entry.label : Entry → String
  | category => "race category"
  | race => "race"

/-- Where parts of a file lie too deep inside one another. -/
inductive Nesting where
  | jsonList
  | jsonMap
  | yaml
deriving DecidableEq, Repr

/-- The words for such a place. -/
def Nesting.label : Nesting → String
  | jsonList => " while decoding a JSON array from a unicode string"
  | jsonMap => " while decoding a JSON object from a unicode string"
  | yaml => ""

/-- Why an operation ends without a result. -/
inductive Fault where
  /-- A formula has no value. -/
  | formula (why : FormulaError)
  /-- A text is no dice notation. -/
  | notDice (text : String)
  /-- A draw was asked for from a range without numbers. -/
  | emptyRange (low high : Int)
  /-- An integer is beyond every double. -/
  | tooLarge
  /-- A quotient of integers is beyond every double. -/
  | quotientTooLarge
  /-- An infinite double has no integer near it. -/
  | infinite
  /-- What is not a number has no integer near it. -/
  | undefined
  /-- A number of dice has more digits than can be read. -/
  | numeralTooLong (digits : Nat)
  /-- An integer has more digits than can be written. -/
  | integerTooLong
  /-- A chain of sixes was longer than the source is followed. -/
  | endless
  /-- There are no rules for siblings, or for parents, to take a part from. -/
  | noRules (part : String)
  /-- A name that is looked up is not there. -/
  | unknownName (name : String)
  /-- A part of the family that has no rerolls of its own. -/
  | unknownFacet (name : String)
  /-- The content names something twice. -/
  | duplicate (entry : Entry) (name path : String)
  /-- A value cannot become a record. -/
  | rejected (why : Record.Rejection)
  /-- A file is not JSON. -/
  | notJson
  /-- A file is not YAML. -/
  | notYaml
  /-- Parts of a file lie too deep inside one another. -/
  | tooDeep (place : Nesting)
  /-- A scalar of a YAML file cannot be what its tag says. -/
  | scalar (why : Yaml.ScalarFlaw)
  /-- A level of log records that does not exist. -/
  | unknownLevel (name : String)
  /-- The home folder of somebody is not known. -/
  | homeUnknown
  /-- A text in a table closes a tag that is not open. -/
  | markup (why : MarkupFlaw)
deriving DecidableEq, Repr

/-- The words for a flaw of markup. -/
def markupMessage : MarkupFlaw → String
  | .unmatched content place =>
    "closing tag '[" ++ content ++ "]' at position " ++ (Number.int place).text ++
      " doesn't match any open tag"
  | .nothingOpen place =>
    "closing tag '[/]' at position " ++ (Number.int place).text ++ " has nothing to close"

/-- The words where an integer has too many digits, with a remark on how many these are. -/
def tooLongMessage (remark : String) : String :=
  "Exceeds the limit (4300 digits) for integer string conversion" ++ remark ++
    "; use sys.set_int_max_str_digits() to increase the limit"

/-- The words for an empty range. They hold its bounds, where these can be written. -/
def emptyRangeMessage (low high : Int) : String :=
  if Short low ∧ Short (high + 1) ∧ Short (high - low + 1) then
    "empty range for randrange() (" ++ (Number.int low).text ++ ", " ++
      (Number.int (high + 1)).text ++ ", " ++ (Number.int (high - low + 1)).text ++ ")"
  else tooLongMessage ""

/-- The words for a fault. -/
def Fault.message : Fault → String
  | formula why => why.message
  | notDice text => "Unsupported dice notation: " ++ quotedString text
  | emptyRange low high => emptyRangeMessage low high
  | tooLarge => "int too large to convert to float"
  | quotientTooLarge => "integer division result too large for a float"
  | infinite => "cannot convert float infinity to integer"
  | undefined => "cannot convert float NaN to integer"
  | numeralTooLong digits =>
    tooLongMessage (": value has " ++ (Number.int digits).text ++ " digits")
  | integerTooLong => tooLongMessage ""
  | endless => "the chain of sixes does not end"
  | noRules part => "'NoneType' object has no attribute '" ++ part ++ "'"
  | unknownName name => name
  | unknownFacet name => "'RerollBudget' object has no attribute '" ++ name ++ "_used'"
  | duplicate entry name path => "Duplicate " ++ entry.label ++ " " ++ name ++ " in " ++ path
  | rejected why => why.model
  | notJson => ""
  | notYaml => ""
  | scalar why => why.message
  | tooDeep place => "maximum recursion depth exceeded" ++ place.label
  | unknownLevel name => "Unknown level: " ++ quotedString name
  | homeUnknown => "Could not determine home directory."
  | markup why => markupMessage why

/-- The fault that a flaw of JSON text is. -/
def Fault.ofJson : Json.Flaw → Fault
  | .malformed => notJson
  | .numeralTooLong digits => numeralTooLong digits
  | .listTooDeep => tooDeep .jsonList
  | .mapTooDeep => tooDeep .jsonMap

/-- The fault that a flaw of YAML text is. -/
def Fault.ofYaml : Yaml.Flaw → Fault
  | .malformed => notYaml
  | .numeralTooLong digits => numeralTooLong digits
  | .tooDeep => tooDeep .yaml
  | .scalar why => scalar why

end Kindred
