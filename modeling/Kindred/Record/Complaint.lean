/-!
# Complaints about loose data

What is wrong with a value that should become part of a record, and where it stands.

- `Place`: the way from the whole value to the part.
- `Cause`: what is wrong with a part.
- `Complaint`, `Rejection`: one complaint, and all complaints about one value.
-/

namespace Kindred.Record

/-- A step on the way to a part of a value. -/
inductive Step where
  | name (s : String)
  | index (n : Int)
deriving DecidableEq, Repr

/-- The way from the whole value to a part. -/
abbrev Place := List Step

/-- What is wrong with a part. -/
inductive Cause where
  | missing
  | notText
  | notUnicode
  | notInt
  | intUnreadable
  | intFraction
  | intTooLong
  | intUnwritable
  | notFinite
  | notBool
  | boolUnreadable
  | notNumber
  | numberUnreadable
  | notList
  | notMap
  | notRecord (model : String)
  | belowZero
  | notOneOf (options : List String)
  | notJson
deriving DecidableEq, Repr

/-- The short name of a cause. -/
def Cause.kind : Cause → String
  | missing => "missing"
  | notText => "string_type"
  | notUnicode => "string_unicode"
  | notInt => "int_type"
  | intUnreadable => "int_parsing"
  | intFraction => "int_from_float"
  | intTooLong => "int_parsing_size"
  | intUnwritable => "value_error"
  | notFinite => "finite_number"
  | notBool => "bool_type"
  | boolUnreadable => "bool_parsing"
  | notNumber => "float_type"
  | numberUnreadable => "float_parsing"
  | notList => "list_type"
  | notMap => "dict_type"
  | notRecord _ => "model_type"
  | belowZero => "greater_than_equal"
  | notOneOf _ => "literal_error"
  | notJson => "json_invalid"

/-- Options between single quotes, with `or` in front of the last one. -/
def optionsText : List String → String
  | [] => ""
  | [a] => "'" ++ a ++ "'"
  | [a, b] => "'" ++ a ++ "' or '" ++ b ++ "'"
  | a :: rest => "'" ++ a ++ "', " ++ optionsText rest

/-- The words for a cause. They name lists and maps differently when the value came as JSON text. -/
def Cause.message (fromText : Bool) : Cause → String
  | missing => "Field required"
  | notText => "Input should be a valid string"
  | notUnicode =>
    "Input should be a valid string, unable to parse raw data as a unicode string"
  | notInt => "Input should be a valid integer"
  | intUnreadable => "Input should be a valid integer, unable to parse string as an integer"
  | intFraction => "Input should be a valid integer, got a number with a fractional part"
  | intTooLong => "Unable to parse input string as an integer, exceeded maximum size"
  | intUnwritable =>
    "Value error, Exceeds the limit (4300 digits) for integer string conversion; use " ++
      "sys.set_int_max_str_digits() to increase the limit"
  | notFinite => "Input should be a finite number"
  | notBool => "Input should be a valid boolean"
  | boolUnreadable => "Input should be a valid boolean, unable to interpret input"
  | notNumber => "Input should be a valid number"
  | numberUnreadable => "Input should be a valid number, unable to parse string as a number"
  | notList => if fromText then "Input should be a valid array" else "Input should be a valid list"
  | notMap => if fromText then "Input should be an object" else "Input should be a valid dictionary"
  | notRecord model =>
    if fromText then "Input should be an object"
    else "Input should be a valid dictionary or instance of " ++ model
  | belowZero => "Input should be greater than or equal to 0"
  | notOneOf options => "Input should be " ++ optionsText options
  | notJson => ""

/-- A complaint about one part. -/
structure Complaint where
  place : Place
  cause : Cause
deriving DecidableEq, Repr

/-- The complaint seen from one step further out. -/
def Complaint.under (step : Step) (c : Complaint) : Complaint :=
  { c with place := step :: c.place }

/-- All complaints about a value that should have become a record. -/
structure Rejection where
  /-- The name of the record. -/
  model : String
  /-- Whether the value came as JSON text. -/
  fromText : Bool
  complaints : List Complaint
deriving DecidableEq, Repr

end Kindred.Record
