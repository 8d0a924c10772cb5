import Kindred.Text.Digit
import Kindred.Text.Quoted

/-!
# Flaws of YAML text

- `ScalarFlaw`: why a scalar cannot be what its tag says, with the words for each cause.
- `Flaw`: why a text is not read.
-/

namespace Kindred.Yaml

open Kindred.Text

/-- Why a scalar cannot be what its tag says. -/
inductive ScalarFlaw where
  /-- The digits of an integer cannot be read in a base. -/
  | notInteger (base : Nat) (text : String)
  /-- A text is no double. -/
  | notReal (text : String)
  /-- A word is no truth value. -/
  | notTruth (word : String)
  /-- Nothing stands where a number should. -/
  | noNumber
  /-- A text is no point in time. -/
  | notTime
  /-- There is no such year. -/
  | noYear (year : Nat)
  /-- There is no such month. -/
  | noMonth
  /-- The month has no such day. -/
  | noDay
  /-- There is no such hour. -/
  | noHour
  /-- There is no such minute. -/
  | noMinute
  /-- There is no such second. -/
  | noSecond
  /-- A place on earth is a day or more apart, by so many minutes. -/
  | offsetTooLarge (minutes : Int)
  /-- There is no character of this number. -/
  | noCharacter
  /-- The number of a character does not fit in 31 bits. -/
  | characterTooLarge
deriving DecidableEq, Repr

/-- The text of a span of time of so many minutes, which is not zero. Days may be negative, the
seconds that are added to them are not. -/
def spanText (minutes : Int) : String :=
  let days := Int.fdiv minutes 1440
  let seconds := 60 * Int.fmod minutes 1440
  let part (name : String) (n : Int) : List String :=
    if n = 0 then [] else [name ++ "=" ++ String.ofList (intText n)]
  "datetime.timedelta(" ++ ", ".intercalate (part "days" days ++ part "seconds" seconds) ++ ")"

namespace ScalarFlaw

/-- The words for a cause. -/
def message : ScalarFlaw → String
  | notInteger base text =>
    "invalid literal for int() with base " ++ String.ofList (natText base) ++ ": " ++
      String.ofList ((quoted text.toList).take 200)
  | notReal text => "could not convert string to float: " ++ quotedString text
  | notTruth word => word
  | noNumber => "string index out of range"
  | notTime => "'NoneType' object has no attribute 'groupdict'"
  | noYear year => "year " ++ String.ofList (natText year) ++ " is out of range"
  | noMonth => "month must be in 1..12"
  | noDay => "day is out of range for month"
  | noHour => "hour must be in 0..23"
  | noMinute => "minute must be in 0..59"
  | noSecond => "second must be in 0..59"
  | offsetTooLarge minutes =>
    "offset must be a timedelta strictly between -timedelta(hours=24) and " ++
      "timedelta(hours=24), not " ++ spanText minutes ++ "."
  | noCharacter => "chr() arg not in range(0x110000)"
  | characterTooLarge => "Python int too large to convert to C int"

end ScalarFlaw

/-- Why a text is not read. -/
inductive Flaw where
  /-- The text is not YAML. -/
  | malformed
  /-- Lists and maps lie too deep inside one another. -/
  | tooDeep
  /-- An integer has too many digits. -/
  | numeralTooLong (digits : Nat)
  /-- A scalar cannot be what its tag says. -/
  | scalar (why : ScalarFlaw)
deriving DecidableEq, Repr

/-- A value that is there, or a malformed text. -/
def orMalformed : Option α → Except Flaw α
  | some a => .ok a
  | none => .error .malformed

end Kindred.Yaml
