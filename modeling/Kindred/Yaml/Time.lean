import Kindred.Text.Digit
import Kindred.Yaml.Flaw

/-!
# Points in time

Dates, alone or with a time of day and a place's offset.

- `TimeText`: the parts of a point in time as it is written.
- `timeValue`: the text by which messages show a point in time, if there is such a point.
- `looksTime`: whether a plain scalar stands for a point in time.
-/

namespace Kindred.Yaml

open Kindred.Text

/-- How far a place is from the first meridian: nothing told, or none, or a sign with hours and
minutes. -/
inductive Offset where
  | absent
  | zero
  | hours (minutes : Int)
deriving DecidableEq, Repr

/-- The time of a day as it is written. -/
structure DayTime where
  hour : Nat
  minute : Nat
  second : Nat
  /-- The digits behind the point. -/
  fraction : List Char
  offset : Offset
deriving DecidableEq, Repr

/-- A point in time as it is written. -/
structure TimeText where
  year : Nat
  month : Nat
  day : Nat
  time : Option DayTime
deriving DecidableEq, Repr

/-- A number of at least `least` and at most `most` digits at the front of a text, and the rest. -/
def digitGroup? (least most : Nat) (s : List Char) : Option (Nat × List Char) :=
  let ds := (s.take most).takeWhile Char.isDigit
  if ds.length < least then none else some (digitsValue ds, s.drop ds.length)

/-- The rest of a text behind a character. -/
def behind? (c : Char) : List Char → Option (List Char)
  | [] => none
  | d :: s => if c == d then some s else none

/-- The blanks at the front of a text, and the rest. -/
def spanTabs (s : List Char) : List Char × List Char := s.span fun c => c == ' ' || c == '\t'

/-- The offset that takes up a text. -/
def offsetOf? (s : List Char) : Option Offset :=
  match s with
  | [] => some .absent
  | _ =>
    match (spanTabs s).2 with
    | ['Z'] => some .zero
    | sign :: s => do
      if sign != '+' && sign != '-' then none
      let (hours, s) ← digitGroup? 1 2 s
      let minutes : Nat ← match s with
        | [] => some 0
        | s => do
          let (minutes, s) ← digitGroup? 2 2 (← behind? ':' s)
          if s.isEmpty then some minutes else none
      let all : Int := 60 * hours + minutes
      return .hours (if sign == '-' then -all else all)
    | [] => none

/-- The time of a day that takes up a text. -/
def dayTimeOf? (s : List Char) : Option DayTime := do
  let (hour, s) ← digitGroup? 1 2 s
  let (minute, s) ← digitGroup? 2 2 (← behind? ':' s)
  let (second, s) ← digitGroup? 2 2 (← behind? ':' s)
  let (fraction, s) := match s with
    | '.' :: s => spanAsciiDigits s
    | s => ([], s)
  return ⟨hour, minute, second, fraction, ← offsetOf? s⟩

/-- The text behind a date up to the time of day. -/
def behindDate? (s : List Char) : Option (List Char) :=
  match s with
  | 'T' :: s => some s
  | 't' :: s => some s
  | s =>
    let (blanks, s) := spanTabs s
    if blanks.isEmpty then none else some s

namespace TimeText

/-- The point in time that takes up a text. -/
def ofText? (s : List Char) : Option TimeText := do
  let (year, s) ← digitGroup? 4 4 s
  let (month, s) ← digitGroup? 1 2 (← behind? '-' s)
  let (day, s) ← digitGroup? 1 2 (← behind? '-' s)
  if s.isEmpty then return ⟨year, month, day, none⟩
  else return ⟨year, month, day, ← dayTimeOf? (← behindDate? s)⟩

end TimeText

/-- Whether a plain scalar stands for a point in time. A date alone has to have all its digits. -/
def looksTime (s : List Char) : Bool :=
  match TimeText.ofText? s with
  | some t => t.time.isSome || s.length == 10
  | none => false

/-! ### The calendar -/

/-- Whether a year has a day more. -/
def isLeapYear (year : Nat) : Bool := year % 4 == 0 && (year % 100 != 0 || year % 400 == 0)

/-- The number of days of a month. -/
def daysIn (year month : Nat) : Nat :=
  if month == 2 then (if isLeapYear year then 29 else 28)
  else if [4, 6, 9, 11].contains month then 30
  else 31

/-- The words of a value with parts. -/
def callText (name : String) (parts : List String) : String :=
  "datetime." ++ name ++ "(" ++ ", ".intercalate parts ++ ")"

/-- A number as such a part. -/
def partText (n : Nat) : String := String.ofList (natText n)

/-- An offset as such a part, if it is told. -/
def Offset.parts : Offset → Except ScalarFlaw (List String)
  | absent => .ok []
  | zero => .ok ["tzinfo=datetime.timezone.utc"]
  | hours 0 => .ok ["tzinfo=datetime.timezone.utc"]
  | hours minutes =>
    if minutes.natAbs < 1440 then .ok ["tzinfo=" ++ callText "timezone" [spanText minutes]]
    else .error (.offsetTooLarge minutes)

/-- The millionths of a second that digits behind a point write. -/
def millionths (ds : List Char) : Nat :=
  digitsValue (ds.take 6) * Nat.pow 10 (6 - min 6 ds.length)

/-- The text by which messages show a point in time, if there is such a point. -/
def TimeText.shown (t : TimeText) : Except ScalarFlaw String := do
  let offset ← match t.time with
    | some time => time.offset.parts
    | none => pure []
  if t.year == 0 then throw (.noYear t.year)
  if t.month == 0 || 12 < t.month then throw .noMonth
  if t.day == 0 || daysIn t.year t.month < t.day then throw .noDay
  let date := [partText t.year, partText t.month, partText t.day]
  match t.time with
  | none => return callText "date" date
  | some time =>
    if 24 ≤ time.hour then throw .noHour
    if 60 ≤ time.minute then throw .noMinute
    if 60 ≤ time.second then throw .noSecond
    let small := millionths time.fraction
    let seconds :=
      if small != 0 then [partText time.second, partText small]
      else if time.second != 0 then [partText time.second]
      else []
    return callText "datetime" (date ++ [partText time.hour, partText time.minute] ++ seconds ++
      offset)

/-- A text without a line feed at its end. -/
def withoutLineFeed (s : List Char) : List Char :=
  if s.getLast? == some '\n' then s.dropLast else s

/-- The text by which messages show the point in time that a scalar writes. -/
def timeValue (s : List Char) : Except ScalarFlaw String :=
  match TimeText.ofText? (withoutLineFeed s) with
  | some t => t.shown
  | none => .error .notTime

end Kindred.Yaml
