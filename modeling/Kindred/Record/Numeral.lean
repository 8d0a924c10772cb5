import Kindred.Number.Decimal
import Kindred.Record.Complaint
import Kindred.Text.Blank

/-!
# Numerals in loose data

Texts that stand for numbers. A numeral in its plain form is read as it is; any other one is first
brought into that form.

- `plainInt`, `plainForm?`, `intOfText`: integers.
- `floatOfText`: doubles.
-/

namespace Kindred.Record

open Kindred.Text Kindred.Number

/-- The blanks around a numeral. -/
def isMargin (c : Char) : Bool := isBlank c && !(28 ≤ c.toNat && c.toNat ≤ 31)

/-- A text without the blanks around it. -/
def withoutMargins (s : List Char) : List Char :=
  (((s.dropWhile isMargin).reverse).dropWhile isMargin).reverse

/-- Whether every underscore of a text stands between two other characters. -/
def underscoresInside : List Char → Bool
  | [] => true
  | '_' :: _ => false
  | _ :: '_' :: s => !s.isEmpty && underscoresInside s
  | _ :: s => underscoresInside s

/-- A text without underscores. -/
def dropUnderscores (s : List Char) : List Char := s.filter (· != '_')

/-! ### Integers -/

/-- The integer that a numeral in its plain form writes: a minus sign or none, and digits of which
the first is zero only if it stands alone. Too many digits are a cause of their own, whatever comes
after them. -/
def plainInt (s : List Char) : Except Cause Int :=
  let (negative, body) := match s with
    | '-' :: body => (true, body)
    | body => (false, body)
  let (ds, rest) := spanAsciiDigits body
  if ds.isEmpty || (ds.head? == some '0' && 1 < ds.length) then .error .intUnreadable
  else if longestNumeral < ds.length then .error .intTooLong
  else if !rest.isEmpty then .error .intUnreadable
  else
    let n : Int := digitsValue ds
    .ok (if negative then -n else n)

/-- The rest of a numeral behind zeros in front, which underscores may follow. `last` is the
character in front of the rest. A numeral of nothing else keeps its last character, and a point
keeps the character in front of it. -/
def behindZeros? (last : Char) : List Char → Option (List Char)
  | [] => some [last]
  | c :: s =>
    if c == '0' || c == '_' then behindZeros? c s
    else if c.isDigit || c == '-' then some (c :: s)
    else if c == '.' then some (last :: c :: s)
    else none

/-- A numeral without zeros in front. -/
def withoutZeros? : List Char → Option (List Char)
  | [] => none
  | c :: s =>
    if c == '0' then behindZeros? c s else if c.isDigit || c == '-' then some (c :: s) else none

/-- A numeral without a point and the zeros behind it, of which there has to be one. -/
def withoutPoint? (s : List Char) : Option (List Char) :=
  let (whole, rest) := s.span (· != '.')
  match rest with
  | [] => some whole
  | _ :: zeros => if !zeros.isEmpty && zeros.all (· == '0') then some whole else none

/-- A numeral without a plus sign. -/
def withoutPlus? : List Char → Option (List Char)
  | '+' :: '-' :: _ => none
  | '+' :: s => some s
  | s => some s

/-- The plain form of a numeral: without blanks around it, plus sign, zeros in front, a point with
zeros, and underscores. -/
def plainForm? (s : List Char) : Option (List Char) := do
  let bare ← withoutPoint? (← withoutZeros? (← withoutPlus? (withoutMargins s)))
  return if underscoresInside bare then dropUnderscores bare else bare

/-- The integer that a text writes. -/
def intOfText (text : String) : Except Cause Int :=
  match plainInt text.toList, plainForm? text.toList with
  | .error .intUnreadable, some bare => plainInt bare
  | read, _ => read

/-! ### Doubles -/

/-- The double that a text of ASCII characters writes. -/
def asciiFloat? (s : List Char) : Option Float :=
  if s.all fun c => c.toNat < 128 then floatOfText? s else none

/-- The double that a text writes: with blanks around it, or else with underscores inside. -/
def floatOfText (text : String) : Except Cause Float :=
  let s := text.toList
  let bare := if underscoresInside s then asciiFloat? (dropUnderscores s) else none
  match (asciiFloat? (withoutMargins s)).or bare with
  | some x => .ok x
  | none => .error .numberUnreadable

end Kindred.Record
