import Kindred.Data.Basic
import Kindred.Number.Decimal
import Kindred.Yaml.Tag

/-!
# Values of scalars

What a scalar stands for, given its kind.

- `integer`, `double`: the numbers that texts write.
- `bytesOf?`: the bytes that a text in base sixty-four writes.
- `scalarValue`: the value of a scalar.
-/

namespace Kindred.Yaml

open Kindred.Text Kindred.Number

/-- A text without its underscores. -/
def withoutUnderscores (s : List Char) : List Char := s.filter (· != '_')

/-- The value of a digit of a base. -/
def digitOf? (base : Nat) (c : Char) : Option Nat :=
  ((digitValue? c).or (hexValue? c)).filter (· < base)

/-- A text without the letter that tells its base and the zero in front of it. -/
def withoutBase (base : Nat) : List Char → List Char
  | '0' :: b :: s =>
    if [(2, 'b'), (8, 'o'), (16, 'x')].lookup base == some b.toLower then s else '0' :: b :: s
  | s => s

/-- The integer that a text writes in a base, with blanks around it and a sign in front. -/
def integer (base : Nat) (text : List Char) : Except Flaw Int :=
  let (negative, s) := spanSign (trim text)
  let (ds, rest) := (withoutBase base s).span fun c => (digitOf? base c).isSome
  if base == 10 && longestNumeral < ds.length then .error (.numeralTooLong ds.length)
  else if ds.isEmpty || !rest.isEmpty then
    .error (.scalar (.notInteger base (String.ofList text)))
  else
    let n : Int := ds.foldl (fun n c => base * n + (digitOf? base c).getD 0) 0
    .ok (if negative then -n else n)

/-- The integer that groups in base sixty write. -/
def ofSixtieths (groups : List Int) : Int := groups.foldl (fun n g => 60 * n + g) 0

/-- The integer that a scalar stands for. -/
def integerValue (text : List Char) : Except Flaw Int := do
  let s := withoutUnderscores text
  let negative := s.head? == some '-'
  let s := Tag.withoutSign s
  let n ← match s with
    | ['0'] => pure 0
    | '0' :: 'b' :: s => integer 2 s
    | '0' :: 'x' :: s => integer 16 s
    | '0' :: _ => integer 8 s
    | [] => throw (.scalar .noNumber)
    | _ => ofSixtieths <$> (s.splitOn ':').mapM (integer 10)
  return if negative then -n else n

/-- The double that a text writes, with blanks around it. -/
def double (text : List Char) : Except Flaw Float :=
  match floatOfText? (trim text) with
  | some x => .ok x
  | none => .error (.scalar (.notReal (String.ofList text)))

/-- The sum of groups in base sixty, the last one first, added up from there. -/
def sumSixtieths : Nat → Float → List Float → Float
  | _, sum, [] => sum
  | unit, sum, g :: gs => sumSixtieths (60 * unit) (sum + g * ofInt unit) gs

/-- The double that a scalar stands for. -/
def doubleValue (text : List Char) : Except Flaw Float := do
  let s := (withoutUnderscores text).map Char.toLower
  let negative := s.head? == some '-'
  if s.isEmpty then throw (.scalar .noNumber)
  let s := Tag.withoutSign s
  let sign : Float := if negative then -1 else 1
  if s == ['.', 'i', 'n', 'f'] then return sign * infinity false
  else if s == ['.', 'n', 'a', 'n'] then return Float.ofBits 0x7FF8000000000000
  else
    match s.splitOn ':' with
    | [s] => return sign * (← double s)
    | groups => return sign * sumSixtieths 1 0 (← groups.mapM double).reverse

/-- The truth values by their words. -/
def truths : List (String × Bool) :=
  [("yes", true), ("no", false), ("true", true), ("false", false), ("on", true), ("off", false)]

/-! ### Bytes -/

/-- The value of a digit in base sixty-four. -/
def digit64? (c : Char) : Option Nat :=
  if c.isUpper then some (c.toNat - 65)
  else if c.isLower then some (c.toNat - 71)
  else if c.isDigit then some (c.toNat + 4)
  else if c == '+' then some 62
  else if c == '/' then some 63
  else none

/-- The bytes that a text in base sixty-four writes, from digits and the padding behind them.
`place` counts the digits since the last full group, `left` holds what of them is not yet in a byte,
and `pads` counts the padding. Other characters are left out. -/
def bytesFrom (place left pads : Nat) : List Char → Option (List UInt8)
  | [] => if place == 0 then some [] else none
  | c :: s =>
    if c == '=' then
      if 2 ≤ place && 4 ≤ place + pads + 1 then some []
      else bytesFrom place left (if 2 ≤ place then pads + 1 else pads) s
    else
      match digit64? c with
      | none => bytesFrom place left pads s
      | some d =>
        let sum := 64 * left + d
        if place == 0 then bytesFrom 1 d 0 s
        else if place == 1 then (UInt8.ofNat (sum / 16) :: ·) <$> bytesFrom 2 (sum % 16) 0 s
        else if place == 2 then (UInt8.ofNat (sum / 4) :: ·) <$> bytesFrom 3 (sum % 4) 0 s
        else (UInt8.ofNat sum :: ·) <$> bytesFrom 0 0 0 s

/-- The bytes that a text of ASCII characters writes. -/
def bytesOf? (s : List Char) : Option (List UInt8) :=
  if s.all fun c => c.toNat < 128 then bytesFrom 0 0 0 s else none

/-! ### Scalars -/

/-- The value of a scalar of a kind. -/
def scalarValue (tag : Tag) (text : List Char) : Except Flaw Data :=
  match tag with
  | .str => .ok (.text (String.ofList text))
  | .null => .ok .null
  | .bool =>
    let word := (String.ofList text).map Char.toLower
    match truths.lookup word with
    | some b => .ok (.bool b)
    | none => .error (.scalar (.notTruth word))
  | .int => .int <$> integerValue text
  | .float => .float <$> doubleValue text
  | .timestamp =>
    match timeValue text with
    | .ok shown => .ok (.scalar (.other shown false))
    | .error why => .error (.scalar why)
  | .binary => (fun bs => .scalar (.bytes bs)) <$> orMalformed (bytesOf? text)
  | _ => .error .malformed

end Kindred.Yaml
