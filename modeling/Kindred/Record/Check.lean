import Kindred.Data.Basic
import Kindred.Record.Numeral
import Kindred.Text.CodePoint
import Kindred.Text.Quoted

/-!
# Checking loose data

A check turns a loose value into a part of a record or complains about it. Checks of several parts
are all made, so that all complaints come together. Where a table may hold rows that are of no use,
these are left out and remarked on.

- `Checked`: the outcome of a check.
- `Checked.both`: two checks side by side.
- `text`, `int`, `bool`, `real`, `listOf`, `mapOf`, `record`: the checks of single values.
- `Fields.required`, `Fields.optional`, `Fields.withDefault`: the checks of named parts.
-/

namespace Kindred.Record

open Kindred.Text Kindred.Number

/-- The outcome of a check: remarks on rows that were left out, and the value or the complaints. -/
structure Checked (α : Type) where
  remarks : List String := []
  outcome : Except (List Complaint) α

namespace Checked

/-- A value without remarks. -/
def ok (a : α) : Checked α := ⟨[], .ok a⟩

/-- A complaint about the value as a whole. -/
def complain (cause : Cause) : Checked α := ⟨[], .error [⟨[], cause⟩]⟩

/-- A value, or a complaint about the value as a whole. -/
def ofExcept : Except Cause α → Checked α
  | .ok a => ok a
  | .error cause => complain cause

/-- Changes the value. -/
def map (f : α → β) (c : Checked α) : Checked β := ⟨c.remarks, c.outcome.map f⟩

/-- Two outcomes side by side: the complaints of both come together. -/
def both (f : Checked (α → β)) (a : Checked α) : Checked β :=
  ⟨f.remarks ++ a.remarks,
    match f.outcome, a.outcome with
    | .ok f, .ok a => .ok (f a)
    | .ok _, .error cs => .error cs
    | .error cs, .ok _ => .error cs
    | .error cs, .error ds => .error (cs ++ ds)⟩

/-- The outcome seen from one step further out. -/
def under (step : Step) (c : Checked α) : Checked α :=
  ⟨c.remarks, c.outcome.mapError (·.map (Complaint.under step))⟩

instance : Functor Checked where
  map := Checked.map

instance : Seq Checked where
  seq f a := Checked.both f (a ())

/-- Changing a value leaves no remarks. -/
@[simp] theorem map_ok (f : α → β) (a : α) : f <$> ok a = ok (f a) := rfl

/-- Two values side by side leave no remarks. -/
@[simp] theorem seq_ok (f : α → β) (a : α) : ok f <*> ok a = ok (f a) := rfl

/-- A value looks the same from further out. -/
@[simp] theorem under_ok (step : Step) (a : α) : (ok a).under step = ok a := rfl

end Checked

/-- A check of loose values. -/
abbrev Check (α : Type) := Data → Checked α

/-! ### Single values -/

/-- The text that bytes hold, or a complaint. -/
def ofBytes (cause : Cause) (bs : List UInt8) : Except Cause String :=
  match textOfBytes? bs with
  | some s => .ok s
  | none => .error cause

/-- Accepts texts, and bytes that hold one. -/
def text : Check String
  | .text s => .ok s
  | .scalar (.bytes bs) => .ofExcept (ofBytes .notUnicode bs)
  | _ => .complain .notText

/-- The digits of an integer, if it can be written. -/
def textOfInt (n : Int) : Except Cause String :=
  if Short n then .ok (Number.int n).text else .error .intUnwritable

/-- The first integer that is too large for 63 bits and a sign. -/
def wordBound : Int := 0x8000000000000000

/-- Whether an integer fits in 63 bits and a sign. -/
def fitsWord (n : Int) : Bool := -wordBound ≤ n && n < wordBound

/-- The integer that a double is, which must not be the least one that fits either. -/
def intOfFloat (x : Float) : Except Cause Int :=
  match Binary.ofFloat? x with
  | none => .error .notFinite
  | some b =>
    if !b.isInteger then .error .intFraction
    else if b.floor.natAbs < wordBound.natAbs then .ok b.floor
    else .error .intTooLong

/-- Accepts integers, truth values, doubles without a fractional part, and numerals. -/
def int : Check Int
  | .int n => .ok n
  | .bool b => .ok (if b then 1 else 0)
  | .float x => .ofExcept (intOfFloat x)
  | .text s => .ofExcept (intOfText s)
  | .scalar (.bytes bs) => .ofExcept (ofBytes .intUnreadable bs >>= intOfText)
  | _ => .complain .notInt

/-- Accepts integers that are not below zero. -/
def natural : Check Nat := fun d =>
  match int d with
  | ⟨remarks, .ok n⟩ =>
    if 0 ≤ n then ⟨remarks, .ok n.toNat⟩ else ⟨remarks, .error [⟨[], .belowZero⟩]⟩
  | ⟨remarks, .error cs⟩ => ⟨remarks, .error cs⟩

/-- The words for false. -/
def falseWords : List String := ["0", "off", "f", "false", "n", "no"]

/-- The words for true. -/
def trueWords : List String := ["1", "on", "t", "true", "y", "yes"]

/-- The truth value that zero and one stand for. -/
def boolOfInt (n : Int) : Checked Bool :=
  if n == 0 then .ok false else if n == 1 then .ok true else .complain .boolUnreadable

/-- The truth value that a word stands for, in letters of any case. -/
def boolOfText (s : String) : Except Cause Bool :=
  let word := s.map Char.toLower
  if falseWords.contains word then .ok false
  else if trueWords.contains word then .ok true
  else .error .boolUnreadable

/-- Accepts truth values, zero and one, and words for them. -/
def bool : Check Bool
  | .bool b => .ok b
  | .int n => if fitsWord n then boolOfInt n else .complain .notBool
  | .float x =>
    match intOfFloat x with
    | .ok n => boolOfInt n
    | .error _ => .complain .notBool
  | .text s => .ofExcept (boolOfText s)
  | .scalar (.bytes bs) => .ofExcept (ofBytes .boolUnreadable bs >>= boolOfText)
  | _ => .complain .notBool

/-- Accepts numbers, truth values and numerals. An integer beyond every double is infinite if it
came as JSON text, and no number otherwise. -/
def real (fromText : Bool) : Check Float
  | .float x => .ok x
  | .int n =>
    match Number.finiteOfInt? n with
    | some x => .ok x
    | none => if fromText then .ok (ofInt n) else .complain .notNumber
  | .bool b => .ok (if b then 1 else 0)
  | .text s => .ofExcept (floatOfText s)
  | .scalar (.bytes bs) => .ofExcept (ofBytes .numberUnreadable bs >>= floatOfText)
  | _ => .complain .notNumber

/-- Accepts one of some words, each standing for a value. -/
def oneOf (options : List (String × α)) : Check α := fun d =>
  let found := match d with
    | .text s => options.lookup s
    | _ => none
  match found with
  | some a => .ok a
  | none => .complain (.notOneOf (options.map (·.1)))

/-- Accepts nothing, too. -/
def orNull (check : Check α) : Check (Option α)
  | .null => .ok none
  | d => some <$> check d

/-! ### Lists and maps -/

/-- Checks the elements of a list from a place on. -/
def elements (check : Check α) : Nat → List Data → Checked (List α)
  | _, [] => .ok []
  | i, d :: ds => List.cons <$> (check d).under (.index i) <*> elements check (i + 1) ds

/-- Accepts lists of accepted elements. -/
def listOf (check : Check α) : Check (List α)
  | .list ds => elements check 0 ds
  | _ => .complain .notList

/-- The step to the value under a key. Truth values count as numbers, and numbers that do not fit
in 63 bits and a sign are named by their digits, if they can be written. -/
def keyStep : Scalar → Step
  | .text s => .name s
  | .int n =>
    if fitsWord n then .index n
    else .name (if Short n then (Number.int n).text else "<unprintable int object>")
  | .bool b => .index (if b then 1 else 0)
  | .null => .name "None"
  | .float x => .name (Number.float x).text
  | .bytes bs => .name (String.ofList (quotedBytes bs))
  | .other text _ => .name text

/-- Checks an entry of a map. Its key has to be a text. -/
def entry (check : Check α) (e : Scalar × Data) : Checked (String × α) :=
  let step := keyStep e.1
  Prod.mk <$> ((text (.scalar e.1)).under (.name "[key]")).under step <*> (check e.2).under step

/-- Checks the entries of a map. -/
def entriesOf (check : Check α) : List (Scalar × Data) → Checked (List (String × α))
  | [] => .ok []
  | e :: es => List.cons <$> entry check e <*> entriesOf check es

/-- The values with one more under a name, which replaces a value of that name in its place. -/
def setNamed (name : String) (a : α) : List (String × α) → List (String × α)
  | [] => [(name, a)]
  | (n, old) :: rest => if n == name then (n, a) :: rest else (n, old) :: setNamed name a rest

/-- Accepts maps of accepted values. Every entry is checked; of several with one name the last
counts. -/
def mapOf (check : Check α) : Check (List (String × α))
  | .map es => (List.foldl (fun known (name, a) => setNamed name a known) []) <$> entriesOf check es
  | _ => .complain .notMap

/-! ### Records -/

/-- The entries of a map from which a record is built. -/
abbrev Fields := List (Scalar × Data)

/-- Accepts maps from which a record can be built. -/
def record (model : String) (build : Fields → Checked α) : Check α
  | .map es => build es
  | _ => .complain (.notRecord model)

namespace Fields

/-- The first of some names under which there is a value, with the value. -/
def find? (names : List String) (es : Fields) : Option (String × Data) :=
  names.findSome? fun name => (Data.field? name es).map (name, ·)

/-- The value under the first of some names that is there, or a value in its place. -/
def get (names : List String) (check : Check α) (otherwise : Checked α) (es : Fields) :
    Checked α :=
  match find? names es with
  | some (name, d) => (check d).under (.name name)
  | none => otherwise

/-- A part that has to be there. It is missed under the first of its names. -/
def required (names : List String) (check : Check α) (es : Fields) : Checked α :=
  get names check ((Checked.complain .missing).under (.name (names.headD ""))) es

/-- A part that has a value of its own if it is not there. -/
def withDefault (names : List String) (check : Check α) (default : α) (es : Fields) : Checked α :=
  get names check (.ok default) es

/-- A part that may be missing or null. -/
def optional (names : List String) (check : Check α) (es : Fields) : Checked (Option α) :=
  withDefault names (orNull check) none es

end Fields

/-! ### Tables with useless rows -/

/-- The rows of a table that the check accepts. Every other row is remarked on, with the place of
the row and the first complaint about it. -/
def usableRows (table : String) (check : Check α) : Nat → List Data → List α × List String
  | _, [] => ([], [])
  | i, d :: ds =>
    let (rows, remarks) := usableRows table check (i + 1) ds
    match check d with
    | ⟨own, .ok row⟩ => (row :: rows, own ++ remarks)
    | ⟨own, .error cs⟩ =>
      let why := match cs with
        | c :: _ => c.cause.message false
        | [] => ""
      (rows, own ++ (table ++ "[" ++ (Number.int i).text ++ "] ignored: " ++ why) :: remarks)

/-! ### Whole values -/

/-- Checks a whole value. -/
def validate (model : String) (fromText : Bool) (check : Check α) (d : Data) :
    List String × Except Rejection α :=
  let c := check d
  (c.remarks, c.outcome.mapError (⟨model, fromText, ·⟩))

end Kindred.Record
