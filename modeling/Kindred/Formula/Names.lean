import Kindred.Number.Fixed
import Kindred.Numeral
import Kindred.Sort
import Kindred.Text.Word

/-!
# Names in a formula

A name is replaced by its value wherever it stands as a whole word. Longer names are replaced before
shorter ones.

- `Bindings`: names with their values.
- `valueText`, `writeValue`: how a value is written into a formula, if it can be.
- `replaceWord`: one name replaced everywhere.
- `substitute`: all names replaced.
- `dropMathPrefix`: the name of a library in front of functions is dropped.
-/

namespace Kindred.Formula

open Kindred.Text Kindred.Number

/-- Names with their values. -/
abbrev Bindings := List (String × Number)

/-- The digits of a value: at most ten after the point, and none that say nothing. -/
def valueDigits : Number → List Char
  | .int n => intText n
  | .float x =>
    match Binary.ofFloat? x with
    | some b => if b.isInteger then intText b.floor else dropTrailingZeros (fixedText 10 x)
    | none => dropTrailingZeros (fixedText 10 x)

/-- How a value is written into a formula. One that starts with a minus sign gets brackets. -/
def valueText (n : Number) : List Char :=
  match valueDigits n with
  | '-' :: s => '(' :: '-' :: s ++ [')']
  | s => s

/-- An integer that is not negative is written with its digits. -/
theorem valueText_ofNat (n : Nat) (h : (natText n).head? ≠ some '-') :
    valueText (.int n) = natText n := by
  have hn : valueDigits (.int n) = natText n := rfl
  unfold valueText
  rw [hn]
  split
  · next s heq => simp [heq] at h
  · rfl

/-- Whether a value can be written: an integer may have too many digits. -/
def IsWritable : Number → Prop
  | .int n => Short n
  | .float _ => True

instance : DecidablePred IsWritable
  | .int n => inferInstanceAs (Decidable (Short n))
  | .float _ => inferInstanceAs (Decidable True)

/-- The text of a value in a formula, if it can be written. -/
def writeValue (n : Number) : Except Fault (List Char) :=
  if IsWritable n then .ok (valueText n) else .error .integerTooLong

/-- Whether a word goes on at the front of a text. -/
def startsWithWord (s : List Char) : Bool := s.head?.any isWordChar

/-- Whether the word that a text starts with, or the gap, ends there: `before` tells whether a word
character stands in front of the rest. -/
def isEdge (before : Bool) (s : List Char) : Bool := before != startsWithWord s

/-- Whether a name stands at the front of a text as a whole word. `before` tells whether a word
character stands in front of the text. -/
def matchesWord (name : List Char) (before : Bool) (s : List Char) : Bool :=
  isEdge before s && name.isPrefixOf s &&
    isEdge ((name.getLast?.map isWordChar).getD before) (s.drop name.length)

/-- Replaces a name in a text behind a character that is a word character or not; the first `skip`
characters belong to a name that was replaced. The empty name stands at both ends of every word. -/
def replaceFrom (name value : List Char) : Bool → Nat → List Char → List Char
  | before, _, [] => if matchesWord name before [] then value else []
  | _, skip + 1, c :: s => replaceFrom name value (isWordChar c) skip s
  | before, 0, c :: s =>
    if matchesWord name before (c :: s) then
      match name with
      | [] => value ++ c :: replaceFrom name value (isWordChar c) 0 s
      | _ :: tail => value ++ replaceFrom name value (isWordChar c) tail.length s
    else c :: replaceFrom name value (isWordChar c) 0 s

/-- Replaces a name wherever it stands as a whole word. -/
def replaceWord (name value s : List Char) : List Char := replaceFrom name value false 0 s

/-- Names in the order in which they are replaced: the longest first, and in their own order among
names of one length. -/
def longestFirst (bs : Bindings) : Bindings :=
  sortBy (fun a b => b.1.length ≤ a.1.length) bs

/-- Replaces all names by their values, one after the other. Every value is written, also where the
text does not hold its name. -/
def substitute (bs : Bindings) (s : List Char) : Except Fault (List Char) :=
  (longestFirst bs).foldlM (fun s (name, n) => do
    return replaceWord name.toList (← writeValue n) s) s

/-- The bindings of names that a dialect has. -/
def Bindings.within (bs : Bindings) (parameters : List String) : Bindings :=
  bs.filter fun (name, _) => parameters.contains name

/-- Drops `Math.` wherever it starts a word; the first `skip` characters belong to one. -/
def dropMathFrom : Bool → Nat → List Char → List Char
  | _, _, [] => []
  | _, skip + 1, c :: s => dropMathFrom (isWordChar c) skip s
  | before, 0, c :: s =>
    if !before && "Math.".toList.isPrefixOf (c :: s) then dropMathFrom true 4 s
    else c :: dropMathFrom (isWordChar c) 0 s

/-- Drops `Math.` wherever it starts a word. -/
def dropMathPrefix (s : List Char) : List Char := dropMathFrom false 0 s

end Kindred.Formula
