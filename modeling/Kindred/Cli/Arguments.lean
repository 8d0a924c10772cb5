import Kindred.Numeral
import Kindred.Text.Blank

/-!
# Arguments

The words of a command line: options with values, flags, and the words between them.

- `OptionSpec`: an option that a command has.
- `Arguments`: the words of a command line, told apart.
- `Arguments.ofWords?`: tells them apart.
- `intOfWord?`: the integer that a word writes.
-/

namespace Kindred.Cli

open Kindred.Text

/-- An option of a command. -/
structure OptionSpec where
  /-- The spellings with two dashes, or with one dash and a letter. -/
  spellings : List String
  /-- Whether a value follows. -/
  hasValue : Bool := true

/-- The words of a command line, told apart. -/
structure Arguments where
  /-- The words that belong to no option. -/
  words : List String := []
  /-- The options by their first spelling, each with its value, in the order given. -/
  options : List (String × String) := []
deriving Repr

namespace Arguments

/-- The last value given for an option. -/
def value? (a : Arguments) (name : String) : Option String := a.options.reverse.lookup name

/-- Whether an option is given. -/
def has (a : Arguments) (name : String) : Bool := (a.value? name).isSome

/-- The arguments with one more option in front. -/
def withOption (spec : OptionSpec) (value : String) (a : Arguments) : Arguments :=
  { a with options := (spec.spellings.headD "", value) :: a.options }

/-- The arguments with one more word in front. -/
def withWord (word : String) (a : Arguments) : Arguments := { a with words := word :: a.words }

/-- The name of an option and the value behind an equals sign. -/
def splitValue (word : String) : String × Option String :=
  let (name, rest) := word.toList.span (· != '=')
  match rest with
  | [] => (word, none)
  | _ :: value => (String.ofList name, some (String.ofList value))

/-- Whether a word is an option: it starts with a dash and goes on. -/
def isOption (word : String) : Bool :=
  match word.toList with
  | '-' :: _ :: _ => true
  | _ => false

/-- An option of one letter with the value that is joined to it, if there is one. -/
def splitLetter (word : String) : String × Option String :=
  match word.toList with
  | '-' :: c :: [] => (String.ofList ['-', c], none)
  | '-' :: c :: value => (String.ofList ['-', c], some (String.ofList value))
  | _ => (word, none)

/-- The option that a word names, with the value that comes with it. -/
def option? (specs : List OptionSpec) (word : String) : Option (OptionSpec × Option String) :=
  let (name, value) := if word.startsWith "--" then splitValue word else splitLetter word
  (specs.find? (·.spellings.contains name)).map (·, value)

/-- Tells the words of a command line apart; nothing if they do not fit the options. All words
behind two dashes belong to no option. -/
def ofWords? (specs : List OptionSpec) : List String → Option Arguments
  | [] => some {}
  | word :: rest =>
    if word == "--" then some { words := rest }
    else if isOption word then
      match option? specs word with
      | none => none
      | some (spec, some value) =>
        if spec.hasValue then (ofWords? specs rest).map (withOption spec value) else none
      | some (spec, none) =>
        if spec.hasValue then
          match rest with
          | [] => none
          | value :: rest => (ofWords? specs rest).map (withOption spec value)
        else (ofWords? specs rest).map (withOption spec "")
    else (ofWords? specs rest).map (withWord word)

end Arguments

/-! ### Integers -/

/-- The digits of a numeral with single underscores between digits. -/
def joinedDigits? : List Char → Option (List Char)
  | [] => none
  | [d] => if isDecimal d then some [d] else none
  | d :: '_' :: e :: s => if isDecimal d then (joinedDigits? (e :: s)).map (d :: ·) else none
  | d :: s => if isDecimal d then (joinedDigits? s).map (d :: ·) else none

/-- The integer that a word writes: digits behind an optional sign, with blanks around them. -/
def intOfWord? (word : String) : Option Int := do
  let (negative, body) := match trim word.toList with
    | '-' :: s => (true, s)
    | '+' :: s => (false, s)
    | s => (false, s)
  let ds ← joinedDigits? body
  let n ← (readNumeral ds).toOption
  return if negative then -(n : Int) else n

end Kindred.Cli
