import Kindred.Cli.Arguments
import Kindred.Formula.Dialect

/-!
# Commands

What a command line asks for.

- `Command`: the commands with their arguments.
- `Command.ofWords?`: the command that the words of a command line ask for.
-/

namespace Kindred.Cli

/-- A command with its arguments. -/
inductive Command where
  /-- Rolls one dice notation. -/
  | roll (dice : String) (seed : Option Int)
  /-- Rolls the age of a character. -/
  | age (base : Int) (race : Option String) (seed : Option Int)
  /-- Rolls the family of a character. -/
  | family (age : Int) (race : Option String) (rerolls : Option Int) (seed : Option Int)
      (asJson showCache : Bool)
  /-- Reviews the content of a folder. -/
  | validateContent (folder : Option String)
  /-- Tries one formula in a dialect. -/
  | checkFormula (formula dialect : String)
deriving Repr

namespace Command

/-- An option whose value is an integer; nothing if a value is given that is none. -/
def intOption? (a : Arguments) (name : String) : Option (Option Int) :=
  match a.value? name with
  | none => some none
  | some word => (intOfWord? word).map some

/-- A text that is not empty. -/
def nonempty? (s : Option String) : Option String := s.filter (· != "")

/-- The command of a word with the words behind it; nothing if they do not fit. -/
def ofWords? : List String → Option Command
  | "roll" :: rest => do
    let a ← Arguments.ofWords? [⟨["--seed"], true⟩] rest
    let [dice] := a.words | none
    return .roll dice (← intOption? a "--seed")
  | "age" :: rest => do
    let a ← Arguments.ofWords? [⟨["--bil"], true⟩, ⟨["--race"], true⟩, ⟨["--seed"], true⟩] rest
    let [] := a.words | none
    return .age (← ← intOption? a "--bil") (nonempty? (a.value? "--race")) (← intOption? a "--seed")
  | "family" :: rest => do
    let a ← Arguments.ofWords? [⟨["--age"], true⟩, ⟨["--race"], true⟩, ⟨["--rerolls"], true⟩,
      ⟨["--seed"], true⟩, ⟨["--json"], false⟩, ⟨["--cache-info"], false⟩] rest
    let [] := a.words | none
    return .family (← ← intOption? a "--age") (nonempty? (a.value? "--race"))
      (← intOption? a "--rerolls") (← intOption? a "--seed") (a.has "--json") (a.has "--cache-info")
  | "validate-content" :: rest => do
    let a ← Arguments.ofWords? [] rest
    match a.words with
    | [] => return .validateContent none
    | [folder] => return .validateContent (some folder)
    | _ => none
  | "check-formula" :: rest => do
    let a ← Arguments.ofWords? [⟨["--grammar", "-g"], true⟩] rest
    let [formula] := a.words | none
    return .checkFormula formula ((a.value? "--grammar").getD Dialect.sibling.name)
  | _ => none

end Command

end Kindred.Cli
