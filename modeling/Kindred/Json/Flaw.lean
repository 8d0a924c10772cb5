/-!
# Flaws of JSON text

- `Flaw`: why a text is not read.
-/

namespace Kindred.Json

/-- Why a text is not read. -/
inductive Flaw where
  /-- The text is not JSON. -/
  | malformed
  /-- An integer has too many digits. -/
  | numeralTooLong (digits : Nat)
  /-- Lists and maps lie too deep inside one another; the innermost one is a list or a map. -/
  | listTooDeep
  | mapTooDeep
deriving DecidableEq, Repr

end Kindred.Json
