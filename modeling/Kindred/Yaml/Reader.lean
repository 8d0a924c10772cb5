import Kindred.Yaml.Document

/-!
# Reading YAML

YAML text as loose data. A text holds one document at most.

- `read`: the value of a text.
-/

namespace Kindred.Yaml

/-- The characters that a text may hold. -/
def isAllowed (c : Char) : Bool :=
  let n := c.toNat
  n == 9 || n == 10 || n == 13 || (32 ≤ n && n < 127) || n == 0x85 || (0xA0 ≤ n && n ≤ 0xFFFD) ||
    0x10000 ≤ n

/-- The value of a text. Without a document it is null. -/
def read (text : String) : Except Flaw Data := do
  let s := text.toList
  if !s.all isAllowed then throw .malformed
  let tokens := Token.ofText s
  let (root, _) ← (document (4 * tokens.length + 4)).run { tokens := tokens }
  match root with
  | some n => n.read
  | none => return .null

end Kindred.Yaml
