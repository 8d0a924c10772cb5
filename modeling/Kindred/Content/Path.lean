/-!
# Paths

Paths of files, in the form in which they are shown: without empty parts and without parts that
stand for the folder they are in.

- `Path`, `Path.ofText`, `Path.text`: a path, read and shown.
- `contentDir?`: where the content is.
-/

namespace Kindred

/-- A path. -/
structure Path where
  /-- The slashes that a path from the root starts with. -/
  lead : String := ""
  parts : List String := []
deriving DecidableEq, Repr

namespace Path

/-- The slashes that a text starts with, as a path keeps them: two stay two, more become one. -/
def leadOf (s : List Char) : String :=
  match (s.takeWhile (· == '/')).length with
  | 0 => ""
  | 2 => "//"
  | _ => "/"

/-- The parts of a text between slashes. -/
def partsOf (s : List Char) : List String :=
  ((s.splitOn '/').map String.ofList).filter fun part => part != "" && part != "."

/-- The path that a text writes. -/
def ofText (s : String) : Path := ⟨leadOf s.toList, partsOf s.toList⟩

/-- The text of a path. -/
def text (p : Path) : String :=
  if p.lead.isEmpty && p.parts.isEmpty then "." else p.lead ++ "/".intercalate p.parts

/-- A path followed by further parts. -/
def join (p : Path) (parts : List String) : Path := { p with parts := p.parts ++ parts }

/-- A path with a leading `~` replaced by the home folder; nothing where `~` names somebody. -/
def expandHome? (home : String) (p : Path) : Option Path :=
  match p.lead, p.parts with
  | "", first :: rest =>
    if first == "~" then some ((ofText home).join rest)
    else if first.startsWith "~" then none
    else some p
  | _, _ => some p

end Path

/-- Where the content is: in the folder that was asked for, or else beside the program. Nothing if a
home folder was asked for that is not known. -/
def contentDir? (home : String) (program : Path) : Option String → Option Path
  | none => some (program.join ["content"])
  | some "" => some (program.join ["content"])
  | some asked => (Path.ofText asked).expandHome? home

end Kindred
