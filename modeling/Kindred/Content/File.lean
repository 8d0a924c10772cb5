import Kindred.Content.Path
import Kindred.Fault
import Kindred.Json.Reader
import Kindred.Yaml.Reader

/-!
# Content files

Files in JSON or YAML, each of which holds one record or a list of records.

- `SourceFile`, `FileFormat`: a file, and the format that its name tells.
- `sourceFiles`: the files of one folder in the order in which they are read.
- `SourceFile.records`: the records of a file.
-/

namespace Kindred

/-- A file of the content. -/
structure SourceFile where
  /-- The path from the folder of the content, part by part. -/
  parts : List String
  text : String
deriving DecidableEq, Repr

/-- A format of files. -/
inductive FileFormat where
  | json
  | yaml
deriving DecidableEq, Repr

/-- The part of a file name behind its last point, in small letters. A name that starts or ends with
that point has none. -/
def nameEnding (name : String) : String :=
  match name.toList.reverse.span (· != '.') with
  | (c :: ending, _ :: _ :: _) => (String.ofList (c :: ending).reverse).map Char.toLower
  | _ => ""

/-- The format that the name of a file tells. -/
def FileFormat.ofName? (name : String) : Option FileFormat :=
  match nameEnding name with
  | "json" => some .json
  | "yaml" => some .yaml
  | "yml" => some .yaml
  | _ => none

namespace SourceFile

/-- The format of a file. -/
def format? (f : SourceFile) : Option FileFormat := f.parts.getLast?.bind FileFormat.ofName?

/-- Whether a file lies in a folder, or in a folder within it, and has a format. -/
def isIn (folder : String) (f : SourceFile) : Bool :=
  match f.parts with
  | first :: _ :: _ => first == folder && f.format?.isSome
  | _ => false

/-- A text with every line break written as one line feed. -/
def unifyBreaks : List Char → List Char
  | [] => []
  | '\r' :: '\n' :: s => '\n' :: unifyBreaks s
  | '\r' :: s => '\n' :: unifyBreaks s
  | c :: s => c :: unifyBreaks s

/-- The value that a file holds. An empty value of a YAML file counts as an empty record. -/
def read (f : SourceFile) : Except Fault Data :=
  let text := String.ofList (unifyBreaks f.text.toList)
  match f.format? with
  | some .yaml =>
    match Yaml.read text with
    | .ok d => .ok (if d.isEmpty then .map [] else d)
    | .error why => .error (.ofYaml why)
  | _ => (Json.read .file text).mapError .ofJson

/-- The records of a value: those of a list, or the value itself. -/
def recordsOf : Data → List Data
  | .list ds => ds
  | d => [d]

/-- The records of a file. -/
def records (f : SourceFile) : Except Fault (List Data) := f.read.map recordsOf

end SourceFile

/-- The files of a folder in the order in which they are read: part by part of their paths. -/
def sourceFiles (folder : String) (files : List SourceFile) : List SourceFile :=
  (files.filter (·.isIn folder)).mergeSort fun a b => !decide (b.parts < a.parts)

end Kindred
