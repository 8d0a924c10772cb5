import Kindred.Content.File
import Kindred.Race.Basic

/-!
# The content

All categories and races, by name. No name may occur twice.

- `Register`: a kind of records with a folder of its own.
- `Content`, `Content.load`: the index, and how it is read from files.
- `Content.race?`, `Content.categoryOf`: looking up a race, and the category of one.
-/

namespace Kindred

open Kindred.Record

/-- A kind of records that is listed by name. -/
structure Register (α : Type) where
  entry : Entry
  /-- The folder that holds the files. -/
  folder : String
  /-- The name of the kind in complaints. -/
  model : String
  check : Check α
  name : α → String

namespace Register

/-- The categories. -/
def categories : Register RaceCategory :=
  ⟨.category, "categories", "RaceCategory", RaceCategory.check, (·.name)⟩

/-- The races. -/
def races : Register Race := ⟨.race, "races", "Race", Race.check, (·.name)⟩

end Register

/-- Reading content: remarks on rows that were left out are collected. -/
abbrev Loading := EStateM Fault (List String)

namespace Loading

/-- Reads one record. -/
def validated (r : Register α) (d : Data) : Loading α := fun remarks =>
  match validate r.model false r.check d with
  | (own, .ok a) => .ok a (remarks ++ own)
  | (own, .error why) => .error (.rejected why) (remarks ++ own)

/-- A value that is there, or a fault. -/
def ofExcept (x : Except Fault α) : Loading α := fun remarks =>
  match x with
  | .ok a => .ok a remarks
  | .error f => .error f remarks

/-- Adds a record to those that were read before. -/
def addRecord (r : Register α) (path : Path) (known : List α) (d : Data) : Loading (List α) := do
  let a ← validated r d
  if known.any (r.name · == r.name a) then throw (.duplicate r.entry (r.name a) path.text)
  return known ++ [a]

/-- Adds the records of a file to those that were read before. -/
def addFile (r : Register α) (root : Path) (known : List α) (f : SourceFile) :
    Loading (List α) := do
  let ds ← ofExcept f.records
  ds.foldlM (addRecord r (root.join f.parts)) known

/-- Reads all records of a kind. -/
def all (r : Register α) (root : Path) (files : List SourceFile) : Loading (List α) :=
  (sourceFiles r.folder files).foldlM (addFile r root) []

end Loading

/-- All categories and races, in the order in which they were read. -/
structure Content where
  categories : List RaceCategory := []
  races : List Race := []
deriving DecidableEq, Repr

namespace Content

/-- Reads the content of a folder. -/
def loading (root : Path) (files : List SourceFile) : Loading Content := do
  let categories ← Loading.all .categories root files
  let races ← Loading.all .races root files
  return ⟨categories, races⟩

/-- The content of a folder, with the remarks on rows that were left out. -/
def load (root : Path) (files : List SourceFile) : List String × Except Fault Content :=
  match loading root files [] with
  | .ok c remarks => (remarks, .ok c)
  | .error f remarks => (remarks, .error f)

/-- The race with a name. -/
def race? (c : Content) (name : String) : Option Race := c.races.find? (·.name == name)

/-- The category of a race, if the race names one that is known. -/
def categoryOf (c : Content) (r : Race) : Option RaceCategory :=
  if r.category.isEmpty then none else c.categories.find? (·.name == r.category)

/-- The race with a name, or a fault. -/
def race (c : Content) (name : String) : Except Fault Race :=
  match c.race? name with
  | some r => .ok r
  | none => .error (.unknownName name)

end Content

end Kindred
