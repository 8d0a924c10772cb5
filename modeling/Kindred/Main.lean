import Kindred.Cli.Run

/-!
# The program

The command line: reads what a command needs, runs the command, prints what comes of it, and keeps
the settings that it leaves. All decisions are made in `Kindred.Cli`.
-/

namespace Kindred.Main

/-- The files at and below an entry of a folder, with the names of the folders that lead to it. -/
partial def filesAt (above : List String) (entry : IO.FS.DirEntry) : IO (List SourceFile) := do
  let parts := above ++ [entry.fileName]
  if ← entry.path.isDir then
    let below ← (← entry.path.readDir).toList.mapM (filesAt parts)
    return below.flatten
  else if (FileFormat.ofName? entry.fileName).isSome then
    return [⟨parts, ← IO.FS.readFile entry.path⟩]
  else return []

/-- The files below a folder; none if it is not there. -/
def filesBelow (folder : Path) : IO (List SourceFile) := do
  let root := (← IO.currentDir) / folder.text
  if ← root.isDir then
    let below ← (← root.readDir).toList.mapM (filesAt [])
    return below.flatten
  else return []

/-- The settings file below the home folder. -/
def settingsPath (home : String) : Path := (Path.ofText home).join Settings.location

/-- The text of the settings file, if it is there. -/
def readSettings (home : String) : IO (Option String) := do
  let path := (settingsPath home).text
  if ← ((← IO.currentDir) / path).pathExists then return some (← IO.FS.readFile path)
  else return none

/-- Writes the settings file. -/
def writeSettings (home text : String) : IO Unit := do
  let path := settingsPath home
  IO.FS.createDirAll ({ path with parts := path.parts.dropLast }).text
  IO.FS.writeFile path.text text

/-- A number from eight random bytes. -/
def chance : IO Nat := do
  return (← IO.getRandomBytes 8).toList.foldl (fun n b => n * 256 + b.toNat) 0

/-- Runs the command that the words ask for. -/
def run (words : List String) : IO UInt32 := do
  let home := (← IO.getEnv "HOME").getD ""
  let settings ← readSettings home
  let app := Path.ofText (← IO.appPath).toString
  let program : Path := { app with parts := app.parts.dropLast }
  let bare : Cli.Surroundings :=
    { home := home, program := program, settings := settings, files := fun _ => [],
      chance := ← chance }
  let folder := (Cli.Command.ofWords? words).bind (Cli.Command.folder? bare)
  let found ← match folder with
    | some folder => filesBelow folder
    | none => pure []
  let own := folder == some (program.join ["content"])
  let files := if found.isEmpty && own then bundledFiles else found
  let outcome := Cli.run { bare with files := fun _ => files } words
  if let some text := outcome.settings then
    if outcome.settings != settings then writeSettings home text
  for line in outcome.out do IO.println line
  for line in outcome.err do IO.eprintln line
  if let some fault := outcome.fault then IO.eprintln fault.message
  return outcome.exitCode.toUInt32

end Kindred.Main

/-- Runs the program. -/
def main (words : List String) : IO UInt32 := Kindred.Main.run words
