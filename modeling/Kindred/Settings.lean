import Kindred.Fault
import Kindred.Json.Printer
import Kindred.Record.Saved

/-!
# Settings

What a user sets once for all runs, kept in a file.

- `Settings`: the settings, with their defaults.
- `Settings.save`, `Settings.load`: the text of the file, and the settings that a text holds.
- `Settings.seedFor`: the seed that a run starts from.
-/

namespace Kindred

open Kindred.Record

/-- Whether runs without a seed of their own all start alike. -/
inductive SeedMode where
  | fixed
  | random
deriving DecidableEq, Repr

/-- The name of a mode. -/
def SeedMode.name : SeedMode → String
  | fixed => "fixed"
  | random => "random"

/-- The settings of a user. -/
structure Settings where
  seedMode : SeedMode := .random
  seed : Option Int := none
  /-- The number of reroll tokens of a new family. -/
  rerolls : Nat := 2
  /-- The name of the least grave level of log records that are shown. -/
  logLevel : String := "WARNING"
  /-- The folder of the content. -/
  contentDir : Option String := none
deriving DecidableEq, Repr

namespace Settings

/-- Accepts the name of a mode. -/
def checkMode : Check SeedMode :=
  oneOf [(SeedMode.fixed.name, .fixed), (SeedMode.random.name, .random)]

/-- Builds settings from their parts. -/
def build (es : Fields) : Checked Settings :=
  Settings.mk <$> es.withDefault ["rng_seed_mode"] checkMode .random
    <*> es.optional ["rng_seed"] int
    <*> es.withDefault ["default_rerolls"] natural 2
    <*> es.withDefault ["log_level"] text "WARNING"
    <*> es.optional ["default_content_dir"] text

/-- Reads settings. -/
def check : Check Settings := record "Settings" build

/-- The settings as loose data. -/
def toData (s : Settings) : Data :=
  .record [("rng_seed_mode", .text s.seedMode.name), ("rng_seed", .ofOption .int s.seed),
    ("default_rerolls", .int s.rerolls), ("log_level", .text s.logLevel),
    ("default_content_dir", .ofOption .text s.contentDir)]

/-- The text of the file. -/
def save (s : Settings) : String := Json.indented s.toData

/-- The settings that a text holds. -/
def load (text : String) : Except Fault Settings :=
  (ofSaved "Settings" check text).2.mapError .rejected

/-- The path of the file from the home folder, part by part. -/
def location : List String := [".eonchar", "settings.json"]

/-- The settings, and the text of the file afterwards. Without a file the defaults are written. -/
def open? (file : Option String) : Except Fault Settings × String :=
  match file with
  | some text => (load text, text)
  | none => (.ok {}, save {})

/-- The seed of runs that all start alike. -/
def fixedSeed : Int := 1337

/-- The seed that a run starts from, unless chance decides: the one asked for, the one that is set,
or the fixed one. -/
def seedFor (settings : Option Settings) (asked : Option Int) : Option Int :=
  asked.or (settings.bind fun s => s.seed.or (if s.seedMode = .fixed then some fixedSeed else none))

end Settings

end Kindred
