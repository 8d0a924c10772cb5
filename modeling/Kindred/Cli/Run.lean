import Kindred.Cli.Command
import Kindred.Cli.Table
import Kindred.Content.Bundled
import Kindred.Content.Review
import Kindred.Family.Start
import Kindred.Settings

/-!
# Running commands

What a command prints, given the surroundings in which it runs. Nothing is read or written here; the
surroundings bring the files, and the outcome tells what is to be printed and kept.

- `Surroundings`: the files and settings that a command finds.
- `Printed`: what a command prints.
- `Outcome`, `Command.run`: what comes of a command.
-/

namespace Kindred.Cli

open Kindred.Text

/-- What a command finds around it. -/
structure Surroundings where
  /-- The home folder. -/
  home : String
  /-- The folder of the program. -/
  program : Path
  /-- The text of the settings file, if there is one. -/
  settings : Option String
  /-- The files in a folder. -/
  files : Path → List SourceFile
  /-- The seed of runs that chance decides on. -/
  chance : Int

/-- What a command prints, line by line. -/
structure Printed where
  exitCode : Nat := 0
  out : List String := []
  /-- The log records, which precede the lines on the error stream. -/
  log : List Remark := []
  err : List String := []
  /-- The fault that ended the command. -/
  fault : Option Fault := none
deriving Repr

/-- What comes of a command. -/
structure Outcome where
  exitCode : Nat
  out : List String
  err : List String
  fault : Option Fault
  /-- The text of the settings file afterwards. -/
  settings : Option String
deriving Repr

namespace Printed

/-- A fault ends the command. -/
def failed (f : Fault) (log : List Remark) : Printed :=
  { exitCode := 1, log := log, fault := some f }

/-- An error that is the user's to mend. -/
def refused (message : String) (log : List Remark) : Printed :=
  { exitCode := 2, log := log, err := ["[ERROR] " ++ message] }

/-- Some tables and the lines below them. A table that cannot be shown ends the command. -/
def shown (log : List Remark) : List (Except Fault Table) → List String → Printed
  | [], below => { log := log, out := below }
  | t :: more, below =>
    match t.bind fun t => t.lines.mapError .markup with
    | .error f => failed f log
    | .ok lines =>
      let p := shown log more below
      { p with out := lines ++ p.out }

/-- What comes of it, with the log records from a rank on. -/
def outcome (p : Printed) (least : Nat) (settings : Option String) : Outcome :=
  let log := (p.log.filter fun r => least ≤ r.level.rank).map (·.text)
  ⟨p.exitCode, p.out, log ++ p.err, p.fault, settings⟩

end Printed

/-! ### Single commands -/

/-- A list of words between commas. -/
def commaList (words : List String) : String := ", ".intercalate words

/-- The line that shows a roll. -/
def rollLine (r : DiceRoll) : Except Fault String := do
  match r.openEnded with
  | none => return r.text ++ ": " ++ (← listText r.results) ++ " = " ++ (← writeNumeral r.total)
  | some o =>
    let extra ← if o.extra.isEmpty then pure "" else (" + " ++ ·) <$> listText o.extra
    let flags := (if o.perfect then ["möjlig perfekt"] else []) ++
      (if o.fumble then ["möjlig fummel"] else [])
    return r.text ++ ": " ++ (← listText o.initial) ++ extra ++ " = " ++
      (← writeNumeral r.total) ++ (if flags.isEmpty then "" else " (" ++ commaList flags ++ ")")

/-- Rolls one dice notation. -/
def runRoll (dice : String) (start : Twister) : Printed :=
  match ((rollText dice).outcome Twister.source (World.start start)).1 with
  | .ok r =>
    match rollLine r with
    | .ok line => { out := [line] }
    | .error f => .failed f []
  | .error (.notDice s) => .refused (Fault.notDice s).message []
  | .error f => .failed f []

/-- A remark on a row that was left out of a table. -/
def rowRemark (message : String) : Remark := ⟨.warning, .records, message⟩

/-- Looks up a race in the content and goes on with both, or ends the command. -/
def withRace (env : Surroundings) (settings : Settings) (name : String)
    (go : Content → Race → List Remark → Printed) : Printed :=
  match contentDir? env.home env.program settings.contentDir with
  | none => .failed .homeUnknown []
  | some root =>
    let (remarks, content) := Content.load root (env.files root)
    let log := remarks.map rowRemark
    match content with
    | .error f => .failed f log
    | .ok content =>
      match content.race? name with
      | some race => go content race log
      | none =>
        let known := (content.races.map (·.name)).mergeSort fun a b => !decide (b < a)
        .refused ("Unknown race " ++ quotedString name ++ "; known: " ++ commaList known) log

/-- The table that shows the age of a new character. -/
def ageTable (a : CharacterAge) : Except Fault Table := do
  return { title := "Ålder",
           rows := [["BIL", ← writeNumeral a.base],
             ["Ob3T6", (← listText a.roll.all) ++ " = " ++ (← writeNumeral a.roll.total)],
             ["Ålder", ← writeNumeral a.age], ["Skenbar ålder", ← writeNumeral a.apparent],
             ["Bonus", ← writeNumeral a.bonus]] }

/-- Rolls the age of a character. -/
def runAge (base : Int) (mapping : Option AgeMapping) (start : Twister) (before : List Remark) :
    Printed :=
  let (result, w) := (characterAge base mapping).outcome Twister.source (World.start start)
  let log := before ++ w.log.reverse
  match result with
  | .error f => .failed f log
  | .ok a => .shown log [ageTable a] (w.trace.lines.flatMap shownLines)

/-- The table that shows siblings. -/
def siblingsTable (f : Family) : Except Fault Table := do
  let rows ← f.siblings.mapM fun s => return [← writeNumeral s.litter, ← writeNumeral s.position,
    ← writeNumeral s.age, s.gender, s.relationship]
  return { title := "Syskon", headings := ["Kull", "Plats", "Ålder", "Kön", "Relation"],
           rows := rows }

/-- The words for the built-in statuses. -/
def statusLabels : List (String × String) :=
  [(Status.bothAlive, "Båda föräldrarna lever"), (Status.fatherUnknown, "Far okänd"),
   (Status.motherAlive, "Mor lever"), (Status.fatherAlive, "Far lever"),
   (Status.bothDead, "Båda döda")]

/-- The words for a status; one that is not built in stands for itself. -/
def statusLabel (status : String) : String := (statusLabels.lookup status).getD status

/-- The row that shows a parent's age. -/
def parentRow (label : String) (a : ParentAge) : Except Fault (List String) := do
  return [label, (← writeNumeral a.actualAge) ++ " år (ser ut som " ++
    (← writeNumeral a.apparentAge) ++ ", bas " ++ (← writeNumeral a.baseAge) ++ ")"]

/-- The table that shows the parents. -/
def parentsTable (f : Family) : Except Fault Table := do
  let status ← f.statusRoll.toList.mapM fun r =>
    return [["Slag", r.formula ++ " = " ++ (← writeNumeral r.result)],
      ["Status", statusLabel r.status]]
  let mother ← f.motherAge.toList.mapM (parentRow "Mor")
  let father ← f.fatherAge.toList.mapM (parentRow "Far")
  return { title := "Föräldrar", rows := status.flatten ++ mother ++ father }

/-- Makes the first rolls in a session. -/
def runFamily (session : Session) (w : World Twister) (before : List Remark)
    (asJson showCache : Bool) : Printed :=
  let (result, w, s) := firstRolls.outcome Twister.source w session
  let log := before ++ w.log.reverse
  match result with
  | .error f => .failed f log
  | .ok () =>
    if asJson then { log := log, out := [Json.indented s.family.toData] }
    else
      .shown log [siblingsTable s.family, parentsTable s.family]
        (w.trace.lines.flatMap shownLines ++ (if showCache then [w.cache.summary] else []))

/-- Starts a session for a character of a race and makes the first rolls. -/
def runFamilyOf (content : Content) (race : Race) (age : Int) (tokens : Int) (start : Twister)
    (before : List Remark) (asJson showCache : Bool) : Printed :=
  let (session, w) := (Session.forRace content race.name (some age) tokens).outcome Twister.source
    (World.start start)
  match session with
  | .error f => .failed f (before ++ w.log.reverse)
  | .ok s => runFamily s w before asJson showCache

/-- The line that sums up valid content. -/
def validLine (r : Review) : String :=
  "Content validated successfully (" ++ (Number.int r.categories.length).text ++ " categories, " ++
    (Number.int r.races.length).text ++ " races)."

/-- Reviews a folder of content. Warnings go to the output, all else to the error stream. -/
def runReview (root : Path) (files : List SourceFile) : Printed :=
  let (r, fault) := Content.review root files
  let lines (warnings : Bool) : List String :=
    (r.findings.filter fun f => (f.gravity == .warning) == warnings).map (·.line)
  match fault with
  | some f => { exitCode := 1, out := lines true, err := lines false, fault := some f }
  | none =>
    if r.isValid then { out := lines true ++ [validLine r], err := lines false }
    else { exitCode := 1, out := lines true, err := lines false }

/-- Tries one formula. -/
def runFormula (formula dialect : String) : Printed :=
  match Dialect.named? dialect with
  | none =>
    .refused ("Unknown grammar " ++ quotedString dialect ++ "; choose from " ++
      commaList (Dialect.builtin.map (·.name))) []
  | some d =>
    match checkFormula d formula with
    | .error f => .failed f []
    | .ok (some why) => { exitCode := 1, err := ["[ERROR] " ++ why.message] }
    | .ok none => { out := [quotedString formula ++ " is a valid " ++ d.name ++ " formula."] }

/-! ### All commands -/

/-- Opens the settings and goes on with them, or ends the command. -/
def withSettings (env : Surroundings) (seed : Option Int) (go : Settings → Twister → Printed) :
    Outcome :=
  let (settings, file) := Settings.open? env.settings
  let failed (f : Fault) : Outcome := ⟨1, [], [], some f, some file⟩
  match settings with
  | .error f => failed f
  | .ok settings =>
    let level := capitals settings.logLevel
    match Level.threshold? level with
    | none => failed (.unknownLevel level)
    | some least =>
      let start := (Settings.seedFor (some settings) seed).getD env.chance
      (go settings (Twister.ofSeed start)).outcome least (some file)

/-- Runs a command. -/
def Command.run (env : Surroundings) : Command → Outcome
  | roll dice seed => withSettings env seed fun _ start => runRoll dice start
  | age base race seed => withSettings env seed fun settings start =>
    match race with
    | none => runAge base none start []
    | some name => withRace env settings name fun content race log =>
      runAge base ((content.categoryOf race).map (·.mapping)) start log
  | family years race rerolls seed asJson showCache => withSettings env seed fun settings start =>
    let tokens := rerolls.getD settings.rerolls
    if tokens < 0 then
      match writeNumeral tokens with
      | .ok digits => .refused ("--rerolls must be 0 or more, got " ++ digits) []
      | .error f => .failed f []
    else match race with
      | none =>
        let family : Family :=
          { characterAge := some years, budget := { remaining := tokens.toNat } }
        runFamily { family := family } (World.start start) [] asJson showCache
      | some name => withRace env settings name fun content race log =>
        runFamilyOf content race years tokens start log asJson showCache
  | validateContent folder =>
    let root := (folder.map Path.ofText).getD (env.program.join ["content"])
    (runReview root (env.files root)).outcome 0 env.settings
  | checkFormula formula dialect => (runFormula formula dialect).outcome 0 env.settings

/-- The folder of content that a command reads, if it reads one. -/
def Command.folder? (env : Surroundings) : Command → Option Path
  | age _ (some _) _ => configured
  | family _ (some _) _ _ _ _ => configured
  | validateContent folder => some ((folder.map Path.ofText).getD (env.program.join ["content"]))
  | _ => none
where
  /-- The folder that the settings name. -/
  configured : Option Path :=
    match (Settings.open? env.settings).1 with
    | .ok s => contentDir? env.home env.program s.contentDir
    | .error _ => none

/-- The outcome of a command line that asks for no command. -/
def Outcome.unknown (env : Surroundings) : Outcome :=
  ⟨2, [], ["Usage: kindred COMMAND [OPTIONS]"], none, env.settings⟩

/-- Runs the command that the words of a command line ask for. -/
def run (env : Surroundings) (words : List String) : Outcome :=
  match Command.ofWords? words with
  | some command => command.run env
  | none => .unknown env

end Kindred.Cli
