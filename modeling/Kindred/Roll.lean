import Kindred.Chance.Source
import Kindred.Fault
import Kindred.Formula.Cache
import Kindred.Log
import Kindred.Trace

/-!
# Rolling

Computations that draw from a source of chance, note what they do, and may end with a fault. What
was drawn and noted before a fault stays drawn and noted.

- `World`: the state of the source, the draws made, the trace, the log and the cache of formulas.
- `Roll`: a computation over a world.
- `drawInt`, `drawFraction`: the two draws.
- `note`, `tell`, `remark`: a line of the trace, one that may be impossible to write, and a log
  record.
- `quietly`: the same computation without lines in the trace.
- `orElseFormula`: goes on where a formula failed.
-/

namespace Kindred

/-- What a computation reads and leaves behind. -/
structure World (σ : Type) where
  /-- The state of the source. -/
  chance : σ
  /-- The draws made, the last one first. -/
  draws : List Draw := []
  trace : Trace := {}
  /-- The log records, the last one first. -/
  log : List Remark := []
  cache : Formula.Cache := {}

/-- The world at the start, with a limit on the trace. -/
def World.start (chance : σ) (limit : Option Int := some 1000) : World σ :=
  { chance := chance, trace := { limit := limit } }

/-- A computation that draws, notes and may fail. -/
abbrev Roll (σ α : Type) := ReaderT (Source σ) (EStateM Fault (World σ)) α

namespace Roll

variable {σ α : Type}

/-- The outcome of a computation, with the world after it. -/
def outcome (x : Roll σ α) (src : Source σ) (w : World σ) : Except Fault α × World σ :=
  match x src w with
  | .ok a w => (.ok a, w)
  | .error f w => (.error f, w)

/-- Draws an integer between two bounds. -/
def drawInt (low high : Int) : Roll σ Int := fun src w =>
  if src.refusesEmpty && high < low then .error (.emptyRange low high) w
  else
    let (n, chance) := src.int low high w.chance
    .ok n { w with chance := chance, draws := .int low high n :: w.draws }

/-- Draws a fraction below one. -/
def drawFraction : Roll σ Float := fun src w =>
  let (x, chance) := src.fraction w.chance
  .ok x { w with chance := chance, draws := .fraction :: w.draws }

/-- How many dice of a chain of sixes are followed. -/
def patience : Roll σ Nat := fun src w => .ok src.patience w

/-- Adds a line to the trace. -/
def note (tag message : String) : Roll σ Unit := fun _ w =>
  .ok () { w with trace := w.trace.note tag message }

/-- Adds a log record. -/
def remark (level : Level) (origin : Origin) (message : String) : Roll σ Unit := fun _ w =>
  .ok () { w with log := ⟨level, origin, message⟩ :: w.log }

/-- The same computation, with the trace as it was before. -/
def quietly (x : Roll σ α) : Roll σ α := fun src w =>
  match x src w with
  | .ok a after => .ok a { after with trace := w.trace }
  | .error f after => .error f { after with trace := w.trace }

/-- Goes on with another computation where a formula failed; other faults stay. -/
def orElseFormula (x : Roll σ α) (recover : FormulaError → Roll σ α) : Roll σ α := fun src w =>
  match x src w with
  | .error (.formula why) after => recover why src after
  | result => result

/-- A value that is there, or a fault. -/
def ofExcept (x : Except Fault α) : Roll σ α := fun _ w =>
  match x with
  | .ok a => .ok a w
  | .error f => .error f w

/-- Adds a line to the trace, or ends where the line cannot be written. -/
def tell (tag : String) (line : Except Fault String) : Roll σ Unit := do
  note tag (← ofExcept line)

/-- The value of an expression in a dialect, by way of the cache. -/
def evaluate (d : Dialect) (expr : String) : Roll σ Number := fun _ w =>
  match w.cache.evaluate d expr with
  | (.ok n, cache) => .ok n { w with cache := cache }
  | (.error (.formula why), cache) => .error (.formula why) { w with cache := cache }
  | (.error .tooLarge, cache) => .error .tooLarge { w with cache := cache }

end Roll

end Kindred
