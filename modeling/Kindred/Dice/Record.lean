import Kindred.Dice.Basic
import Kindred.Record.Check

/-!
# Rolls as records

Rolls written as loose data, and open-ended rolls read back from it.

- `Percentile.toData`, `OpenEnded.toData`, `DiceRoll.toData`: a roll as loose data.
- `OpenEnded.check`: an open-ended roll from loose data.
-/

namespace Kindred

open Kindred.Record

/-- A list of integers as loose data. -/
def intsData (ns : List Int) : Data := .list (ns.map .int)

/-- The roll as loose data. -/
def Percentile.toData (p : Percentile) : Data :=
  .record [("tens_die", .int p.tens), ("ones_die", .int p.ones), ("value", .int p.value)]

namespace OpenEnded

/-- The roll as loose data. -/
def toData (r : OpenEnded) : Data :=
  .record [("initial_rolls", intsData r.initial), ("extra_rolls", intsData r.extra),
    ("total", .int r.total), ("potential_perfect", .bool r.perfect),
    ("potential_fumble", .bool r.fumble)]

/-- Builds a roll from its parts. -/
def build (es : Fields) : Checked OpenEnded :=
  OpenEnded.mk <$> es.required ["initial_rolls"] (listOf int)
    <*> es.withDefault ["extra_rolls"] (listOf int) []
    <*> es.required ["total"] int
    <*> es.withDefault ["potential_perfect"] bool false
    <*> es.withDefault ["potential_fumble"] bool false

/-- Reads a roll. -/
def check : Check OpenEnded := record "OpenEndedRoll" build

end OpenEnded

/-- The roll as loose data. -/
def DiceRoll.toData (r : DiceRoll) : Data :=
  .record [("notation", .text r.text), ("kind", .text r.form.name), ("results", intsData r.results),
    ("total", .int r.total),
    ("t100", .ofOption (fun ps => .list (ps.map Percentile.toData)) r.percentiles),
    ("open_ended", .ofOption OpenEnded.toData r.openEnded)]

end Kindred
