/-!
# The trace of a session

Lines that tell what was rolled, shown below the results. A trace with a limit keeps only the
newest lines.

- `Trace`: the lines kept and the limit on their number.
- `Trace.add`, `Trace.note`: a line more, and a line with a tag in front.
-/

namespace Kindred

/-- The lines of a session, oldest first. -/
structure Trace where
  /-- The greatest number of lines kept; without one all are kept. -/
  limit : Option Int := some 1000
  /-- The lines kept. -/
  lines : List String := []
deriving DecidableEq, Repr

namespace Trace

/-- The newest lines that a limit allows; a limit below zero allows none. -/
def keep (limit : Option Int) (lines : List String) : List String :=
  match limit with
  | none => lines
  | some most => lines.drop ((lines.length : Int) - most).toNat

/-- Adds a line and drops the oldest ones beyond the limit. -/
def add (t : Trace) (line : String) : Trace :=
  { t with lines := keep t.limit (t.lines ++ [line]) }

/-- A line with a tag in front. -/
def tagged (tag message : String) : String := "[" ++ tag ++ "] " ++ message

/-- Adds a line with a tag in front. -/
def note (t : Trace) (tag message : String) : Trace := t.add (tagged tag message)

end Trace

end Kindred
