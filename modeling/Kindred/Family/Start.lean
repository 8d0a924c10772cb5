import Kindred.Content.Index
import Kindred.Family.Session

/-!
# Starting a session

- `Session.forRace`: a new session for a character of a race.
- `firstRolls`: everything rolled once.
-/

namespace Kindred

open Kindred.Text

variable {σ : Type}

/-- A new session for a character of a race, with reroll tokens. A race without a known category
uses the defaults, which is remarked on. -/
def Session.forRace (content : Content) (name : String) (age : Option Int) (tokens : Int) :
    Roll σ Session := do
  let race ← Roll.ofExcept (content.race name)
  let category := content.categoryOf race
  if category.isNone then
    Roll.remark .warning .family ("race " ++ race.name ++ " has no known category " ++
      quotedString race.category ++ "; using defaults")
  let budget ← Roll.ofExcept (RerollBudget.ofTokens tokens)
  return Session.ofRules (category.map (·.mapping)) (race.rules category)
    { characterAge := age, budget := budget }

/-- Rolls the siblings, the parents' status and the parents' ages once. -/
def firstRolls : Play σ Unit := do
  let _ ← rollAll
  let _ ← rollParents
  let _ ← rollAge .mother
  let _ ← rollAge .father

end Kindred
