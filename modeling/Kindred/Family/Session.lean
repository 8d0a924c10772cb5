import Kindred.Family.Basic
import Kindred.Json.Printer
import Kindred.Race.Basic
import Kindred.Record.Saved

/-!
# Sessions

One character's session: the rules in force, and the family rolled so far. Rolls replace a part of
the family; rerolls are charged first. Nothing is rolled while the character has no age.

- `Session`: the rules and the family.
- `Play`: a step of a session. What a step has done before a fault stays done.
- `rollOlder` … `rollAge`: the rolls and rerolls.
- `Move`, `Move.play`: everything that can be done in a session, as one type.
-/

namespace Kindred

open Kindred.Text

variable {σ α : Type}

/-- The rules in force, and the family rolled so far. Rules that were taken away leave nothing. -/
structure Session where
  mapping : Option AgeMapping := none
  siblingRules : Option SiblingRules := some {}
  parentRules : Option ParentRules := some {}
  /-- The formula for a parent's age. -/
  parentAge : String := defaultParentAge
  family : Family := {}
deriving Repr

/-- A session with given rules and a family. An empty formula for a parent's age counts as none. -/
def Session.ofRules (mapping : Option AgeMapping) (rules : FamilyRules) (family : Family) :
    Session :=
  ⟨mapping, some rules.siblings, some rules.parents, orIfEmpty rules.parentAge defaultParentAge,
    family⟩

/-- A step of a session. -/
abbrev Play (σ α : Type) := ReaderT (Source σ) (EStateM Fault (World σ × Session)) α

namespace Play

/-- The outcome of a step, with the world and the session after it. -/
def outcome (x : Play σ α) (src : Source σ) (w : World σ) (s : Session) :
    Except Fault α × World σ × Session :=
  match x src (w, s) with
  | .ok a after => (.ok a, after)
  | .error f after => (.error f, after)

/-- A roll that leaves the session as it is. -/
def roll (x : Roll σ α) : Play σ α := fun src (w, s) =>
  match x src w with
  | .ok a w => .ok a (w, s)
  | .error f w => .error f (w, s)

/-- The session. -/
def session : Play σ Session := fun _ ws => .ok ws.2 ws

/-- The family. -/
def family : Play σ Family := fun _ ws => .ok ws.2.family ws

/-- Changes the session. -/
def change (f : Session → Session) : Play σ Unit := fun _ ws => .ok () (ws.1, f ws.2)

/-- Changes the family. -/
def changeFamily (f : Family → Family) : Play σ Unit :=
  change fun s => { s with family := f s.family }

/-- A step that is taken only if the character has an age. -/
def ifAged (x : Play σ α) : Play σ (Option α) := do
  if (← family).hasAge then return some (← x) else return none

/-- A part of the session that has to be there. -/
def demand (part : String) : Option α → Play σ α
  | some a => return a
  | none => throw (.noRules part)

end Play

/-! ### Single steps -/

/-- How old the character looks. The conversion leaves no lines in the trace. -/
def characterApparentAge : Play σ Int := do
  let s ← Play.session
  Play.roll (Roll.quietly (actualToApparent s.mapping (s.family.characterAge.getD 0)))

/-- The part of the sibling rules that a side needs first. -/
def Side.firstRule : Side → String
  | .older => "older_sibling_age_formula"
  | .younger => "younger_sibling_age_formula"

/-- Rolls one side of siblings and records it. -/
def playSide (side : Side) : Play σ SideRoll := do
  let start := (← Play.family).firstLitter side
  let age ← characterApparentAge
  let s ← Play.session
  let rules ← Play.demand side.firstRule s.siblingRules
  let r ← Play.roll (rollSide side rules age s.mapping start)
  Play.changeFamily (·.withSide r)
  return r

/-- Drops the age of a parent who is not alive under the status. -/
def dropAge (p : Parent) (r : ParentRules) (f : Family) : Family :=
  match f.status with
  | some status => if f.hasAge && r.isEligible p status then f else f.withParentAge p none
  | none => f.withParentAge p none

/-- Rolls the parents' status and records it. Ages of parents who are not alive are dropped. -/
def playStatus : Play σ StatusRoll := do
  let age ← characterApparentAge
  let rules ← Play.demand "formula" (← Play.session).parentRules
  let r ← Play.roll (rollStatus rules age)
  Play.changeFamily fun f =>
    dropAge .father rules (dropAge .mother rules { f with statusRoll := some r })
  return r

/-- Accounts for a reroll. -/
def charge (f : Facet) : Play σ Unit := do
  let b := (← Play.family).budget
  if b.lacks f then
    Play.roll (Roll.remark .info .rerolls ("reroll of " ++ f.name ++ " with no tokens left"))
  let after := b.charge f
  Play.changeFamily fun fam => { fam with budget := after }
  let price := if b.pays f then "1 token" else "free"
  Play.roll (Roll.tell "Reroll" do
    return f.name ++ ": " ++ price ++ ", " ++ (← writeNumeral after.remaining) ++ " left")

/-! ### Rolls and rerolls -/

/-- Rolls the older siblings. -/
def rollOlder : Play σ (Option SideRoll) := Play.ifAged (playSide .older)

/-- Rolls the younger siblings. -/
def rollYounger : Play σ (Option SideRoll) := Play.ifAged (playSide .younger)

/-- Rolls both sides anew. -/
def rollAll : Play σ (Option (SideRoll × SideRoll)) := Play.ifAged do
  Play.changeFamily fun f => { f with siblings := [] }
  let older ← playSide .older
  let younger ← playSide .younger
  return (older, younger)

/-- Rerolls the older siblings. -/
def rerollOlder : Play σ (Option SideRoll) := Play.ifAged do
  charge .older
  playSide .older

/-- Rerolls the younger siblings. -/
def rerollYounger : Play σ (Option SideRoll) := Play.ifAged do
  charge .younger
  playSide .younger

/-- Rolls the parents' status. -/
def rollParents : Play σ (Option StatusRoll) := Play.ifAged playStatus

/-- Rerolls the parents' status. -/
def rerollParents : Play σ (Option StatusRoll) := Play.ifAged do
  charge .parent
  playStatus

/-- Whether the age of a parent can be rolled: the character has an age, the status is known, and
the parent is alive under it. -/
def canRollAge (p : Parent) : Play σ Bool := do
  let s ← Play.session
  match s.family.hasAge, s.family.status with
  | true, some status =>
    let rules ← Play.demand "eligibility" s.parentRules
    return rules.isEligible p status
  | _, _ => return false

/-- A status between quotes, or the word for none. -/
def statusText : Option String → String
  | some status => quotedString status
  | none => "None"

/-- Rolls the age of a parent, if it can be rolled. -/
def rollAge (p : Parent) : Play σ (Option ParentAge) := do
  if ← canRollAge p then
    let age ← characterApparentAge
    let s ← Play.session
    let r ← Play.roll (rollParentAge s.parentAge s.family.siblings age s.mapping)
    Play.changeFamily (·.withParentAge p (some r))
    return some r
  else
    let status := (← Play.family).status
    Play.roll (Roll.note "Fam" ("no " ++ p.name ++ " age to roll (status " ++ statusText status ++
      ")"))
    return none

/-! ### Saving and loading -/

/-- The family as text. -/
def Family.save (f : Family) : String := Json.compact f.saved.toData

/-- The family that a text holds. -/
def Family.load (text : String) : Except Fault Family :=
  (Record.ofSaved "FamilyState" (Family.check true) text).2.mapError .rejected

/-- Puts the family in the place of itself by way of its text. -/
def reload : Play σ String := do
  let text := (← Play.family).save
  let f ← Play.roll (Roll.ofExcept (Family.load text))
  Play.changeFamily fun _ => f
  return text

/-! ### Moves -/

/-- Everything that can be done in a session. -/
inductive Move where
  | rollOlder
  | rollYounger
  | rollAll
  | rerollOlder
  | rerollYounger
  | rollParents
  | rerollParents
  | rollAge (p : Parent)
  | canRollAge (p : Parent)
  | characterApparentAge
  | setAge (age : Option Int)
  | setMapping (m : Option AgeMapping)
  | setSiblingRules (r : Option SiblingRules)
  | setParentRules (r : Option ParentRules)
  | setParentAge (formula : String)
  | reload
deriving Repr

/-- What a move answers. -/
inductive Answer where
  | nothing
  | side (r : SideRoll)
  | sides (older younger : SideRoll)
  | status (r : StatusRoll)
  | age (a : ParentAge)
  | number (n : Int)
  | flag (b : Bool)
  | text (s : String)
deriving Repr

namespace Answer

/-- The answer that an optional result makes. -/
def ofOption (f : α → Answer) : Option α → Answer
  | some a => f a
  | none => nothing

/-- The answer as loose data. -/
def toData : Answer → Data
  | nothing => .null
  | side r => r.toData
  | sides older younger => .list [older.toData, younger.toData]
  | status r => r.toData
  | age a => a.toData
  | number n => .int n
  | flag b => .bool b
  | text s => .text s

end Answer

/-- Makes a move. -/
def Move.play : Move → Play σ Answer
  | rollOlder => return .ofOption .side (← Kindred.rollOlder)
  | rollYounger => return .ofOption .side (← Kindred.rollYounger)
  | rollAll => return .ofOption (fun (o, y) => .sides o y) (← Kindred.rollAll)
  | rerollOlder => return .ofOption .side (← Kindred.rerollOlder)
  | rerollYounger => return .ofOption .side (← Kindred.rerollYounger)
  | rollParents => return .ofOption .status (← Kindred.rollParents)
  | rerollParents => return .ofOption .status (← Kindred.rerollParents)
  | rollAge p => return .ofOption .age (← Kindred.rollAge p)
  | canRollAge p => return .flag (← Kindred.canRollAge p)
  | characterApparentAge => return .number (← Kindred.characterApparentAge)
  | setAge age => do
    Play.changeFamily fun f => { f with characterAge := age }
    return .nothing
  | setMapping m => do
    Play.change fun s => { s with mapping := m }
    return .nothing
  | setSiblingRules r => do
    Play.change fun s => { s with siblingRules := r }
    return .nothing
  | setParentRules r => do
    Play.change fun s => { s with parentRules := r }
    return .nothing
  | setParentAge formula => do
    Play.change fun s => { s with parentAge := formula }
    return .nothing
  | reload => return .text (← Kindred.reload)

end Kindred
