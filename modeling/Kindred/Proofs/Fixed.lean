import Kindred.Proofs.Dice.Notation
import Kindred.Proofs.Stepwise

/-!
# Rolls that draw nothing

How old someone looks is found without chance: the dialect of such formulas rolls no dice. A roll of
that kind comes to the same end whatever the source is and whatever was drawn before, so that it may
be made again, or left out, without a trace among the draws. What it comes to is a function of the
mapping and the age alone.

- `EndsAs`: a run with a given end, which drew nothing.
- `Roll.ComesTo`, `Roll.Fixed`: a roll that has one end in all worlds, and draws nothing.
- `plainEvaluation`, `plainMappedAge`, `looksAt`: formulas and ages worked out without chance.
- `evaluateStrict_comesTo`, `mappedAge_comesTo`, `actualToApparent_comesTo`: the rolls come to that.
-/

namespace Kindred

open Kindred.Formula

variable {σ α β : Type}

theorem World.Alike.refl (w : World σ) : w.Alike w := ⟨rfl, rfl⟩

theorem World.Alike.trans {w v u : World σ} (h : w.Alike v) (h' : v.Alike u) : w.Alike u :=
  ⟨h.1.trans h'.1, h.2.trans h'.2⟩

/-- Whether a run ended as given, in a world that is like the one before it. -/
inductive EndsAs (w : World σ) : Except Fault α → EStateM.Result Fault (World σ) α → Prop where
  | ok {a : α} {w' : World σ} (alike : w'.Alike w) : EndsAs w (.ok a) (.ok a w')
  | error {e : Fault} {w' : World σ} (alike : w'.Alike w) : EndsAs w (.error e) (.error e w')

theorem EndsAs.of_alike {w w₁ : World σ} (h : w₁.Alike w) {result : Except Fault α}
    {run : EStateM.Result Fault (World σ) α} (hrun : EndsAs w₁ result run) :
    EndsAs w result run := by
  cases hrun with
  | ok alike => exact .ok (alike.trans h)
  | error alike => exact .error (alike.trans h)

/-- What is there, or what is put in the place of a formula that failed. -/
def recovered (x : Except Fault α) (recover : FormulaError → Except Fault α) : Except Fault α :=
  match x with
  | .error (.formula why) => recover why
  | x => x

/-- What keeps an expression from having a value, as a fault. -/
def Formula.Shortfall.fault : Shortfall → Fault
  | .formula why => .formula why
  | .tooLarge => .tooLarge

namespace Roll

/-- Whether a roll comes to a given end whatever the source is, and draws nothing. -/
def ComesTo (x : Roll σ α) (result : Except Fault α) : Prop := ∀ src w, EndsAs w result (x src w)

/-- Whether a roll comes to one and the same end whatever the source is, and draws nothing. -/
def Fixed (x : Roll σ α) : Prop := ∃ result, ∀ src w, EndsAs w result (x src w)

namespace ComesTo

theorem ofExcept (x : Except Fault α) : (ofExcept x : Roll σ α).ComesTo x := by
  intro src w
  cases x with
  | ok a => exact .ok (.refl w)
  | error e => exact .error (.refl w)

theorem pure (a : α) : (pure a : Roll σ α).ComesTo (.ok a) := ofExcept (.ok a)

theorem note (tag message : String) : (note tag message : Roll σ Unit).ComesTo (.ok ()) :=
  fun _ _ => .ok ⟨rfl, rfl⟩

theorem remark (level : Level) (origin : Origin) (message : String) :
    (remark level origin message : Roll σ Unit).ComesTo (.ok ()) := fun _ _ => .ok ⟨rfl, rfl⟩

/-- The value of an expression depends on nothing else. -/
theorem evaluate (d : Dialect) (expr : String) : (evaluate d expr : Roll σ Number).ComesTo
    ((Formula.evaluate d expr).mapError Shortfall.fault) := by
  intro src w
  rw [evaluate_eq]
  cases Formula.evaluate d expr with
  | ok n => exact .ok ⟨rfl, rfl⟩
  | error e => cases e <;> exact .error ⟨rfl, rfl⟩

/-- A block comes to what its parts come to. -/
theorem bind {x : Roll σ α} {f : α → Roll σ β} {result : Except Fault α}
    {results : α → Except Fault β} (hx : x.ComesTo result) (hf : ∀ a, (f a).ComesTo (results a)) :
    (x >>= f).ComesTo (result >>= results) := by
  intro src w
  have hx := hx src w
  rw [run_bind]
  generalize x src w = run at hx
  cases hx with
  | ok alike => exact .of_alike alike (hf _ src _)
  | error alike => exact .error alike

/-- A block whose first part comes to a value comes to what the other part does with it. -/
theorem bind_ok {x : Roll σ α} {f : α → Roll σ β} {a : α} {result : Except Fault β}
    (hx : x.ComesTo (.ok a)) (hf : (f a).ComesTo result) : (x >>= f).ComesTo result := by
  intro src w
  have hx := hx src w
  rw [run_bind]
  generalize x src w = run at hx
  cases hx with
  | ok alike => exact .of_alike alike (hf src _)

theorem bind_pure {x : Roll σ α} {result : Except Fault α} (hx : x.ComesTo result) (f : α → β) :
    (x >>= fun a => Pure.pure (f a)).ComesTo (result.map f) := by
  have hbind := hx.bind fun a => pure (f a)
  cases result <;> exact hbind

theorem map {x : Roll σ α} {result : Except Fault α} (hx : x.ComesTo result) (f : α → β) :
    (f <$> x).ComesTo (result.map f) := by
  rw [map_eq_pure_bind]
  exact hx.bind_pure f

theorem quietly {x : Roll σ α} {result : Except Fault α} (hx : x.ComesTo result) :
    (quietly x).ComesTo result := by
  intro src w
  have hx := hx src w
  unfold Roll.quietly
  generalize x src w = run at hx
  cases hx with
  | ok alike => exact .ok alike
  | error alike => exact .error alike

theorem orElseFormula {x : Roll σ α} {recover : FormulaError → Roll σ α} {result : Except Fault α}
    {results : FormulaError → Except Fault α} (hx : x.ComesTo result)
    (hrecover : ∀ why, (recover why).ComesTo (results why)) :
    (orElseFormula x recover).ComesTo (recovered result results) := by
  intro src w
  have hx := hx src w
  unfold Roll.orElseFormula
  generalize x src w = run at hx
  cases hx with
  | ok alike => exact .ok alike
  | @error e w' alike =>
    -- only the fault of a formula is recovered from
    cases e with
    | formula why => exact .of_alike alike (hrecover why src w')
    | _ => exact .error alike

end ComesTo

end Roll

/-! ### Formulas without dice -/

/-- What a formula comes to if no dice are rolled for it: its names are replaced, and the rest is
worked out. -/
def plainEvaluation (d : Dialect) (bs : Bindings) (formula : String) : Except Fault Evaluation :=
  if Text.isBlankString formula then .error (.formula .emptyFormula)
  else do
    let expression := String.ofList (← replaceNames d bs formula)
    let value ← (Formula.evaluate d expression).mapError Shortfall.fault
    return { formula := formula, value := value, expression := expression }

/-- The age that a formula gives if no dice are rolled for it, if it works and if there is one. -/
def plainMappedAge (d : Dialect) (formula : Option String) (name : String) (age : Int) :
    Except Fault (Option Int) :=
  if formula.getD "" = "" then .ok none
  else do
    let value ← recovered ((plainEvaluation d [(name, .int age)] (formula.getD "")).map some)
      fun _ => .ok none
    value.elim (.ok none) fun e => (clampAge e.value).map some

/-- How old someone looks, as a function of the mapping and the age. -/
def looksAt (m : Option AgeMapping) (age : Int) : Except Fault Int := do
  let apparent ← plainMappedAge .apparentAge (m.bind (·.apparentFormula)) "actualAge" age
  apparent.elim (tableApparent m age) .ok

/-- The characters of a part of a text. -/
def Piece.chars : Piece → List Char
  | char c => [c]
  | dice t => t.text

/-- The parts of a text make up the text. -/
theorem flatMap_chars_piecesFrom (joined : Bool) (skip : Nat) (s : List Char) :
    (piecesFrom joined skip s).flatMap Piece.chars = s.drop skip := by
  induction s generalizing joined skip with
  | nil => rw [piecesFrom, List.flatMap_nil, List.drop_nil]
  | cons c s ih =>
    cases skip with
    | succ skip => exact ih _ skip
    | zero =>
      rw [piecesFrom]
      split
      · next t hfound =>
        have hdice : diceAt? (c :: s) = some t := by
          cases joined with
          | true => cases hfound
          | false => exact hfound
        obtain ⟨htoken, rest, hs, -⟩ := isNotation_of_diceAt? hdice
        obtain ⟨c', u, hcons, -⟩ := htoken.isWord.exists_cons
        rw [hcons, List.cons_append] at hs
        cases hs
        rw [List.flatMap_cons, ih, hcons]
        show t.text ++ (u ++ rest).drop (List.length u + 1 - 1) = _
        rw [Nat.add_sub_cancel, List.drop_left, hcons]
        rfl
      · rw [List.flatMap_cons, ih]
        rfl

section Formulas

variable {d : Dialect} (hd : d.dice = [])

include hd

/-- A dialect without dice rolls none, whatever notations a text has. -/
theorem rollPieces_comesTo (ps : List Piece) :
    (rollPieces d ps : Roll σ Rolled).ComesTo (.ok { text := ps.flatMap Piece.chars }) := by
  induction ps with
  | nil => exact .pure ({} : Rolled)
  | cons piece ps ih =>
    cases piece with
    | char c => exact ih.bind fun r => .pure _
    | dice t =>
      unfold rollPieces
      rw [hd, if_neg (by simp)]
      exact ih.bind fun r => .pure _

theorem evaluateStrict_comesTo (bs : Bindings) (formula : String) :
    (evaluateStrict d bs formula : Roll σ Evaluation).ComesTo (plainEvaluation d bs formula) := by
  unfold plainEvaluation
  split
  · next hblank =>
    unfold evaluateStrict
    rw [hblank]
    exact fun src w => .error (.refl w)
  · next hsolid =>
    rw [evaluateStrict_of_not_blank (Bool.eq_false_iff.mpr hsolid)]
    refine (Roll.ComesTo.ofExcept _).bind fun named => ?_
    have hrolled := rollPieces_comesTo (σ := σ) hd (pieces named)
    rw [show (pieces named).flatMap Piece.chars = named from
      flatMap_chars_piecesFrom _ _ _] at hrolled
    exact hrolled.bind_ok ((Roll.ComesTo.evaluate d _).bind fun value => .pure _)

theorem mappedAge_comesTo (formula : Option String) (name : String) (age : Int) :
    (mappedAge d formula name age : Roll σ (Option Int)).ComesTo
      (plainMappedAge d formula name age) := by
  have hvalue := fun f => (evaluateStrict_comesTo (σ := σ) hd [(name, .int age)] f).map some
  unfold mappedAge plainMappedAge
  split
  · exact .pure none
  · exact .pure none
  · next f hf =>
    rw [if_neg (show ¬ (some f).getD "" = "" from hf)]
    have hnote : ∀ why : FormulaError, (do
        Roll.note "Age" (d.name ++ " formula failed (" ++ why.message ++ "); falling back")
        return none : Roll σ (Option Evaluation)).ComesTo (.ok none) :=
      fun _ => (Roll.ComesTo.note _ _).bind fun _ => .pure none
    refine ((hvalue f).orElseFormula fun why => ?_).bind fun result => ?_
    · cases writeNumeral age with
      | ok digits => exact (Roll.ComesTo.remark _ _ _).bind_ok (hnote why)
      | error e => exact hnote why
    · cases result with
      | none => exact .pure none
      | some e => exact (Roll.ComesTo.ofExcept _).bind_pure some

end Formulas

/-- How old someone looks is not a matter of chance. -/
theorem actualToApparent_comesTo (m : Option AgeMapping) (age : Int) :
    (actualToApparent m age : Roll σ Int).ComesTo (looksAt m age) := by
  refine (mappedAge_comesTo Dialect.dice_apparentAge _ _ age).bind fun apparent => ?_
  cases apparent with
  | some apparent => exact .pure apparent
  | none => exact .ofExcept _

end Kindred
