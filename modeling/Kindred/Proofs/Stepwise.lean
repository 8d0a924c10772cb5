import Kindred.Proofs.Blind
import Kindred.Proofs.Dice.Rolled
import Kindred.Proofs.Formula.Substitution
import Kindred.Parent.Generation
import Kindred.Sibling.Generation

/-!
# Rolls step by step

Every roll of a family is put together from a few steps: draws, notes, values of expressions, and
values that are there or not. Each draw asks for a range that holds numbers. What is shown of the
steps holds of all rolls, without another walk through them.

- `Roll.Stepwise`: a roll that is put together from such steps.
- `Stepwise.blind`: it does not look at its notes.
- `World.Extends`, `Stepwise.sound`: it asks for no empty range.
- `evaluateFormula_stepwise`, `apparentToActual_stepwise`, `drawGender_stepwise`,
  `rollSide_stepwise`, `rollStatus_stepwise`, `rollParentAge_stepwise`: the rolls of a family.
-/

namespace Kindred

variable {σ α β : Type}

/-! ### Values without empty ranges -/

/-- Whether a fault is a range without numbers. -/
def Fault.isEmptyRange : Fault → Bool
  | emptyRange _ _ => true
  | _ => false

/-- Whether a value that is missing is not missing for an empty range. -/
def Rangeless (x : Except Fault α) : Prop := ∀ e, x = .error e → e.isEmptyRange = false

namespace Rangeless

theorem ok (a : α) : Rangeless (.ok a) := by
  intro e h
  cases h

theorem error {e : Fault} (h : e.isEmptyRange = false) : Rangeless (.error e : Except Fault α) := by
  rintro _ ⟨⟩
  exact h

theorem bind {x : Except Fault α} {f : α → Except Fault β} (hx : Rangeless x)
    (hf : ∀ a, Rangeless (f a)) : Rangeless (x >>= f) := by
  cases x with
  | ok a => exact hf a
  | error e => exact error (hx e rfl)

theorem map {x : Except Fault α} (hx : Rangeless x) (f : α → β) : Rangeless (x.map f) := by
  cases x with
  | ok a => exact ok (f a)
  | error e => exact error (hx e rfl)

theorem floatToInt (round : Number.Binary → Int) (x : Float) :
    Rangeless (Kindred.floatToInt round x) := by
  unfold Kindred.floatToInt
  split
  · exact ok _
  · split
    · exact error rfl
    · exact error rfl

theorem floorInt (n : Number) : Rangeless n.floorInt := by
  cases n with
  | int n => exact ok n
  | float x => exact floatToInt _ x

theorem ceilInt (n : Number) : Rangeless n.ceilInt := by
  cases n with
  | int n => exact ok n
  | float x => exact floatToInt _ x

theorem clampAge (n : Number) : Rangeless (Kindred.clampAge n) := by
  refine map ?_ _
  unfold roundHalfUp
  split
  · exact floatToInt _ _
  · exact error rfl

theorem floorNonNegative (n : Number) : Rangeless (Kindred.floorNonNegative n) := (floorInt n).map _

theorem readNumeral (ds : List Char) : Rangeless (Kindred.readNumeral ds) := by
  unfold Kindred.readNumeral
  split
  · exact error rfl
  · exact ok _

theorem writeNumeral (n : Int) : Rangeless (Kindred.writeNumeral n) := by
  unfold Kindred.writeNumeral
  split
  · exact ok _
  · exact error rfl

theorem substitute (bs : Formula.Bindings) (s : List Char) :
    Rangeless (Formula.substitute bs s) := by
  by_cases h : ∀ b ∈ bs, Formula.IsWritable b.2
  · rw [Formula.substitute_of_writable h]
    exact ok _
  · push Not at h
    rw [Formula.substitute_of_not_writable h]
    exact error rfl

theorem recordedTotal (n : Number) : Rangeless (Kindred.recordedTotal n) := by
  unfold Kindred.recordedTotal
  split
  · exact ok _
  · exact error rfl

theorem percentage (percent : List Char) : Rangeless (Kindred.percentage percent) := by
  refine (readNumeral percent).bind fun n => ?_
  dsimp only
  split
  · exact ok _
  · exact error rfl

theorem labelOf (total : Int) (table : List GenderRange) :
    Rangeless (Kindred.labelOf total table) := by
  induction table with
  | nil => exact ok none
  | cons r rs ih =>
    refine bind ?_ fun held => ?_
    · refine (readNumeral r.low).bind fun low => ?_
      split
      · exact (readNumeral r.high).bind fun high => ok _
      · exact ok false
    · split
      · exact ok _
      · exact ih

theorem tableApparent (m : Option AgeMapping) (age : Int) :
    Rangeless (Kindred.tableApparent m age) := by
  unfold Kindred.tableApparent
  split
  · exact ok _
  · exact clampAge _

end Rangeless

/-! ### Steps -/

namespace Roll

/-- Whether a roll is put together from steps, none of which asks for an empty range. -/
inductive Stepwise : {α : Type} → Roll σ α → Prop where
  | ofExcept {α : Type} {x : Except Fault α} (h : Rangeless x) : Stepwise (ofExcept x)
  | drawInt {low high : Int} (h : low ≤ high) : Stepwise (drawInt low high)
  | drawFraction : Stepwise drawFraction
  | patience : Stepwise patience
  | note (tag message : String) : Stepwise (note tag message)
  | remark (level : Level) (origin : Origin) (message : String) :
      Stepwise (remark level origin message)
  | evaluate (d : Dialect) (expr : String) : Stepwise (evaluate d expr)
  | bind {α β : Type} {x : Roll σ α} {f : α → Roll σ β} (hx : Stepwise x)
      (hf : ∀ a, Stepwise (f a)) : Stepwise (x >>= f)
  | quietly {α : Type} {x : Roll σ α} (hx : Stepwise x) : Stepwise (quietly x)
  | orElseFormula {α : Type} {x : Roll σ α} {recover : FormulaError → Roll σ α} (hx : Stepwise x)
      (hrecover : ∀ why, Stepwise (recover why)) : Stepwise (orElseFormula x recover)

namespace Stepwise

theorem pure (a : α) : Stepwise (pure a : Roll σ α) := ofExcept (.ok a)

theorem throw {e : Fault} (h : e.isEmptyRange = false) : Stepwise (throw e : Roll σ α) :=
  ofExcept (.error h)

theorem map {x : Roll σ α} (hx : x.Stepwise) (f : α → β) : Stepwise (f <$> x) := by
  rw [map_eq_pure_bind]
  exact hx.bind fun a => pure (f a)

theorem tell (tag : String) {line : Except Fault String} (h : Rangeless line) :
    Stepwise (tell tag line : Roll σ Unit) := (ofExcept h).bind fun message => note tag message

/-- A roll that is put together from steps does not look at its notes, as no step does. -/
theorem blind {x : Roll σ α} (hx : x.Stepwise) : x.Blind := by
  induction hx with
  | ofExcept h => exact .ofExcept _
  | drawInt h => exact .drawInt _ _
  | drawFraction => exact .drawFraction
  | patience => exact .patience
  | note tag message => exact .note tag message
  | remark level origin message => exact .remark level origin message
  | evaluate d expr => exact .evaluate d expr
  | bind hx hf ihx ihf => exact ihx.bind ihf
  | quietly hx ih => exact ih.quietly
  | orElseFormula hx hrecover ihx ihrecover => exact ihx.orElseFormula ihrecover

end Stepwise

end Roll

/-! ### Draws from ranges that hold numbers -/

/-- Whether a draw asked for a range that holds numbers. -/
def Draw.IsSound : Draw → Prop
  | int low high _ => low ≤ high
  | fraction => True

/-- Whether a world comes after another one, with more draws of which none asked for an empty
range. -/
def World.Extends (w w' : World σ) : Prop :=
  ∃ ds, w'.draws = ds ++ w.draws ∧ ∀ d ∈ ds, d.IsSound

namespace World.Extends

theorem of_draws_eq {w w' : World σ} (h : w'.draws = w.draws) : w.Extends w' :=
  ⟨[], h, List.forall_mem_nil _⟩

theorem refl (w : World σ) : w.Extends w := of_draws_eq rfl

theorem trans ⦃w w₁ w₂ : World σ⦄ (h : w.Extends w₁) (h' : w₁.Extends w₂) : w.Extends w₂ := by
  obtain ⟨ds, hds, hsound⟩ := h
  obtain ⟨ds', hds', hsound'⟩ := h'
  exact ⟨ds' ++ ds, by rw [hds', hds, List.append_assoc],
    List.forall_mem_append.mpr ⟨hsound', hsound⟩⟩

end World.Extends

/-- Whether a result is no refusal of an empty range, and its state comes after another one. -/
inductive SoundEnd {τ : Type} (S : τ → τ → Prop) (s : τ) : EStateM.Result Fault τ α → Prop where
  | ok {a : α} {s' : τ} (state : S s s') : SoundEnd S s (.ok a s')
  | error {e : Fault} {s' : τ} (state : S s s') (sound : e.isEmptyRange = false) :
      SoundEnd S s (.error e s')

namespace SoundEnd

variable {ρ τ : Type} {S : τ → τ → Prop} {s s₁ : τ}

/-- A result that comes after a later state comes after an earlier one. -/
theorem after (htrans : ∀ ⦃s₁ s₂ s₃⦄, S s₁ s₂ → S s₂ s₃ → S s₁ s₃) (hs : S s s₁)
    {r : EStateM.Result Fault τ α} (h : SoundEnd S s₁ r) : SoundEnd S s r := by
  cases h with
  | ok state => exact .ok (htrans hs state)
  | error state sound => exact .error (htrans hs state) sound

/-- A block ends soundly if its parts do. -/
theorem bind (htrans : ∀ ⦃s₁ s₂ s₃⦄, S s₁ s₂ → S s₂ s₃ → S s₁ s₃)
    {x : ReaderT ρ (EStateM Fault τ) α} {f : α → ReaderT ρ (EStateM Fault τ) β} {r : ρ}
    (hx : SoundEnd S s (x r s)) (hf : ∀ a s', SoundEnd S s' (f a r s')) :
    SoundEnd S s ((x >>= f) r s) := by
  rw [run_bind]
  generalize x r s = result at hx
  cases hx with
  | ok state => exact (hf _ _).after htrans state
  | error state sound => exact .error state sound

end SoundEnd

/-- A roll that is put together from steps asks for no empty range. -/
theorem Roll.Stepwise.sound {x : Roll σ α} (hx : x.Stepwise) (src : Source σ) (w : World σ) :
    SoundEnd World.Extends w (x src w) := by
  induction hx generalizing w with
  | @ofExcept _ x h =>
    cases x with
    | ok a => exact .ok (.refl w)
    | error e => exact .error (.refl w) (h e rfl)
  | @drawInt low high h =>
    unfold Roll.drawInt
    rw [if_neg (by simp [h])]
    exact .ok ⟨[_], rfl, List.forall_mem_singleton.mpr h⟩
  | drawFraction => exact .ok ⟨[_], rfl, List.forall_mem_singleton.mpr trivial⟩
  | patience => exact .ok (.refl w)
  | note tag message => exact .ok (.of_draws_eq rfl)
  | remark level origin message => exact .ok (.of_draws_eq rfl)
  | evaluate d expr =>
    rw [evaluate_eq]
    cases Formula.evaluate d expr with
    | ok n => exact .ok (.of_draws_eq rfl)
    | error e => cases e <;> exact .error (.of_draws_eq rfl) rfl
  | bind hx hf ihx ihf => exact .bind .trans (ihx w) ihf
  | @quietly _ x hx ih =>
    have hx := ih w
    unfold Roll.quietly
    generalize x src w = result at hx
    cases hx with
    | ok state => exact .ok state
    | error state sound => exact .error state sound
  | @orElseFormula _ x recover hx hrecover ihx ihrecover =>
    have hx := ihx w
    unfold Roll.orElseFormula
    generalize x src w = result at hx
    cases hx with
    | ok state => exact .ok state
    | @error e w₁ state sound =>
      -- where a formula failed, the recovery goes on from what is drawn
      cases e with
      | formula why => exact (ihrecover why w₁).after .trans state
      | _ => exact .error state sound

/-! ### Dice -/

theorem times_stepwise {x : Roll σ α} (hx : x.Stepwise) (n : Nat) : (times x n).Stepwise := by
  induction n with
  | zero => exact .pure []
  | succ n ih => exact hx.bind fun a => ih.bind fun rest => .pure (a :: rest)

theorem die_stepwise {sides : Int} (h : 1 ≤ sides) : (die sides : Roll σ Int).Stepwise := .drawInt h

theorem dice_stepwise (count : Nat) {sides : Int} (h : 1 ≤ sides) :
    (dice count sides : Roll σ (List Int)).Stepwise := by
  unfold dice
  split
  · have hdie : (die 10 : Roll σ Int).Stepwise := die_stepwise (by decide)
    refine times_stepwise (Roll.Stepwise.bind (x := percentile) ?_ fun r => .pure r.value) count
    exact hdie.bind fun tens => hdie.bind fun ones => .pure _
  · exact times_stepwise (die_stepwise h) count

theorem chain_stepwise (fuel : Nat) : (chain fuel : Roll σ (List Int)).Stepwise := by
  induction fuel with
  | zero => exact .throw rfl
  | succ fuel ih =>
    refine (die_stepwise (by decide)).bind fun r => ?_
    split
    · exact ih.bind fun rest => .pure (r :: rest)
    · exact .pure [r]

theorem chains_stepwise (fuel : Nat) (rs : List Int) :
    (chains fuel rs : Roll σ (List Int)).Stepwise := by
  induction rs with
  | nil => exact .pure []
  | cons r rs ih =>
    unfold chains
    split
    · exact (chain_stepwise fuel).bind fun added => ih.bind fun rest => .pure (added ++ rest)
    · exact ih

theorem openEnded_stepwise (count : Nat) : (openEnded count : Roll σ OpenEnded).Stepwise :=
  (times_stepwise (die_stepwise (by decide)) count).bind fun initial =>
    Roll.Stepwise.patience.bind fun fuel => (chains_stepwise fuel initial).bind fun _ => .pure _

theorem rollToken_stepwise (t : DiceToken) :
    (rollToken t : Roll σ (Int × Option OpenEnded)).Stepwise := by
  have hcount : (Roll.ofExcept t.readCount : Roll σ Nat).Stepwise := .ofExcept (.readNumeral _)
  by_cases hform : t.form = .openEnded
  · rw [rollToken_openEnded hform]
    exact hcount.bind fun count => (openEnded_stepwise count).bind fun r => .pure _
  · rw [rollToken_sided hform]
    exact hcount.bind fun count =>
      (dice_stepwise count t.form.one_le_sides).bind fun ns => .pure _

/-! ### Formulas -/

section Formulas

variable (d : Dialect) (bs : Formula.Bindings) (formula : String)

theorem rollPieces_stepwise (ps : List Piece) : (rollPieces d ps : Roll σ Rolled).Stepwise := by
  induction ps with
  | nil => exact .pure ({} : Rolled)
  | cons piece ps ih =>
    cases piece with
    | char c => exact ih.bind fun r => .pure _
    | dice t =>
      unfold rollPieces
      split
      · exact (rollToken_stepwise t).bind fun r =>
          (Roll.Stepwise.ofExcept (.writeNumeral _)).bind fun digits => ih.bind fun rest => .pure _
      · exact ih.bind fun r => .pure _

theorem evaluateStrict_stepwise : (evaluateStrict d bs formula : Roll σ Evaluation).Stepwise := by
  have hvalue : (do
      let named ← Roll.ofExcept (replaceNames d bs formula)
      let rolled ← rollPieces d (pieces named)
      let value ← Roll.evaluate d (String.ofList rolled.text)
      return { formula := formula, value := value, expression := String.ofList rolled.text,
               dice := rolled.dice, openEnded := rolled.openEnded } :
        Roll σ Evaluation).Stepwise :=
    (Roll.Stepwise.ofExcept (.substitute _ _)).bind fun named => (rollPieces_stepwise d _).bind
      fun r => (Roll.Stepwise.evaluate d _).bind fun n => .pure _
  cases hblank : Text.isBlankString formula with
  | true =>
    unfold evaluateStrict
    rw [hblank]
    exact (Roll.Stepwise.throw rfl).bind fun _ => hvalue
  | false =>
    rw [evaluateStrict_of_not_blank hblank]
    exact hvalue

theorem evaluateFormula_stepwise : (evaluateFormula d bs formula : Roll σ Evaluation).Stepwise :=
  (evaluateStrict_stepwise d bs formula).orElseFormula fun _ =>
    (Roll.Stepwise.remark _ _ _).bind fun _ => (Roll.Stepwise.note _ _).bind fun _ => .pure _

/-! ### Ages -/

theorem formulaAge_stepwise (name : String) (age : Int) :
    (formulaAge d formula name age : Roll σ (Option Int)).Stepwise := by
  have hvalue := (evaluateStrict_stepwise (σ := σ) d [(name, .int age)] formula).map some
  have hnote : ∀ why : FormulaError, (do
      Roll.note "Age" (d.name ++ " formula failed (" ++ why.message ++ "); falling back")
      return none : Roll σ (Option Evaluation)).Stepwise :=
    fun _ => (Roll.Stepwise.note _ _).bind fun _ => .pure none
  refine Roll.Stepwise.bind (hvalue.orElseFormula fun why => ?_) fun result => ?_
  · cases writeNumeral age with
    | ok digits => exact (Roll.Stepwise.remark _ _ _).bind fun _ => hnote why
    | error e => exact (Roll.Stepwise.pure ()).bind fun _ => hnote why
  cases result with
  | none => exact .pure none
  | some e => exact (Roll.Stepwise.ofExcept (.clampAge _)).bind fun age => .pure (some age)

theorem mappedAge_stepwise (formula : Option String) (name : String) (age : Int) :
    (mappedAge d formula name age : Roll σ (Option Int)).Stepwise := by
  unfold mappedAge
  split
  · exact .pure none
  · exact .pure none
  · exact formulaAge_stepwise d _ name age

end Formulas

theorem actualToApparent_stepwise (m : Option AgeMapping) (age : Int) :
    (actualToApparent m age : Roll σ Int).Stepwise := by
  refine (mappedAge_stepwise _ _ _ age).bind fun apparent => ?_
  cases apparent with
  | some apparent => exact .pure apparent
  | none => exact .ofExcept (.tableApparent m age)

/-- There is a bracket to choose where one is drawn, and every bracket has a span that is not
empty. -/
theorem drawAge_stepwise (brackets : List AgeBracket) (apparent : Int) :
    (drawAge brackets apparent : Roll σ Int).Stepwise := by
  cases brackets with
  | nil => exact .pure _
  | cons first rest =>
    have hchoice : (0 : Int) ≤ ((first :: rest).length : Int) - 1 := by
      rw [List.length_cons]
      omega
    exact (Roll.Stepwise.drawInt hchoice).bind fun i => .drawInt (AgeBracket.span_le _)

theorem apparentToActual_stepwise (m : Option AgeMapping) (apparent : Int) :
    (apparentToActual m apparent : Roll σ Int).Stepwise := by
  refine (mappedAge_stepwise _ _ _ apparent).bind fun age => ?_
  cases age with
  | some age => exact .pure age
  | none => exact drawAge_stepwise _ apparent

/-! ### Siblings -/

section Siblings

variable (bs : Formula.Bindings) (formula : String)

theorem modifierValue_stepwise (modifier : List Char) :
    (modifierValue bs modifier : Roll σ Number).Stepwise := by
  unfold modifierValue
  split
  · exact .pure 0
  · exact (evaluateFormula_stepwise _ bs _).bind fun e => .pure e.value

theorem litterCount_stepwise : (litterCount formula bs : Roll σ LitterCount).Stepwise := by
  have hcount : ∀ n : Number, (Roll.ofExcept (floorNonNegative n) : Roll σ Nat).Stepwise :=
    fun n => .ofExcept (.floorNonNegative n)
  have htotal : ∀ n : Number, (Roll.ofExcept (recordedTotal n) : Roll σ Float).Stepwise :=
    fun n => .ofExcept (.recordedTotal n)
  unfold litterCount
  split
  · next lead _ =>
    refine (Roll.Stepwise.ofExcept (.readNumeral _)).bind fun n => ?_
    cases lead.kind with
    | openEnded =>
      exact (openEnded_stepwise n).bind fun roll => (modifierValue_stepwise bs _).bind fun m =>
        (htotal _).bind fun x => (hcount _).bind fun k => .pure _
    | plain =>
      exact (dice_stepwise n (by decide)).bind fun rolls =>
        (modifierValue_stepwise bs _).bind fun m => (htotal _).bind fun x =>
          (hcount _).bind fun k => .pure _
  · exact (evaluateFormula_stepwise _ bs formula).bind fun e => (hcount _).bind fun k => .pure _

theorem litterSize_stepwise : (litterSize formula bs : Roll σ Nat).Stepwise := by
  unfold litterSize
  split
  · exact (Roll.Stepwise.pure 1).bind fun _ => .pure _
  dsimp only
  split
  · exact .ofExcept (.readNumeral _)
  · exact (evaluateFormula_stepwise _ bs _).bind fun e =>
      (Roll.Stepwise.ofExcept (.ceilInt _)).bind fun k => .pure _

theorem byChance_stepwise (male : Float) : (byChance male : Roll σ String).Stepwise :=
  Roll.Stepwise.drawFraction.bind fun _ => .pure _

/-- Only dice with 6, 10 or 100 sides are rolled for a gender. -/
theorem byRanges_stepwise (count sides : Nat) (table : List GenderRange) :
    (byRanges count sides table : Roll σ String).Stepwise := by
  unfold byRanges
  split
  · next hsides =>
    have hsides : (1 : Int) ≤ sides := by omega
    refine (dice_stepwise count hsides).bind fun rolls => ?_
    refine (Roll.Stepwise.ofExcept (.labelOf _ _)).bind fun label => ?_
    cases label with
    | some label => exact .pure label
    | none => exact byChance_stepwise 0.5
  · exact byChance_stepwise 0.5

theorem drawGender_stepwise : (drawGender formula : Roll σ String).Stepwise := by
  have hnumber : ∀ ds, (Roll.ofExcept (readNumeral ds) : Roll σ Nat).Stepwise :=
    fun ds => .ofExcept (.readNumeral ds)
  unfold drawGender
  split
  · next rule _ =>
    cases rule with
    | chance male => exact byChance_stepwise male
    | share percent =>
      exact (Roll.Stepwise.ofExcept (.percentage _)).bind fun male => byChance_stepwise male
    | ranges count sides table =>
      exact (hnumber count).bind fun count => (hnumber sides).bind fun sides =>
        byRanges_stepwise count sides table
  · exact byChance_stepwise 0.5

variable (side : Side) (rules : SiblingRules) (age : Int) (m : Option AgeMapping)

theorem rollLitter_stepwise (litter : Int) :
    (rollLitter side rules age m litter : Roll σ (List Sibling)).Stepwise :=
  (litterSize_stepwise _ _).bind fun size => (evaluateFormula_stepwise _ _ _).bind fun _ =>
    (Roll.Stepwise.ofExcept (.floorNonNegative _)).bind fun apparent =>
      (apparentToActual_stepwise m apparent).bind fun _ =>
        (times_stepwise (drawGender_stepwise _) size).bind fun _ =>
          (Roll.Stepwise.tell _ ((Rangeless.writeNumeral _).bind fun _ =>
            (Rangeless.writeNumeral _).bind fun _ => (Rangeless.writeNumeral _).bind fun _ =>
              (Rangeless.writeNumeral _).bind fun _ => .ok _)).bind fun _ => .pure _

theorem rollLitters_stepwise (n : Nat) (litter : Int) :
    (rollLitters side rules age m n litter : Roll σ (List Sibling)).Stepwise := by
  induction n generalizing litter with
  | zero => exact .pure []
  | succ n ih =>
    exact (rollLitter_stepwise side rules age m litter).bind fun first =>
      (ih (litter + 1)).bind fun rest => .pure (first ++ rest)

theorem rollSide_stepwise (start : Int) :
    (rollSide side rules age m start : Roll σ SideRoll).Stepwise :=
  (litterCount_stepwise _ _).bind fun _ =>
    (Roll.Stepwise.tell _ ((Rangeless.writeNumeral _).bind fun _ => .ok _)).bind fun _ =>
      (rollLitters_stepwise side rules age m _ start).bind fun _ => .pure _

end Siblings

/-! ### Parents -/

theorem rollStatus_stepwise (rules : ParentRules) (age : Int) :
    (rollStatus rules age : Roll σ StatusRoll).Stepwise :=
  (evaluateFormula_stepwise _ _ _).bind fun _ =>
    (Roll.Stepwise.ofExcept (.floorInt _)).bind fun _ =>
      (Roll.Stepwise.tell _ ((Rangeless.writeNumeral _).bind fun _ => .ok _)).bind fun _ => .pure _

theorem oldestApparent_stepwise (siblings : List Sibling) (age : Int) (m : Option AgeMapping) :
    (oldestApparent siblings age m : Roll σ Int).Stepwise := by
  unfold oldestApparent
  split
  · exact .pure age
  · exact (actualToApparent_stepwise m _).quietly

theorem rollParentAge_stepwise (formula : String) (siblings : List Sibling) (age : Int)
    (m : Option AgeMapping) : (rollParentAge formula siblings age m : Roll σ ParentAge).Stepwise :=
  (oldestApparent_stepwise siblings age m).bind fun _ =>
    (evaluateFormula_stepwise _ _ _).bind fun _ =>
      (Roll.Stepwise.ofExcept (.floorNonNegative _)).bind fun apparent =>
        (apparentToActual_stepwise m apparent).bind fun _ =>
          (Roll.Stepwise.tell _ ((Rangeless.writeNumeral _).bind fun _ =>
            (Rangeless.writeNumeral _).bind fun _ => .ok _)).bind fun _ => .pure _

end Kindred
