import Kindred.Proofs.Dice.Rolled
import Kindred.Proofs.Formula.Substitution
import Kindred.Proofs.Number.Double

/-!
# How the evaluation of a formula ends

A formula that has no value counts as zero where play goes on, and the failure is reported in one
line. Integers that are too large escape this: a value that is beyond every double, a number of dice
with too many digits to be read, and a value of a name or a total of dice with too many digits to be
written. They end the strict evaluation and the other one alike.

- `Number.IsFinite`: numbers near a finite double.
- `rollPieces_dice_ok_iff`, `rollPieces_dice_error_iff`: a notation in a text.
- `RollsOverlong`, `rollPieces_error`: rolling the dice of a text fails only at a count that cannot
  be read and at a total that cannot be written.
- `evaluate_finite`, `evaluate_tooLarge`: what working out an expression may come to.
- `IsBoundless`, `IsUncountable`, `IsOverlong`: when a fault is none of the formula errors.
- `evaluateStrict_ok_iff`, `evaluateStrict_error`: the value and the faults of a formula.
- `evaluateFormula_cases`, `evaluateFormula_finite`: the value of one that counts as zero where it
  fails.
- `Contained`, `Escapes`: the ways in which both evaluations end.
- `contained_or_escapes`: there are no others.
-/

namespace Kindred

open Kindred.Text

/-- Whether a finite double is near a number. -/
def Number.IsFinite (n : Number) : Prop :=
  ∃ x, n.toFloat? = some x ∧ Kindred.Number.isFinite x = true

theorem Number.isFinite_zero : (0 : Number).IsFinite := ⟨0, by decide, by decide⟩

theorem Number.IsFinite.isFinite_toFloat {n : Number} (h : n.IsFinite) :
    isFinite n.toFloat = true := by
  obtain ⟨x, hx, hfinite⟩ := h
  cases n with
  | int n =>
    change Number.finiteOfInt? n = some x at hx
    unfold Number.finiteOfInt? at hx
    dsimp only at hx
    split at hx
    · assumption
    · cases hx
  | float y => cases hx; exact hfinite

/-- Every formula error is put into words. -/
theorem FormulaError.message_ne_empty (why : FormulaError) : why.message ≠ "" := by
  have left : ∀ {s t : String}, s ≠ "" → s ++ t ≠ "" :=
    fun h happend => h (String.append_eq_empty_iff.mp happend).1
  have right : ∀ {s t : String}, t ≠ "" → s ++ t ≠ "" :=
    fun h happend => h (String.append_eq_empty_iff.mp happend).2
  unfold FormulaError.message
  cases why with
  | emptyFormula => decide
  | emptyExpression => decide
  | unreadable expr why => exact left (left (left (by decide)))
  | literal expr => exact left (by decide)
  | operator name expr => exact left (left (left (by decide)))
  | unresolved name expr => exact left (left (left (by decide)))
  | call expr => exact left (by decide)
  | failed expr why => exact left (left (left (by decide)))
  | notFinite expr => exact right (by decide)

/-- What was rolled for a text with a notation in front: the total of the notation, and what was
rolled for the rest. -/
def Rolled.cons (t : DiceToken) (total : Int) (own : Option OpenEnded) (r : Rolled) : Rolled :=
  { text := intText total ++ r.text, dice := (String.ofList t.text, total) :: r.dice,
    openEnded := own.or r.openEnded }

namespace Formula

variable {σ : Type} {d : Dialect} {bs : Bindings} {s : String} {src : Source σ} {w w' : World σ}

/-! ### Rolling the dice of a text -/

theorem rollPieces_chars (cs : List Char) (ps : List Piece) :
    (rollPieces d (cs.map .char ++ ps) : Roll σ Rolled) =
      (fun r => { r with text := cs ++ r.text }) <$> rollPieces d ps := by
  induction cs with
  | nil => exact (id_map _).symm
  | cons c cs ih =>
    rw [List.map_cons, List.cons_append, rollPieces, ih, ← map_eq_pure_bind, Functor.map_map]
    rfl

/-- A notation of another form stays as it is. -/
theorem rollPieces_kept {t : DiceToken} (ht : t.form ∉ d.dice) (ps : List Piece) :
    (rollPieces d (.dice t :: ps) : Roll σ Rolled) =
      (fun r => { r with text := t.text ++ r.text }) <$> rollPieces d ps := by
  rw [rollPieces, if_neg (by simpa using ht), map_eq_pure_bind]

theorem rollPieces_dice {t : DiceToken} (ht : t.form ∈ d.dice) (ps : List Piece) :
    (rollPieces d (.dice t :: ps) : Roll σ Rolled) = rollToken t >>= fun (total, own) =>
      if Short total then Rolled.cons t total own <$> rollPieces d ps
      else throw .integerTooLong := by
  rw [rollPieces, if_pos (List.contains_iff_mem.mpr ht)]
  refine congrArg _ (funext fun (total, own) => ?_)
  by_cases hshort : Short total
  · have htext : (Number.int total).text.toList = intText total := String.toList_ofList
    dsimp only
    rw [writeNumeral_of_short hshort, if_pos hshort, map_eq_pure_bind]
    refine congrArg (rollPieces d ps >>= ·) (funext fun r => ?_)
    rw [htext]
    rfl
  · dsimp only
    rw [writeNumeral, if_neg hshort, if_neg hshort]
    rfl

/-- A notation of the dialect makes place for its total, if that can be written. -/
theorem rollPieces_dice_ok_iff {t : DiceToken} (ht : t.form ∈ d.dice) {ps : List Piece}
    {r : Rolled} : rollPieces d (.dice t :: ps) src w = .ok r w' ↔
      ∃ total own w₁ r', rollToken t src w = .ok (total, own) w₁ ∧ Short total ∧
        rollPieces d ps src w₁ = .ok r' w' ∧ r'.cons t total own = r := by
  rw [rollPieces_dice ht, bind_ok_iff]
  constructor
  · rintro ⟨⟨total, own⟩, w₁, htoken, h⟩
    dsimp only at h
    split at h
    · next hshort =>
      obtain ⟨r', hr', hr⟩ := map_ok_iff.mp h
      exact ⟨total, own, w₁, r', htoken, hshort, hr', hr⟩
    · cases h
  · rintro ⟨total, own, w₁, r', htoken, hshort, hr', rfl⟩
    refine ⟨(total, own), w₁, htoken, ?_⟩
    dsimp only
    rw [if_pos hshort]
    exact map_ok_iff.mpr ⟨r', hr', rfl⟩

/-- A notation of the dialect is given up, comes to a total that cannot be written, or makes place
for it in front of a text that fails. -/
theorem rollPieces_dice_error_iff {t : DiceToken} (ht : t.form ∈ d.dice) {ps : List Piece}
    {e : Fault} : rollPieces d (.dice t :: ps) src w = .error e w' ↔
      rollToken t src w = .error e w' ∨ ∃ total own w₁, rollToken t src w = .ok (total, own) w₁ ∧
        ((¬ Short total ∧ e = .integerTooLong ∧ w₁ = w') ∨
          (Short total ∧ rollPieces d ps src w₁ = .error e w')) := by
  rw [rollPieces_dice ht, bind_error_iff, Prod.exists]
  refine or_congr_right (exists_congr fun total => exists_congr fun own => exists_congr fun w₁ =>
    and_congr_right fun _ => ?_)
  dsimp only
  by_cases hshort : Short total
  · rw [if_pos hshort, map_error_iff]
    simp [hshort]
  · rw [if_neg hshort]
    constructor
    · intro h
      cases h
      exact .inl ⟨hshort, rfl, rfl⟩
    · rintro (⟨-, rfl, rfl⟩ | ⟨h, -⟩)
      · rfl
      · exact absurd h hshort

/-- Whether a notation comes to a total with too many digits to be written, when the dice of a text
are rolled from left to right. -/
def RollsOverlong (d : Dialect) (ps : List Piece) (src : Source σ) (w : World σ) : Prop :=
  ∃ front t rest r w₁ total own w₂, ps = front ++ .dice t :: rest ∧ t.form ∈ d.dice ∧
    rollPieces d front src w = .ok r w₁ ∧ rollToken t src w₁ = .ok (total, own) w₂ ∧ ¬ Short total

/-- A part in front that is rolled does not matter. -/
theorem RollsOverlong.cons {p : Piece} {ps : List Piece} {w₁ : World σ}
    (hp : ∀ front r w', rollPieces d front src w₁ = .ok r w' →
      ∃ r', rollPieces d (p :: front) src w = .ok r' w')
    (h : RollsOverlong d ps src w₁) : RollsOverlong d (p :: ps) src w := by
  obtain ⟨front, t, rest, r, w₂, total, own, w₃, rfl, hform, hfront, htoken, hlong⟩ := h
  obtain ⟨r', hr'⟩ := hp front r w₂ hfront
  exact ⟨p :: front, t, rest, r', w₂, total, own, w₃, rfl, hform, hr', htoken, hlong⟩

/-- The faults with which rolling the dice of a text may end: a notation is given up, its count has
too many digits to be read, or its total has too many to be written. -/
inductive RollFault (d : Dialect) (ps : List Piece) (src : Source σ) (w : World σ) : Fault → Prop
  | endless : RollFault d ps src w .endless
  | uncountable {t : DiceToken} (ht : .dice t ∈ ps) (hform : t.form ∈ d.dice)
      (hlong : longestNumeral < t.digits.length) :
      RollFault d ps src w (.numeralTooLong t.digits.length)
  | overlong (h : RollsOverlong d ps src w) : RollFault d ps src w .integerTooLong

theorem RollFault.cons {p : Piece} {ps : List Piece} {w₁ : World σ} {e : Fault}
    (hp : ∀ front r w', rollPieces d front src w₁ = .ok r w' →
      ∃ r', rollPieces d (p :: front) src w = .ok r' w')
    (h : RollFault d ps src w₁ e) : RollFault d (p :: ps) src w e := by
  cases h with
  | endless => exact .endless
  | uncountable ht hform hlong => exact .uncountable (List.mem_cons_of_mem p ht) hform hlong
  | overlong h => exact .overlong (h.cons hp)

theorem rollPieces_error {ps : List Piece} {e : Fault}
    (h : rollPieces d ps src w = .error e w') : RollFault d ps src w e := by
  induction ps generalizing w with
  | nil => cases h
  | cons p ps ih =>
    cases p with
    | char c =>
      rw [show Piece.char c :: ps = [c].map .char ++ ps from rfl, rollPieces_chars,
        map_error_iff] at h
      refine (ih h).cons fun front r w' hr => ?_
      exact ⟨_, bind_pure_ok_iff.mpr ⟨r, hr, rfl⟩⟩
    | dice t =>
      by_cases hform : t.form ∈ d.dice
      · rcases (rollPieces_dice_error_iff hform).mp h with htoken | ⟨total, own, w₁, htoken, h⟩
        · have hfails : (rollToken t : Roll σ (Int × Option OpenEnded)).FailsOnly
              (RollFault d (.dice t :: ps) src w) :=
            rollToken_failsOnly_of_count .endless fun hlong =>
              .uncountable List.mem_cons_self hform hlong
          exact hfails htoken
        · rcases h with ⟨hlong, rfl, -⟩ | ⟨hshort, hrest⟩
          · exact .overlong ⟨[], t, ps, {}, w, total, own, w₁, rfl, hform, rfl, htoken, hlong⟩
          · refine (ih hrest).cons fun front r w' hr => ⟨r.cons t total own, ?_⟩
            exact (rollPieces_dice_ok_iff hform).mpr
              ⟨total, own, w₁, r, htoken, hshort, hr, rfl⟩
      · rw [rollPieces_kept hform, map_error_iff] at h
        refine (ih h).cons fun front r w' hr => ?_
        rw [rollPieces_kept hform]
        exact ⟨_, map_ok_iff.mpr ⟨r, hr, rfl⟩⟩

theorem rollPieces_silent (ps : List Piece) : (rollPieces d ps : Roll σ Rolled).Silent := by
  induction ps with
  | nil => exact .pure ({} : Rolled)
  | cons piece ps ih =>
    cases piece with
    | char c => exact ih.bind fun r => .pure _
    | dice t =>
      unfold rollPieces
      split
      · exact (rollToken_silent t).bind fun r => (Roll.Silent.ofExcept _).bind fun digits =>
          ih.bind fun rest => .pure _
      · exact ih.bind fun r => .pure _

/-- The strict evaluation leaves no lines. -/
theorem evaluateStrict_silent : (evaluateStrict d bs s : Roll σ Evaluation).Silent := by
  have hvalue : (do
      let named ← Roll.ofExcept (replaceNames d bs s)
      let rolled ← rollPieces d (pieces named)
      let expression := String.ofList rolled.text
      let value ← Roll.evaluate d expression
      return { formula := s, value := value, expression := expression, dice := rolled.dice,
               openEnded := rolled.openEnded } : Roll σ Evaluation).Silent :=
    (Roll.Silent.ofExcept _).bind fun named => (rollPieces_silent _).bind fun r =>
      (Roll.Silent.evaluate d _).bind fun n => .pure _
  unfold evaluateStrict
  split
  · exact (Roll.Silent.throw _).bind fun _ => hvalue
  · exact hvalue

/-! ### Working out an expression -/

/-- An expression that is no formula error has a value, which is tested for being finite. -/
theorem evaluate_inv {expr : String} {x : Except Shortfall Number} (h : evaluate d expr = x)
    (hx : ∀ why, x ≠ .error (.formula why)) :
    ∃ items is v, postfix? expr.toList = .ok items ∧ program? d expr items = .ok is ∧
      result is = .ok v ∧ finiteNumber expr v = x := by
  subst h
  unfold evaluate at hx ⊢
  split at hx
  · exact absurd rfl (hx _)
  next hblank =>
  rw [if_neg hblank]
  cases hitems : postfix? expr.toList with
  | error why => rw [hitems] at hx; exact absurd rfl (hx _)
  | ok items =>
    rw [hitems] at hx
    unfold evaluateItems at hx ⊢
    dsimp only at hx ⊢
    cases hprogram : program? d expr items with
    | error why => rw [hprogram] at hx; exact absurd rfl (hx _)
    | ok is =>
      rw [hprogram] at hx
      dsimp only at hx ⊢
      cases hresult : result is with
      | error why => rw [hresult] at hx; exact absurd rfl (hx _)
      | ok v => exact ⟨items, is, v, rfl, hprogram, hresult, rfl⟩

theorem isFinite_of_finiteOfInt? {n : Int} {x : Float} (h : Number.finiteOfInt? n = some x) :
    Kindred.Number.isFinite x = true := by
  unfold Number.finiteOfInt? at h
  dsimp only at h
  split at h
  · next hfinite => cases h; exact hfinite
  · cases h

/-- The value of an expression is finite. -/
theorem evaluate_finite {expr : String} {n : Number} (h : evaluate d expr = .ok n) :
    n.IsFinite := by
  obtain ⟨_, _, v, -, -, -, hv⟩ := evaluate_inv h nofun
  unfold finiteNumber at hv
  split at hv
  · split at hv
    · next x hx => cases hv; exact ⟨x, hx, isFinite_of_finiteOfInt? hx⟩
    · cases hv
  · next x =>
    split at hv
    · next hfinite => cases hv; exact ⟨x, rfl, hfinite⟩
    · cases hv
  · cases hv

/-- An expression is too large only if its value is an integer that is beyond every double. -/
theorem evaluate_tooLarge {expr : String} (h : evaluate d expr = .error .tooLarge) :
    ∃ items is n, postfix? expr.toList = .ok items ∧ program? d expr items = .ok is ∧
      result is = .ok (.number (.int n)) ∧ Number.finiteOfInt? n = none := by
  obtain ⟨items, is, v, hitems, hprogram, hresult, hv⟩ := evaluate_inv h nofun
  unfold finiteNumber at hv
  split at hv
  · next n =>
    split at hv
    · cases hv
    · next hn => exact ⟨items, is, n, hitems, hprogram, hresult, hn⟩
  · split at hv <;> cases hv
  · cases hv

/-! ### The strict evaluation -/

/-- Whether the expression that is left of a formula, when its names and dice are replaced, has an
integer beyond every double as its value. -/
def IsBoundless (d : Dialect) (bs : Bindings) (s : String) (src : Source σ) (w : World σ) : Prop :=
  ∃ named rolled w₁ items is n, replaceNames d bs s = .ok named ∧
    rollPieces d (pieces named) src w = .ok rolled w₁ ∧
    postfix? rolled.text = .ok items ∧ program? d (String.ofList rolled.text) items = .ok is ∧
    result is = .ok (.number (.int n)) ∧ Number.finiteOfInt? n = none

/-- Whether a notation that is rolled for a formula has a count of more than 4300 digits. -/
def IsUncountable (d : Dialect) (bs : Bindings) (s : String) (t : DiceToken) : Prop :=
  ∃ named, replaceNames d bs s = .ok named ∧ .dice t ∈ pieces named ∧ t.form ∈ d.dice ∧
    longestNumeral < t.digits.length

/-- Whether a notation that is rolled for a formula comes to a total of more than 4300 digits. -/
def IsOverlong (d : Dialect) (bs : Bindings) (s : String) (src : Source σ) (w : World σ) : Prop :=
  ∃ named, replaceNames d bs s = .ok named ∧ RollsOverlong d (pieces named) src w

theorem evaluateStrict_of_blank (h : isBlankString s = true) :
    evaluateStrict d bs s src w = .error (.formula .emptyFormula) w := by
  unfold evaluateStrict
  rw [h]
  rfl

/-- A formula with a name whose value cannot be written is not looked at. -/
theorem evaluateStrict_of_not_writable (hblank : isBlankString s = false) (h : ¬ Writable d bs) :
    evaluateStrict d bs s src w = .error .integerTooLong w := by
  rw [evaluateStrict_of_not_blank hblank, replaceNames_of_not_writable h]
  rfl

/-- Once the names of a formula are replaced, its dice are rolled, and what they leave is worked
out. -/
theorem evaluateStrict_of_writable (hblank : isBlankString s = false) (h : Writable d bs) :
    (evaluateStrict d bs s : Roll σ Evaluation) = do
      let rolled ← rollPieces d (pieces (namedText d bs s))
      let value ← Roll.evaluate d (String.ofList rolled.text)
      return { formula := s, value := value, expression := String.ofList rolled.text,
               dice := rolled.dice, openEnded := rolled.openEnded } := by
  rw [evaluateStrict_of_not_blank hblank, replaceNames_of_writable h]
  rfl

/-- What a formula comes to: its names can be written, its dice are rolled, and what they leave is
worked out. -/
theorem evaluateStrict_ok_iff {e : Evaluation} : evaluateStrict d bs s src w = .ok e w' ↔
    isBlankString s = false ∧ Writable d bs ∧ ∃ r w₁ n,
      rollPieces d (pieces (namedText d bs s)) src w = .ok r w₁ ∧
      evaluate d (String.ofList r.text) = .ok n ∧
      w' = { w₁ with cache := (w₁.cache.evaluate d (String.ofList r.text)).2 } ∧
      { formula := s, value := n, expression := String.ofList r.text, dice := r.dice,
        openEnded := r.openEnded } = e := by
  cases hblank : isBlankString s with
  | true =>
    rw [evaluateStrict_of_blank hblank]
    exact ⟨nofun, nofun⟩
  | false =>
    by_cases hwritable : Writable d bs
    · rw [evaluateStrict_of_writable hblank hwritable]
      simp only [bind_ok_iff, pure_ok_iff, Roll.evaluate_ok_iff, hwritable, true_and]
      constructor
      · rintro ⟨r, w₁, hr, n, _, ⟨hn, rfl⟩, rfl, rfl⟩
        exact ⟨r, w₁, n, hr, hn, rfl, rfl⟩
      · rintro ⟨r, w₁, n, hr, hn, rfl, rfl⟩
        exact ⟨r, w₁, hr, n, _, ⟨hn, rfl⟩, rfl, rfl⟩
    · rw [evaluateStrict_of_not_writable hblank hwritable]
      exact ⟨nofun, fun h => absurd h.2.1 hwritable⟩

/-- The value of a formula is finite. -/
theorem evaluateStrict_ok {e : Evaluation} (h : evaluateStrict d bs s src w = .ok e w') :
    e.ok = true ∧ e.value.IsFinite := by
  obtain ⟨-, -, r, w₁, n, -, hn, -, rfl⟩ := evaluateStrict_ok_iff.mp h
  exact ⟨rfl, evaluate_finite hn⟩

/-- A formula that has a value evaluates to it. -/
theorem evaluateFormula_of_ok {e : Evaluation}
    (h : evaluateStrict d bs s src w = .ok e w') :
    evaluateFormula d bs s src w = .ok e w' := Roll.orElseFormula_of_ok h

/-- A formula that fails counts as zero, and one line of the trace and one log record say why. -/
theorem exists_evaluateFormula_of_formula {why : FormulaError}
    (h : evaluateStrict d bs s src w = .error (.formula why) w') :
    ∃ line record, evaluateFormula d bs s src w =
      .ok { formula := s, value := 0, ok := false, error := some why.message }
        { w' with trace := w'.trace.note "Formula" line, log := record :: w'.log } :=
  ⟨_, _, Roll.orElseFormula_of_formula h⟩

/-- Other faults are not recovered from. -/
theorem evaluateFormula_of_error {e : Fault}
    (h : evaluateStrict d bs s src w = .error e w') (he : ∀ why, e ≠ .formula why) :
    evaluateFormula d bs s src w = .error e w' := Roll.orElseFormula_of_error h he

/-- A formula that is put to zero where it fails has its value, or is zero. -/
theorem evaluateFormula_cases {e : Evaluation} (h : evaluateFormula d bs s src w = .ok e w') :
    evaluateStrict d bs s src w = .ok e w' ∨ e.value = 0 ∧ e.openEnded = none := by
  cases hstrict : evaluateStrict d bs s src w with
  | ok e' w₁ =>
    rw [evaluateFormula_of_ok hstrict] at h
    exact .inl h
  | error fault w₁ =>
    by_cases hformula : ∃ why, fault = .formula why
    · obtain ⟨why, rfl⟩ := hformula
      obtain ⟨_, _, hlenient⟩ := exists_evaluateFormula_of_formula hstrict
      rw [hlenient] at h
      cases h
      exact .inr ⟨rfl, rfl⟩
    · rw [evaluateFormula_of_error hstrict (not_exists.mp hformula)] at h
      cases h

/-- The value of a formula is finite, whether it was computed or not. -/
theorem evaluateFormula_finite {e : Evaluation} (h : evaluateFormula d bs s src w = .ok e w') :
    e.value.IsFinite := by
  rcases evaluateFormula_cases h with h | ⟨hzero, -⟩
  · exact (evaluateStrict_ok h).2
  · rw [hzero]
    exact Number.isFinite_zero

/-- The faults of a formula that has no value. -/
inductive StrictFault (d : Dialect) (bs : Bindings) (s : String) (src : Source σ) (w : World σ) :
    Fault → Prop
  | formula (why : FormulaError) : StrictFault d bs s src w (.formula why)
  | endless : StrictFault d bs s src w .endless
  | boundless (h : IsBoundless d bs s src w) : StrictFault d bs s src w .tooLarge
  | uncountable {t : DiceToken} (ht : IsUncountable d bs s t) :
      StrictFault d bs s src w (.numeralTooLong t.digits.length)
  | unwritable (h : ¬ Writable d bs) : StrictFault d bs s src w .integerTooLong
  | overlong (h : IsOverlong d bs s src w) : StrictFault d bs s src w .integerTooLong

theorem evaluateStrict_error {e : Fault} (h : evaluateStrict d bs s src w = .error e w') :
    StrictFault d bs s src w e := by
  cases hblank : isBlankString s with
  | true =>
    rw [evaluateStrict_of_blank hblank] at h
    cases h
    exact .formula _
  | false =>
    by_cases hwritable : Writable d bs
    · have hnamed := replaceNames_of_writable hwritable s
      rw [evaluateStrict_of_writable hblank hwritable] at h
      rcases bind_error_iff.mp h with hdice | ⟨rolled, w₁, hdice, hvalue⟩
      · -- the dice could not be rolled
        cases rollPieces_error hdice with
        | endless => exact .endless
        | uncountable ht hform hlong => exact .uncountable ⟨_, hnamed, ht, hform, hlong⟩
        | overlong hlong => exact .overlong ⟨_, hnamed, hlong⟩
      · -- the expression could not be worked out
        have hvalue := bind_pure_error_iff.mp hvalue
        rw [Roll.evaluate_eq] at hvalue
        split at hvalue
        · cases hvalue
        · cases hvalue
          exact .formula _
        · next hevaluate =>
          cases hvalue
          obtain ⟨items, is, n, hitems, hprogram, hresult, hn⟩ := evaluate_tooLarge hevaluate
          rw [String.toList_ofList] at hitems
          exact .boundless ⟨_, rolled, w₁, items, is, n, hnamed, hdice, hitems, hprogram, hresult,
            hn⟩
    · rw [evaluateStrict_of_not_writable hblank hwritable] at h
      cases h
      exact .unwritable hwritable

/-! ### Both evaluations -/

/-- Whether a formula is evaluated as it should be: it has a finite value in both evaluations; or
it fails in the strict one, and counts as zero in the other one, which tells why and adds one line
to the trace and one record to the log. -/
inductive Contained (d : Dialect) (bs : Bindings) (s : String) (src : Source σ) (w : World σ) :
    Prop where
  | value {e : Evaluation} {w' : World σ} (strict : evaluateStrict d bs s src w = .ok e w')
      (lenient : evaluateFormula d bs s src w = .ok e w') (ok : e.ok = true)
      (finite : e.value.IsFinite)
  | failed {why : FormulaError} {w' after : World σ} {line : String} {record : Remark}
      (strict : evaluateStrict d bs s src w = .error (.formula why) w')
      (lenient : evaluateFormula d bs s src w =
        .ok { formula := s, value := 0, ok := false, error := some why.message } after)
      (message : why.message ≠ "") (trace : after.trace = w.trace.note "Formula" line)
      (log : after.log = record :: w.log)

/-- Whether both evaluations of a formula end with a fault. -/
def Escapes (e : Fault) (d : Dialect) (bs : Bindings) (s : String) (src : Source σ)
    (w : World σ) : Prop :=
  ∃ w', evaluateStrict d bs s src w = .error e w' ∧ evaluateFormula d bs s src w = .error e w'

/-- A formula that fails in the strict evaluation counts as zero in the other one. -/
theorem contained_of_failed {why : FormulaError}
    (h : evaluateStrict d bs s src w = .error (.formula why) w') : Contained d bs s src w := by
  obtain ⟨htrace, hlog⟩ := evaluateStrict_silent.of_error h
  obtain ⟨line, record, hlenient⟩ := exists_evaluateFormula_of_formula h
  exact .failed h hlenient why.message_ne_empty (congrArg (·.note "Formula" line) htrace)
    (congrArg (record :: ·) hlog)

theorem escapes_of_error {e : Fault} (he : ∀ why, e ≠ .formula why)
    (h : evaluateStrict d bs s src w = .error e w') : Escapes e d bs s src w :=
  ⟨w', h, evaluateFormula_of_error h he⟩

/-- How the evaluation of a formula ends, if its chains of sixes do. It is as it should be, unless
the expression that is left when its names and dice are replaced has an integer beyond every double
as its value, a notation that is rolled has a count of more than 4300 digits, or an integer that is
put into the text has more than 4300 digits: the value of a name, whether the name occurs or not, or
the total of a notation. -/
theorem contained_or_escapes (hends : (evaluateStrict d bs s : Roll σ Evaluation).Ends src w) :
    Contained d bs s src w ∨
    (IsBoundless d bs s src w ∧ Escapes .tooLarge d bs s src w) ∨
    (∃ t, IsUncountable d bs s t ∧ Escapes (.numeralTooLong t.digits.length) d bs s src w) ∨
    ((¬ Writable d bs ∨ IsOverlong d bs s src w) ∧ Escapes .integerTooLong d bs s src w) := by
  cases hrun : evaluateStrict d bs s src w with
  | ok e w' =>
    obtain ⟨hok, hfinite⟩ := evaluateStrict_ok hrun
    exact .inl (.value hrun (evaluateFormula_of_ok hrun) hok hfinite)
  | error e w' =>
    cases evaluateStrict_error hrun with
    | formula why => exact .inl (contained_of_failed hrun)
    | endless => exact absurd hrun (hends w')
    | boundless h => exact .inr (.inl ⟨h, escapes_of_error nofun hrun⟩)
    | uncountable ht => exact .inr (.inr (.inl ⟨_, ht, escapes_of_error nofun hrun⟩))
    | unwritable h => exact .inr (.inr (.inr ⟨.inl h, escapes_of_error nofun hrun⟩))
    | overlong h => exact .inr (.inr (.inr ⟨.inr h, escapes_of_error nofun hrun⟩))

/-- A binding and a formula whose value is two to the power of 1024. -/
def samplePower : Bindings × String := ([("actualAge", .int 1024)], "2^actualAge")

theorem evaluateStrict_samplePower : ∃ w', evaluateStrict .apparentAge samplePower.1 samplePower.2
    (Source.constant 3 0) (World.start ()) = .error .tooLarge w' :=
  exists_eq_error_of_faultOf? (by decide +kernel)

/-- Such a power ends both evaluations. -/
theorem escapes_samplePower : Escapes .tooLarge .apparentAge samplePower.1 samplePower.2
    (Source.constant 3 0) (World.start ()) := by
  obtain ⟨w₁, hstrict⟩ := evaluateStrict_samplePower
  have hends : (evaluateStrict .apparentAge samplePower.1 samplePower.2).Ends
      (Source.constant 3 0) (World.start ()) := by
    intro w' h
    rw [hstrict] at h
    cases h
  rcases contained_or_escapes hends with h | ⟨-, h⟩ | ⟨t, -, _, h, -⟩ | ⟨-, _, h, -⟩
  · cases h with
    | value strict => rw [hstrict] at strict; cases strict
    | failed strict => rw [hstrict] at strict; cases strict
  · exact h
  · rw [hstrict] at h
    cases h
  · rw [hstrict] at h
    cases h

/-- So the evaluation of a formula with finite bindings, and from a source in range, need not be as
it should be, although it ends. -/
theorem not_contained_samplePower :
    (Source.constant 3 0).InRange ∧ (∀ b ∈ samplePower.1, b.2.IsFinite) ∧
      (evaluateStrict .apparentAge samplePower.1 samplePower.2).Ends
        (Source.constant 3 0) (World.start ()) ∧
      ¬ Contained .apparentAge samplePower.1 samplePower.2 (Source.constant 3 0)
        (World.start ()) := by
  obtain ⟨w₁, hstrict⟩ := evaluateStrict_samplePower
  refine ⟨Source.inRange_constant 3 0, ?_, ?_, ?_⟩
  · intro b hb
    obtain rfl := List.mem_singleton.mp hb
    obtain ⟨x, hx⟩ := Option.isSome_iff_exists.mp
      (@Kindred.Number.finiteOfInt?_isSome 1024 11 (by decide) (by decide))
    exact ⟨x, hx, isFinite_of_finiteOfInt? hx⟩
  · intro w' h
    rw [hstrict] at h
    cases h
  · intro h
    cases h with
    | value strict => rw [hstrict] at strict; cases strict
    | failed strict => rw [hstrict] at strict; cases strict

end Formula

end Kindred
