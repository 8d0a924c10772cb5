import Kindred.Proofs.Formula.Containment
import Kindred.Proofs.Formula.Pieces
import Kindred.Proofs.Formula.Reading

/-!
# What formulas mean

A formula that is written with literals, names, dice notations, the operations of arithmetic and
brackets has the value of the expression that it spells, and shows the dice that were rolled for it.
Its names make place for their values, its dice are rolled from left to right, and each leaf stands
in the resulting expression as a numeral of its own, in brackets if it is negative. So the
expression that is worked out has the shape of the formula.

- `settle_isWritten`: a leaf whose value is known stands in the expression as a numeral.
- `Term.IsAmple`: expressions whose values are not too large.
- `Written.exists_row`: the row of a formula, and its dice.
- `evaluateStrict_of_roll`: formulas whose dice are rolled.
- `evaluateStrict_of_written_cases`: formulas have a value, or a fault that is no formula error.
- `evaluateStrict_of_written`, `evaluateFormula_of_written`: the value of a formula.
-/

namespace Kindred.Formula

open Kindred.Text

variable {α β σ : Type} {d : Dialect} {env : String → Int} {src : Source σ} {w w' : World σ}

/-! ### Leaves -/

/-- A short number is written as a literal. -/
theorem isLiteral_natText {n : Nat} (h : Short n) : IsLiteral (natText n) :=
  ⟨natText_ne_nil n, fun _ => isDigit_of_mem_natText, h⟩

/-- What is sure to be a finite double is short. -/
theorem short_of_natAbs_lt_ample {n : Int} (h : n.natAbs < ample) : Short n :=
  short_iff.mpr (Nat.lt_of_lt_of_le h (by decide +kernel))

/-- A leaf that is settled stands in the expression as a numeral. -/
theorem settle_isWritten (hsrc : src.InRange) {a : Operand} (ha : a.Allowed d) {b : Settled}
    (h : settle env a src w = .ok b w') (hb : Short b.value) : b.IsWritten := by
  cases a with
  | literal ds =>
    obtain ⟨rfl, -⟩ := pure_ok_iff.mp h
    exact ⟨ds, ha, Or.inl ⟨rfl, rfl⟩⟩
  | name x =>
    obtain ⟨rfl, -⟩ := pure_ok_iff.mp h
    refine ⟨natText (env x).natAbs, isLiteral_natText hb, ?_⟩
    rw [digitsValue_natText]
    show (valueText (.int (env x)) = _ ∧ env x = _) ∨ (valueText (.int (env x)) = _ ∧ env x = _ ∧ _)
    rw [valueText_int]
    split
    · exact Or.inr ⟨rfl, by omega, by assumption⟩
    · exact Or.inl ⟨rfl, by omega⟩
  | dice t =>
    obtain ⟨⟨total, own⟩, htoken, rfl⟩ := bind_pure_ok_iff.mp h
    have htotal : 0 ≤ total := rollToken_ok hsrc htoken
    obtain ⟨n, rfl⟩ := Int.eq_ofNat_of_zero_le htotal
    refine ⟨natText n, isLiteral_natText hb, Or.inl ⟨rfl, ?_⟩⟩
    rw [digitsValue_natText]

theorem settle_failsOnly {p : Fault → Prop} (hp : p .endless) {a : Operand} (ha : a.Allowed d) :
    (settle env a : Roll σ Settled).FailsOnly p := by
  cases a with
  | literal ds => exact .pure _
  | name x => exact .pure _
  | dice t => exact (rollToken_failsOnly hp ha.2.2).bind fun r => .pure _

/-! ### Rows and expressions -/

/-- The leaves of a row that is settled stand in the expression as numerals. -/
theorem rollParts_isWritten (hsrc : src.InRange) {ps : List (Part Operand)}
    (hps : ∀ p ∈ ps, p.Holds (Operand.Allowed d)) {bs : List (Part Settled)}
    (h : rollParts (settle env) ps src w = .ok bs w')
    (hbs : ∀ b ∈ leavesOf bs, Short b.value) : ∀ q ∈ bs, q.Holds Settled.IsWritten := by
  induction ps generalizing w bs with
  | nil =>
    obtain ⟨rfl, -⟩ := pure_ok_iff.mp h
    exact nofun
  | cons p ps ih =>
    obtain ⟨hp, hrow⟩ := List.forall_mem_cons.mp hps
    cases p with
    | leaf a =>
      obtain ⟨b, w₁, hb, h⟩ := bind_ok_iff.mp h
      obtain ⟨bs, hrest, rfl⟩ := bind_pure_ok_iff.mp h
      obtain ⟨hvalue, hbs⟩ := List.forall_mem_cons.mp hbs
      exact List.forall_mem_cons.mpr ⟨settle_isWritten hsrc hp hb hvalue, ih hrow hrest hbs⟩
    | mark m =>
      obtain ⟨bs, hrest, rfl⟩ := bind_pure_ok_iff.mp h
      exact List.forall_mem_cons.mpr ⟨hp, ih hrow hrest hbs⟩

/-- An expression fails as its leaves do. -/
theorem Term.roll_failsOnly {p : Fault → Prop} {settle : α → Roll σ β} {t : Term α}
    (h : ∀ a ∈ t.leaves, (settle a).FailsOnly p) : (t.roll settle).FailsOnly p := by
  induction t with
  | leaf a => exact (h a (List.mem_singleton.mpr rfl)).bind fun b => .pure _
  | negated t ih => exact (ih h).bind fun t => .pure _
  | joined op a b iha ihb =>
    obtain ⟨hleft, hright⟩ := List.forall_mem_append.mp h
    exact (iha hleft).bind fun a => (ihb hright).bind fun b => .pure _

/-- Whether the leaves of an expression and the integer that it denotes are not too large. -/
structure Term.IsAmple (t : Term Settled) : Prop where
  leaves : ∀ b ∈ t.leaves, b.value.natAbs < ample
  value : (t.eval Settled.value).natAbs < ample

/-! ### Formulas -/

section Written

variable {bs : Bindings} {t : Term Operand} {s : String}

/-- A formula spells its expression in a row, and the parts of its text are those of the row. -/
theorem Written.exists_row (hd : d ∈ Dialect.builtin) (hfunctions : d.functions = false)
    (hbs : Binds d bs env) (hs : Written d t s) :
    isBlankString s = false ∧ ∃ (signed : Bool) (ps : List (Part Operand)),
      (∀ p ∈ ps, p.Holds (Operand.Allowed d)) ∧ Spelled signed .sum t (ps.filter Part.isSolid) ∧
      pieces (namedText d bs s) = ps.flatMap (Part.pieces env) := by
  obtain ⟨signed, ps, hps, hspelled, htext⟩ := hs
  have hblank : isBlankString s = false := by
    unfold isBlankString
    rw [htext]
    exact isBlankText_textOf (fun a ha => (ha.isWord hd).exists_not_isBlank) hps
      hspelled.framed.ne_nil
  -- the blanks at the ends are cut off before the names are replaced
  have htrim : ∀ p ∈ trimParts ps, p.Holds (Operand.Allowed d) :=
    fun p hp => hps p (mem_of_mem_trimParts hp)
  rw [← filter_trimParts] at hspelled
  have hchain : List.IsChain Part.Apart (trimParts ps) := isChain_of_filter hspelled.framed.chain
  refine ⟨hblank, signed, trimParts ps, htrim, hspelled, ?_⟩
  rw [namedText_textOf hd hfunctions hbs hps (by rw [← filter_trimParts]; exact
    hspelled.framed.chain) htext]
  exact piecesFrom_textOf htrim hchain nofun

/-- Once the dice of a formula are rolled, a text is worked out that denotes what its expression
denotes, if its names and dice have short values. -/
theorem evaluateStrict_of_roll (hd : d ∈ Dialect.builtin) (hfunctions : d.functions = false)
    (hbs : Binds d bs env) (hshort : ∀ x ∈ d.parameters, Short (env x)) (hsrc : src.InRange)
    (hs : Written d t s) {rolled : Term Settled} (hroll : t.roll (settle env) src w = .ok rolled w')
    (hleaves : ∀ b ∈ rolled.leaves, Short b.value) : ∃ expression,
      evaluate d expression = finiteNumber expression (.ofInt (rolled.eval Settled.value)) ∧
      evaluateStrict d bs s src w = (do
        let value ← Roll.evaluate d expression
        return { formula := s, value := value, expression := expression,
                 dice := rolled.leaves.flatMap Settled.dice,
                 openEnded := rolled.leaves.findSome? Settled.openEnded } :
          Roll σ Evaluation) src w' := by
  obtain ⟨hblank, signed, ps, hps, hspelled, hpieces⟩ := hs.exists_row hd hfunctions hbs
  -- the row that is settled, and the row with the blanks between its parts
  obtain ⟨cs, hcs, hspelled'⟩ := hspelled.rolled hroll
  obtain ⟨qs, hqs, rfl⟩ := exists_rollParts_of_filter hcs
  have hrolled : leavesOf qs = rolled.leaves := by
    rw [← leavesOf_filter, hspelled'.leavesOf_eq]
  rw [← hrolled] at hleaves ⊢
  have hwritten : ∀ q ∈ qs, q.Holds Settled.IsWritten := rollParts_isWritten hsrc hps hqs hleaves
  have hdice : rollPieces d (pieces (namedText d bs s)) src w = .ok (rolledOf qs) w' := by
    rw [hpieces]
    exact (rollPieces_flatMap_ok_iff hps hshort).mpr ⟨qs, hqs, hleaves, rfl⟩
  refine ⟨String.ofList (textOf Settled.text qs), evaluate_textOf hwritten hspelled' d, ?_⟩
  rw [evaluateStrict_of_writable hblank (hbs.writable_iff.mpr hshort), run_bind, hdice]
  rfl

/-- A formula has the value of its expression, once that is rolled. -/
theorem evaluateStrict_of_roll_ok (hd : d ∈ Dialect.builtin) (hfunctions : d.functions = false)
    (hbs : Binds d bs env) (hshort : ∀ x ∈ d.parameters, Short (env x)) (hsrc : src.InRange)
    (hs : Written d t s) {rolled : Term Settled} (hroll : t.roll (settle env) src w = .ok rolled w')
    (hample : rolled.IsAmple) :
    ∃ expression cache, evaluateStrict d bs s src w =
      .ok { formula := s, value := .int (rolled.eval Settled.value), expression := expression,
            dice := rolled.leaves.flatMap Settled.dice,
            openEnded := rolled.leaves.findSome? Settled.openEnded }
          { w' with cache := cache } := by
  obtain ⟨expression, hvalue, hstrict⟩ := evaluateStrict_of_roll hd hfunctions hbs hshort hsrc hs
    hroll fun b hb => short_of_natAbs_lt_ample (hample.leaves b hb)
  rw [finiteNumber_of_lt_ample hample.value] at hvalue
  have hevaluate : Roll.evaluate d expression src w' = _ := Roll.evaluate_of_ok hvalue
  exact ⟨expression, _, by rw [hstrict]; exact bind_pure_ok_iff.mpr ⟨_, hevaluate, rfl⟩⟩

/-- An expression whose dice are rolled in a text is rolled, and its leaves are short. -/
theorem Written.roll_of_rollPieces (hd : d ∈ Dialect.builtin) (hfunctions : d.functions = false)
    (hbs : Binds d bs env) (hshort : ∀ x ∈ d.parameters, Short (env x)) (hs : Written d t s)
    {r : Rolled} (h : rollPieces d (pieces (namedText d bs s)) src w = .ok r w') :
    ∃ rolled, t.roll (settle env) src w = .ok rolled w' ∧ ∀ b ∈ rolled.leaves, Short b.value := by
  obtain ⟨-, signed, ps, hps, hspelled, hpieces⟩ := hs.exists_row hd hfunctions hbs
  rw [hpieces] at h
  obtain ⟨qs, hqs, hvalues, -⟩ := (rollPieces_flatMap_ok_iff hps hshort).mp h
  have hleaves : leavesOf ps = t.leaves := by rw [← leavesOf_filter, hspelled.leavesOf_eq]
  cases hroll : t.roll (settle env) src w with
  | error e w₁ =>
    rw [(rollParts_error_iff hleaves).mpr hroll] at hqs
    cases hqs
  | ok rolled w₁ =>
    obtain ⟨cs, hcs, hspelled'⟩ := hspelled.rolled hroll
    obtain ⟨qs', hqs', rfl⟩ := exists_rollParts_of_filter hcs
    rw [hqs] at hqs'
    cases hqs'
    refine ⟨rolled, rfl, ?_⟩
    rwa [← hspelled'.leavesOf_eq, leavesOf_filter]

/-- An expression has a value, or its formula fails in another way than formulas do. -/
theorem evaluateStrict_of_written_cases (hd : d ∈ Dialect.builtin)
    (hfunctions : d.functions = false) (hbs : Binds d bs env) (hsrc : src.InRange)
    (hs : Written d t s) :
    (∃ rolled w₁ e w₂, t.roll (settle env) src w = .ok rolled w₁ ∧
      evaluateStrict d bs s src w = .ok e w₂ ∧ e.value = .int (rolled.eval Settled.value)) ∨
      ∃ e w₁, evaluateStrict d bs s src w = .error e w₁ ∧ ∀ why, e ≠ .formula why := by
  obtain ⟨hblank, -⟩ := hs.exists_row hd hfunctions hbs
  by_cases hwritable : Writable d bs
  · have hshort := hbs.writable_iff.mp hwritable
    cases hdice : rollPieces d (pieces (namedText d bs s)) src w with
    | error e w₁ =>
      refine .inr ⟨e, w₁, ?_, ?_⟩
      · rw [evaluateStrict_of_writable hblank hwritable]
        exact bind_error_iff.mpr (.inl hdice)
      · rintro why rfl
        cases rollPieces_error hdice
    | ok r w₁ =>
      obtain ⟨rolled, hroll, hleaves⟩ := hs.roll_of_rollPieces hd hfunctions hbs hshort hdice
      obtain ⟨expression, hvalue, hstrict⟩ :=
        evaluateStrict_of_roll hd hfunctions hbs hshort hsrc hs hroll hleaves
      rw [hstrict]
      rcases finiteNumber_ofInt (rolled.eval Settled.value) expression with h | h
      · rw [h] at hvalue
        have hevaluate : Roll.evaluate d expression src w₁ = _ := Roll.evaluate_of_ok hvalue
        exact .inl ⟨rolled, w₁, _, _, hroll, bind_pure_ok_iff.mpr ⟨_, hevaluate, rfl⟩, rfl⟩
      · rw [h] at hvalue
        have hevaluate : Roll.evaluate d expression src w₁ = _ := Roll.evaluate_of_tooLarge hvalue
        exact .inr ⟨_, _, bind_error_iff.mpr (.inl hevaluate), nofun⟩
  · exact .inr ⟨_, w, evaluateStrict_of_not_writable hblank hwritable, nofun⟩

/-- An expression fails only where it is given up. -/
theorem Written.roll_failsOnly (hs : Written d t s) :
    (t.roll (settle env) : Roll σ (Term Settled)).FailsOnly (· = .endless) := by
  obtain ⟨signed, ps, hps, hspelled, -⟩ := hs
  have hleaves : ∀ a ∈ t.leaves, a.Allowed d := by
    intro a ha
    rw [← hspelled.leavesOf_eq, leavesOf_filter] at ha
    obtain ⟨p, hp, hleaf⟩ := List.mem_filterMap.mp ha
    cases p with
    | leaf b => cases hleaf; exact hps _ hp
    | mark m => cases hleaf
  exact Term.roll_failsOnly fun a ha => settle_failsOnly (p := (· = .endless)) rfl (hleaves a ha)

end Written

/-- A formula without functions has the value of the expression that it spells, whatever integers
its names are bound to, as long as they have at most 4300 digits, and whatever its dice show. If
every chain of sixes ends and the numbers are not too large, the dice are rolled from left to right
as they stand, and the evaluation shows them with their totals in that order, and the first
open-ended roll among them. -/
theorem evaluateStrict_of_written (hd : d ∈ Dialect.builtin) (hfunctions : d.functions = false)
    {bs : Bindings} (hbs : Binds d bs env) (hshort : ∀ x ∈ d.parameters, Short (env x))
    (hsrc : src.InRange) {t : Term Operand} {s : String}
    (hs : Written d t s) (hends : (t.roll (settle env)).Ends src w)
    (hample : ∀ rolled w', t.roll (settle env) src w = .ok rolled w' → rolled.IsAmple) :
    ∃ rolled w', t.roll (settle env) src w = .ok rolled w' ∧
      ∃ expression cache, evaluateStrict d bs s src w =
        .ok { formula := s, value := .int (rolled.eval Settled.value), expression := expression,
              dice := rolled.leaves.flatMap Settled.dice,
              openEnded := rolled.leaves.findSome? Settled.openEnded }
            { w' with cache := cache } := by
  obtain ⟨rolled, w₁, hroll⟩ := hs.roll_failsOnly.exists_ok hends
  exact ⟨rolled, w₁, hroll,
    evaluateStrict_of_roll_ok hd hfunctions hbs hshort hsrc hs hroll (hample rolled w₁ hroll)⟩

/-- Where play goes on with the value of a formula, that is the value of its expression: the formula
did not fail. -/
theorem evaluateFormula_of_written (hd : d ∈ Dialect.builtin) (hfunctions : d.functions = false)
    {bs : Bindings} (hbs : Binds d bs env) (hsrc : src.InRange) {t : Term Operand} {s : String}
    (hs : Written d t s) {e : Evaluation} (h : evaluateFormula d bs s src w = .ok e w') :
    ∃ rolled w₁, t.roll (settle env) src w = .ok rolled w₁ ∧
      e.value = .int (rolled.eval Settled.value) := by
  rcases evaluateStrict_of_written_cases hd hfunctions hbs hsrc hs with
    ⟨rolled, w₁, e', w₂, hroll, hstrict, hvalue⟩ | ⟨fault, w₁, hstrict, hfault⟩
  · rw [evaluateFormula_of_ok hstrict] at h
    cases h
    exact ⟨rolled, w₁, hroll, hvalue⟩
  · rw [evaluateFormula_of_error hstrict hfault] at h
    cases h

/-! ### An example -/

/-- An open-ended notation and one with six sides. -/
def sampleDice : DiceToken × DiceToken :=
  (⟨.openEnded, ['1'], ['O', 'b', '1', 't', '6']⟩, ⟨.t6, ['1'], ['1', 'T', '6']⟩)

/-- The expression `-characterAge * (2 + Ob1t6) - 1T6`. -/
def sampleTerm : Term Operand :=
  .joined .difference
    (.joined .product (.negated (.leaf (.name "characterAge")))
      (.joined .sum (.leaf (.literal ['2'])) (.leaf (.dice sampleDice.1))))
    (.leaf (.dice sampleDice.2))

/-- The row that spells it, with blanks between the parts. -/
def sampleRow : List (Part Operand) :=
  [.mark (.sign .difference), .leaf (.name "characterAge"), .mark (.blank ' '),
   .mark (.sign .product), .mark (.blank ' '), .mark .opening, .leaf (.literal ['2']),
   .mark (.blank ' '), .mark (.sign .sum), .mark (.blank ' '), .leaf (.dice sampleDice.1),
   .mark .closing, .mark (.blank ' '), .mark (.sign .difference), .mark (.blank ' '),
   .leaf (.dice sampleDice.2)]

/-- The age is minus three. -/
def sampleAges (x : String) : Int := if x = "characterAge" then -3 else 20

theorem written_sample : Written .sibling sampleTerm "-characterAge * (2 + Ob1t6) - 1T6" := by
  have hname : "characterAge" ∈ Dialect.sibling.parameters := by decide
  have hliteral : IsLiteral ['2'] := ⟨nofun, List.all_eq_true.mp rfl, by decide⟩
  have hopen : sampleDice.1.IsNotation :=
    ⟨nofun, List.all_eq_true.mp rfl, ['O', 'b'], 't', ⟨'O', 'b', rfl, rfl, rfl⟩, rfl, rfl⟩
  have hsided : sampleDice.2.IsNotation :=
    ⟨nofun, List.all_eq_true.mp rfl, [], 'T', rfl, rfl, rfl⟩
  refine ⟨true, sampleRow, ?_, ?_, by decide⟩
  · unfold sampleRow
    simp only [List.forall_mem_cons]
    exact ⟨trivial, hname, rfl, trivial, rfl, trivial, hliteral, rfl, trivial, rfl,
      ⟨by decide, hopen, by decide⟩, trivial, rfl, trivial, rfl, ⟨by decide, hsided, by decide⟩,
      nofun⟩
  · exact .added (by decide) (.product (.multiplied (.negated (.operand (.leaf _)))
      (.bracketed (.added (by decide) (.product (.operand (.leaf _))) (.operand (.leaf _))))))
      (.operand (.leaf _))

theorem binds_sample : Binds .sibling
    [("characterAge", .int (-3)), ("characterApparentAge", .int 20)] sampleAges := by
  intro x hx n
  have hnames : x = "characterApparentAge" ∨ x = "characterAge" := by
    simpa [Dialect.sibling] using hx
  rcases hnames with rfl | rfl
  · simp [sampleAges]
  · simp [sampleAges]

/-- With a four and a five rolled it has the value thirteen. -/
theorem evaluateStrict_sample : ∃ expression cache,
    evaluateStrict .sibling [("characterAge", .int (-3)), ("characterApparentAge", .int 20)]
      "-characterAge * (2 + Ob1t6) - 1T6" Source.scripted (World.start ([4, 5], [])) =
      .ok { formula := "-characterAge * (2 + Ob1t6) - 1T6", value := 13, expression := expression,
            dice := [("Ob1t6", 4), ("1T6", 5)], openEnded := some ⟨[4], [], 4, false, false⟩ }
          { World.start ([], []) with
            draws := [.int 1 6 5, .int 1 6 4], cache := cache } := by
  have hends : (sampleTerm.roll (settle sampleAges)).Ends Source.scripted
      (World.start ([4, 5], [])) := nofun
  have hample : ∀ rolled w', sampleTerm.roll (settle sampleAges) Source.scripted
      (World.start ([4, 5], [])) = .ok rolled w' → rolled.IsAmple := by
    intro rolled w' h
    cases h
    exact ⟨by decide +kernel, by decide +kernel⟩
  have hshort : ∀ x ∈ Dialect.sibling.parameters, Short (sampleAges x) := by decide
  obtain ⟨rolled, w', hroll, expression, cache, hevaluate⟩ := evaluateStrict_of_written
    (by decide) rfl binds_sample hshort Source.inRange_scripted written_sample hends hample
  cases hroll
  exact ⟨expression, cache, hevaluate⟩

end Kindred.Formula
