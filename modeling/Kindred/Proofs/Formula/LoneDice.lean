import Kindred.Proofs.Formula.Meaning

/-!
# A formula that is one notation

A text that is one dice notation can be rolled by itself, and it can be evaluated as a formula. The
two ways cut the notation out of the text by rules of their own and roll it by code of their own,
and on the second one the total goes through a numeral and back. They agree all the same: for one
state of the source they make the same draws, and give the same total and the same open-ended roll.

The numeral has to be read again, so the total must have a double. That is so for fewer than
`ample` dice in the notation, as long as the sixes add fewer than that, too. No list in a memory is
as long as that.

- `rollText_eq`: both ways roll the notation alike.
- `evaluateStrict_of_lone`: the formula rolls what the text rolls.
- `evaluate_natText`: totals that are read again.
- `evaluateStrict_of_rollText`: the two ways agree.
-/

namespace Kindred.Formula

open Kindred.Text

variable {σ α β : Type} {d : Dialect} {src : Source σ} {w w' : World σ} {s : String} {t : DiceToken}

/-! ### Rolling the text -/

/-- A text is one notation if, blanks at its ends aside, the notation is all of it. -/
theorem isNotation_of_ofText? (h : DiceToken.ofText? s = some t) :
    t.IsNotation ∧ t.text = trim s.toList := by
  unfold DiceToken.ofText? at h
  cases hdice : diceAt? (trim s.toList) with
  | none => simp [hdice] at h
  | some t' =>
    simp only [hdice] at h
    split at h
    · next heq =>
      cases h
      exact ⟨(isNotation_of_diceAt? hdice).1, eq_of_beq heq⟩
    · cases h

/-- What is made of each result can as well be made of all of them at the end. -/
theorem times_map (f : α → β) (x : Roll σ α) (n : Nat) :
    times (f <$> x) n = List.map f <$> times x n := by
  induction n with
  | zero => rfl
  | succ n ih =>
    unfold times
    simp only [ih, bind_map_left, map_bind, map_pure, List.map_cons]

/-- Percentiles are rolled as dice with a hundred sides are. -/
theorem dice_hundred (n : Nat) :
    (dice n 100 : Roll σ (List Int)) = List.map Percentile.value <$> times percentile n := by
  unfold dice
  rw [if_pos rfl, ← times_map, map_eq_pure_bind]

/-- What a roll by itself shows of a notation: how it is written, its total, and the roll if it is
open-ended. -/
def shown (r : DiceRoll) : String × Int × Option OpenEnded := (r.text, r.total, r.openEnded)

/-- A text that is a notation is rolled as the notation is in a formula. -/
theorem rollText_eq (h : DiceToken.ofText? s = some t) :
    shown <$> (rollText s : Roll σ DiceRoll) =
      (fun (total, own) => (String.ofList t.text, total, own)) <$> rollToken t := by
  have htext : trimmed s = String.ofList t.text := by
    unfold trimmed
    rw [(isNotation_of_ofText? h).2]
  unfold rollText rollToken
  simp only [h, htext]
  cases t.form with
  | openEnded => simp only [map_bind, map_pure]; rfl
  | t100 =>
    simp only [DiceForm.sides, dice_hundred, map_bind, map_pure, bind_map_left]
    rfl
  | t10 => simp only [map_bind, map_pure]; rfl
  | t6 => simp only [map_bind, map_pure]; rfl

/-! ### Evaluating it as a formula -/

/-- Where no name has a value, a formula is as it was written. -/
theorem namedText_nil (hd : d.functions = false) (s : String) :
    namedText d [] s = trim s.toList := by
  unfold namedText
  rw [hd]
  rfl

theorem isBlankString_of_ofText? (h : DiceToken.ofText? s = some t) : isBlankString s = false := by
  obtain ⟨ht, htext⟩ := isNotation_of_ofText? h
  obtain ⟨c, hc, hblank⟩ := ht.isWord.exists_not_isBlank
  have hmem : c ∈ s.toList := (trim_isInfix s.toList).subset (htext ▸ hc)
  refine Bool.eq_false_iff.mpr fun hall => ?_
  rw [List.all_eq_true.mp hall c hmem] at hblank
  cases hblank

/-- A formula that is one notation rolls what the text by itself rolls, and reads the total again if
that can be written. -/
theorem evaluateStrict_of_lone (hd : d.functions = false) (h : DiceToken.ofText? s = some t)
    (hform : t.form ∈ d.dice) {r : DiceRoll} (hroll : rollText s src w = .ok r w')
    (hshort : Short r.total) : evaluateStrict d [] s src w = (do
      let value ← Roll.evaluate d (String.ofList (intText r.total))
      return { formula := s, value := value, expression := String.ofList (intText r.total),
               dice := [(r.text, r.total)], openEnded := r.openEnded } : Roll σ Evaluation)
        src w' := by
  obtain ⟨ht, htext⟩ := isNotation_of_ofText? h
  have hpieces : pieces t.text = [.dice t] := by
    have hfront := piecesFrom_append_notation ht (s := []) rfl
    rwa [List.append_nil] at hfront
  have hshown : (shown <$> rollText s) src w = .ok (shown r) w' := map_ok_iff.mpr ⟨r, hroll, rfl⟩
  rw [rollText_eq h] at hshown
  obtain ⟨⟨total, own⟩, htoken, heq⟩ := map_ok_iff.mp hshown
  obtain ⟨hname, rfl, rfl⟩ :
      String.ofList t.text = r.text ∧ total = r.total ∧ own = r.openEnded := by
    simpa [shown] using heq
  have hdice : rollPieces d [.dice t] src w = .ok (Rolled.cons t r.total r.openEnded {}) w' :=
    (rollPieces_dice_ok_iff hform).mpr ⟨_, _, w', {}, htoken, hshort, rfl, rfl⟩
  have hwritable : Writable d [] := nofun
  rw [evaluateStrict_of_writable (isBlankString_of_ofText? h) hwritable, namedText_nil hd, ← htext,
    hpieces, run_bind, hdice, ← hname]
  show (do
    let value ← Roll.evaluate d (String.ofList (intText r.total ++ []))
    return _ : Roll σ Evaluation) src w' = _
  rw [List.append_nil]
  simp only [Rolled.cons, List.append_nil, Option.or_none]

theorem short_of_lt_ample {n : Nat} (h : n < 200 * ample) : Short n :=
  short_iff.mpr (Nat.lt_of_lt_of_le h (by decide +kernel))

/-- A total that is not too large is read again. -/
theorem evaluate_natText (d : Dialect) {n : Nat} (h : n < 200 * ample) :
    evaluate d (String.ofList (natText n)) = .ok (.int n) := by
  have hliteral : IsLiteral (natText n) :=
    isLiteral_natText (short_of_lt_ample h)
  have hwritten : Settled.IsWritten ⟨natText n, n, [], none⟩ :=
    ⟨natText n, hliteral, .inl ⟨rfl, congrArg Int.ofNat (digitsValue_natText n).symm⟩⟩
  have hfinite : (Number.finiteOfInt? n).isSome = true := by
    have hlt : 200 * ample < Nat.pow 2 1010 := by decide +kernel
    exact Number.finiteOfInt?_isSome (by decide) (Nat.lt_trans h hlt)
  obtain ⟨x, hx⟩ := Option.isSome_iff_exists.mp hfinite
  have hrow := @evaluate_textOf false _ [.leaf ⟨natText n, n, [], none⟩]
    (List.forall_mem_singleton.mpr hwritten) (.product (.operand (.leaf _))) d
  have htext : textOf Settled.text [.leaf ⟨natText n, n, [], none⟩] = natText n :=
    List.append_nil _
  rw [htext] at hrow
  rw [hrow]
  simp only [finiteNumber, Value.ofInt, Term.eval, hx]

/-- A notation that is rolled by itself comes to a total that is read again. -/
theorem exists_total (hsrc : src.InRange) (h : DiceToken.ofText? s = some t)
    (hcount : t.count < ample) {r : DiceRoll} (hroll : rollText s src w = .ok r w')
    (hextra : extraDice r.openEnded < ample) : ∃ n : Nat, r.total = n ∧ n < 200 * ample := by
  have htoken : (shown <$> rollText s) src w = .ok (shown r) w' := map_ok_iff.mpr ⟨r, hroll, rfl⟩
  rw [rollText_eq h] at htoken
  obtain ⟨⟨total, own⟩, htoken, heq⟩ := map_ok_iff.mp htoken
  obtain ⟨-, rfl, rfl⟩ : _ ∧ total = r.total ∧ own = r.openEnded := by simpa [shown] using heq
  have hlow := rollToken_ok hsrc htoken
  have hhigh := (rollToken_le_dice hsrc htoken).1
  exact ⟨r.total.toNat, by omega, by omega⟩

/-- **The two ways to roll a notation agree.** A text that is one notation is a formula for a
parent's apparent age. If the notation has fewer than `ample` dice, and the sixes add fewer than
that, then the evaluation of the formula succeeds wherever the roll of the text ends: with the same
draws, with its total as the value, with that notation and its total as the only dice, and with the
same open-ended roll. -/
theorem evaluateStrict_of_rollText (hsrc : src.InRange) (h : DiceToken.ofText? s = some t)
    (hcount : t.count < ample) {r : DiceRoll} (hroll : rollText s src w = .ok r w')
    (hextra : extraDice r.openEnded < ample) :
    ∃ expression cache, evaluateStrict .parentAge [] s src w =
      .ok { formula := s, value := .int r.total, expression := expression,
            dice := [(r.text, r.total)], openEnded := r.openEnded }
          { w' with cache := cache } := by
  have hform : t.form ∈ Dialect.parentAge.dice := by cases t.form <;> decide
  obtain ⟨n, htotal, hlt⟩ := exists_total hsrc h hcount hroll hextra
  have hvalue : evaluate .parentAge (String.ofList (intText r.total)) = .ok (.int r.total) := by
    rw [htotal]
    exact evaluate_natText _ hlt
  have hread : Roll.evaluate .parentAge _ src w' = _ := Roll.evaluate_of_ok hvalue
  have hshort : Short r.total := by
    rw [htotal]
    exact short_of_lt_ample hlt
  rw [evaluateStrict_of_lone rfl h hform hroll hshort]
  exact ⟨_, _, bind_pure_ok_iff.mpr ⟨_, hread, rfl⟩⟩

/-- Two open-ended dice, with blanks around them and letters of both cases. A six and a three are
thrown, and the six adds a chain of three. -/
theorem evaluateStrict_of_rollText_open : ∃ t r w' expression cache,
    DiceToken.ofText? " oB2t6 " = some t ∧ t.count < ample ∧
    rollText " oB2t6 " Source.scripted (World.start ([6, 3, 6, 6, 1], [])) = .ok r w' ∧
    extraDice r.openEnded < ample ∧
    evaluateStrict .parentAge [] " oB2t6 " Source.scripted (World.start ([6, 3, 6, 6, 1], [])) =
      .ok { formula := " oB2t6 ", value := 22, expression := expression, dice := [("oB2t6", 22)],
            openEnded := some ⟨[6, 3], [6, 6, 1], 22, false, false⟩ }
          { w' with cache := cache } := by
  have htoken : DiceToken.ofText? " oB2t6 " =
      some ⟨.openEnded, ['2'], ['o', 'B', '2', 't', '6']⟩ := by rfl
  have hcount : DiceToken.count ⟨.openEnded, ['2'], ['o', 'B', '2', 't', '6']⟩ < ample := by
    decide +kernel
  have hroll : rollText " oB2t6 " Source.scripted (World.start ([6, 3, 6, 6, 1], [])) =
      .ok ⟨"oB2t6", .openEnded, [22], 22, none, some ⟨[6, 3], [6, 6, 1], 22, false, false⟩⟩
        { World.start ([], []) with
          draws := [.int 1 6 1, .int 1 6 6, .int 1 6 6, .int 1 6 3, .int 1 6 6] } := by
    rfl
  have hextra : extraDice (some ⟨[6, 3], [6, 6, 1], 22, false, false⟩) < ample := by
    decide +kernel
  obtain ⟨expression, cache, hstrict⟩ :=
    evaluateStrict_of_rollText Source.inRange_scripted htoken hcount hroll hextra
  exact ⟨_, _, _, expression, cache, htoken, hcount, hroll, hextra, hstrict⟩

end Kindred.Formula
