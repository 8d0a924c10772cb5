import Kindred.Proofs.Formula.Lexing
import Kindred.Proofs.Formula.Shape

/-!
# Texts that are read alike

Two texts are alike if one has a numeral wherever the other has one, and both have the same marks
and names in between. They are read into lexemes of one shape, because every numeral ends where it
is said to end: neither a digit nor a point nor an exponent goes on with it. A digit of another
script makes both of them unreadable, whatever stands behind it.

- `IsVariable`, `lexemeAt_variable`: names, and how they are read.
- `Alike`: texts that are alike.
- `Alike.readFrom_sameShape`: their lexemes.
- `Alike.evaluate_fails_iff`: they fail together.
-/

namespace Kindred.Formula

open Kindred.Text

/-! ### Names -/

/-- The letters and digits that the names of the dialects start with, and what is left of a notation
without its count. No spelling of an operator such as `or` is among them. -/
def leads : List (Char × Char) :=
  [('c', 'h'), ('o', 'l'), ('O', 'b'), ('O', 'B'), ('o', 'b'), ('o', 'B'), ('T', '1'), ('T', '6'),
   ('t', '1'), ('t', '6')]

/-- Whether a text starts as names do. -/
def IsLed (s : List Char) : Prop := ∃ p ∈ leads, ∃ r, s = p.1 :: p.2 :: r

/-- Whether a text is a name with letters and ASCII digits only. -/
structure IsVariable (x : List Char) : Prop where
  led : IsLed x
  chars : ∀ c ∈ x, isCased c = true ∨ c.isDigit = true

/-- Whether a name goes on with a character. -/
def goesOn (c : Char) : Bool := isCased c || c == '_' || c == '.' || c == '"' || c.isDigit

/-- The lexeme of a name. Some names are those of operators. -/
def nameLexeme (x : List Char) : Lexeme :=
  if binaryNames.contains (String.ofList x) then .binaryName (String.ofList x)
  else if unaryNames.contains (String.ofList x) then .unaryName (String.ofList x)
  else .name (String.ofList x)

theorem nameLexeme_isWhole (x : List Char) : (nameLexeme x).IsWhole := by
  unfold nameLexeme
  split
  · next hmem =>
    intro hquotient
    rw [hquotient] at hmem
    exact absurd hmem (by decide)
  · split <;> trivial

theorem nameLexeme_ne_broken (x : List Char) (why : ReadError) : nameLexeme x ≠ .broken why := by
  unfold nameLexeme
  split
  · exact fun heq => Lexeme.noConfusion heq
  · split <;> exact fun heq => Lexeme.noConfusion heq

/-- No quote is among letters and digits, so a name ends in front of what it does not go on with. -/
theorem variableTail_append {r u : List Char}
    (hr : ∀ c ∈ r, isCased c = true ∨ c.isDigit = true) (hu : ∀ c ∈ u.head?, goesOn c = false) :
    variableTail false (r ++ u) = r := by
  induction r with
  | nil =>
    cases u with
    | nil => rfl
    | cons c u =>
      have hc : goesOn c = false := hu c rfl
      unfold goesOn at hc
      rw [List.nil_append, variableTail, Bool.false_or, hc, if_neg Bool.false_ne_true]
  | cons c r ih =>
    obtain ⟨hc, hr⟩ := List.forall_mem_cons.mp hr
    have hquote : (c == '"') = false := by
      refine beq_false_of_ne ?_
      rintro rfl
      rcases hc with hc | hc <;> exact absurd hc (by decide)
    have hgoes : (isCased c || c == '_' || c == '.' || c == '"' || c.isDigit) = true := by
      rcases hc with hc | hc <;> simp [hc]
    rw [List.cons_append, variableTail, Bool.false_or, hgoes, if_pos rfl, hquote,
      if_neg Bool.false_ne_true, ih hr]

namespace IsVariable

variable {x u : List Char} (hx : IsVariable x)

include hx

theorem ne_nil : x ≠ [] := by
  obtain ⟨p, -, r, rfl⟩ := hx.led
  exact List.cons_ne_nil _ _

/-- No other lexeme starts as names do. -/
theorem lexemeAt_append (column : Nat) (u : List Char) :
    lexemeAt column (x ++ u) = (nameAt? (x ++ u)).getD
      (if (x ++ u).head?.any isBlank then (.blank, 1)
        else (.broken (.flaw column .unknownCharacter), 1)) := by
  obtain ⟨p, hp, r, rfl⟩ := hx.led
  have hoperator : ∀ p ∈ leads, ∀ s, operatorAt? (p.1 :: p.2 :: s) = none := by
    intro p hp s
    simp only [leads, List.mem_cons, List.not_mem_nil, or_false] at hp
    rcases hp with rfl | rfl | rfl | rfl | rfl | rfl | rfl | rfl | rfl | rfl <;> rfl
  have hhead : ∀ p ∈ leads, p.1.isDigit = false ∧ p.1 ∉ otherHeads := by decide
  exact lexemeAt_eq_nameAt? (hoperator p hp _) (hhead p hp).1 (hhead p hp).2 column

/-- A name is read up to a character that it does not go on with. -/
theorem lexemeAt_variable (hu : ∀ c ∈ u.head?, goesOn c = false) (column : Nat) :
    lexemeAt column (x ++ u) = (nameLexeme x, x.length) := by
  have hname : nameAt? (x ++ u) = some (nameLexeme x, x.length) := by
    obtain ⟨p, hp, r, rfl⟩ := hx.led
    have hcased : isCased p.1 = true := by
      have hall : ∀ p ∈ leads, isCased p.1 = true := by decide
      exact hall p hp
    have htail : ∀ c ∈ p.2 :: r, isCased c = true ∨ c.isDigit = true :=
      fun c hc => hx.chars c (List.mem_cons_of_mem _ hc)
    have hvariable : variableAt (p.1 :: p.2 :: r ++ u) = p.1 :: p.2 :: r := by
      show (if isCased p.1 then p.1 :: variableTail false (p.2 :: r ++ u) else []) = _
      rw [hcased, if_pos rfl, variableTail_append htail hu]
    have hrun : (p.2 :: r ++ u).takeWhile (fun c => isCased c || c == '_' || c.isDigit) =
        p.2 :: r := by
      rw [List.takeWhile_append_of_pos fun c hc => by rcases htail c hc with h | h <;> simp [h]]
      cases u with
      | nil => exact List.append_nil _
      | cons c u =>
        have hc : goesOn c = false := hu c rfl
        simp only [goesOn, Bool.or_eq_false_iff] at hc
        rw [List.takeWhile_cons_of_neg (by simp [hc]), List.append_nil]
    have hword : wordAt (p.1 :: p.2 :: r ++ u) = p.1 :: p.2 :: r := by
      show (if isCased p.1 then p.1 :: (p.2 :: r ++ u).takeWhile _ else []) = _
      rw [hcased, if_pos rfl, hrun]
    unfold nameAt? nameLexeme
    simp only [hword, hvariable]
    split
    · rfl
    · split <;> rfl
  rw [hx.lexemeAt_append, hname]
  rfl

theorem exists_not_isBlank : ∃ c ∈ x, isBlank c = false := by
  have hall : ∀ p ∈ leads, isBlank p.1 = false := by decide
  obtain ⟨p, hp, r, rfl⟩ := hx.led
  exact ⟨p.1, List.mem_cons_self, hall p hp⟩

end IsVariable

/-- A digit of another script cannot be read. -/
theorem lexemeAt_stray {c : Char} (hc : isDecimal c = true) (hdigit : c.isDigit = false)
    (column : Nat) (s : List Char) :
    lexemeAt column (c :: s) = (.broken (.flaw column .unknownCharacter), 1) := by
  have hoperator : operatorAt? (c :: s) = none :=
    operatorAt?_eq_none (not_mem_of_apart hc (by decide)) s
  have hblank : isBlank c = false := isBlank_of_isWordChar (isWordChar_of_isDecimal hc)
  rw [lexemeAt_eq_nameAt? hoperator hdigit (not_mem_of_apart hc (by decide)),
    nameAt?_eq_none (isCased_of_isDecimal hc), Option.getD_none, hblank,
    if_neg Bool.false_ne_true]

/-! ### Texts -/

/-- Whether two texts have numerals in the same places, and the same marks and names in between, as
far as they can be read. -/
inductive Alike : List Char → List Char → Prop where
  | nil : Alike [] []
  | mark {m : Mark} {u v : List Char} (hm : m.IsPlain) (h : Alike u v) :
      Alike (m.char :: u) (m.char :: v)
  | numeral {ds es u v : List Char} (hds : IsLiteral ds) (hes : IsLiteral es)
      (hu : ∀ c ∈ u.head?, endsNumeral c = true) (hv : ∀ c ∈ v.head?, endsNumeral c = true)
      (h : Alike u v) : Alike (ds ++ u) (es ++ v)
  | name {x u v : List Char} (hx : IsVariable x) (hu : ∀ c ∈ u.head?, goesOn c = false)
      (hv : ∀ c ∈ v.head?, goesOn c = false) (h : Alike u v) : Alike (x ++ u) (x ++ v)
  | stray {c : Char} (hc : isDecimal c = true) (hdigit : c.isDigit = false) (u v : List Char) :
      Alike (c :: u) (c :: v)

namespace Alike

variable {u v : List Char}

theorem symm (h : Alike u v) : Alike v u := by
  induction h with
  | nil => exact .nil
  | mark hm h ih => exact .mark hm ih
  | numeral hds hes hu hv h ih => exact .numeral hes hds hv hu ih
  | name hx hu hv h ih => exact .name hx hv hu ih
  | stray hc hdigit u v => exact .stray hc hdigit v u

/-- Where one of the texts starts with a star the other does, too. -/
theorem exists_of_star {u' : List Char} (h : Alike u v) (hstar : u = '*' :: u') :
    ∃ v', v = '*' :: v' ∧ Alike u' v' := by
  cases h with
  | nil => cases hstar
  | mark hm h =>
    obtain ⟨hchar, rfl⟩ := List.cons.inj hstar
    rw [hchar]
    exact ⟨_, rfl, h⟩
  | numeral hds hes hu hv h =>
    obtain ⟨c, r, rfl⟩ := List.exists_cons_of_ne_nil hds.ne_nil
    obtain ⟨rfl, -⟩ := List.cons.inj hstar
    exact absurd (hds.digits '*' List.mem_cons_self) (by decide)
  | name hx hu hv h =>
    obtain ⟨c, r, rfl⟩ := List.exists_cons_of_ne_nil hx.ne_nil
    obtain ⟨rfl, -⟩ := List.cons.inj hstar
    rcases hx.chars '*' List.mem_cons_self with hc | hc <;> exact absurd hc (by decide)
  | stray hc hdigit u v =>
    obtain ⟨rfl, -⟩ := List.cons.inj hstar
    exact absurd hc (by decide)

/-- Texts that are alike are blank together. -/
theorem isBlankText_eq (h : Alike u v) : isBlankText u = isBlankText v := by
  have hfound : ∀ {x u : List Char}, (∃ c ∈ x, isBlank c = false) →
      isBlankText (x ++ u) = false := by
    rintro x u ⟨c, hc, hblank⟩
    unfold isBlankText
    rw [List.all_eq_false]
    exact ⟨c, List.mem_append_left u hc, by simp [hblank]⟩
  induction h with
  | nil => rfl
  | @mark m u v hm h ih =>
    show (isBlank m.char && isBlankText u) = (isBlank m.char && isBlankText v)
    rw [ih]
  | numeral hds hes hu hv h ih =>
    have hnumeral : ∀ {ds : List Char}, IsLiteral ds → ∃ c ∈ ds, isBlank c = false :=
      fun h => (isWord_of_isDigit h.ne_nil h.digits).exists_not_isBlank
    rw [hfound (hnumeral hds), hfound (hnumeral hes)]
  | name hx hu hv h ih => rw [hfound hx.exists_not_isBlank, hfound hx.exists_not_isBlank]
  | @stray c hc hdigit u v =>
    have hstray : ∃ k ∈ [c], isBlank k = false :=
      ⟨c, List.mem_singleton.mpr rfl, isBlank_of_isWordChar (isWordChar_of_isDecimal hc)⟩
    have hleft : isBlankText (c :: u) = false := hfound hstray
    have hright : isBlankText (c :: v) = false := hfound hstray
    rw [hleft, hright]

/-- Two stars are read as one sign. -/
theorem readFrom_power (s : List Char) (k : Nat) :
    readFrom k ('*' :: '*' :: s) = .operator "**" 8 :: readFrom (k + 2) s :=
  @readFrom_append ['*', '*'] s nofun _ (fun _ heq => Lexeme.noConfusion heq) k rfl

/-- Nothing is read from a digit of another script on. -/
theorem readFrom_stray {c : Char} (hc : isDecimal c = true) (hdigit : c.isDigit = false)
    (s : List Char) (k : Nat) : readFrom k (c :: s) = [.broken (.flaw k .unknownCharacter)] := by
  unfold readFrom
  rw [lexemesFrom, lexemeAt_stray hc hdigit]
  rfl

/-- The lexeme of a mark has its own shape, as no mark is the sign of a quotient. -/
theorem sameShape_lexeme (m : Mark) : m.lexeme.SameShape m.lexeme := by
  have hname : ∀ op : Operation, op.name ≠ "/" := by
    intro op
    cases op <;> decide
  refine .same ?_
  cases m with
  | sign op => exact hname op
  | opening => trivial
  | closing => trivial
  | blank c => trivial

/-- Two texts that are alike start with a star together. -/
theorem head?_star (h : Alike u v) (hu : u.head? ≠ some '*') : v.head? ≠ some '*' := by
  intro hv
  obtain ⟨v', rfl⟩ := List.head?_eq_some_iff.mp hv
  obtain ⟨u', rfl, -⟩ := h.symm.exists_of_star rfl
  exact hu rfl

/-- Texts that are alike are read into lexemes of one shape. -/
theorem readFrom_sameShape (h : Alike u v) (column column' : Nat) :
    List.Forall₂ Lexeme.SameShape (readFrom column u) (readFrom column' v) := by
  -- two stars are one lexeme, so the text behind them is the next one to be read
  induction hn : u.length using Nat.strongRecOn generalizing u v column column' with
  | ind n ih =>
    cases h with
    | nil => exact .nil
    | @mark m u v hm h =>
      have hshorter : u.length < n := by rw [← hn]; exact Nat.lt_succ_self _
      by_cases hpower : m = .sign .product ∧ u.head? = some '*'
      · obtain ⟨rfl, hstar⟩ := hpower
        obtain ⟨u', rfl⟩ := List.head?_eq_some_iff.mp hstar
        obtain ⟨v', rfl, h'⟩ := h.exists_of_star rfl
        show List.Forall₂ _ (readFrom column ('*' :: '*' :: u'))
          (readFrom column' ('*' :: '*' :: v'))
        rw [readFrom_power, readFrom_power]
        refine .cons (.same (by decide : "**" ≠ "/")) (ih _ (Nat.lt_trans ?_ hshorter) h' _ _ rfl)
        exact Nat.lt_succ_self _
      · have hfirst : m = .sign .product → u.head? ≠ some '*' := fun hm hu => hpower ⟨hm, hu⟩
        have hleft : m = .sign .product → ∀ c ∈ u.head?, c ≠ '*' := by
          rintro hm c hc rfl
          exact hfirst hm hc
        have hright : m = .sign .product → ∀ c ∈ v.head?, c ≠ '*' := by
          rintro hm c hc rfl
          exact h.head?_star (hfirst hm) hc
        rw [readFrom_mark hm hleft, readFrom_mark hm hright]
        exact .cons (sameShape_lexeme m) (ih _ hshorter h _ _ rfl)
    | @numeral ds es u v hds hes hu hv h =>
      have hshorter : u.length < n := by
        have hpos := List.length_pos_iff.mpr hds.ne_nil
        rw [← hn, List.length_append]
        omega
      rw [readFrom_numeral hds hu, readFrom_numeral hes hv]
      exact .cons (.number _ _) (ih _ hshorter h _ _ rfl)
    | @name x u v hx hu hv h =>
      have hshorter : u.length < n := by
        have hpos := List.length_pos_iff.mpr hx.ne_nil
        rw [← hn, List.length_append]
        omega
      rw [readFrom_append hx.ne_nil (nameLexeme_ne_broken x) (hx.lexemeAt_variable hu column),
        readFrom_append hx.ne_nil (nameLexeme_ne_broken x) (hx.lexemeAt_variable hv column')]
      exact .cons (.same (nameLexeme_isWhole x)) (ih _ hshorter h _ _ rfl)
    | @stray c hc hdigit u v =>
      rw [readFrom_stray hc hdigit, readFrom_stray hc hdigit]
      exact .cons (.broken _ _) .nil

/-- Texts that are alike fail together, whether they are not read or not worked out. -/
theorem evaluate_fails_iff (h : Alike u v) {d : Dialect} (hfunctions : d.functions = false) :
    FailsAsFormula (evaluate d (String.ofList u)) ↔
      FailsAsFormula (evaluate d (String.ofList v)) := by
  have hblank : isBlankString (String.ofList u) = isBlankString (String.ofList v) := by
    unfold isBlankString
    rw [String.toList_ofList, String.toList_ofList, h.isBlankText_eq]
  have hlexemes : SameShapes (lexemes u) (lexemes v) :=
    List.forall₂_map_left_iff.mp (List.forall₂_map_right_iff.mp (h.readFrom_sameShape 0 0))
  have hstart : Reading.SameShape {} {} := ⟨rfl, rfl, rfl, .nil, .nil⟩
  have hpostfix : Agree (List.Forall₂ Item.SameShape) (postfix? u) (postfix? v) :=
    (hstart.steps hlexemes).bind fun r s hrs => hrs.finish _ _
  unfold evaluate
  rw [← hblank, String.toList_ofList, String.toList_ofList]
  split
  · exact iff_of_true ⟨_, rfl⟩ ⟨_, rfl⟩
  · rcases hpostfix.error_or_ok with ⟨why, why', hu, hv⟩ | ⟨as, bs, hu, hv, hitems⟩
    · rw [hu, hv]
      exact iff_of_true ⟨_, rfl⟩ ⟨_, rfl⟩
    · rw [hu, hv]
      exact evaluateItems_fails_iff hfunctions _ _ hitems

end Alike

end Kindred.Formula
