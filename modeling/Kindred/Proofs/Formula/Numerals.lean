import Kindred.Proofs.Formula.Containment
import Kindred.Proofs.Formula.Pieces
import Kindred.Proofs.Formula.Reading

/-!
# Formulas of numerals

A formula whose words are numerals holds no name and no dice, so it is worked out as it was written.
What its row of numerals and signs is read as does not depend on the blanks between them.

- `OnlyDigits`, `evaluateStrict_of_onlyDigits`, `evaluateFormula_of_onlyDigits`: texts without names
  and dice.
- `Token`, `Spaced`: a row of numerals and signs, and the texts that it is written as.
- `Spaced.readFrom`, `Spaced.evaluate_eq`: all these texts have the value of one postfix form.
- `evaluateItems_eq_workedOut`: the value of a postfix form.
-/

namespace Kindred.Formula

open Kindred.Text Kindred.Number

variable {σ : Type} {d : Dialect} {bs : Bindings} {s t : List Char}

/-! ### Texts whose words are numerals -/

/-- Whether the words of a text are made of digits. -/
def OnlyDigits (s : List Char) : Prop := ∀ c ∈ s, isWordChar c = true → c.isDigit = true

theorem OnlyDigits.append_left (h : OnlyDigits (s ++ t)) : OnlyDigits s :=
  fun c hc => h c (List.mem_append_left t hc)

theorem OnlyDigits.append_right (h : OnlyDigits (s ++ t)) : OnlyDigits t :=
  fun c hc => h c (List.mem_append_right s hc)

theorem OnlyDigits.trim (h : OnlyDigits s) : OnlyDigits (trim s) :=
  fun c hc => h c ((trim_isInfix s).subset hc)

/-- A word of such a text is a numeral. -/
theorem OnlyDigits.isDigit {w : List Char} (h : OnlyDigits w) (hw : IsWord w) :
    ∀ c ∈ w, c.isDigit = true := fun c hc => h c hc (hw.all c hc)

theorem replaceWord_of_onlyDigits {x value : List Char} (hx : IsName x) (h : OnlyDigits s) :
    replaceWord x value s = s := by
  rw [replaceWord_eq_mapWords hx.toIsWord]
  induction s using words_induction with
  | nil => rfl
  | gap c s hc ih => rw [mapWords_cons hc, ih (h.append_right (s := [c]))]
  | word w s hw hs ih =>
    have hne : w ≠ x := by
      rintro rfl
      obtain ⟨c, u, rfl, -, -⟩ := hw.exists_cons
      have hdigit := h.append_left.isDigit hw c List.mem_cons_self
      rw [hx.head c rfl] at hdigit
      cases hdigit
    rw [mapWords_append hw hs, if_neg hne, ih h.append_right]

/-- No name is replaced. -/
theorem namedText_of_onlyDigits (hd : d ∈ Dialect.builtin) (hfunctions : d.functions = false)
    {s : String} (h : OnlyDigits s.toList) : namedText d bs s = Text.trim s.toList := by
  have hfold : ∀ names : Bindings, (∀ b ∈ names, IsName b.1.toList) →
      names.foldl (fun s b => replaceWord b.1.toList (valueText b.2) s) (Text.trim s.toList) =
        Text.trim s.toList := by
    intro names hnames
    induction names with
    | nil => rfl
    | cons b names ih =>
      obtain ⟨hb, hrest⟩ := List.forall_mem_cons.mp hnames
      rw [List.foldl_cons, replaceWord_of_onlyDigits hb h.trim, ih hrest]
  unfold namedText replaceAll
  simp only [hfunctions, Bool.false_eq_true, if_false]
  exact hfold _ fun b hb =>
    (isName_of_mem_parameters hd (mem_longestFirst_within.mp hb).2).1

/-- No dice are found. -/
theorem piecesFrom_of_onlyDigits (h : OnlyDigits s) (joined : Bool) :
    piecesFrom joined 0 s = s.map .char := by
  induction s using words_induction generalizing joined with
  | nil => rfl
  | gap c s hc ih => rw [piecesFrom_cons hc, ih (h.append_right (s := [c])), List.map_cons]
  | word w s hw hs ih =>
    rw [piecesFrom_append_digits hw.ne_nil (h.append_left.isDigit hw) hs, ih h.append_right,
      List.map_append]

/-- A formula whose words are numerals is worked out as it was written, blanks at its ends aside, as
long as the values of the names can be written. -/
theorem evaluateStrict_of_onlyDigits (hd : d ∈ Dialect.builtin) (hfunctions : d.functions = false)
    (hbs : Writable d bs) {s : String} (h : OnlyDigits s.toList)
    (hblank : isBlankString s = false) :
    (evaluateStrict d bs s : Roll σ Evaluation) = do
      let value ← Roll.evaluate d (String.ofList (Text.trim s.toList))
      return { formula := s, value := value,
               expression := String.ofList (Text.trim s.toList) } := by
  have hpieces : (rollPieces d (pieces (Text.trim s.toList)) : Roll σ Rolled) =
      pure { text := Text.trim s.toList } := by
    have hrolled := @rollPieces_chars σ d (Text.trim s.toList) []
    rw [List.append_nil] at hrolled
    unfold pieces
    rw [piecesFrom_of_onlyDigits h.trim, hrolled, rollPieces, map_pure, List.append_nil]
  rw [evaluateStrict_of_writable hblank hbs, namedText_of_onlyDigits hd hfunctions h, hpieces,
    pure_bind]

/-- Whether a number is the value of an expression, or zero in place of one that fails. -/
def CountsAs (value : Except Shortfall Number) (n : Number) : Prop :=
  value = .ok n ∨ (∃ why, value = .error (.formula why)) ∧ n = 0

/-- Such a formula is worth what its text counts as, and it draws nothing. -/
theorem evaluateFormula_of_onlyDigits {src : Source σ} {w : World σ} (hd : d ∈ Dialect.builtin)
    (hfunctions : d.functions = false) (hbs : Writable d bs) {s : String}
    (h : OnlyDigits s.toList) (hblank : isBlankString s = false) {n : Number}
    (hvalue : CountsAs (evaluate d (String.ofList (Text.trim s.toList))) n) :
    ∃ e w', evaluateFormula d bs s src w = .ok e w' ∧ e.value = n ∧
      w'.draws = w.draws ∧ w'.chance = w.chance := by
  have hrun := congrFun₂ (@evaluateStrict_of_onlyDigits σ d bs hd hfunctions hbs s h hblank) src w
  rw [run_bind] at hrun
  rcases hvalue with hvalue | ⟨⟨why, hvalue⟩, rfl⟩
  · rw [Roll.evaluate_of_ok hvalue] at hrun
    exact ⟨_, _, evaluateFormula_of_ok hrun, rfl, rfl, rfl⟩
  · rw [Roll.evaluate_of_formula hvalue] at hrun
    obtain ⟨_, _, hzero⟩ := exists_evaluateFormula_of_formula hrun
    exact ⟨_, _, hzero, rfl, rfl, rfl⟩

/-! ### Rows of numerals and signs -/

/-- A part of a formula without names and dice. -/
inductive Token where
  | numeral (n : Nat)
  | star
  | slash
  | opening
  | closing
deriving DecidableEq, Repr

namespace Token

/-- How a part is written. -/
def text : Token → List Char
  | numeral n => natText n
  | star => ['*']
  | slash => ['/']
  | opening => ['(']
  | closing => [')']

/-- The number that a numeral is read as. One with too many digits is read as a double. -/
def numeralValue (n : Nat) : Number :=
  if (natText n).length ≤ maxDigits then .int n else .float (Decimal.toFloat ⟨false, n, 0⟩)

/-- What a part is read as. -/
def lexeme : Token → Lexeme
  | numeral n => .number (numeralValue n)
  | star => .operator "*" 5
  | slash => .operator "/" 6
  | opening => .opening
  | closing => .closing

theorem text_ne_nil (t : Token) : t.text ≠ [] := by
  cases t with
  | numeral n => exact natText_ne_nil n
  | _ => exact List.cons_ne_nil _ _

theorem isBlank_of_mem_text {t : Token} {c : Char} (h : c ∈ t.text) : isBlank c = false := by
  cases t with
  | numeral n => exact isBlank_of_isWordChar (isWordChar_of_isDigit (isDigit_of_mem_natText h))
  | _ =>
    obtain rfl := List.mem_singleton.mp h
    decide

theorem onlyDigits_text (t : Token) : OnlyDigits t.text := by
  intro c hc
  cases t with
  | numeral n => exact fun _ => isDigit_of_mem_natText hc
  | _ =>
    obtain rfl := List.mem_singleton.mp hc
    decide

/-- Whether a part may stand in front of another one, or at the end: two numerals run together, a
second star changes the operator, and so does the end of the text. -/
def fits : Token → Option Token → Bool
  | numeral _, some (numeral _) => false
  | star, next | slash, next => next.isSome && next != some star
  | _, _ => true

/-- Whether the parts of a row may stand behind each other. -/
def fitTogether : List Token → Bool
  | [] => true
  | t :: ts => t.fits ts.head? && fitTogether ts

end Token

/-- Whether a text is a row of parts with blanks between them and around them. -/
inductive Spaced : List Token → List Char → Prop where
  | nil : Spaced [] []
  | blank {ts : List Token} {c : Char} {s : List Char} (hc : isBlank c = true) (h : Spaced ts s) :
      Spaced ts (c :: s)
  | token {ts : List Token} {s : List Char} (t : Token) (h : Spaced ts s) :
      Spaced (t :: ts) (t.text ++ s)

namespace Spaced

variable {ts : List Token} {u : Token}

/-- Blanks may stand in front. -/
theorem blanks {b : List Char} (hb : isBlankText b = true) (h : Spaced ts s) :
    Spaced ts (b ++ s) := by
  have hall : ∀ c ∈ b, isBlank c = true := List.all_eq_true.mp hb
  induction b with
  | nil => exact h
  | cons c b ih =>
    obtain ⟨hc, hrest⟩ := List.forall_mem_cons.mp hall
    exact .blank hc (ih (List.all_eq_true.mpr hrest) hrest)

/-- The parts of a row, each with blanks in front of it, and blanks at the end. -/
theorem of_blanks {ps : List (List Char × Token)} {b : List Char}
    (hps : ∀ p ∈ ps, isBlankText p.1 = true) (hb : isBlankText b = true) :
    Spaced (ps.map (·.2)) (ps.flatMap (fun p => p.1 ++ p.2.text) ++ b) := by
  induction ps with
  | nil =>
    rw [List.flatMap_nil, List.nil_append, ← List.append_nil b]
    exact Spaced.nil.blanks hb
  | cons p ps ih =>
    obtain ⟨hp, hps⟩ := List.forall_mem_cons.mp hps
    rw [List.map_cons, List.flatMap_cons, List.append_assoc, List.append_assoc]
    exact (Spaced.token p.2 (ih hps)).blanks hp

/-- A text starts with a blank or with its first part. -/
theorem head (h : Spaced ts s) :
    ∀ c ∈ s.head?, isBlank c = true ∨ ∃ t ∈ ts.head?, c ∈ t.text.head? := by
  cases h with
  | nil => exact nofun
  | blank hc h =>
    rintro _ ⟨⟩
    exact .inl hc
  | token t h =>
    intro c hc
    rw [List.head?_append_of_ne_nil _ t.text_ne_nil] at hc
    exact .inr ⟨t, rfl, hc⟩

theorem onlyDigits (h : Spaced ts s) : OnlyDigits s := by
  induction h with
  | nil => exact nofun
  | blank hc h ih =>
    refine fun c hmem hword => ?_
    rcases List.mem_cons.mp hmem with rfl | hmem
    · rw [isWordChar_of_isBlank hc] at hword
      cases hword
    · exact ih c hmem hword
  | token t h ih => exact List.forall_mem_append.mpr ⟨t.onlyDigits_text, ih⟩

/-- A text holds the characters of its parts. -/
theorem mem (h : Spaced ts s) {t : Token} (ht : t ∈ ts) : ∀ c ∈ t.text, c ∈ s := by
  induction h with
  | nil => cases ht
  | blank hc h ih => exact fun c hmem => List.mem_cons_of_mem _ (ih ht c hmem)
  | token u h ih =>
    intro c hmem
    rcases List.mem_cons.mp ht with rfl | ht
    · exact List.mem_append_left _ hmem
    · exact List.mem_append_right _ (ih ht c hmem)

theorem dropBlanks (h : Spaced ts s) : Spaced ts (Text.dropBlanks s) := by
  induction h with
  | nil => exact .nil
  | blank hc h ih =>
    unfold Text.dropBlanks
    rwa [List.dropWhile_cons_of_pos hc]
  | token t h ih =>
    have hblank := @Token.isBlank_of_mem_text t
    obtain ⟨c, rest, htext⟩ := List.exists_cons_of_ne_nil t.text_ne_nil
    have hspaced := Spaced.token t h
    rw [htext] at hblank hspaced ⊢
    unfold Text.dropBlanks
    rwa [List.cons_append, List.dropWhile_cons_of_neg (by simp [hblank List.mem_cons_self])]

/-- Blanks at the end can be left out. -/
theorem of_append {b : List Char} (h : Spaced ts (s ++ b)) (hb : ∀ c ∈ b, isBlank c = true) :
    Spaced ts s := by
  generalize hall : s ++ b = all at h
  induction h generalizing s b with
  | nil =>
    obtain ⟨rfl, -⟩ := List.append_eq_nil_iff.mp hall
    exact .nil
  | @blank ts c rest hc h ih =>
    cases s with
    | nil =>
      obtain rfl : b = c :: rest := hall
      exact ih (fun k hk => hb k (List.mem_cons_of_mem c hk)) rfl
    | cons k s =>
      obtain ⟨rfl, hrest⟩ := List.cons.inj hall
      exact .blank hc (ih hb hrest)
  | @token ts rest t h ih =>
    rcases List.append_eq_append_iff.mp hall with ⟨u, htext, rfl⟩ | ⟨u, rfl, hrest⟩
    · -- no blank is part of a token
      have hu : u = [] := List.eq_nil_iff_forall_not_mem.mpr fun c hc => by
        have hblank := Token.isBlank_of_mem_text (htext ▸ List.mem_append_right s hc)
        rw [hb c (List.mem_append_left rest hc)] at hblank
        cases hblank
      subst hu
      rw [List.append_nil] at htext
      have hnil : Spaced ts [] := ih (s := []) (b := rest) hb rfl
      rw [← htext, ← List.append_nil t.text]
      exact .token t hnil
    · exact .token t (ih hb hrest.symm)

theorem trim (h : Spaced ts s) : Spaced ts (Text.trim s) := by
  obtain ⟨b, hs, hb⟩ := exists_blanks_behind (Text.dropBlanks s)
  have hdrop := h.dropBlanks
  rw [hs] at hdrop
  exact hdrop.of_append (List.all_eq_true.mp hb)

end Spaced

/-! ### Reading a row -/

theorem lexemeAt_slash {c : Char} (hc : c ≠ '*') (s : List Char) (column : Nat) :
    lexemeAt column ('/' :: c :: s) = (.operator "/" 6, 1) := by
  have hoperator : operatorAt? ('/' :: c :: s) = some (.operator "/" 6, 1) := by
    unfold operatorAt?
    have hfind : (operatorTable.find? fun e => e.1.isPrefixOf ('/' :: c :: s)) =
        some (['/'], "/", 6) := rfl
    simp [hfind, hc]
  unfold lexemeAt
  rw [hoperator]
  rfl

namespace Spaced

variable {ts : List Token}

/-- A numeral ends in front of whatever may stand behind it. -/
theorem endsNumeral_head (h : Spaced ts s) (hts : ∀ t ∈ ts.head?, ∀ n, t ≠ .numeral n) :
    ∀ c ∈ s.head?, endsNumeral c = true := by
  intro c hc
  rcases h.head c hc with hblank | ⟨t, ht, htext⟩
  · exact endsNumeral_of_not_joins (Mark.joins_char (m := .blank c) hblank)
  · cases t with
    | numeral n => exact absurd rfl (hts _ ht n)
    | _ => cases htext; decide

theorem head_ne_star (h : Spaced ts s) (hts : ts.head? ≠ some .star) :
    ∀ c ∈ s.head?, c ≠ '*' := by
  rintro c hc rfl
  rcases h.head _ hc with hblank | ⟨t, ht, htext⟩
  · exact absurd hblank (by decide)
  · cases t with
    | numeral n =>
      exact absurd (isDigit_of_mem_natText (List.mem_of_mem_head? htext)) (by decide)
    | star => exact hts ht
    | _ => cases htext

theorem ne_nil (h : Spaced ts s) (hts : ts ≠ []) : s ≠ [] := by
  rintro rfl
  generalize hs : ([] : List Char) = s at h
  cases h with
  | nil => exact hts rfl
  | blank hc h => cases hs
  | token t h => exact t.text_ne_nil (List.append_eq_nil_iff.mp hs.symm).1

/-- Blanks aside, a text is read as its parts. -/
theorem readFrom (h : Spaced ts s) (hfit : Token.fitTogether ts = true) (column : Nat) :
    (Formula.readFrom column s).filter Lexeme.isSolid = ts.map Token.lexeme := by
  induction h generalizing column with
  | nil => rfl
  | @blank ts c s hc h ih =>
    have hread := @readFrom_mark (.blank c) hc s nofun column
    change Formula.readFrom column (c :: s) = .blank :: _ at hread
    rw [hread]
    exact ih hfit _
  | @token ts s t h ih =>
    obtain ⟨ht, hfit⟩ := Bool.and_eq_true_iff.mp hfit
    have ih := ih hfit
    suffices hread : ∃ next, Formula.readFrom column (t.text ++ s) =
        t.lexeme :: Formula.readFrom next s by
      obtain ⟨next, hread⟩ := hread
      have hsolid : t.lexeme.isSolid = true := by cases t <;> rfl
      rw [hread, List.filter_cons_of_pos hsolid, ih, List.map_cons]
    cases t with
    | numeral n =>
      have hdigits : ∀ c ∈ natText n, c.isDigit = true := fun _ => isDigit_of_mem_natText
      have hnumber : plainNumber (natText n) = .number (Token.numeralValue n) := by
        rw [plainNumber_run hdigits, digitsValue_natText]
        rfl
      have hends := h.endsNumeral_head fun t hhead n heq => by
        rw [Option.mem_def.mp hhead, heq] at ht
        exact absurd ht Bool.false_ne_true
      refine ⟨_, readFrom_append (natText_ne_nil n) (fun _ heq => Lexeme.noConfusion heq) ?_⟩
      show lexemeAt column (natText n ++ s) = (.number (Token.numeralValue n), (natText n).length)
      rw [lexemeAt_digits (natText_ne_nil n) hdigits hends, hnumber]
    | star =>
      obtain ⟨-, hstar⟩ := Bool.and_eq_true_iff.mp ht
      exact ⟨_, @readFrom_mark (.sign .product) trivial s
        (fun _ => h.head_ne_star (by simpa using hstar)) column⟩
    | slash =>
      obtain ⟨hnext, hstar⟩ := Bool.and_eq_true_iff.mp ht
      have hts : ts ≠ [] := by rintro rfl; cases hnext
      obtain ⟨c, s, rfl⟩ := List.exists_cons_of_ne_nil (h.ne_nil hts)
      refine ⟨_, readFrom_append (x := ['/']) nofun (fun _ heq => Lexeme.noConfusion heq) ?_⟩
      exact lexemeAt_slash (h.head_ne_star (by simpa using hstar) c rfl) s column
    | opening => exact ⟨_, @readFrom_mark .opening trivial s nofun column⟩
    | closing => exact ⟨_, @readFrom_mark .closing trivial s nofun column⟩

theorem isBlankText_eq_false (h : Spaced ts s) (hts : ts ≠ []) : isBlankText s = false := by
  induction h with
  | nil => exact absurd rfl hts
  | blank hc h ih =>
    unfold isBlankText at ih ⊢
    rw [List.all_cons, ih hts, Bool.and_false]
  | token t h ih =>
    obtain ⟨c, rest, htext⟩ := List.exists_cons_of_ne_nil t.text_ne_nil
    have hc : isBlank c = false := Token.isBlank_of_mem_text (htext ▸ List.mem_cons_self)
    unfold isBlankText
    rw [htext, List.cons_append, List.all_cons, hc, Bool.false_and]

/-- A text of a row has the value of the postfix form that the row is read as. -/
theorem evaluate_eq {r : Reading} {items : List Item} (h : Spaced ts s)
    (hfit : Token.fitTogether ts = true) (hts : ts ≠ [])
    (hfollows : Follows {} (ts.map Token.lexeme) r)
    (hfinish : ∀ stop, r.finish stop = .ok items) (d : Dialect) :
    evaluate d (String.ofList s) = evaluateItems d (String.ofList s) items := by
  have hsteps : Reading.steps {} (lexemes s) = .ok r := by
    refine @Follows.of_filter {} r (Formula.readFrom 0 s) ?_ _ rfl
    rwa [h.readFrom hfit]
  have hpostfix : postfix? s = .ok items := by
    unfold postfix?
    rw [hsteps]
    exact hfinish _
  have hblank : isBlankString (String.ofList s) = false := by
    unfold isBlankString
    rw [String.toList_ofList]
    exact h.isBlankText_eq_false hts
  unfold evaluate
  rw [hblank, if_neg Bool.false_ne_true, String.toList_ofList, hpostfix]

end Spaced

/-! ### Working out a row -/

/-- An operator between two operands that are on the stack. -/
theorem run_binary (op : BinaryOp) (v u : Value) (stack : List Value) (is : List Instruction) :
    run (.binary op :: is) (v :: u :: stack) =
      (op.apply u v).bind fun value => run is (value :: stack) := by
  show ((op.apply u v).bind fun value => .ok (value :: stack)).bind (run is) = _
  cases op.apply u v <;> rfl

/-- The number that is left of a value, or of the error that keeps an expression from having one. -/
def workedOut (expr : String) (value : Except EvalError Value) : Except Shortfall Number :=
  match value with
  | .error why => .error (.formula (.failed expr why))
  | .ok v => finiteNumber expr v

/-- A postfix form whose program leaves one value on the stack. -/
theorem evaluateItems_eq_workedOut {expr : String} {items : List Item} {is : List Instruction}
    {value : Except EvalError Value} (hprogram : program? d expr items = .ok is)
    (hrun : run is [] = value.bind fun v => .ok [v]) :
    evaluateItems d expr items = workedOut expr value := by
  have hresult : result is = value := by
    unfold result
    rw [hrun]
    cases value <;> rfl
  unfold evaluateItems
  simp only [hprogram, hresult]
  rfl

end Kindred.Formula
