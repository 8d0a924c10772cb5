import Kindred.Formula.Lexeme
import Kindred.Proofs.Formula.Operand

/-!
# Parts of an expression found in its text

The lexemes of a text that is made of numerals, the signs of arithmetic, brackets and blanks. A
numeral is a whole number because neither a point nor an exponent follows it, and a star is a
product because no second star does.

- `lexemeAt_mark`, `lexemeAt_numeral`: the lexeme at the front of a text.
- `Settled.IsWritten`: how a value stands in an expression.
- `readFrom_textOf`: the lexemes of a row.
-/

namespace Kindred.Formula

open Kindred.Text Kindred.Number

/-! ### What a lexeme is not -/

/-- The characters that operators start with. -/
def operatorHeads : List Char :=
  ['*', '^', '%', '/', '\u2219', '\u2022', '+', '-', '|', '=', '!', '<', '>', 'i', 'n', 'a', 'x',
   'o']

/-- No operator starts with another character. -/
theorem operatorAt?_eq_none {c : Char} (hc : c ∉ operatorHeads) (s : List Char) :
    operatorAt? (c :: s) = none := by
  have hheads : ∀ e ∈ operatorTable, e.1.head?.any (operatorHeads.contains ·) = true := by decide
  unfold operatorAt?
  rw [Option.map_eq_none_iff, List.find?_eq_none]
  rintro ⟨spelling, name, rank⟩ he
  have hhead := hheads _ he
  cases spelling with
  | nil => cases hhead
  | cons k rest =>
    have hk : k ∈ operatorHeads := List.contains_iff_mem.mp hhead
    have hne : (k == c) = false := by
      refine beq_false_of_ne ?_
      rintro rfl
      exact hc hk
    show ¬(k :: rest).isPrefixOf (c :: s) = true
    rw [List.isPrefixOf, hne, Bool.false_and]
    exact Bool.false_ne_true

/-- Whether a numeral ends in front of a character: no digit and no point goes on with it, and no
exponent starts there. -/
def endsNumeral (c : Char) : Bool := !(c.isDigit || c == '.' || c == 'e' || c == 'E')

theorem endsNumeral_eq_true_iff {c : Char} :
    endsNumeral c = true ↔ c.isDigit = false ∧ c ≠ '.' ∧ c ≠ 'e' ∧ c ≠ 'E' := by
  simp [endsNumeral, and_assoc]

/-- Numerals end in front of everything that does not join them. -/
theorem endsNumeral_of_not_joins {c : Char} (h : joins c = false) : endsNumeral c = true := by
  obtain ⟨hword, hpoint⟩ := Bool.or_eq_false_iff.mp h
  -- the letters that an exponent starts with are word characters
  have hnot : ∀ k, isWordChar k = true → c ≠ k := fun k hk => (ne_of_apart hk hword).symm
  exact endsNumeral_eq_true_iff.mpr ⟨isDigit_of_not_isWordChar hword, by simpa using hpoint,
    hnot 'e' (by decide), hnot 'E' (by decide)⟩

/-- Neither a point nor an exponent goes on with a numeral that has ended. -/
theorem scientificAt?_append {ds s : List Char} (hds : ∀ c ∈ ds, c.isDigit = true)
    (hs : ∀ c ∈ s.head?, endsNumeral c = true) : scientificAt? (ds ++ s) = none := by
  have hspan : spanAsciiDigits (ds ++ s) = (ds, s) :=
    spanAsciiDigits_append hds fun c hc => (endsNumeral_eq_true_iff.mp (hs c hc)).1
  have hexponent : exponentAt? s = none := by
    cases s with
    | nil => rfl
    | cons c s =>
      obtain ⟨-, -, he, hE⟩ := endsNumeral_eq_true_iff.mp (hs c rfl)
      have hletter : (c == 'e' || c == 'E') = false := by simp [he, hE]
      show (if (c == 'e' || c == 'E') = true then _ else none) = none
      rw [hletter, if_neg Bool.false_ne_true]
  unfold scientificAt?
  rw [hspan]
  simp only
  split
  · exact absurd (hs '.' rfl) (by decide)
  · rw [hexponent]
    rfl

/-- No numeral starts where one would end. -/
theorem numberAt?_eq_none {c : Char} (hc : endsNumeral c = true) (s : List Char) :
    numberAt? (c :: s) = none := by
  have hscientific : scientificAt? (c :: s) = none :=
    @scientificAt?_append [] (c :: s) (List.forall_mem_nil _) (by
      intro d hd
      cases hd
      exact hc)
  obtain ⟨hdigit, hpoint, -, hE⟩ := endsNumeral_eq_true_iff.mp hc
  have hhead : ((c :: s).head? == some 'E') = false := by simpa using hE
  have hrun : (c :: s).takeWhile (fun c => c.isDigit || c == '.') = [] :=
    List.takeWhile_cons_of_neg (by simp [hdigit, hpoint])
  unfold numberAt?
  rw [hhead, hscientific]
  simp only [hrun]
  rfl

/-! ### Lexemes at the front -/

/-- The name of an operation among the operators. -/
def Operation.name : Operation → String
  | sum => "+"
  | difference => "-"
  | product => "*"

/-- The rank of an operation among the operators. -/
def Operation.rank : Operation → Int
  | sum => 4
  | difference => 4
  | product => 5

/-- The lexeme of a mark. -/
def Mark.lexeme : Mark → Lexeme
  | sign op => .operator op.name op.rank
  | opening => .opening
  | closing => .closing
  | blank _ => .blank

/-- The sign of an operation is read as it; behind a star there must be no other star. -/
theorem operatorAt?_sign (op : Operation) {s : List Char}
    (hs : op = .product → ∀ c ∈ s.head?, c ≠ '*') :
    operatorAt? (op.sign :: s) = some (.operator op.name op.rank, 1) := by
  cases op with
  | sum => rfl
  | difference => rfl
  | product =>
    cases s with
    | nil => rfl
    | cons c s =>
      have hne : ('*' == c) = false := beq_false_of_ne (Ne.symm (hs rfl c rfl))
      have hpower : ['*', '*'].isPrefixOf ('*' :: c :: s) = false := by
        rw [List.isPrefixOf, List.isPrefixOf, hne]
        rfl
      show operatorAt? ('*' :: c :: s) = _
      unfold operatorAt? operatorTable
      rw [List.find?_cons_of_neg (by simp only [hpower]; exact Bool.false_ne_true)]
      rfl

theorem constantAt?_eq_none {c : Char} (hE : c ≠ 'E') (hP : c ≠ 'P') (s : List Char) :
    constantAt? (c :: s) = none := by
  unfold constantAt? constants
  rw [List.find?_cons_of_neg, List.find?_cons_of_neg]
  · rfl
  · simp [hP.symm]
  · simp [hE.symm]

theorem nameAt?_eq_none {c : Char} (hc : isCased c = false) (s : List Char) :
    nameAt? (c :: s) = none := by
  have hword : wordAt (c :: s) = [] := by
    rw [wordAt, hc]
    rfl
  have hvariable : variableAt (c :: s) = [] := by
    rw [variableAt, hc]
    rfl
  unfold nameAt?
  rw [hword, hvariable]
  rfl

/-- The characters, operators and digits aside, that lexemes other than names start with. -/
def otherHeads : List Char := ['\'', '"', '(', ')', ',', 'E', 'P', 'e', '.']

/-- Where nothing else starts, a name does, or a blank stands, or the text cannot be read. -/
theorem lexemeAt_eq_nameAt? {c : Char} {s : List Char} (hoperator : operatorAt? (c :: s) = none)
    (hdigit : c.isDigit = false) (hc : c ∉ otherHeads) (column : Nat) :
    lexemeAt column (c :: s) = (nameAt? (c :: s)).getD
      (if isBlank c then (.blank, 1) else (.broken (.flaw column .unknownCharacter), 1)) := by
  simp only [otherHeads, List.mem_cons, List.not_mem_nil, not_or, or_false] at hc
  obtain ⟨hsingle, hdouble, hopening, hclosing, hcomma, hE, hP, he, hpoint⟩ := hc
  have hnumber : numberAt? (c :: s) = none :=
    numberAt?_eq_none (endsNumeral_eq_true_iff.mpr ⟨hdigit, hpoint, he, hE⟩) s
  have hquoted : quotedAt? column (c :: s) = none := by
    have hquote : (c == '\'' || c == '"') = false := by simp [hsingle, hdouble]
    show (if (c == '\'' || c == '"') = true then _ else none) = none
    rw [hquote, if_neg Bool.false_ne_true]
  have hmark : markAt? (c :: s) = none := by
    unfold markAt?
    split
    · next heq => exact absurd (List.cons.inj heq).1 hopening
    · next heq => exact absurd (List.cons.inj heq).1 hclosing
    · next heq => exact absurd (List.cons.inj heq).1 hcomma
    · rfl
  unfold lexemeAt
  rw [hoperator, hnumber, hquoted, hmark, constantAt?_eq_none hE hP]
  rfl

theorem lexemeAt_blank {c : Char} (hc : isBlank c = true) (column : Nat) (s : List Char) :
    lexemeAt column (c :: s) = (.blank, 1) := by
  have hoperator : operatorAt? (c :: s) = none :=
    operatorAt?_eq_none (not_mem_of_apart hc (by decide)) s
  rw [lexemeAt_eq_nameAt? hoperator (isDigit_of_not_isWordChar (isWordChar_of_isBlank hc))
    (not_mem_of_apart hc (by decide)), nameAt?_eq_none (isCased_of_isBlank hc), Option.getD_none,
    if_pos hc]

/-- A mark is read as its lexeme. -/
theorem lexemeAt_mark {m : Mark} (hm : m.IsPlain) {s : List Char}
    (hs : m = .sign .product → ∀ c ∈ s.head?, c ≠ '*') (column : Nat) :
    lexemeAt column (m.char :: s) = (m.lexeme, 1) := by
  cases m with
  | sign op =>
    unfold lexemeAt Mark.char
    rw [operatorAt?_sign op fun hop => hs (congrArg _ hop)]
    rfl
  | opening =>
    unfold lexemeAt Mark.char
    rw [operatorAt?_eq_none (by decide), numberAt?_eq_none (by decide)]
    rfl
  | closing =>
    unfold lexemeAt Mark.char
    rw [operatorAt?_eq_none (by decide), numberAt?_eq_none (by decide)]
    rfl
  | blank c => exact lexemeAt_blank hm column s

/-- A run of digits is a whole number, unless it is too long to be read as one. -/
theorem plainNumber_run {ds : List Char} (hds : ∀ c ∈ ds, c.isDigit = true) :
    plainNumber ds = .number (if ds.length ≤ maxDigits then .int (digitsValue ds)
      else .float (Decimal.toFloat ⟨false, digitsValue ds, 0⟩)) := by
  have hpoint : ∀ c ∈ ds, c ≠ '.' := fun c hc => ne_of_apart (hds c hc) (by decide)
  have hhead : (ds.head? == some '.') = false := by
    refine beq_false_of_ne fun heq => ?_
    exact hpoint '.' (List.mem_of_mem_head? heq) rfl
  have hspan : ds.span (· != '.') = (ds, []) := by
    refine span_of_all fun c hc => ?_
    simpa using hpoint c hc
  unfold plainNumber
  rw [hhead]
  simp only [Bool.false_eq_true, if_false, hspan]
  split <;> rfl

/-- A numeral of digits only is a whole number. -/
theorem plainNumber_digits {ds : List Char} (h : IsLiteral ds) :
    plainNumber ds = .number (.int (digitsValue ds)) := by
  rw [plainNumber_run h.digits, if_pos h.length_le]

/-- A run of digits is read up to a character in front of which a numeral ends. -/
theorem lexemeAt_digits {ds s : List Char} (hne : ds ≠ []) (hds : ∀ c ∈ ds, c.isDigit = true)
    (hs : ∀ c ∈ s.head?, endsNumeral c = true) (column : Nat) :
    lexemeAt column (ds ++ s) = (plainNumber ds, ds.length) := by
  have hrun : (ds ++ s).takeWhile (fun c => c.isDigit || c == '.') = ds := by
    rw [List.takeWhile_append_of_pos fun c hc => by rw [hds c hc, Bool.true_or]]
    cases s with
    | nil => simp
    | cons c s =>
      obtain ⟨hdigit, hpoint, -⟩ := endsNumeral_eq_true_iff.mp (hs c rfl)
      rw [List.takeWhile_cons_of_neg (by simp [hdigit, hpoint]), List.append_nil]
  have hscientific := scientificAt?_append hds hs
  obtain ⟨c, u, rfl⟩ := List.exists_cons_of_ne_nil hne
  have hc := hds c List.mem_cons_self
  have hnot : ∀ k : Char, k.isDigit = false → c ≠ k := fun k hk => ne_of_apart hc hk
  have hoperator : operatorAt? (c :: u ++ s) = none := by
    refine operatorAt?_eq_none (fun hmem => ?_) _
    have hheads : ∀ k ∈ operatorHeads, (!k.isDigit) = true := List.all_eq_true.mp (by decide)
    exact hnot c (by simpa using hheads c hmem) rfl
  have hE : ((c :: u ++ s).head? == some 'E') = false := by
    refine beq_false_of_ne fun heq => ?_
    exact hnot 'E' (by decide) (Option.some.inj heq)
  have hnumber : numberAt? (c :: u ++ s) = some (plainNumber (c :: u), (c :: u).length) := by
    unfold numberAt?
    rw [hE, hscientific]
    simp only [hrun, Bool.false_eq_true, if_false]
    rfl
  -- operators are tried first, and numerals next
  unfold lexemeAt
  rw [hoperator, hnumber]
  rfl

/-- A numeral is read up to a character in front of which it ends. -/
theorem lexemeAt_numeral {ds s : List Char} (h : IsLiteral ds)
    (hs : ∀ c ∈ s.head?, endsNumeral c = true) (column : Nat) :
    lexemeAt column (ds ++ s) = (.number (.int (digitsValue ds)), ds.length) := by
  rw [lexemeAt_digits h.ne_nil h.digits hs, plainNumber_digits h]

/-! ### The lexemes of a row -/

/-- The lexemes of a text that starts at a column. -/
def readFrom (column : Nat) (s : List Char) : List Lexeme :=
  (lexemesFrom column 0 s).map (·.lexeme)

/-- The characters of a lexeme are passed over. -/
theorem lexemesFrom_skip (u s : List Char) (column : Nat) :
    lexemesFrom column u.length (u ++ s) = lexemesFrom (column + u.length) 0 s := by
  induction u generalizing column with
  | nil => rfl
  | cons c u ih =>
    rw [List.cons_append, List.length_cons, lexemesFrom, ih]
    congr 1
    omega

theorem readFrom_mark {m : Mark} (hm : m.IsPlain) {s : List Char}
    (hs : m = .sign .product → ∀ c ∈ s.head?, c ≠ '*') (column : Nat) :
    readFrom column (m.char :: s) = m.lexeme :: readFrom (column + 1) s := by
  unfold readFrom
  rw [lexemesFrom, lexemeAt_mark hm hs]
  cases m <;> rfl

/-- A part that is read whole, and what follows it. -/
theorem readFrom_append {x s : List Char} (hx : x ≠ []) {l : Lexeme} (hl : ∀ why, l ≠ .broken why)
    {column : Nat} (h : lexemeAt column (x ++ s) = (l, x.length)) :
    readFrom column (x ++ s) = l :: readFrom (column + x.length) s := by
  obtain ⟨c, u, rfl⟩ := List.exists_cons_of_ne_nil hx
  have hcolumn : column + 1 + u.length = column + (u.length + 1) := by omega
  unfold readFrom
  rw [List.cons_append] at h ⊢
  rw [lexemesFrom, h, List.length_cons, ← hcolumn, ← lexemesFrom_skip]
  cases l with
  | broken why => exact absurd rfl (hl why)
  | _ => rfl

/-- A run of digits is one number, wherever it stands, and what follows it is read next. -/
theorem readFrom_digits {ds : List Char} (hne : ds ≠ []) (hds : ∀ c ∈ ds, c.isDigit = true) :
    ∃ n, ∀ (s : List Char) (column : Nat), (∀ c ∈ s.head?, endsNumeral c = true) →
      readFrom column (ds ++ s) = .number n :: readFrom (column + ds.length) s := by
  have hnumber := plainNumber_run hds
  generalize (if ds.length ≤ maxDigits then Number.int (digitsValue ds) else _) = n at hnumber
  refine ⟨n, fun s column hs => readFrom_append hne (fun _ heq => Lexeme.noConfusion heq) ?_⟩
  rw [lexemeAt_digits hne hds hs column, hnumber]

theorem readFrom_numeral {ds s : List Char} (h : IsLiteral ds)
    (hs : ∀ c ∈ s.head?, endsNumeral c = true) (column : Nat) :
    readFrom column (ds ++ s) =
      .number (.int (digitsValue ds)) :: readFrom (column + ds.length) s :=
  readFrom_append h.ne_nil (fun _ heq => Lexeme.noConfusion heq) (lexemeAt_numeral h hs column)

/-- Whether a value stands in an expression as a numeral, in brackets behind a minus sign where it
is negative. -/
def Settled.IsWritten (b : Settled) : Prop :=
  ∃ ds, IsLiteral ds ∧ ((b.text = ds ∧ b.value = digitsValue ds) ∨
    (b.text = '(' :: '-' :: (ds ++ [')']) ∧ b.value = -digitsValue ds ∧ b.value < 0))

/-- The lexemes of a value. -/
def Settled.lexemes (b : Settled) : List Lexeme :=
  if b.value < 0 then
    [.opening, Mark.lexeme (.sign .difference), .number (.int (-b.value)), .closing]
  else [.number (.int b.value)]

/-- The lexemes of a part. -/
def Part.lexemes : Part Settled → List Lexeme
  | leaf b => b.lexemes
  | mark m => [m.lexeme]

/-- A value, and what follows it. -/
theorem readFrom_settled {b : Settled} (hb : b.IsWritten) {s : List Char}
    (hs : ∀ c ∈ s.head?, joins c = false) (column : Nat) :
    ∃ next, readFrom column (b.text ++ s) = b.lexemes ++ readFrom next s := by
  have hs := fun c hc => endsNumeral_of_not_joins (hs c hc)
  obtain ⟨ds, hds, ⟨htext, hvalue⟩ | ⟨htext, hvalue, hneg⟩⟩ := hb
  · refine ⟨column + ds.length, ?_⟩
    have hpos : ¬b.value < 0 := by omega
    unfold Settled.lexemes
    rw [if_neg hpos, htext, hvalue, readFrom_numeral hds hs]
    rfl
  · have hclose : ∀ c ∈ (')' :: s).head?, endsNumeral c = true := by
      intro c hc
      cases hc
      decide
    have hlast := @readFrom_mark .closing trivial s nofun (column + 1 + 1 + ds.length)
    refine ⟨column + 1 + 1 + ds.length + 1, ?_⟩
    unfold Settled.lexemes
    rw [if_pos hneg, htext, hvalue, Int.neg_neg]
    show readFrom column ('(' :: '-' :: ((ds ++ [')']) ++ s)) = _
    rw [List.append_assoc]
    show readFrom column (Mark.char .opening :: Mark.char (.sign .difference) ::
      (ds ++ ')' :: s)) = _
    rw [@readFrom_mark .opening trivial _ nofun, @readFrom_mark (.sign .difference) trivial _ nofun,
      readFrom_numeral hds hclose]
    exact congrArg (fun ls => _ :: _ :: _ :: ls) hlast

/-- A row that starts with no sign does not start with a star. -/
theorem head?_textOf_ne_star {ps : List (Part Settled)}
    (hps : ∀ p ∈ ps, p.Holds Settled.IsWritten) (hhead : ∀ p ∈ ps.head?, p.isSign = false) :
    ∀ c ∈ (textOf Settled.text ps).head?, c ≠ '*' := by
  cases ps with
  | nil => exact nofun
  | cons p ps =>
    have hp := hps p List.mem_cons_self
    have hsign := hhead p rfl
    rintro c hc rfl
    rw [textOf_cons] at hc
    cases p with
    | leaf b =>
      change '*' ∈ (b.text ++ _).head? at hc
      obtain ⟨ds, hds, ⟨htext, -⟩ | ⟨htext, -⟩⟩ := hp
      · rw [htext, List.head?_append_of_ne_nil _ hds.ne_nil] at hc
        exact absurd (hds.digits _ (List.mem_of_mem_head? hc)) (by decide)
      · rw [htext] at hc
        cases hc
    | mark m =>
      cases m with
      | sign op => cases hsign
      | opening => cases hc
      | closing => cases hc
      | blank c =>
        cases hc
        exact absurd (show isBlank '*' = true from hp) (by decide)

/-- The lexemes of the text of a row are those of its parts. -/
theorem readFrom_textOf {ps : List (Part Settled)} (hps : ∀ p ∈ ps, p.Holds Settled.IsWritten)
    (hchain : List.IsChain Part.Apart ps) (column : Nat) :
    readFrom column (textOf Settled.text ps) = ps.flatMap Part.lexemes := by
  induction ps generalizing column with
  | nil => rfl
  | cons p ps ih =>
    obtain ⟨hp, hrest⟩ := List.forall_mem_cons.mp hps
    obtain ⟨hnext, htail⟩ := List.isChain_cons.mp hchain
    rw [textOf_cons, List.flatMap_cons]
    cases p with
    | leaf b =>
      have hjoins : ∀ c ∈ (textOf Settled.text ps).head?, joins c = false :=
        joins_of_mem_head?_textOf hrest (leaf?_of_isChain hchain)
      obtain ⟨next, hread⟩ := readFrom_settled hp hjoins column
      show readFrom column (b.text ++ textOf Settled.text ps) = _
      rw [hread, ih hrest htail]
      rfl
    | mark m =>
      -- no sign follows a sign, so no second star follows a star
      have hstar : m = .sign .product → ∀ c ∈ (textOf Settled.text ps).head?, c ≠ '*' := by
        rintro rfl
        refine head?_textOf_ne_star hrest fun q hq => ?_
        have hapart := (hnext q hq).2
        exact Bool.eq_false_iff.mpr fun hq => hapart ⟨rfl, hq⟩
      show readFrom column (m.char :: textOf Settled.text ps) = _
      rw [readFrom_mark hp hstar, ih hrest htail]
      rfl

end Kindred.Formula
