import Kindred.Proofs.Formula.Alike
import Kindred.Proofs.Formula.Plain

/-!
# Brackets of plain arithmetic

The depth of the brackets is looked at when a text has ended, and only then. So a text of plain
arithmetic that has a value opens as many brackets as it closes, and each bracket stands where one
may stand; but a bracket may be closed before it is opened.

- `lastSolid?`, `Fits`: what stands in front of a bracket.
- `Stands`: a reader that has gone over a text.
- `Deeper`, `enclosed`: the same text inside of brackets, and a reader there.
- `Balanced`, `brackets_of_evaluate`: the brackets of a text that has a value.
-/

namespace Kindred.Formula

open Kindred.Text

/-! ### Texts of plain arithmetic -/

/-- The characters of plain arithmetic: digits, blanks, three signs and the brackets. -/
def isArithmeticChar (c : Char) : Bool :=
  isDecimal c || isBlank c || ['+', '-', '*', '(', ')'].contains c

/-- The last character of a text that is no blank. -/
def lastSolid? (s : List Char) : Option Char := (s.filter (!isBlank ·)).getLast?

/-- Whether a text ends with an operand: with a digit or a closing bracket, blanks aside. -/
def EndsOperand (s : List Char) : Prop := ∃ c ∈ lastSolid? s, c.isDigit = true ∨ c = ')'

/-- Whether a character may stand behind a text: a closing bracket may behind an operand, and an
opening one may everywhere else. -/
def Fits (s : List Char) : Char → Prop
  | '(' => ¬ EndsOperand s
  | ')' => EndsOperand s
  | _ => True

/-- Whether every bracket of a text stands where one may. -/
def InPlace (s : List Char) : Prop := ∀ u c v, s = u ++ c :: v → Fits u c

theorem lastSolid?_blank {c : Char} (hc : isBlank c = true) (s : List Char) :
    lastSolid? (s ++ [c]) = lastSolid? s := by
  unfold lastSolid?
  rw [List.filter_append, List.filter_cons_of_neg (by simp [hc]), List.filter_nil,
    List.append_nil]

theorem lastSolid?_solid {c : Char} (hc : isBlank c = false) (s : List Char) :
    lastSolid? (s ++ [c]) = some c := by
  unfold lastSolid?
  rw [List.filter_append, List.filter_cons_of_pos (by simp [hc]), List.filter_nil]
  exact List.getLast?_concat

theorem inPlace_nil : InPlace [] := by
  intro u c v h
  cases u <;> cases h

/-- One more character is in place if it fits. -/
theorem InPlace.concat {s : List Char} {c : Char} (h : InPlace s) (hc : Fits s c) :
    InPlace (s ++ [c]) := by
  intro u k v heq
  rcases List.append_eq_append_iff.mp heq with ⟨w, rfl, hw⟩ | ⟨w, rfl, hw⟩
  · cases w with
    | nil =>
      cases hw
      rwa [List.append_nil]
    | cons d w =>
      obtain ⟨-, hw⟩ := List.cons.inj hw
      cases w <;> cases hw
  · cases w with
    | nil =>
      cases hw
      rwa [List.append_nil] at hc
    | cons d w =>
      obtain ⟨rfl, -⟩ := List.cons.inj hw
      exact h u k w rfl

/-! ### Readers and the text behind them -/

/-- What may stand behind a character. -/
def expectAfter : Option Char → Expect
  | none => .operand
  | some '(' => .opened
  | some ')' => .callable
  | some c => if c.isDigit then .operator else .operand

/-- An operator or a closing bracket may stand behind an operand only. -/
theorem expectAfter_iff {s : List Char} : expectAfter (lastSolid? s) = .operator ∨
    expectAfter (lastSolid? s) = .callable ↔ EndsOperand s := by
  unfold EndsOperand expectAfter
  split
  · next heq => simp [heq]
  · next heq => simp [heq]
  · next heq => simp [heq]
  · next c hopening hclosing heq =>
    have hne : c ≠ ')' := hclosing
    cases hc : c.isDigit <;> simp [heq, hc, hne]

/-- Whether a reader is in the state that a text, of which every bracket is in place, leaves. -/
structure Stands (s : List Char) (r : Reading) : Prop where
  expect : r.expect = expectAfter (lastSolid? s)
  depth : r.depth = 10 * ((s.count '(' : Int) - s.count ')')
  inPlace : InPlace s

theorem stands_nil : Stands [] {} := ⟨rfl, rfl, inPlace_nil⟩

variable {s : List Char} {r r' : Reading}

/-- One more character that is no bracket. -/
theorem Stands.concat {c : Char} (h : Stands s r) (hopening : c ≠ '(') (hclosing : c ≠ ')')
    (hexpect : r'.expect = expectAfter (lastSolid? (s ++ [c]))) (hdepth : r'.depth = r.depth) :
    Stands (s ++ [c]) r' := by
  constructor
  · exact hexpect
  · rw [hdepth, h.depth, List.count_append, List.count_append, List.count_singleton,
      List.count_singleton]
    simp [hopening, hclosing]
  · refine h.inPlace.concat ?_
    unfold Fits
    split
    · exact absurd rfl hopening
    · exact absurd rfl hclosing
    · trivial

theorem Stands.blank {c : Char} (h : Stands s r) (hc : isBlank c = true) :
    Stands (s ++ [c]) r := by
  refine h.concat ?_ ?_ ?_ rfl
  · rintro rfl
    exact absurd hc (by decide)
  · rintro rfl
    exact absurd hc (by decide)
  · rw [lastSolid?_blank hc]
    exact h.expect

/-- A sign is followed by an operand. -/
theorem Stands.sign (h : Stands s r) (op : Operation) (rank : Int) :
    Stands (s ++ [op.sign]) (r.operator op.name rank) := by
  have hdepth : (r.operator op.name rank).depth = r.depth := by
    unfold Reading.operator
    dsimp only
    split
    · rfl
    split
    · rfl
    split <;> rfl
  have hsolid : lastSolid? (s ++ [op.sign]) = some op.sign :=
    lastSolid?_solid (by cases op <;> decide) s
  refine h.concat (by cases op <;> decide) (by cases op <;> decide) ?_ hdepth
  rw [hsolid]
  cases op <;> rfl

/-- A run of digits is followed by an operator. -/
theorem Stands.digits {ds : List Char} (h : Stands s r) (hne : ds ≠ [])
    (hds : ∀ c ∈ ds, c.isDigit = true) (hexpect : r'.expect = .operator)
    (hdepth : r'.depth = r.depth) : Stands (s ++ ds) r' := by
  induction ds generalizing s r with
  | nil => exact absurd rfl hne
  | cons c ds ih =>
    obtain ⟨hc, hds⟩ := List.forall_mem_cons.mp hds
    have hblank : isBlank c = false := isBlank_of_isWordChar (isWordChar_of_isDigit hc)
    have hopening : c ≠ '(' := ne_of_apart hc (by decide)
    have hclosing : c ≠ ')' := ne_of_apart hc (by decide)
    have hfirst : Stands (s ++ [c]) r' := by
      refine h.concat hopening hclosing ?_ hdepth
      rw [hexpect, lastSolid?_solid hblank]
      unfold expectAfter
      split
      · next heq => cases heq
      · next heq => exact absurd (Option.some.inj heq) hopening
      · next heq => exact absurd (Option.some.inj heq) hclosing
      · next heq =>
        cases heq
        rw [if_pos hc]
    cases ds with
    | nil => exact hfirst
    | cons d ds =>
      rw [List.append_cons]
      exact ih hfirst nofun hds rfl

theorem Stands.opening (h : Stands s r) (htakes : r.expect.takesOpening = true)
    (hcall : r.expect ≠ .callable) :
    Stands (s ++ ['(']) { r with depth := r.depth + 10, expect := .opened } := by
  constructor
  · rw [lastSolid?_solid (by decide)]
    rfl
  · show r.depth + 10 = _
    rw [h.depth, List.count_append, List.count_append, List.count_singleton_self,
      List.count_eq_zero_of_not_mem (by decide : ')' ∉ ['('])]
    omega
  · refine h.inPlace.concat fun hends => ?_
    rcases expectAfter_iff.mpr hends with hoperator | hcallable
    · rw [h.expect, hoperator] at htakes
      cases htakes
    · exact hcall (h.expect.trans hcallable)

theorem Stands.closing (h : Stands s r) (htakes : r.expect = .operator ∨ r.expect = .callable) :
    Stands (s ++ [')']) { r with depth := r.depth - 10, expect := .callable } := by
  constructor
  · rw [lastSolid?_solid (by decide)]
    rfl
  · show r.depth - 10 = _
    rw [h.depth, List.count_append, List.count_append, List.count_singleton_self,
      List.count_eq_zero_of_not_mem (by decide : '(' ∉ [')'])]
    omega
  · rw [h.expect] at htakes
    exact h.inPlace.concat (expectAfter_iff.mp htakes)

/-! ### Reading a text of plain arithmetic -/

/-- The texts of plain arithmetic, part by part as they are read: marks, two stars, runs of digits,
and digits of other scripts, behind which nothing is read. -/
inductive Arithmetic : List Char → Prop
  | nil : Arithmetic []
  | mark {m : Mark} {s : List Char} (hm : m.IsPlain)
      (hstar : m = .sign .product → ∀ c ∈ s.head?, c ≠ '*') (h : Arithmetic s) :
      Arithmetic (m.char :: s)
  | power {s : List Char} (h : Arithmetic s) : Arithmetic ('*' :: '*' :: s)
  | digits {ds s : List Char} (hne : ds ≠ []) (hds : ∀ c ∈ ds, c.isDigit = true)
      (hend : ∀ c ∈ s.head?, endsNumeral c = true) (h : Arithmetic s) : Arithmetic (ds ++ s)
  | stray {c : Char} {s : List Char} (hc : isDecimal c = true) (hdigit : c.isDigit = false) :
      Arithmetic (c :: s)

theorem arithmetic_of_all {s : List Char} (hs : ∀ c ∈ s, isArithmeticChar c = true) :
    Arithmetic s := by
  induction hn : s.length using Nat.strongRecOn generalizing s with
  | ind n ih =>
    cases s with
    | nil => exact .nil
    | cons c s =>
      obtain ⟨hc, hrest⟩ := List.forall_mem_cons.mp hs
      have hmark : ∀ m : Mark, m.IsPlain → m.char = c →
          (m = .sign .product → ∀ k ∈ s.head?, k ≠ '*') → Arithmetic (c :: s) := by
        rintro m hm rfl hstar
        refine .mark hm hstar (ih s.length ?_ hrest rfl)
        rw [← hn]
        exact Nat.lt_succ_self _
      unfold isArithmeticChar at hc
      simp only [Bool.or_eq_true, List.contains_iff_mem] at hc
      rcases hc with (hdecimal | hblank) | hsign
      · cases hdigit : c.isDigit with
        | false => exact .stray hdecimal hdigit
        | true =>
          obtain ⟨ds, rest, rfl, hds, hend⟩ := exists_run Char.isDigit s
          refine .digits (List.cons_ne_nil c ds) (List.forall_mem_cons.mpr ⟨hdigit, hds⟩) ?_ ?_
          · intro k hk
            have hk' := hrest k (List.mem_append_right _ (List.mem_of_mem_head? hk))
            exact endsNumeral_eq_true_iff.mpr ⟨hend k hk, ne_of_apart hk' (by decide),
              ne_of_apart hk' (by decide), ne_of_apart hk' (by decide)⟩
          · refine ih rest.length ?_ (fun k hk => hrest k (List.mem_append_right _ hk)) rfl
            rw [← hn, List.length_cons, List.length_append]
            omega
      · exact hmark (.blank c) hblank rfl nofun
      · simp only [List.mem_cons, List.not_mem_nil, or_false] at hsign
        rcases hsign with rfl | rfl | rfl | rfl | rfl
        · exact hmark (.sign .sum) trivial rfl nofun
        · exact hmark (.sign .difference) trivial rfl nofun
        · by_cases hstar : s.head? = some '*'
          · obtain ⟨s', rfl⟩ := List.head?_eq_some_iff.mp hstar
            refine .power (ih s'.length ?_ (List.forall_mem_cons.mp hrest).2 rfl)
            rw [← hn, List.length_cons, List.length_cons]
            omega
          · refine hmark (.sign .product) trivial rfl fun _ k hk => ?_
            rintro rfl
            exact hstar hk
        · exact hmark .opening trivial rfl nofun
        · exact hmark .closing trivial rfl nofun

/-- The effect of a mark that leads to plain entries. -/
theorem Stands.mark {m : Mark} (h : Stands s r) (hm : m.IsPlain)
    (hadvances : Advances r m.lexeme r') : Stands (s ++ [m.char]) r' := by
  cases m with
  | sign op =>
    cases hadvances with
    | operator rank hname => exact h.sign op _
  | opening =>
    cases hadvances with
    | opening htakes hcall => exact h.opening htakes hcall
  | closing =>
    cases hadvances with
    | closing htakes => exact h.closing htakes
  | blank c =>
    cases hadvances with
    | blank => exact h.blank hm

/-- A reader that goes over a text of plain arithmetic is in the state that the text leaves. -/
theorem Arithmetic.stands {t : List Char} (ht : Arithmetic t) (hs : Stands s r) {column : Nat}
    (h : Accepts r (readFrom column t) r') : Stands (s ++ t) r' := by
  induction ht generalizing s r column with
  | nil =>
    cases h
    rwa [List.append_nil]
  | mark hm hstar ht ih =>
    rw [readFrom_mark hm hstar] at h
    cases h with
    | cons hfirst hrest =>
      rw [List.append_cons]
      exact ih (hs.mark hm hfirst) hrest
  | power ht ih =>
    rw [Alike.readFrom_power] at h
    cases h with
    | cons hfirst hrest =>
      cases hfirst with
      | operator rank hname => exact absurd hname (by decide)
  | digits hne hds hend ht ih =>
    obtain ⟨n, hread⟩ := readFrom_digits hne hds
    rw [hread _ _ hend] at h
    cases h with
    | cons hfirst hrest =>
      cases hfirst with
      | number =>
        rw [← List.append_assoc]
        have hdigits := @Stands.digits _ _ (r.emit (.number n) .operator) _ hs hne hds rfl rfl
        exact ih hdigits hrest
  | stray hc hdigit =>
    rw [Alike.readFrom_stray hc hdigit] at h
    cases h with
    | cons hfirst hrest => cases hfirst

/-! ### More brackets at both ends -/

/-- A text with brackets opened in front of it and closed behind it. -/
def enclosed (k : Nat) (s : List Char) : List Char :=
  List.replicate k '(' ++ s ++ List.replicate k ')'

/-- A waiting operator some brackets deeper. -/
def raised (k : Nat) (e : Item × Int) : Item × Int := (e.1, e.2 + 10 * (k : Int))

/-- A reader that is some brackets deeper than another one, and otherwise like it. At the start of
a text an operand may stand, and so it may behind an opening bracket. -/
structure Deeper (k : Nat) (r r' : Reading) : Prop where
  expect : r'.expect = r.expect ∨ r.expect = .operand ∧ r'.expect = .opened
  depth : r'.depth = r.depth + 10 * (k : Int)
  operands : r'.operands = r.operands
  output : r'.output = r.output
  waiting : r'.waiting = r.waiting.map (raised k)

variable {k : Nat} {d d' : Reading} {l : Lexeme}

theorem release_raised (k : Nat) (rank : Int) (output : List Item) (waiting : List (Item × Int)) :
    Reading.release (rank + 10 * (k : Int)) output (waiting.map (raised k)) =
      ((Reading.release rank output waiting).1,
        (Reading.release rank output waiting).2.map (raised k)) := by
  induction waiting generalizing output with
  | nil => rfl
  | cons e rest ih =>
    obtain ⟨item, own⟩ := e
    rw [List.map_cons, raised, Reading.release, Reading.release]
    by_cases hrank : rank ≤ own
    · rw [if_pos hrank, if_pos (by omega), ih]
    · rw [if_neg hrank, if_neg (by omega)]
      rfl

namespace Deeper

theorem takesOperand (h : Deeper k r d) : d.expect.takesOperand = r.expect.takesOperand := by
  rcases h.expect with heq | ⟨hr, hd⟩
  · rw [heq]
  · rw [hr, hd]
    rfl

/-- An operator waits at the same place. -/
theorem push (h : Deeper k r d) (item : Item) (rank : Int) :
    Deeper k (r.push item rank) (d.push item rank) := by
  have hrelease : Reading.release (rank + d.depth) d.output d.waiting =
      ((Reading.release (rank + r.depth) r.output r.waiting).1,
        (Reading.release (rank + r.depth) r.output r.waiting).2.map (raised k)) := by
    rw [h.depth, h.output, h.waiting, ← Int.add_assoc]
    exact release_raised k _ _ _
  unfold Reading.push
  simp only [hrelease]
  constructor
  · exact h.expect
  · exact h.depth
  · show d.operands + _ = r.operands + _
    rw [h.operands]
  · rfl
  · show (item, rank + d.depth) :: _ = _
    rw [h.depth, ← Int.add_assoc]
    rfl

theorem withExpect (h : Deeper k r d) (e : Expect) :
    Deeper k { r with expect := e } { d with expect := e } :=
  ⟨.inl rfl, h.depth, h.operands, h.output, h.waiting⟩

theorem withDepth (h : Deeper k r d) (n : Int) (e : Expect) :
    Deeper k { r with depth := r.depth + n, expect := e }
      { d with depth := d.depth + n, expect := e } := by
  refine ⟨.inl rfl, ?_, h.operands, h.output, h.waiting⟩
  show d.depth + n = r.depth + n + 10 * (k : Int)
  rw [h.depth]
  omega

theorem emit (h : Deeper k r d) (item : Item) (e : Expect) :
    Deeper k (r.emit item e) (d.emit item e) :=
  ⟨.inl rfl, h.depth, h.operands, congrArg (item :: ·) h.output, h.waiting⟩

theorem operator (h : Deeper k r d) (name : String) (rank : Int) :
    Deeper k (r.operator name rank) (d.operator name rank) := by
  unfold Reading.operator
  rw [h.takesOperand]
  dsimp only
  split
  · exact (h.push _ _).withExpect _
  split
  · exact h.withExpect _
  split
  · exact (h.push _ _).withExpect _
  · exact (h.push _ _).withExpect _

/-- What leads to plain entries has the same effect some brackets deeper. -/
theorem advances (h : Deeper k r d) (hadvances : Advances r l r') :
    ∃ d', Advances d l d' ∧ Deeper k r' d' := by
  cases hadvances with
  | blank => exact ⟨d, .blank, h⟩
  | comment => exact ⟨d, .comment, h⟩
  | number n => exact ⟨_, .number n, h.emit _ _⟩
  | constant x htakes => exact ⟨_, .constant x (h.takesOperand.trans htakes), h.emit _ _⟩
  | operator rank hname => exact ⟨_, .operator rank hname, h.operator _ _⟩
  | opening htakes hcall =>
    refine ⟨_, .opening ?_ ?_, h.withDepth 10 _⟩
    all_goals
      rcases h.expect with heq | ⟨-, heq⟩
    · rwa [heq]
    · rw [heq]
      rfl
    · rwa [heq]
    · rw [heq]
      exact Expect.noConfusion
  | closing htakes =>
    refine ⟨_, .closing ?_, h.withDepth (-10) _⟩
    rcases h.expect with heq | ⟨hr, -⟩
    · rwa [heq]
    · rw [hr] at htakes
      rcases htakes with htakes | htakes <;> cases htakes

theorem accepts {ls : List Lexeme} (h : Deeper k r d) (haccepts : Accepts r ls r') :
    ∃ d', Accepts d ls d' ∧ Deeper k r' d' := by
  induction haccepts generalizing d with
  | nil r => exact ⟨d, .nil d, h⟩
  | cons hadvances _ ih =>
    obtain ⟨d₁, hfirst, hd₁⟩ := h.advances hadvances
    obtain ⟨d', hrest, hd'⟩ := ih hd₁
    exact ⟨d', .cons hfirst hrest, hd'⟩

end Deeper

theorem readFrom_opening (t : List Char) (column : Nat) :
    readFrom column ('(' :: t) = .opening :: readFrom (column + 1) t :=
  @readFrom_mark .opening trivial t nofun column

theorem readFrom_closing (t : List Char) (column : Nat) :
    readFrom column (')' :: t) = .closing :: readFrom (column + 1) t :=
  @readFrom_mark .closing trivial t nofun column

/-- Opening brackets in front of a text, one after the other. -/
theorem readFrom_openings (k : Nat) (t : List Char) (column : Nat) :
    readFrom column (List.replicate k '(' ++ t) =
      List.replicate k .opening ++ readFrom (column + k) t := by
  induction k generalizing column with
  | zero => rfl
  | succ k ih =>
    rw [List.replicate_succ, List.cons_append, readFrom_opening, ih, List.replicate_succ,
      List.cons_append, Nat.add_assoc, Nat.add_comm 1]

theorem readFrom_closings (k column : Nat) :
    readFrom column (List.replicate k ')') = List.replicate k .closing := by
  induction k generalizing column with
  | zero => rfl
  | succ k ih => rw [List.replicate_succ, readFrom_closing, ih, List.replicate_succ]

/-- What a closing bracket and the front of a text have in common stays with closing brackets
behind the text. -/
theorem head?_append_closings {p : Char → Prop} {t : List Char} (hclosing : p ')')
    (ht : ∀ c ∈ t.head?, p c) (k : Nat) : ∀ c ∈ (t ++ List.replicate k ')').head?, p c := by
  cases t with
  | nil =>
    cases k with
    | zero => exact nofun
    | succ k =>
      rintro c ⟨⟩
      exact hclosing
  | cons c t => exact ht

/-- Closing brackets behind a text that is read to its end. -/
theorem Arithmetic.readFrom_append {t : List Char} (ht : Arithmetic t) {column : Nat}
    (h : Accepts r (readFrom column t) r') (k column' : Nat) :
    readFrom column' (t ++ List.replicate k ')') =
      readFrom column t ++ List.replicate k .closing := by
  induction ht generalizing r column column' with
  | nil => exact readFrom_closings k column'
  | mark hm hstar ht ih =>
    have hstar' := fun heq => head?_append_closings (by decide : ')' ≠ '*') (hstar heq) k
    rw [readFrom_mark hm hstar] at h ⊢
    rw [List.cons_append, readFrom_mark hm hstar']
    cases h with
    | cons _ hrest =>
      rw [ih hrest]
      rfl
  | power ht ih =>
    rw [Alike.readFrom_power] at h
    cases h with
    | cons hfirst _ =>
      cases hfirst with
      | operator rank hname => exact absurd hname (by decide)
  | digits hne hds hend ht ih =>
    obtain ⟨n, hread⟩ := readFrom_digits hne hds
    have hend' := head?_append_closings (by decide : endsNumeral ')' = true) hend k
    rw [hread _ _ hend] at h ⊢
    rw [List.append_assoc, hread _ _ hend']
    cases h with
    | cons _ hrest =>
      rw [ih hrest]
      rfl
  | stray hc hdigit =>
    rw [Alike.readFrom_stray hc hdigit] at h
    cases h with
    | cons hfirst _ => cases hfirst

/-- A reader that has gone over opening brackets. -/
theorem exists_deeper (k : Nat) :
    ∃ d, Accepts {} (List.replicate k .opening) d ∧ Deeper k {} d := by
  induction k with
  | zero => exact ⟨{}, .nil _, .inl rfl, rfl, rfl, rfl, rfl⟩
  | succ k ih =>
    obtain ⟨d, haccepts, hdeeper⟩ := ih
    have hopening : d.expect.takesOpening = true ∧ d.expect ≠ .callable := by
      rcases hdeeper.expect with heq | ⟨-, heq⟩ <;> rw [heq] <;> decide
    refine ⟨{ d with depth := d.depth + 10, expect := .opened }, ?_, .inr ⟨rfl, rfl⟩, ?_,
      hdeeper.operands, hdeeper.output, hdeeper.waiting⟩
    · rw [List.replicate_succ']
      exact haccepts.append (.cons (.opening hopening.1 hopening.2) (.nil _))
    · show d.depth + 10 = _
      rw [hdeeper.depth, Int.natCast_succ]
      omega

/-- Closing brackets behind an operand. -/
theorem accepts_closings (k : Nat) (hr : r.expect = .operator ∨ r.expect = .callable) :
    ∃ r', Accepts r (List.replicate k .closing) r' ∧ r'.depth = r.depth - 10 * (k : Int) ∧
      r'.operands = r.operands ∧ r'.output = r.output ∧ r'.waiting = r.waiting := by
  induction k generalizing r with
  | zero => exact ⟨r, .nil r, (Int.sub_zero _).symm, rfl, rfl, rfl⟩
  | succ k ih =>
    obtain ⟨r', haccepts, hdepth, hrest⟩ :=
      @ih { r with depth := r.depth - 10, expect := .callable } (.inr rfl)
    refine ⟨r', .cons (.closing hr) haccepts, ?_, hrest⟩
    rw [hdepth, Int.natCast_succ]
    show r.depth - 10 - 10 * (k : Int) = _
    omega

theorem EndsOperand.exists_not_isBlank {s : List Char} (h : EndsOperand s) :
    ∃ c ∈ s, isBlank c = false := by
  obtain ⟨c, hc, -⟩ := h
  have hmem := List.mem_filter.mp (List.mem_of_getLast? hc)
  exact ⟨c, hmem.1, by simpa using hmem.2⟩

/-- Brackets around a text that ends with an operand leave its value as it is. -/
theorem evaluate_enclosed {s : List Char} {n : Number} (hs : Arithmetic s) (hends : EndsOperand s)
    (h : evaluate .arithmetic (String.ofList s) = .ok n) (k : Nat) :
    evaluate .arithmetic (String.ofList (enclosed k s)) = .ok n := by
  obtain ⟨r, items, is, v, haccepts, hfinish, hprogram, hresult, hvalue⟩ :=
    @accepts_of_evaluate .arithmetic (String.ofList s) rfl (by rw [h]; exact nofun)
  rw [String.toList_ofList] at haccepts hfinish
  have hstands : Stands s r := hs.stands stands_nil haccepts
  have hexpect : r.expect = .operator ∨ r.expect = .callable := by
    rw [hstands.expect]
    exact expectAfter_iff.mpr hends
  -- the same reader, some brackets deeper, and then out of these brackets again
  obtain ⟨d, hopenings, hstart⟩ := exists_deeper k
  obtain ⟨d', hread, hdeeper⟩ := hstart.accepts haccepts
  have hexpect' : d'.expect = .operator ∨ d'.expect = .callable := by
    rcases hdeeper.expect with heq | ⟨hr, -⟩
    · rwa [heq]
    · rw [hr] at hexpect
      rcases hexpect with heq | heq <;> cases heq
  obtain ⟨e, hclosings, hdepth, hoperands, houtput, hwaiting⟩ := accepts_closings k hexpect'
  have hlexemes : readFrom 0 (String.ofList (enclosed k s)).toList =
      List.replicate k .opening ++ (readFrom 0 s ++ List.replicate k .closing) := by
    rw [String.toList_ofList, enclosed, List.append_assoc, readFrom_openings,
      hs.readFrom_append haccepts]
  have henclosed : Accepts {} (readFrom 0 (String.ofList (enclosed k s)).toList) e := by
    rw [hlexemes]
    exact hopenings.append (hread.append hclosings)
  have hitems : e.finish (String.ofList (enclosed k s)).toList.length = .ok items := by
    obtain ⟨hrange, hcount, hitems⟩ := finish_ok_iff.mp hfinish
    refine finish_ok_iff.mpr ⟨?_, ?_, ?_⟩
    · rw [hdepth, hdeeper.depth]
      omega
    · rw [hoperands, hdeeper.operands, hcount]
    · rw [houtput, hdeeper.output, hwaiting, hdeeper.waiting, List.map_map, hitems]
      rfl
  have hblank : isBlankString (String.ofList (enclosed k s)) = false := by
    obtain ⟨c, hc, hsolid⟩ := hends.exists_not_isBlank
    have hmem : c ∈ enclosed k s := List.mem_append_left _ (List.mem_append_right _ hc)
    unfold isBlankString isBlankText
    rw [String.toList_ofList, List.all_eq_false]
    exact ⟨c, hmem, by simp [hsolid]⟩
  rw [evaluate_of_accepts hblank henclosed hitems (program?_congr hprogram _) hresult]
  exact finiteNumber_congr (hvalue.trans h) _

/-! ### The brackets of a text that has a value -/

/-- Whether the brackets of a text are nested: up to every place as many are opened as closed at
least, and in the end equally many. -/
structure Balanced (s : List Char) : Prop where
  whole : s.count '(' = s.count ')'
  front : ∀ u, u <+: s → u.count ')' ≤ u.count '('

/-- With as many brackets at its ends as it closes itself, a text is nested. -/
theorem balanced_enclosed {s : List Char} (h : s.count '(' = s.count ')') :
    Balanced (enclosed (s.count ')') s) := by
  have hnone : ∀ {n : Nat} {c k : Char}, c ≠ k → (List.replicate n c).count k = 0 := by
    intro n c k hne
    rw [List.count_replicate, if_neg (by simpa using hne)]
  constructor
  · unfold enclosed
    simp only [List.count_append, List.count_replicate_self, h]
    rw [hnone (by decide), hnone (by decide)]
    omega
  · rintro u ⟨v, hv⟩
    unfold enclosed at hv
    rcases List.append_eq_append_iff.mp hv with ⟨w, hw, -⟩ | ⟨w, rfl, hw⟩
    · rcases List.append_eq_append_iff.mp hw with ⟨x, rfl, hx⟩ | ⟨x, hx, -⟩
      · -- up to a place in the text itself
        have hle : x.count ')' ≤ s.count ')' := by
          rw [hx, List.count_append]
          omega
        simp only [List.count_append, List.count_replicate_self]
        rw [hnone (by decide)]
        omega
      · -- up to one of the brackets in front
        have hzero : u.count ')' = 0 := by
          have hfront : (u ++ x).count ')' = 0 := by
            rw [← hx]
            exact hnone (by decide)
          rw [List.count_append] at hfront
          omega
        omega
    · -- up to one of the brackets behind
      have hle : w.count ')' ≤ s.count ')' := by
        have hback := congrArg (List.count ')') hw
        rw [List.count_replicate_self, List.count_append] at hback
        omega
      simp only [List.count_append, List.count_replicate_self]
      rw [hnone (by decide)]
      omega

/-- **Brackets come in pairs.** A text of plain arithmetic that has a value opens as many brackets
as it closes; each closing one stands behind an operand, and no opening one does. Which of them
comes first is not looked at: if the text ends with an operand, it has the value of a text whose
brackets are nested, from which some were left out in front and as many behind. -/
theorem brackets_of_evaluate {s : String} {n : Number}
    (hs : ∀ c ∈ s.toList, isArithmeticChar c = true) (h : evaluate .arithmetic s = .ok n) :
    s.toList.count '(' = s.toList.count ')' ∧ InPlace s.toList ∧
      (EndsOperand s.toList → ∃ k, Balanced (enclosed k s.toList) ∧
        evaluate .arithmetic (String.ofList (enclosed k s.toList)) = .ok n) := by
  have harithmetic := arithmetic_of_all hs
  obtain ⟨r, items, is, v, haccepts, hfinish, -⟩ :=
    @accepts_of_evaluate .arithmetic s rfl (by rw [h]; exact nofun)
  have hstands : Stands s.toList r := harithmetic.stands stands_nil haccepts
  have hcount : s.toList.count '(' = s.toList.count ')' := by
    have hdepth := hstands.depth
    obtain ⟨hlow, hhigh⟩ := (finish_ok_iff.mp hfinish).1
    omega
  refine ⟨hcount, hstands.inPlace, fun hends => ⟨_, balanced_enclosed hcount, ?_⟩⟩
  refine evaluate_enclosed harithmetic hends ?_ _
  rwa [String.ofList_toList]

/-- The brackets of a longer expression. -/
theorem brackets_of_evaluate_sample : (∀ c ∈ "(1 + 2) * (3)".toList, isArithmeticChar c = true) ∧
    evaluate .arithmetic "(1 + 2) * (3)" = .ok (.int 9) ∧ InPlace "(1 + 2) * (3)".toList := by
  have hchars : ∀ c ∈ "(1 + 2) * (3)".toList, isArithmeticChar c = true :=
    List.all_eq_true.mp (by decide)
  have hvalue : evaluate .arithmetic "(1 + 2) * (3)" = .ok (.int 9) := rfl
  exact ⟨hchars, hvalue, (brackets_of_evaluate hchars hvalue).2.1⟩

/-- A bracket may be closed before it is opened: this text has the value of `(1)+(2)`. -/
theorem not_balanced_of_evaluate : (∀ c ∈ "1)+(2".toList, isArithmeticChar c = true) ∧
    evaluate .arithmetic "1)+(2" = .ok (.int 3) ∧ ¬ Balanced "1)+(2".toList := by
  refine ⟨List.all_eq_true.mp (by decide), rfl, fun h => ?_⟩
  have hfront := h.front ['1', ')'] ⟨['+', '(', '2'], rfl⟩
  revert hfront
  decide

end Kindred.Formula
