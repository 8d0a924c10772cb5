import Kindred.Proofs.Formula.Containment
import Kindred.Proofs.Formula.Reading
import Kindred.Proofs.Roll

/-!
# Expressions without functions

A reader loses no entry: what has once come out of a lexeme is part of the postfix form in the end.
A dialect without functions refuses every entry but numbers, signs and the four operations. So an
expression that it does not refuse is made of lexemes that lead to such entries, and each of them
stood where a reader goes on.

- `Reading.items`: the entries that have been met, with what each effect adds to them.
- `Item.IsPlain`: the entries that a dialect without functions allows.
- `Advances`, `Accepts`: what a reader does over a lexeme, and over a row, that leads to such
  entries only.
- `accepts_of_evaluate`: the lexemes of an expression that is not refused.
-/

namespace Kindred.Formula

open Kindred.Text

/-! ### No entry is lost -/

namespace Reading

/-- The entries that have been met: those that came out, and those of the waiting operators. -/
def items (r : Reading) : List Item := r.output ++ r.waiting.map (·.1)

/-- Release changes places only. -/
theorem release_perm (rank : Int) (output : List Item) (waiting : List (Item × Int)) :
    ((release rank output waiting).1 ++ (release rank output waiting).2.map (·.1)).Perm
      (output ++ waiting.map (·.1)) := by
  induction waiting generalizing output with
  | nil => exact .refl _
  | cons e rest ih =>
    obtain ⟨item, r⟩ := e
    rw [release]
    split
    · exact (ih (item :: output)).trans List.perm_middle.symm
    · exact .refl _

/-- An operator that waits is one more entry. -/
theorem items_push (r : Reading) (item : Item) (rank : Int) :
    (r.push item rank).items.Perm (item :: r.items) := by
  have hrelease := release_perm (rank + r.depth) r.output r.waiting
  exact List.perm_middle.trans (hrelease.cons item)

end Reading

/-! ### Plain entries -/

/-- The spellings of the four operations. -/
def plainNames : List String := ["+", "-", "*", "/"]

/-- The entries that a dialect without functions allows. -/
inductive Item.IsPlain : Item → Prop
  | number (n : Number) : IsPlain (.number n)
  | sign : IsPlain (.unary "-")
  | operation {name : String} (h : name ∈ plainNames) : IsPlain (.binary name)

variable {d : Dialect} {expr : String} {r r' r₁ r₂ : Reading} {l : Lexeme}

theorem Item.IsPlain.eq_of_unary {name : String} (h : (unary name).IsPlain) : name = "-" := by
  cases h
  rfl

/-- A dialect without functions allows no other entry. -/
theorem isPlain_of_accept (hd : d.functions = false) {item : Item} {i : Instruction}
    (h : accept d expr item = .ok i) : item.IsPlain := by
  cases item with
  | number n => exact .number n
  | literal => cases h
  | unary name =>
    simp only [accept, hd] at h
    cases hfind : (unaryOps false).find? (·.name == name) with
    | none => rw [hfind] at h; cases h
    | some op =>
      obtain rfl := List.mem_singleton.mp (List.mem_of_find?_eq_some hfind)
      obtain rfl : UnaryOp.neg.name = name := by simpa using List.find?_some hfind
      exact .sign
  | binary name =>
    simp only [accept, hd] at h
    cases hfind : (binaryOps false).find? (·.name == name) with
    | none => rw [hfind] at h; cases h
    | some op =>
      obtain rfl : op.name = name := by simpa using List.find?_some hfind
      have hall : ∀ op ∈ binaryOps false, op.name ∈ plainNames := by decide
      exact .operation (hall op (List.mem_of_find?_eq_some hfind))
  | name name =>
    simp only [accept, hd] at h
    cases h
  | call =>
    simp only [accept, hd] at h
    cases h

/-- The program of a postfix form with one more entry in front. -/
theorem program?_cons_ok_iff {item : Item} {items : List Item} {js : List Instruction} :
    program? d expr (item :: items) = .ok js ↔
      ∃ i is, accept d expr item = .ok i ∧ program? d expr items = .ok is ∧ js = i :: is := by
  unfold program?
  rw [List.mapM_cons, except_bind_ok_iff]
  constructor
  · rintro ⟨i, hi, h⟩
    obtain ⟨is, his, ⟨⟩⟩ := except_bind_ok_iff.mp h
    exact ⟨i, is, hi, his, rfl⟩
  · rintro ⟨i, is, hi, his, rfl⟩
    exact ⟨i, hi, except_bind_ok_iff.mpr ⟨is, his, rfl⟩⟩

/-- So the entries of a program are plain. -/
theorem isPlain_of_program? (hd : d.functions = false) {items : List Item}
    {is : List Instruction} (h : program? d expr items = .ok is) : ∀ i ∈ items, i.IsPlain := by
  induction items generalizing is with
  | nil => exact nofun
  | cons item items ih =>
    obtain ⟨i, rest, hitem, hrest, -⟩ := program?_cons_ok_iff.mp h
    exact List.forall_mem_cons.mpr ⟨isPlain_of_accept hd hitem, ih hrest⟩

/-! ### Names of operators -/

/-- The lexeme at the front of a text is found by one of the readers, or it is a blank, or the text
cannot be read. -/
theorem lexemeAt_cases (column : Nat) (s : List Char) :
    operatorAt? s = some (lexemeAt column s) ∨ numberAt? s = some (lexemeAt column s) ∨
    quotedAt? column s = some (lexemeAt column s) ∨ markAt? s = some (lexemeAt column s) ∨
    constantAt? s = some (lexemeAt column s) ∨ nameAt? s = some (lexemeAt column s) ∨
    (s.head?.any isBlank = true ∧ lexemeAt column s = (.blank, 1)) ∨
    ∃ why, lexemeAt column s = (.broken why, 1) := by
  unfold lexemeAt
  cases operatorAt? s with
  | some p => exact .inl rfl
  | none =>
  cases numberAt? s with
  | some p => exact .inr (.inl rfl)
  | none =>
  cases quotedAt? column s with
  | some p => exact .inr (.inr (.inl rfl))
  | none =>
  cases markAt? s with
  | some p => exact .inr (.inr (.inr (.inl rfl)))
  | none =>
  cases constantAt? s with
  | some p => exact .inr (.inr (.inr (.inr (.inl rfl))))
  | none =>
  cases nameAt? s with
  | some p => exact .inr (.inr (.inr (.inr (.inr (.inl rfl)))))
  | none =>
    refine .inr (.inr (.inr (.inr (.inr (.inr ?_)))))
    cases hblank : s.head?.any isBlank with
    | true => exact .inl ⟨rfl, rfl⟩
    | false => exact .inr ⟨_, rfl⟩

theorem plainNumber_cases (run : List Char) :
    (∃ n, plainNumber run = .number n) ∨ ∃ why, plainNumber run = .broken why := by
  unfold plainNumber
  generalize (if (run.head? == some '.') = true then '0' :: run else run) = full
  dsimp only
  split
  · split <;> exact .inl ⟨_, rfl⟩
  · split
    · exact .inl ⟨_, rfl⟩
    · exact .inr ⟨_, rfl⟩

/-- A numeral is a number, or it cannot be read. -/
theorem numberAt?_cases {s : List Char} {l : Lexeme} {n : Nat} (h : numberAt? s = some (l, n)) :
    (∃ x, l = .number x) ∨ ∃ why, l = .broken why := by
  unfold numberAt? at h
  split at h
  · cases h
  split at h
  · cases h
    split
    · exact .inl ⟨_, rfl⟩
    · exact .inr ⟨_, rfl⟩
  · dsimp only at h
    split at h
    · cases h
    · cases h
      exact plainNumber_cases _

/-- A quoted text is a text, or it cannot be read. -/
theorem quotedAt?_cases {s : List Char} {column : Nat} {l : Lexeme} {n : Nat}
    (h : quotedAt? column s = some (l, n)) : l = .text ∨ ∃ why, l = .broken why := by
  unfold quotedAt? at h
  split at h
  · cases h
  split at h
  · split at h
    · cases h
      exact .inr ⟨_, rfl⟩
    · cases h
      split
      · exact .inl rfl
      · split
        · exact .inl rfl
        split <;> exact .inr ⟨_, rfl⟩
  · cases h

/-- Whether a lexeme that names an operator names one that there is. -/
def Lexeme.IsKnown : Lexeme → Prop
  | unaryName s => s ∈ unaryNames
  | binaryName s => s ∈ binaryNames
  | _ => True

/-- The lexemes of a text name operators that there are. -/
theorem isKnown_lexemeAt (column : Nat) (s : List Char) : (lexemeAt column s).1.IsKnown := by
  have hcases := lexemeAt_cases column s
  generalize lexemeAt column s = p at hcases ⊢
  obtain ⟨l, n⟩ := p
  rcases hcases with h | h | h | h | h | h | ⟨-, h⟩ | ⟨why, h⟩
  · obtain ⟨e, -, he⟩ := Option.map_eq_some_iff.mp h
    dsimp only at he
    split at he
    · split at he
      · cases he; exact trivial
      · split at he <;> cases he <;> exact trivial
      · cases he; exact trivial
    · cases he; exact trivial
  · rcases numberAt?_cases h with ⟨x, rfl⟩ | ⟨why, rfl⟩ <;> exact trivial
  · rcases quotedAt?_cases h with rfl | ⟨why, rfl⟩ <;> exact trivial
  · unfold markAt? at h
    split at h <;> cases h <;> exact trivial
  · obtain ⟨e, -, he⟩ := Option.map_eq_some_iff.mp h
    cases he
    exact trivial
  · unfold nameAt? at h
    dsimp only at h
    split at h
    · next hmem => cases h; exact List.contains_iff_mem.mp hmem
    split at h
    · next hmem => cases h; exact List.contains_iff_mem.mp hmem
    split at h <;> cases h
    exact trivial
  · cases h; exact trivial
  · cases h; exact trivial

theorem isKnown_of_mem_lexemesFrom {column skip : Nat} {s : List Char} :
    ∀ p ∈ lexemesFrom column skip s, p.lexeme.IsKnown := by
  induction s generalizing column skip with
  | nil =>
    intro p hp
    cases hp
  | cons c s ih =>
    cases skip with
    | succ skip => exact ih
    | zero =>
      have hfirst := isKnown_lexemeAt column (c :: s)
      rw [lexemesFrom]
      generalize lexemeAt column (c :: s) = first at hfirst
      obtain ⟨l, n⟩ := first
      dsimp only
      split
      · exact List.forall_mem_singleton.mpr hfirst
      · exact List.forall_mem_cons.mpr ⟨hfirst, ih⟩

/-! ### Lexemes that lead to plain entries -/

/-- What a reader does over a lexeme that leads to plain entries only. An opening bracket behind a
closing one would be a call, and a closing one behind an opening one an empty list. -/
inductive Advances (r : Reading) : Lexeme → Reading → Prop
  | blank : Advances r .blank r
  | comment : Advances r .comment r
  | number (n : Number) : Advances r (.number n) (r.emit (.number n) .operator)
  | constant (x : Float) (h : r.expect.takesOperand = true) :
      Advances r (.constant x) (r.emit (.number (.float x)) .operator)
  | operator {name : String} (rank : Int) (h : name ∈ plainNames) :
      Advances r (.operator name rank) (r.operator name rank)
  | opening (h : r.expect.takesOpening = true) (hcall : r.expect ≠ .callable) :
      Advances r .opening { r with depth := r.depth + 10, expect := .opened }
  | closing (h : r.expect = .operator ∨ r.expect = .callable) :
      Advances r .closing { r with depth := r.depth - 10, expect := .callable }

/-- What a reader does over a row of lexemes that lead to plain entries only. -/
inductive Accepts : Reading → List Lexeme → Reading → Prop
  | nil (r : Reading) : Accepts r [] r
  | cons {r r₁ r₂ : Reading} {l : Lexeme} {ls : List Lexeme} (h : Advances r l r₁)
      (hls : Accepts r₁ ls r₂) : Accepts r (l :: ls) r₂

/-- An operator that waits is known by its entry. -/
theorem isPlain_of_push {item : Item} {rank : Int}
    (h : ∀ i ∈ (r.push item rank).items, i.IsPlain) : item.IsPlain :=
  h item ((r.items_push item rank).mem_iff.mpr List.mem_cons_self)

/-- The name of an operator whose entry is plain. A plus sign leaves no entry. -/
theorem mem_plainNames_of_operator {name : String} {rank : Int}
    (h : ∀ i ∈ (r.operator name rank).items, i.IsPlain) : name ∈ plainNames := by
  unfold Reading.operator at h
  dsimp only at h
  split at h
  · next hsign =>
    obtain rfl : name = "-" := by simpa using (Bool.and_eq_true_iff.mp hsign).2
    decide
  split at h
  · next hsign =>
    obtain rfl : name = "+" := by simpa using (Bool.and_eq_true_iff.mp hsign).2
    decide
  split at h
  · next hsign =>
    obtain rfl : name = "-" := (isPlain_of_push h).eq_of_unary
    exact absurd (Bool.and_eq_true_iff.mp hsign).2 (by decide)
  · have hentry : (Item.binary name).IsPlain := isPlain_of_push h
    cases hentry with
    | operation h => exact h

/-- A lexeme of which only plain entries are known in the end leads to plain entries. -/
theorem advances_of_step {p : Placed} (hknown : p.lexeme.IsKnown) (h : r.step p = .ok r')
    (hplain : ∀ i ∈ r'.items, i.IsPlain) : Advances r p.lexeme r' := by
  obtain ⟨l, stop⟩ := p
  unfold Reading.step at h
  cases l with
  | blank => cases h; exact .blank
  | comment => cases h; exact .comment
  | number n => cases h; exact .number n
  | operator name rank =>
    cases h
    exact .operator rank (mem_plainNames_of_operator hplain)
  | broken why => cases h
  | text =>
    dsimp only at h
    split at h
    · cases h
      cases hplain .literal List.mem_cons_self
    · cases h
  | constant x =>
    dsimp only at h
    split at h
    · next htakes =>
      cases h
      exact .constant x htakes
    · cases h
  | name name =>
    dsimp only at h
    split at h
    · cases h
      cases hplain (.name name) List.mem_cons_self
    · cases h
  | unaryName name =>
    dsimp only at h
    split at h
    · cases h
      obtain rfl : name = "-" := (isPlain_of_push hplain).eq_of_unary
      exact absurd hknown (show "-" ∉ unaryNames by decide)
    · cases h
  | binaryName name =>
    dsimp only at h
    split at h
    · cases h
      have hentry : (Item.binary name).IsPlain := isPlain_of_push hplain
      have hapart : ∀ name ∈ plainNames, name ∉ binaryNames := by decide
      cases hentry with
      | operation hname => exact absurd hknown (hapart name hname)
    · cases h
  | opening =>
    dsimp only at h
    split at h
    · next htakes =>
      cases h
      by_cases hcall : r.expect = .callable
      · simp only [hcall] at hplain
        have hentry : Item.call.IsPlain := isPlain_of_push hplain
        cases hentry
      · have hno : (r.expect == .callable) = false := by simpa using hcall
        simp only [hno]
        exact .opening htakes hcall
    · cases h
  | closing =>
    dsimp only at h
    split at h
    · cases h
      cases hplain .literal List.mem_cons_self
    split at h
    · next hopened htakes =>
      cases h
      refine .closing ?_
      cases he : r.expect <;> simp_all [Expect.takesClosing]
    · cases h
  | comma =>
    dsimp only at h
    split at h
    · cases h
      have hentry : (Item.binary ",").IsPlain := isPlain_of_push hplain
      cases hentry with
      | operation hname => exact absurd hname (by decide)
    · cases h

/-- What leads to plain entries is a step. -/
theorem Advances.step {l : Lexeme} (h : Advances r l r') (stop : Nat) :
    r.step ⟨l, stop⟩ = .ok r' := by
  cases h with
  | blank => rfl
  | comment => rfl
  | number n => rfl
  | constant x h => exact if_pos h
  | operator rank h => rfl
  | opening h hcall =>
    have hno : (r.expect == .callable) = false := by simpa using hcall
    show (if r.expect.takesOpening = true then _ else _) = _
    rw [if_pos h]
    simp only [hno]
    rfl
  | closing h =>
    rcases h with heq | heq
    all_goals
      simp only [Reading.step, heq]
      rfl

theorem Accepts.follows {ls : List Lexeme} (h : Accepts r ls r') : Follows r ls r' := by
  induction h with
  | nil r =>
    intro ps hps
    rw [List.map_eq_nil_iff.mp hps]
    rfl
  | cons h _ ih => exact .cons h.step ih

theorem Accepts.append {r r₁ r₂ : Reading} {ls ms : List Lexeme} (h : Accepts r ls r₁)
    (hms : Accepts r₁ ms r₂) : Accepts r (ls ++ ms) r₂ := by
  induction h with
  | nil r => exact hms
  | cons h _ ih => exact .cons h (ih hms)

theorem Accepts.ne_broken {ls : List Lexeme} (h : Accepts r ls r') :
    ∀ l ∈ ls, ∀ why, l ≠ .broken why := by
  induction h with
  | nil r => exact nofun
  | cons h _ ih =>
    refine List.forall_mem_cons.mpr ⟨?_, ih⟩
    rintro why rfl
    cases h

/-- An entry that has been met stays. -/
theorem Advances.mem_items (h : Advances r l r') {i : Item} (hi : i ∈ r.items) : i ∈ r'.items := by
  have hpush : ∀ {item : Item} {rank : Int}, i ∈ (r.push item rank).items :=
    (r.items_push _ _).mem_iff.mpr (List.mem_cons_of_mem _ hi)
  cases h with
  | blank => exact hi
  | comment => exact hi
  | number n => exact List.mem_cons_of_mem _ hi
  | constant x h => exact List.mem_cons_of_mem _ hi
  | operator rank h =>
    unfold Reading.operator
    dsimp only
    split
    · exact hpush
    split
    · exact hi
    split <;> exact hpush
  | opening h hcall => exact hi
  | closing h => exact hi

theorem Accepts.mem_items {ls : List Lexeme} (h : Accepts r ls r') {i : Item} (hi : i ∈ r.items) :
    i ∈ r'.items := by
  induction h with
  | nil r => exact hi
  | cons h _ ih => exact ih (h.mem_items hi)

/-- A row of which only plain entries are known in the end leads to plain entries. -/
theorem accepts_of_steps {ps : List Placed} (hknown : ∀ p ∈ ps, p.lexeme.IsKnown)
    (h : r.steps ps = .ok r') (hplain : ∀ i ∈ r'.items, i.IsPlain) :
    Accepts r (ps.map (·.lexeme)) r' := by
  induction ps generalizing r with
  | nil =>
    cases h
    exact .nil _
  | cons p ps ih =>
    obtain ⟨hp, hps⟩ := List.forall_mem_cons.mp hknown
    rw [Reading.steps] at h
    cases hstep : r.step p with
    | error why => rw [hstep] at h; cases h
    | ok r₁ =>
      rw [hstep] at h
      have hrest := ih hps h
      exact .cons (advances_of_step hp hstep fun i hi => hplain i (hrest.mem_items hi)) hrest

/-- The entries of a text that has ended: no bracket is open, and there are operands enough. -/
theorem finish_ok_iff {stop : Nat} {items : List Item} : r.finish stop = .ok items ↔
    (0 ≤ r.depth ∧ r.depth < 10) ∧ r.operands + 1 = items.length ∧
      items = r.output.reverse ++ r.waiting.map (·.1) := by
  unfold Reading.finish
  constructor
  · intro h
    split at h
    · cases h
    next hdepth =>
    dsimp only at h
    split at h
    · next hcount =>
      cases h
      refine ⟨?_, by simpa using hcount, rfl⟩
      simp at hdepth
      omega
    · cases h
  · rintro ⟨⟨hlow, hhigh⟩, hcount, rfl⟩
    have hdepth : ¬((decide (r.depth < 0) || decide (10 ≤ r.depth)) = true) := by
      simp
      omega
    rw [if_neg hdepth]
    exact if_pos (by simpa using hcount)

/-- An expression that a dialect without functions does not refuse is made of lexemes that lead to
plain entries, and has the value of the program that these make. -/
theorem accepts_of_evaluate (hd : d.functions = false)
    (h : ∀ why, evaluate d expr ≠ .error (.formula why)) :
    ∃ r items is v, Accepts {} (readFrom 0 expr.toList) r ∧
      r.finish expr.toList.length = .ok items ∧ program? d expr items = .ok is ∧
      result is = .ok v ∧ finiteNumber expr v = evaluate d expr := by
  obtain ⟨items, is, v, hitems, hprogram, hresult, hvalue⟩ :=
    evaluate_inv (rfl : evaluate d expr = _) h
  have hplain := isPlain_of_program? hd hprogram
  unfold postfix? at hitems
  cases hsteps : Reading.steps {} (lexemes expr.toList) with
  | error why => rw [hsteps] at hitems; cases hitems
  | ok r =>
    rw [hsteps] at hitems
    change r.finish _ = _ at hitems
    have hall : ∀ i ∈ r.items, i.IsPlain := by
      intro i hi
      refine hplain i ?_
      rw [(finish_ok_iff.mp hitems).2.2]
      exact List.mem_append.mpr ((List.mem_append.mp hi).imp_left List.mem_reverse.mpr)
    exact ⟨r, items, is, v, accepts_of_steps isKnown_of_mem_lexemesFrom hsteps hall, hitems,
      hprogram, hresult, hvalue⟩

theorem postfix?_of_accepts {s : List Char} {items : List Item} (h : Accepts {} (readFrom 0 s) r)
    (hfinish : r.finish s.length = .ok items) : postfix? s = .ok items := by
  unfold postfix?
  rw [h.follows (lexemes s) rfl]
  exact hfinish

/-- An expression whose lexemes lead to the entries of a program has the value of the program. -/
theorem evaluate_of_accepts {items : List Item} {is : List Instruction} {v : Value}
    (hblank : isBlankString expr = false) (h : Accepts {} (readFrom 0 expr.toList) r)
    (hfinish : r.finish expr.toList.length = .ok items) (hprogram : program? d expr items = .ok is)
    (hresult : result is = .ok v) : evaluate d expr = finiteNumber expr v := by
  unfold evaluate
  rw [hblank, if_neg Bool.false_ne_true, postfix?_of_accepts h hfinish]
  simp only [evaluateItems, hprogram, hresult]

/-- The program of a postfix form does not depend on the text that errors would tell. -/
theorem program?_congr {items : List Item} {is : List Instruction}
    (h : program? d expr items = .ok is) (expr' : String) : program? d expr' items = .ok is := by
  have haccept : ∀ {item : Item} {i : Instruction}, accept d expr item = .ok i →
      accept d expr' item = .ok i := by
    intro item i h
    unfold accept at h ⊢
    cases item with
    | number n => exact h
    | literal => cases h
    | unary name =>
      dsimp only at h ⊢
      split at h
      · exact h
      · cases h
    | binary name =>
      dsimp only at h ⊢
      split at h
      · exact h
      · cases h
    | name name =>
      dsimp only at h ⊢
      split at h
      · exact h
      · cases h
    | call =>
      dsimp only at h ⊢
      split at h
      · next hd => rw [if_pos hd]; exact h
      · cases h
  induction items generalizing is with
  | nil => exact h
  | cons item items ih =>
    obtain ⟨i, rest, hitem, hrest, rfl⟩ := program?_cons_ok_iff.mp h
    exact program?_cons_ok_iff.mpr ⟨i, rest, haccept hitem, ih hrest, rfl⟩

theorem finiteNumber_congr {v : Value} {n : Number} (h : finiteNumber expr v = .ok n)
    (expr' : String) : finiteNumber expr' v = .ok n := by
  unfold finiteNumber at h ⊢
  split at h
  · exact h
  · split at h
    · next hfinite => rw [if_pos hfinite]; exact h
    · cases h
  · cases h

end Kindred.Formula
