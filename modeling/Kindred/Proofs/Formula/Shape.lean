import Mathlib.Data.List.Forall2
import Kindred.Formula.Program

/-!
# Expressions of one shape

Two expressions have one shape if they differ in the integers of their numerals only. As long as
nothing is divided and no function is called, what a reader makes of them has one shape, too, and
their programs need the same numbers of operands. So either both of them come to an integer, or both
fail.

- `Agree`: two outcomes of which both or none are errors.
- `Lexeme.SameShape`, `Reading.SameShape`, `Instruction.SameShape`: shapes, stage by stage.
- `Reading.SameShape.step`, `Reading.SameShape.steps`: one lexeme, and all of them.
- `program?_agree`, `run_agree`: programs, and what they leave on the stack.
- `evaluateItems_fails_iff`: expressions of one shape fail together.
-/

namespace Kindred.Formula

variable {α β γ δ ε : Type}

/-! ### Outcomes -/

/-- Whether two outcomes are both errors, or both values, in some relation to one another. -/
inductive Agree (R : α → β → Prop) : Except ε α → Except ε β → Prop where
  | ok {a : α} {b : β} (h : R a b) : Agree R (.ok a) (.ok b)
  | error (e e' : ε) : Agree R (.error e) (.error e')

theorem Agree.error_or_ok {R : α → β → Prop} {x : Except ε α} {y : Except ε β} (h : Agree R x y) :
    (∃ e e', x = .error e ∧ y = .error e') ∨ ∃ a b, x = .ok a ∧ y = .ok b ∧ R a b := by
  cases h with
  | ok h => exact Or.inr ⟨_, _, rfl, rfl, h⟩
  | error e e' => exact Or.inl ⟨e, e', rfl, rfl⟩

/-- Steps whose outcomes agree go on to outcomes that agree. -/
theorem Agree.bind {R : α → β → Prop} {S : γ → δ → Prop} {x : Except ε α} {y : Except ε β}
    {f : α → Except ε γ} {g : β → Except ε δ} (hxy : Agree R x y)
    (hfg : ∀ a b, R a b → Agree S (f a) (g b)) : Agree S (x >>= f) (y >>= g) := by
  cases hxy with
  | ok h => exact hfg _ _ h
  | error e e' => exact .error e e'

/-- The same choice between a value and an error has outcomes that agree. -/
theorem Agree.ite {R : α → β → Prop} {c : Bool} {a : α} {b : β} {e e' : ε} (h : R a b) :
    Agree R (if c then .ok a else .error e) (if c then .ok b else .error e') := by
  cases c with
  | false => exact .error e e'
  | true => exact .ok h

/-! ### Shapes -/

/-- Whether a lexeme brings neither doubles nor quotients into an expression. -/
def Lexeme.IsWhole : Lexeme → Prop
  | .number (.float _) | .constant _ => False
  | .operator spelling _ | .binaryName spelling => spelling ≠ "/"
  | _ => True

/-- Whether two lexemes are the same but for the integer of a numeral, or both of them errors. -/
inductive Lexeme.SameShape : Lexeme → Lexeme → Prop where
  | number (m n : Int) : SameShape (.number (.int m)) (.number (.int n))
  | broken (why why' : ReadError) : SameShape (.broken why) (.broken why')
  | same {l : Lexeme} (h : l.IsWhole) : SameShape l l

/-- Whether two rows of lexemes have one shape, wherever the lexemes stand. -/
def SameShapes (ps qs : List Placed) : Prop :=
  List.Forall₂ (fun p q => p.lexeme.SameShape q.lexeme) ps qs

/-- Whether two entries of a postfix form are the same but for the integer of a numeral, and no
quotients. -/
inductive Item.SameShape : Item → Item → Prop where
  | number (m n : Int) : SameShape (.number (.int m)) (.number (.int n))
  | literal : SameShape .literal .literal
  | unary (spelling : String) : SameShape (.unary spelling) (.unary spelling)
  | binary {spelling : String} (h : spelling ≠ "/") :
      SameShape (.binary spelling) (.binary spelling)
  | name (spelling : String) : SameShape (.name spelling) (.name spelling)
  | call : SameShape .call .call

theorem Item.SameShape.arity_eq {a b : Item} (h : a.SameShape b) : a.arity = b.arity := by
  cases h <;> rfl

/-- Whether two operators that wait are the same, with the same rank. -/
def SameWait (p q : Item × Int) : Prop := p.1.SameShape q.1 ∧ p.2 = q.2

/-- Whether two readers are in one state but for the integers of numerals. -/
structure Reading.SameShape (r s : Reading) : Prop where
  expect : r.expect = s.expect
  depth : r.depth = s.depth
  operands : r.operands = s.operands
  output : List.Forall₂ Item.SameShape r.output s.output
  waiting : List.Forall₂ SameWait r.waiting s.waiting

/-! ### Reading -/

namespace Reading

/-- The same operators come out. -/
theorem release_sameShape (rank : Int) {output output' : List Item}
    {waiting waiting' : List (Item × Int)} (houtput : List.Forall₂ Item.SameShape output output')
    (hwaiting : List.Forall₂ SameWait waiting waiting') :
    List.Forall₂ Item.SameShape (release rank output waiting).1
        (release rank output' waiting').1 ∧
      List.Forall₂ SameWait (release rank output waiting).2
        (release rank output' waiting').2 := by
  induction hwaiting generalizing output output' with
  | nil => exact ⟨houtput, .nil⟩
  | @cons p q rest rest' hpq hrest ih =>
    obtain ⟨item, r⟩ := p
    obtain ⟨item', r'⟩ := q
    obtain ⟨hitem, hrank⟩ := hpq
    obtain rfl : r = r' := hrank
    unfold release
    split
    · exact ih (.cons hitem houtput)
    · exact ⟨houtput, .cons ⟨hitem, rfl⟩ hrest⟩

namespace SameShape

variable {r s : Reading} (h : r.SameShape s)

include h

theorem push {a b : Item} (hab : a.SameShape b) (rank : Int) :
    (r.push a rank).SameShape (s.push b rank) := by
  obtain ⟨houtput, hwaiting⟩ := release_sameShape (rank + r.depth) h.output h.waiting
  refine ⟨h.expect, h.depth, ?_, ?_, ?_⟩
  · show r.operands + a.arity = s.operands + b.arity
    rw [h.operands, hab.arity_eq]
  · show List.Forall₂ _ _ (release (rank + s.depth) s.output s.waiting).1
    rw [← h.depth]
    exact houtput
  · show List.Forall₂ _ _ ((b, rank + s.depth) :: (release (rank + s.depth) s.output s.waiting).2)
    rw [← h.depth]
    exact .cons ⟨hab, rfl⟩ hwaiting

theorem emit {a b : Item} (hab : a.SameShape b) (next : Expect) :
    (r.emit a next).SameShape (s.emit b next) :=
  ⟨rfl, h.depth, h.operands, .cons hab h.output, h.waiting⟩

theorem withExpect (next : Expect) :
    Reading.SameShape { r with expect := next } { s with expect := next } :=
  ⟨rfl, h.depth, h.operands, h.output, h.waiting⟩

theorem withDepth (change : Int) :
    Reading.SameShape { r with depth := r.depth + change } { s with depth := s.depth + change } :=
  ⟨h.expect, by rw [h.depth], h.operands, h.output, h.waiting⟩

/-- An operator that is no quotient. -/
theorem operator {name : String} (hname : name ≠ "/") (rank : Int) :
    (r.operator name rank).SameShape (s.operator name rank) := by
  unfold Reading.operator
  rw [← h.expect]
  refine withExpect ?_ _
  split
  · exact h.push (.unary name) 5
  · split
    · exact h
    · split
      · exact h.push (.unary name) 2
      · exact h.push (.binary hname) rank

/-- A lexeme leads readers of one shape to one shape, or stops them both. -/
theorem step {p q : Placed} (hpq : p.lexeme.SameShape q.lexeme) :
    Agree Reading.SameShape (r.step p) (s.step q) := by
  obtain ⟨l, stop⟩ := p
  obtain ⟨l', stop'⟩ := q
  -- what may stand next is the same for both readers, so they refuse the same lexemes
  unfold Reading.step
  rw [← h.expect]
  cases hpq with
  | number m n => exact .ok (h.emit (.number m n) _)
  | broken why why' => exact .error why why'
  | same hwhole =>
    cases l with
    | blank => exact .ok h
    | comment => exact .ok h
    | number n =>
      cases n with
      | int n => exact .ok (h.emit (.number n n) _)
      | float x => exact hwhole.elim
    | text => exact .ite (h.emit .literal _)
    | operator name rank => exact .ok (h.operator hwhole rank)
    | opening =>
      have hdeeper := h.withDepth 10
      rw [← h.expect] at hdeeper
      refine .ite (withExpect ?_ _)
      split
      · exact hdeeper.push .call (-2)
      · exact hdeeper
    | closing =>
      have hclosed : Reading.SameShape { r with depth := r.depth - 10, expect := .callable }
          { s with depth := s.depth - 10, expect := .callable } :=
        (h.withDepth (-10)).withExpect _
      simp only
      split
      · exact .ok ((h.emit .literal .callable).withDepth (-10))
      · exact .ite hclosed
    | comma => exact .ite ((h.push (.binary (by decide)) (-1)).withExpect _)
    | constant x => exact hwhole.elim
    | binaryName name => exact .ite ((h.push (.binary hwhole) 9).withExpect _)
    | unaryName name => exact .ite ((h.push (.unary name) 9).withExpect _)
    | name spelling => exact .ite (h.emit (.name spelling) _)
    | broken why => exact .error why why

/-- Rows of one shape lead readers of one shape to one shape, or stop them both. -/
theorem steps {ps qs : List Placed} (hpq : SameShapes ps qs) :
    Agree Reading.SameShape (r.steps ps) (s.steps qs) := by
  induction hpq generalizing r s with
  | nil => exact .ok h
  | @cons p q ps qs hfirst hrest ih =>
    rw [Reading.steps, Reading.steps]
    rcases (h.step hfirst).error_or_ok with ⟨e, e', hr, hs⟩ | ⟨r', s', hr, hs, h'⟩
    · rw [hr, hs]
      exact .error e e'
    · rw [hr, hs]
      exact ih h'

/-- The postfix forms of readers of one shape. -/
theorem finish (stop stop' : Nat) :
    Agree (List.Forall₂ Item.SameShape) (r.finish stop) (s.finish stop') := by
  have hwaiting : List.Forall₂ Item.SameShape (r.waiting.map (·.1)) (s.waiting.map (·.1)) :=
    List.forall₂_map_left_iff.mpr (List.forall₂_map_right_iff.mpr
      (h.waiting.imp fun _ _ hpq => hpq.1))
  have hitems : List.Forall₂ Item.SameShape (r.output.reverse ++ r.waiting.map (·.1))
      (s.output.reverse ++ s.waiting.map (·.1)) :=
    List.rel_append (List.forall₂_reverse_iff.mpr h.output) hwaiting
  unfold Reading.finish
  simp only [← h.depth, ← h.operands, ← hitems.length_eq]
  split
  · exact .error _ _
  · split
    · exact .ok hitems
    · exact .error _ _

end SameShape

end Reading

/-! ### Programs -/

/-- Whether two instructions are the same but for the integer of a numeral, and make integers of
integers. -/
inductive Instruction.SameShape : Instruction → Instruction → Prop where
  | number (m n : Int) : SameShape (.number (.int m)) (.number (.int n))
  | neg : SameShape (.unary .neg) (.unary .neg)
  | binary {op : BinaryOp} (h : op ∈ [.add, .sub, .mul]) : SameShape (.binary op) (.binary op)

variable {d : Dialect} (hfunctions : d.functions = false)

include hfunctions

/-- Without functions the same entries are allowed. -/
theorem accept_agree (expr expr' : String) {a b : Item} (h : a.SameShape b) :
    Agree Instruction.SameShape (accept d expr a) (accept d expr' b) := by
  unfold accept
  rw [hfunctions]
  cases h with
  | number m n => exact .ok (.number m n)
  | literal => exact .error _ _
  | unary spelling =>
    cases hfind : (unaryOps false).find? (·.name == spelling) with
    | none => simp only [hfind]; exact .error _ _
    | some op =>
      obtain rfl : op = .neg := by simpa [unaryOps] using List.mem_of_find?_eq_some hfind
      simp only [hfind]
      exact .ok .neg
  | @binary spelling hquotient =>
    cases hfind : (binaryOps false).find? (·.name == spelling) with
    | none => simp only [hfind]; exact .error _ _
    | some op =>
      -- the operators of a dialect without functions are these three and the quotient
      have hop : op ∈ binaryOps false := List.mem_of_find?_eq_some hfind
      have hdiv : op ≠ .div := by
        rintro rfl
        have hspelling := List.find?_some hfind
        exact hquotient (eq_of_beq hspelling).symm
      have hthree : op ∈ [.add, .sub, .mul] := by
        revert hop hdiv
        cases op <;> decide
      simp only [hfind]
      exact .ok (.binary hthree)
  | name spelling => exact .error _ _
  | call => exact .error _ _

theorem program?_agree (expr expr' : String) {as bs : List Item}
    (h : List.Forall₂ Item.SameShape as bs) :
    Agree (List.Forall₂ Instruction.SameShape) (program? d expr as) (program? d expr' bs) := by
  unfold program?
  induction h with
  | nil => exact .ok .nil
  | @cons a b as bs hab hrest ih =>
    rw [List.mapM_cons, List.mapM_cons]
    exact (accept_agree hfunctions expr expr' hab).bind fun i j hij =>
      ih.bind fun is js hrest => .ok (.cons hij hrest)

omit hfunctions

/-! ### Running -/

/-- Whether two values are integers. -/
def BothInts (v w : Value) : Prop := ∃ m n, v = .ofInt m ∧ w = .ofInt n

theorem bothInts_ofInt (m n : Int) : BothInts (.ofInt m) (.ofInt n) := ⟨m, n, rfl, rfl⟩

/-- An instruction finds its operands on both stacks of integers or on none of them, and leaves
stacks of integers behind. -/
theorem Instruction.SameShape.step_agree {i j : Instruction} (h : i.SameShape j)
    {vs ws : List Value} (hstack : List.Forall₂ BothInts vs ws) :
    Agree (List.Forall₂ BothInts) (i.step vs) (j.step ws) := by
  cases h with
  | number m n => exact .ok (.cons (bothInts_ofInt m n) hstack)
  | neg =>
    cases hstack with
    | nil => exact .error _ _
    | cons hv hrest =>
      obtain ⟨m, n, rfl, rfl⟩ := hv
      exact .ok (.cons (bothInts_ofInt (-m) (-n)) hrest)
  | @binary op hop =>
    cases hstack with
    | nil => exact .error _ _
    | cons hb hstack =>
      cases hstack with
      | nil => exact .error _ _
      | cons ha hrest =>
        obtain ⟨m, n, rfl, rfl⟩ := ha
        obtain ⟨k, l, rfl, rfl⟩ := hb
        have hcases : op = .add ∨ op = .sub ∨ op = .mul := by simpa using hop
        rcases hcases with rfl | rfl | rfl
        · exact .ok (.cons (bothInts_ofInt (m + k) (n + l)) hrest)
        · exact .ok (.cons (bothInts_ofInt (m - k) (n - l)) hrest)
        · exact .ok (.cons (bothInts_ofInt (m * k) (n * l)) hrest)

/-- Programs of one shape run to the end together. -/
theorem run_agree {is js : List Instruction} (h : List.Forall₂ Instruction.SameShape is js)
    {vs ws : List Value} (hstack : List.Forall₂ BothInts vs ws) :
    Agree (List.Forall₂ BothInts) (run is vs) (run js ws) := by
  induction h generalizing vs ws with
  | nil => exact .ok hstack
  | cons hij hrest ih => exact (hij.step_agree hstack).bind fun vs ws hstack => ih hstack

theorem result_agree {is js : List Instruction} (h : List.Forall₂ Instruction.SameShape is js) :
    Agree BothInts (result is) (result js) := by
  unfold result
  refine (run_agree h .nil).bind fun vs ws hstack => ?_
  cases hstack with
  | nil => exact .error _ _
  | cons hv hrest =>
    cases hrest with
    | nil => exact .ok hv
    | cons hv hrest => exact .error _ _

/-! ### Failing -/

/-- Whether an expression fails as a formula does. -/
def FailsAsFormula (x : Except Shortfall Number) : Prop := ∃ why, x = .error (.formula why)

/-- An integer is a value, unless it is too large for every double, which is no failure of the
formula. -/
theorem not_failsAsFormula_ofInt (expr : String) (n : Int) :
    ¬FailsAsFormula (finiteNumber expr (.ofInt n)) := by
  rintro ⟨why, h⟩
  unfold finiteNumber Value.ofInt at h
  cases hn : Number.finiteOfInt? n with
  | some x => simp only [hn] at h; cases h
  | none => simp only [hn] at h; cases h

include hfunctions

/-- Postfix forms of one shape fail together. -/
theorem evaluateItems_fails_iff (expr expr' : String) {as bs : List Item}
    (h : List.Forall₂ Item.SameShape as bs) :
    FailsAsFormula (evaluateItems d expr as) ↔ FailsAsFormula (evaluateItems d expr' bs) := by
  unfold evaluateItems
  rcases (program?_agree hfunctions expr expr' h).error_or_ok with
    ⟨why, why', has, hbs⟩ | ⟨is, js, has, hbs, hprogram⟩
  · rw [has, hbs]
    exact iff_of_true ⟨why, rfl⟩ ⟨why', rfl⟩
  · rw [has, hbs]
    simp only
    rcases (result_agree hprogram).error_or_ok with
      ⟨e, e', his, hjs⟩ | ⟨v, w, his, hjs, m, n, rfl, rfl⟩
    · rw [his, hjs]
      exact iff_of_true ⟨_, rfl⟩ ⟨_, rfl⟩
    · rw [his, hjs]
      exact iff_of_false (not_failsAsFormula_ofInt expr m) (not_failsAsFormula_ofInt expr' n)

end Kindred.Formula
