import Kindred.Formula.Program
import Kindred.Proofs.Formula.Lexing
import Kindred.Proofs.Number.Double

/-!
# Expressions read and worked out

Reading a row that spells an expression leaves behind a postfix form that computes what the
expression denotes. While a row is read, the operators that wait and are its own outrank those that
waited before, so the next operator that is no part of the row makes exactly the row's own operators
come out. Brackets raise the rank of everything inside them by more than operators differ. A sign in
front waits with the rank of a product, so a product behind it takes the sign into its first factor,
which leaves its value as it is.

- `Computes`: the postfix forms that put an integer on the stack.
- `Reads`: what reading a row does to a reader; `Awaits`: a reader in front of a last operand.
- `ReadsAs`, `NegatesAs`: rows that are read as an integer, by themselves and behind a sign.
- `Spelled.readsAs`: every spelling is read as its expression.
- `postfix?_textOf`, `evaluate_textOf`: the text of a row.
-/

namespace Kindred.Formula

open Kindred.Text

/-! ### Postfix forms -/

/-- The instructions of two postfix forms, one after the other. -/
theorem program?_append {d : Dialect} {expr : String} {as bs : List Item}
    {is js : List Instruction} (has : program? d expr as = .ok is)
    (hbs : program? d expr bs = .ok js) : program? d expr (as ++ bs) = .ok (is ++ js) := by
  unfold program? at *
  rw [List.mapM_append, has, hbs]
  rfl

/-- Two programs run one after the other. -/
theorem run_append (is js : List Instruction) (stack : List Value) :
    run (is ++ js) stack = (run is stack).bind (run js) := by
  induction is generalizing stack with
  | nil => rfl
  | cons i is ih =>
    show ((i.step stack).bind fun stack => run (is ++ js) stack) = _
    show _ = ((i.step stack).bind fun stack => run is stack).bind (run js)
    cases i.step stack with
    | error e => rfl
    | ok stack => exact ih stack

/-- Whether a postfix form puts an integer on the stack, in every dialect. -/
def Computes (n : Int) (code : List Item) : Prop :=
  ∀ d expr, ∃ is, program? d expr code = .ok is ∧
    ∀ stack, run is stack = .ok (.ofInt n :: stack)

theorem computes_number (n : Int) : Computes n [.number (.int n)] :=
  fun _ _ => ⟨[.number (.int n)], rfl, fun _ => rfl⟩

/-- A sign in front changes the sign. -/
theorem Computes.negated {n : Int} {code : List Item} (h : Computes n code) :
    Computes (-n) (code ++ [.unary "-"]) := by
  intro d expr
  obtain ⟨is, hprogram, hrun⟩ := h d expr
  have hsign : program? d expr [.unary "-"] = .ok [.unary .neg] := by
    unfold program?
    cases hd : d.functions <;> simp [accept, hd, unaryOps, UnaryOp.name]
  refine ⟨is ++ [.unary .neg], program?_append hprogram hsign, fun stack => ?_⟩
  rw [run_append, hrun]
  rfl

/-- The operator of an operation. -/
def Operation.operator : Operation → BinaryOp
  | sum => .add
  | difference => .sub
  | product => .mul

/-- An operator makes one integer of two. -/
theorem Computes.joined {a b : Int} {as bs : List Item} (ha : Computes a as) (hb : Computes b bs)
    (op : Operation) : Computes (op.apply a b) (as ++ bs ++ [.binary op.name]) := by
  intro d expr
  obtain ⟨is, hleft, hrunleft⟩ := ha d expr
  obtain ⟨js, hright, hrunright⟩ := hb d expr
  have hsign : program? d expr [.binary op.name] = .ok [.binary op.operator] := by
    unfold program?
    cases hd : d.functions <;> cases op <;>
      simp [accept, hd, binaryOps, BinaryOp.name, Operation.name, Operation.operator]
  refine ⟨is ++ js ++ [.binary op.operator],
    program?_append (program?_append hleft hright) hsign, fun stack => ?_⟩
  rw [run_append, run_append, hrunleft]
  show ((run js (.ofInt a :: stack)).bind (run [.binary op.operator])) = _
  rw [hrunright]
  cases op <;> rfl

/-! ### Runs of a reader -/

theorem steps_append (r : Reading) (ps qs : List Placed) :
    r.steps (ps ++ qs) = (r.steps ps).bind fun r => r.steps qs := by
  induction ps generalizing r with
  | nil => rfl
  | cons p ps ih =>
    rw [List.cons_append, Reading.steps, Reading.steps]
    cases r.step p with
    | error e => rfl
    | ok r => exact ih r

/-- Whether reading some lexemes, wherever they stand, takes a reader from one state to another. -/
def Follows (r : Reading) (ls : List Lexeme) (r' : Reading) : Prop :=
  ∀ ps : List Placed, ps.map (·.lexeme) = ls → r.steps ps = .ok r'

theorem Follows.append {r r₁ r₂ : Reading} {ls ms : List Lexeme} (hls : Follows r ls r₁)
    (hms : Follows r₁ ms r₂) : Follows r (ls ++ ms) r₂ := by
  intro ps hps
  obtain ⟨qs, rs, rfl, hqs, hrs⟩ := List.map_eq_append_iff.mp hps
  rw [steps_append, hls qs hqs]
  exact hms rs hrs

theorem Follows.single {r r' : Reading} {l : Lexeme} (h : ∀ stop, r.step ⟨l, stop⟩ = .ok r') :
    Follows r [l] r' := by
  intro ps hps
  obtain ⟨p, rfl, rfl⟩ := List.map_eq_singleton_iff.mp hps
  rw [Reading.steps, h p.stop]
  rfl

/-- A first step, and the others. -/
theorem Follows.cons {r r₁ r₂ : Reading} {l : Lexeme} {ls : List Lexeme}
    (h : ∀ stop, r.step ⟨l, stop⟩ = .ok r₁) (hls : Follows r₁ ls r₂) : Follows r (l :: ls) r₂ :=
  (Follows.single h).append hls

/-- Whether a lexeme says something to a reader. -/
def Lexeme.isSolid : Lexeme → Bool
  | .blank => false
  | _ => true

/-- Blanks say nothing. -/
theorem Follows.of_filter {r r' : Reading} {ls : List Lexeme}
    (h : Follows r (ls.filter Lexeme.isSolid) r') : Follows r ls r' := by
  have hsteps : ∀ (ps : List Placed) (r : Reading),
      r.steps ps = r.steps (ps.filter fun p => p.lexeme.isSolid) := by
    intro ps
    induction ps with
    | nil => exact fun _ => rfl
    | cons p ps ih =>
      intro r
      cases hp : p.lexeme.isSolid with
      | false =>
        have hblank : p.lexeme = .blank := by
          cases hl : p.lexeme <;> rw [hl] at hp <;> first | rfl | cases hp
        have hstep : r.step p = .ok r := by
          unfold Reading.step
          rw [hblank]
        rw [List.filter_cons_of_neg (by simp [hp]), Reading.steps, hstep]
        exact ih r
      | true =>
        rw [List.filter_cons_of_pos (by exact hp), Reading.steps, Reading.steps]
        cases r.step p with
        | error e => rfl
        | ok r => exact ih r
  rintro ps rfl
  rw [hsteps]
  refine h _ ?_
  rw [List.filter_map]
  rfl

/-! ### What a reader makes of a row -/

/-- Whether all waiting operators rank below a bound at the present depth. -/
def Below (rank : Int) (r : Reading) : Prop := ∀ e ∈ r.waiting, e.2 < rank + r.depth

/-- Reading a row took a reader from `r` to `r'`: what came out and what waits on top of what waited
before is a postfix form that computes `n`, and the operators among the latter have at least the
given rank. -/
structure Reads (r r' : Reading) (rank n : Int) : Prop where
  expect : r'.expect = .operator ∨ r'.expect = .callable
  depth : r'.depth = r.depth
  code : ∃ own code, Computes n code ∧ r'.waiting = own ++ r.waiting ∧
    (∀ e ∈ own, rank + r.depth ≤ e.2) ∧
    r'.output.reverse ++ own.map (·.1) = r.output.reverse ++ code ∧
    r'.operands + 1 = r.operands + code.length

/-- A reader that started from `r`, put out the postfix form `code`, and is in front of the last
operand of an operator. -/
structure Awaits (r m : Reading) (item : Item) (rank : Int) (code : List Item) : Prop where
  expect : m.expect = .operand
  depth : m.depth = r.depth
  waiting : m.waiting = (item, rank + r.depth) :: r.waiting
  output : m.output.reverse = r.output.reverse ++ code
  operands : m.operands = r.operands + code.length + 1

/-- The waiting operators of at least some rank come out, as far as the first one below. -/
theorem release_append {rank : Int} {output : List Item} {own rest : List (Item × Int)}
    (hown : ∀ e ∈ own, rank ≤ e.2) (hrest : ∀ e ∈ rest, e.2 < rank) :
    Reading.release rank output (own ++ rest) = ((own.map (·.1)).reverse ++ output, rest) := by
  induction own generalizing output with
  | nil =>
    cases rest with
    | nil => rfl
    | cons e rest =>
      have he := hrest e List.mem_cons_self
      rw [List.nil_append, Reading.release, if_neg (by omega)]
      rfl
  | cons e own ih =>
    obtain ⟨he, hown⟩ := List.forall_mem_cons.mp hown
    rw [List.cons_append, Reading.release, if_pos he, ih hown, List.map_cons, List.reverse_cons,
      List.append_assoc]
    rfl

/-- A minus sign in front of an operand waits for it. -/
theorem awaits_sign {r : Reading} (hr : r.expect.takesOperand = true) (hbelow : Below 5 r) :
    Awaits r (r.operator "-" 4) (.unary "-") 5 [] := by
  have hrelease : Reading.release (5 + r.depth) r.output r.waiting = (r.output, r.waiting) :=
    @release_append _ _ [] _ nofun hbelow
  have hsign : r.operator "-" 4 = { r.push (.unary "-") 5 with expect := .operand } := by
    unfold Reading.operator
    rw [hr]
    rfl
  rw [hsign]
  unfold Reading.push
  simp only [hrelease]
  exact ⟨rfl, rfl, rfl, (List.append_nil _).symm, rfl⟩

/-- The sign of an operation makes the operators of the left operand come out, and waits for the
right one. -/
theorem Reads.awaits {r r₁ : Reading} {op : Operation} {n : Int} (h : Reads r r₁ op.rank n)
    (hbelow : Below op.rank r) :
    ∃ code, Computes n code ∧
      Awaits r (r₁.operator op.name op.rank) (.binary op.name) op.rank code := by
  obtain ⟨own, code, hcomputes, hwaiting, hown, houtput, hoperands⟩ := h.code
  refine ⟨code, hcomputes, ?_⟩
  have hrelease : Reading.release (op.rank + r₁.depth) r₁.output r₁.waiting =
      ((own.map (·.1)).reverse ++ r₁.output, r.waiting) := by
    rw [hwaiting, h.depth]
    exact release_append hown hbelow
  have htakes : r₁.expect.takesOperand = false := by
    rcases h.expect with he | he <;> rw [he] <;> rfl
  have hsign : r₁.operator op.name op.rank =
      { r₁.push (.binary op.name) op.rank with expect := .operand } := by
    unfold Reading.operator
    rw [htakes]
    rfl
  rw [hsign]
  unfold Reading.push
  simp only [hrelease]
  refine ⟨rfl, h.depth, ?_, ?_, ?_⟩
  · show (_, op.rank + r₁.depth) :: _ = _
    rw [h.depth]
  · show ((own.map (·.1)).reverse ++ r₁.output).reverse = _
    rw [List.reverse_append, List.reverse_reverse, houtput]
  · show r₁.operands + 2 = _
    omega

/-- What waits in front of the last operand ranks below it. -/
theorem Awaits.below {r m : Reading} {item : Item} {rank bound : Int} {code : List Item}
    (h : Awaits r m item rank code) (hbelow : Below rank r) (hbound : rank < bound) :
    Below bound m := by
  intro e he
  rw [h.waiting] at he
  rw [h.depth]
  rcases List.mem_cons.mp he with rfl | he
  · show rank + r.depth < _
    omega
  · have hlt := hbelow e he
    omega

/-- Once the last operand is read, the operator closes the postfix form. -/
theorem Awaits.reads {r m r' : Reading} {item : Item} {rank bound n v : Int} {pre : List Item}
    (h : Awaits r m item rank pre) (hbound : rank ≤ bound) (hreads : Reads m r' bound n)
    (hv : ∀ code, Computes n code → Computes v (pre ++ code ++ [item])) : Reads r r' rank v := by
  obtain ⟨own, code, hcomputes, hwaiting, hown, houtput, hoperands⟩ := hreads.code
  refine ⟨hreads.expect, hreads.depth.trans h.depth,
    own ++ [(item, rank + r.depth)], pre ++ code ++ [item], hv code hcomputes, ?_, ?_, ?_, ?_⟩
  · rw [hwaiting, h.waiting, List.append_assoc]
    rfl
  · intro e he
    rcases List.mem_append.mp he with he | he
    · have hle := hown e he
      rw [h.depth] at hle
      omega
    · obtain rfl := List.mem_singleton.mp he
      exact Int.le_refl _
  · rw [List.map_append, ← List.append_assoc, houtput, h.output]
    simp
  · rw [hoperands, h.operands, List.length_append, List.length_append, List.length_singleton]
    omega

/-! ### Rows that are read as integers -/

/-- Whether a row is read as an integer wherever an operand may stand, by operators of at least the
given rank. -/
def ReadsAs (ls : List Lexeme) (rank n : Int) : Prop :=
  ∀ r : Reading, r.expect.takesOperand = true → Below rank r →
    ∃ r', Follows r ls r' ∧ Reads r r' rank n

/-- Whether a row behind a minus sign is read as the negative of an integer. -/
def NegatesAs (ls : List Lexeme) (n : Int) : Prop :=
  ∀ r : Reading, r.expect.takesOperand = true → Below 5 r →
    ∃ r', Follows (r.operator "-" 4) ls r' ∧ Reads r r' 5 (-n)

theorem takesOperand_iff {e : Expect} : e.takesOperand = true ↔ e = .operand ∨ e = .opened := by
  cases e <;> decide

/-- A row whose operators have a high rank has operators of a lower one, too. -/
theorem ReadsAs.mono {ls : List Lexeme} {rank bound n : Int} (h : ReadsAs ls bound n)
    (hle : rank ≤ bound) : ReadsAs ls rank n := by
  intro r hr hbelow
  have hbound : Below bound r := by
    intro e he
    have hlt := hbelow e he
    omega
  obtain ⟨r', hfollows, hreads⟩ := h r hr hbound
  obtain ⟨own, code, hcomputes, hwaiting, hown, hrest⟩ := hreads.code
  refine ⟨r', hfollows, hreads.expect, hreads.depth, own, code, hcomputes, hwaiting, ?_, hrest⟩
  intro e he
  have hle := hown e he
  omega

theorem readsAs_number (n : Int) : ReadsAs [.number (.int n)] 10 n := by
  intro r hr hbelow
  refine ⟨r.emit (.number (.int n)) .operator, .single fun _ => rfl, Or.inl rfl, rfl, [], _,
    computes_number n, rfl, nofun, ?_, rfl⟩
  show (Item.number (.int n) :: r.output).reverse ++ [] = _
  rw [List.reverse_cons, List.append_nil]

/-- Brackets around a row raise the rank of its operators. -/
theorem ReadsAs.bracketed {ls : List Lexeme} {n : Int} (h : ReadsAs ls 4 n) :
    ReadsAs (.opening :: ls ++ [.closing]) 10 n := by
  intro r hr hbelow
  have hopening : ∀ stop, r.step ⟨.opening, stop⟩ =
      .ok { r with depth := r.depth + 10, expect := .opened } := by
    intro stop
    rcases takesOperand_iff.mp hr with hexpect | hexpect
    all_goals
      simp only [Reading.step, hexpect]
      rfl
  have hinside : Below 4 { r with depth := r.depth + 10, expect := .opened } := by
    intro e he
    have hlt := hbelow e he
    show e.2 < 4 + (r.depth + 10)
    omega
  obtain ⟨r₁, hfollows, hreads⟩ := h _ rfl hinside
  have hclosing : ∀ stop, r₁.step ⟨.closing, stop⟩ =
      .ok { r₁ with depth := r₁.depth - 10, expect := .callable } := by
    intro stop
    rcases hreads.expect with hexpect | hexpect
    all_goals
      simp only [Reading.step, hexpect]
      rfl
  refine ⟨_, (Follows.cons hopening hfollows).append (.single hclosing), Or.inr rfl, ?_, ?_⟩
  · show r₁.depth - 10 = r.depth
    rw [hreads.depth]
    show r.depth + 10 - 10 = r.depth
    omega
  · -- what waits from inside the brackets outranks every operator outside
    obtain ⟨own, code, hcomputes, hwaiting, hown, hrest⟩ := hreads.code
    refine ⟨own, code, hcomputes, hwaiting, ?_, hrest⟩
    intro e he
    have hle : 4 + (r.depth + 10) ≤ e.2 := hown e he
    omega

/-- An operand behind a sign is negated. -/
theorem ReadsAs.negates {ls : List Lexeme} {n : Int} (h : ReadsAs ls 10 n) : NegatesAs ls n := by
  intro r hr hbelow
  have hawaits := awaits_sign hr hbelow
  have htakes : (r.operator "-" 4).expect.takesOperand = true := by
    rw [hawaits.expect]
    rfl
  obtain ⟨r', hfollows, hreads⟩ := h _ htakes (hawaits.below hbelow (by decide))
  exact ⟨r', hfollows, hawaits.reads (by decide) hreads fun code hcode => hcode.negated⟩

theorem NegatesAs.readsAs {ls : List Lexeme} {n : Int} (h : NegatesAs ls n) :
    ReadsAs (Mark.lexeme (.sign .difference) :: ls) 5 (-n) := by
  intro r hr hbelow
  obtain ⟨r', hfollows, hreads⟩ := h r hr hbelow
  exact ⟨r', Follows.cons (fun _ => rfl) hfollows, hreads⟩

/-- Behind a left operand the sign of an operation and a right operand follow. -/
theorem Reads.joined {r r₁ : Reading} {op : Operation} {a b bound : Int} {ls : List Lexeme}
    (ha : Reads r r₁ op.rank a) (hbelow : Below op.rank r) (hbound : op.rank < bound)
    (hls : ReadsAs ls bound b) :
    ∃ r', Follows r₁ (Mark.lexeme (.sign op) :: ls) r' ∧ Reads r r' op.rank (op.apply a b) := by
  obtain ⟨code, hcode, hawaits⟩ := ha.awaits hbelow
  have htakes : (r₁.operator op.name op.rank).expect.takesOperand = true := by
    rw [hawaits.expect]
    rfl
  obtain ⟨r', hfollows, hreads⟩ := hls _ htakes (hawaits.below hbelow hbound)
  refine ⟨r', Follows.cons (fun _ => rfl) hfollows, ?_⟩
  exact hawaits.reads (Int.le_of_lt hbound) hreads fun code' hcode' => hcode.joined hcode' op

/-- Two operands and an operation between them. -/
theorem ReadsAs.joined {op : Operation} {a b bound : Int} {ls ms : List Lexeme}
    (ha : ReadsAs ls op.rank a) (hbound : op.rank < bound) (hb : ReadsAs ms bound b) :
    ReadsAs (ls ++ Mark.lexeme (.sign op) :: ms) op.rank (op.apply a b) := by
  intro r hr hbelow
  obtain ⟨r₁, hleft, hreads⟩ := ha r hr hbelow
  obtain ⟨r', hright, hreads⟩ := hreads.joined hbelow hbound hb
  exact ⟨r', hleft.append hright, hreads⟩

/-- A product behind a sign takes the sign into its first factor. -/
theorem NegatesAs.multiplied {a b : Int} {ls ms : List Lexeme} (ha : NegatesAs ls a)
    (hb : ReadsAs ms 10 b) :
    NegatesAs (ls ++ Mark.lexeme (.sign .product) :: ms) (a * b) := by
  intro r hr hbelow
  obtain ⟨r₁, hleft, hreads⟩ := ha r hr hbelow
  obtain ⟨r', hright, hreads⟩ :=
    @Reads.joined r r₁ .product (-a) b 10 ms hreads hbelow (by decide) hb
  refine ⟨r', hleft.append hright, ?_⟩
  rwa [show Operation.apply .product (-a) b = -(a * b) from Int.neg_mul a b] at hreads

/-! ### Spellings -/

/-- The rank of the operators outside of brackets. -/
def Rank.bound : Rank → Int
  | operand => 10
  | product => 5
  | sum => 4

theorem readsAs_settled (b : Settled) : ReadsAs b.lexemes 10 b.value := by
  unfold Settled.lexemes
  split
  · have h := (readsAs_number (-b.value)).negates.readsAs
    rw [Int.neg_neg] at h
    exact (h.mono (by decide)).bracketed
  · exact readsAs_number b.value

/-- A row that spells an expression is read as the integer that the expression denotes, and so it
is behind a sign where one may stand. -/
theorem Spelled.readsAs {signed : Bool} {rank : Rank} {t : Term Settled} {ps : List (Part Settled)}
    (h : Spelled signed rank t ps) :
    ReadsAs (ps.flatMap Part.lexemes) rank.bound (t.eval Settled.value) ∧
      (signed = false → rank ≠ .sum →
        NegatesAs (ps.flatMap Part.lexemes) (t.eval Settled.value)) := by
  -- a sign can stand in front of every row but a sum, and of a row with a sign
  induction h with
  | leaf b =>
    have hb := readsAs_settled b
    rw [List.flatMap_singleton]
    exact ⟨hb, fun _ _ => hb.negates⟩
  | bracketed h ih =>
    have hb := ih.1.bracketed
    rw [List.cons_append, List.flatMap_cons, List.flatMap_append, List.flatMap_singleton]
    exact ⟨hb, fun _ _ => hb.negates⟩
  | operand h ih => exact ⟨ih.1.mono (by decide), fun _ _ => ih.2 rfl nofun⟩
  | product h ih => exact ⟨ih.1.mono (by decide), fun _ hsum => absurd rfl hsum⟩
  | negated h ih => exact ⟨(ih.2 rfl nofun).readsAs, nofun⟩
  | multiplied ha hb iha ihb =>
    rw [List.flatMap_append, List.flatMap_cons]
    refine ⟨?_, fun hsigned _ => (iha.2 hsigned nofun).multiplied ihb.1⟩
    exact @ReadsAs.joined .product _ _ 10 _ _ iha.1 (by decide) ihb.1
  | @added signed op a b ps qs hop ha hb iha ihb =>
    -- the right operand is a product at least, so its operators outrank this one
    have hrank : op.rank = 4 := by
      cases op with
      | sum => rfl
      | difference => rfl
      | product => exact absurd rfl hop
    have hleft : ReadsAs (ps.flatMap Part.lexemes) op.rank (a.eval Settled.value) := by
      rw [hrank]
      exact iha.1
    have hsum := hleft.joined (show op.rank < 5 by omega) ihb.1
    rw [List.flatMap_append, List.flatMap_cons]
    refine ⟨?_, fun _ hsum => absurd rfl hsum⟩
    rwa [hrank] at hsum

/-! ### Expressions -/

/-- Among the lexemes of a row those of blanks are the ones that say nothing. -/
theorem filter_lexemes (ps : List (Part Settled)) :
    (ps.flatMap Part.lexemes).filter Lexeme.isSolid =
      (ps.filter Part.isSolid).flatMap Part.lexemes := by
  induction ps with
  | nil => rfl
  | cons p ps ih =>
    rw [List.flatMap_cons, List.filter_append, ih]
    cases p with
    | leaf b =>
      rw [List.filter_cons_of_pos rfl, List.flatMap_cons]
      refine congrArg (· ++ _) ?_
      show b.lexemes.filter Lexeme.isSolid = b.lexemes
      unfold Settled.lexemes
      split <;> rfl
    | mark m => cases m <;> rfl

/-- The text of a row that spells an expression has a postfix form that computes it. -/
theorem postfix?_textOf {signed : Bool} {t : Term Settled} {ps : List (Part Settled)}
    (hps : ∀ p ∈ ps, p.Holds Settled.IsWritten)
    (hspelled : Spelled signed .sum t (ps.filter Part.isSolid)) :
    ∃ code, postfix? (textOf Settled.text ps) = .ok code ∧
      Computes (t.eval Settled.value) code := by
  have hchain : List.IsChain Part.Apart ps := isChain_of_filter hspelled.framed.chain
  have hlexemes : (lexemes (textOf Settled.text ps)).map (·.lexeme) = ps.flatMap Part.lexemes :=
    readFrom_textOf hps hchain 0
  obtain ⟨r, hfollows, hreads⟩ := hspelled.readsAs.1 {} rfl nofun
  have hsteps : Reading.steps {} (lexemes (textOf Settled.text ps)) = .ok r :=
    Follows.of_filter (by rw [filter_lexemes]; exact hfollows) _ hlexemes
  obtain ⟨own, code, hcomputes, hwaiting, -, houtput, hoperands⟩ := hreads.code
  refine ⟨code, ?_, hcomputes⟩
  -- nothing waited before, so what waits in the end is the row's own
  have hitems : r.output.reverse ++ r.waiting.map (·.1) = code := by
    rw [hwaiting, List.append_nil]
    exact houtput
  have hcount : (r.operands + 1 == code.length) = true := by
    rw [hoperands]
    simp
  have hdepth : (decide (r.depth < 0) || decide (10 ≤ r.depth)) = false := by
    rw [hreads.depth]
    rfl
  unfold postfix?
  rw [hsteps]
  show r.finish _ = _
  unfold Reading.finish
  rw [hdepth, hitems, if_neg Bool.false_ne_true, if_pos hcount]

/-- The greatest magnitude, exclusive, of the integers that are sure to be finite doubles. -/
def ample : Nat := Nat.pow 10 300

theorem finiteOfInt?_isSome_of_lt_ample {n : Int} (h : n.natAbs < ample) :
    (Number.finiteOfInt? n).isSome = true := by
  have hlt : ample < Nat.pow 2 997 := by decide +kernel
  exact Number.finiteOfInt?_isSome (by decide) (Nat.lt_trans h hlt)

/-- An integer is kept as the value of an expression, or it is too large for a double. -/
theorem finiteNumber_ofInt (n : Int) (expr : String) :
    finiteNumber expr (.ofInt n) = .ok (.int n) ∨
      finiteNumber expr (.ofInt n) = .error .tooLarge := by
  unfold finiteNumber Value.ofInt
  dsimp only
  cases Number.finiteOfInt? n with
  | some x => exact .inl rfl
  | none => exact .inr rfl

theorem finiteNumber_of_lt_ample {n : Int} (h : n.natAbs < ample) (expr : String) :
    finiteNumber expr (.ofInt n) = .ok (.int n) := by
  obtain ⟨x, hx⟩ := Option.isSome_iff_exists.mp (finiteOfInt?_isSome_of_lt_ample h)
  simp only [finiteNumber, Value.ofInt, hx]

theorem Settled.IsWritten.exists_not_isBlank {b : Settled} (h : b.IsWritten) :
    ∃ c ∈ b.text, isBlank c = false := by
  obtain ⟨ds, hds, ⟨htext, -⟩ | ⟨htext, -⟩⟩ := h
  · rw [htext]
    exact (isWord_of_isDigit hds.ne_nil hds.digits).exists_not_isBlank
  · exact ⟨'(', by rw [htext]; exact List.mem_cons_self, by decide⟩

/-- The text of a row that spells an expression is worked out to what the expression denotes, unless
that is too large. -/
theorem evaluate_textOf {signed : Bool} {t : Term Settled} {ps : List (Part Settled)}
    (hps : ∀ p ∈ ps, p.Holds Settled.IsWritten)
    (hspelled : Spelled signed .sum t (ps.filter Part.isSolid)) (d : Dialect) :
    evaluate d (String.ofList (textOf Settled.text ps)) =
      finiteNumber (String.ofList (textOf Settled.text ps))
        (.ofInt (t.eval Settled.value)) := by
  obtain ⟨code, hcode, hcomputes⟩ := postfix?_textOf hps hspelled
  obtain ⟨is, hprogram, hrun⟩ := hcomputes d (String.ofList (textOf Settled.text ps))
  have hblank : isBlankString (String.ofList (textOf Settled.text ps)) = false := by
    unfold isBlankString
    rw [String.toList_ofList]
    exact isBlankText_textOf (fun b hb => hb.exists_not_isBlank) hps hspelled.framed.ne_nil
  have hresult : result is = .ok (.ofInt (t.eval Settled.value)) := by
    unfold result
    rw [hrun]
    rfl
  unfold evaluate
  rw [hblank, if_neg Bool.false_ne_true, String.toList_ofList, hcode]
  show evaluateItems d _ code = _
  simp only [evaluateItems, hprogram, hresult]

end Kindred.Formula
