import Kindred.Proofs.Formula.Reach

/-!
# The number in front of an expression

An expression that starts with a number is read the same way if another number stands there. Where
nothing but sums and differences takes it as an operand, and as the left one, what the expression
adds to it does not depend on it.

- `Reading.onto`: a reader with a number that came out before all other entries.
- `Accepts.front_number`: another number in front.
- `onlySums`, `run_onlySums`: whether only sums and differences take the first operand, and what
  they add to it.
- `evaluate_front`: the value with another number in front.
- `readFrom_front`, `isDigit_of_front`: how far the number in front reaches.
- `evaluate_digits`: the value with other digits in front.
-/

namespace Kindred.Formula

open Kindred.Text Kindred.Number

variable {d : Dialect} {r r' : Reading}

/-! ### Columns -/

/-- What is found in quotes depends on the column only where it cannot be read. -/
theorem quotedAt?_column (s : List Char) (column column' : Nat) :
    quotedAt? column' s = quotedAt? column s ∨
      ∃ why why' n, quotedAt? column s = some (.broken why, n) ∧
        quotedAt? column' s = some (.broken why', n) := by
  unfold quotedAt?
  split
  · exact .inl rfl
  split
  · split
    · exact .inl rfl
    · dsimp only
      split
      · exact .inl rfl
      split
      · exact .inl rfl
      split
      · exact .inl rfl
      · exact .inr ⟨_, _, _, rfl, rfl⟩
  · exact .inl rfl

/-- A lexeme that can be read is the same at every column. -/
theorem lexemeAt_column {column : Nat} {s : List Char}
    (h : ∀ why, (lexemeAt column s).1 ≠ .broken why) (column' : Nat) :
    lexemeAt column' s = lexemeAt column s := by
  revert h
  unfold lexemeAt
  cases operatorAt? s with
  | some p => exact fun _ => rfl
  | none =>
  cases numberAt? s with
  | some p => exact fun _ => rfl
  | none =>
  rcases quotedAt?_column s column column' with heq | ⟨why, why', n, hfound, -⟩
  · rw [heq]
    cases quotedAt? column s with
    | some p => exact fun _ => rfl
    | none =>
    cases markAt? s with
    | some p => exact fun _ => rfl
    | none =>
    cases constantAt? s with
    | some p => exact fun _ => rfl
    | none =>
    cases nameAt? s with
    | some p => exact fun _ => rfl
    | none =>
    cases s.head?.any isBlank with
    | true => exact fun _ => rfl
    | false => exact fun h => (h _ rfl).elim
  · rw [hfound]
    exact fun h => (h why rfl).elim

theorem lexemesFrom_column {column skip : Nat} {s : List Char}
    (h : ∀ p ∈ lexemesFrom column skip s, ∀ why, p.lexeme ≠ .broken why) (column' : Nat) :
    (lexemesFrom column' skip s).map (·.lexeme) = (lexemesFrom column skip s).map (·.lexeme) := by
  induction s generalizing column skip column' with
  | nil => cases skip <;> rfl
  | cons c s ih =>
    cases skip with
    | succ skip => exact ih h _
    | zero =>
      have hfirst : ∀ why, (lexemeAt column (c :: s)).1 ≠ .broken why := by
        rw [lexemesFrom] at h
        generalize lexemeAt column (c :: s) = first at h ⊢
        obtain ⟨l, n⟩ := first
        rintro why rfl
        exact h _ List.mem_cons_self why rfl
      have hsame := lexemeAt_column hfirst column'
      rw [lexemesFrom] at h
      rw [lexemesFrom, lexemesFrom, hsame]
      generalize lexemeAt column (c :: s) = first at h hfirst
      obtain ⟨l, n⟩ := first
      cases l with
      | broken why => exact absurd rfl (hfirst why)
      | _ => exact congrArg (_ :: ·) (ih (List.forall_mem_cons.mp h).2 _)

/-- Lexemes that can be read are the same at every column. -/
theorem readFrom_column {column : Nat} {s : List Char}
    (h : ∀ l ∈ readFrom column s, ∀ why, l ≠ .broken why) (column' : Nat) :
    readFrom column' s = readFrom column s :=
  lexemesFrom_column (fun p hp => h p.lexeme (List.mem_map_of_mem hp)) column'

/-! ### An entry that came out first -/

namespace Reading

/-- A reader with one more entry that came out before all others. -/
def onto (i : Item) (r : Reading) : Reading := { r with output := r.output ++ [i] }

theorem release_onto (rank : Int) (output : List Item) (waiting : List (Item × Int)) (i : Item) :
    release rank (output ++ [i]) waiting =
      ((release rank output waiting).1 ++ [i], (release rank output waiting).2) := by
  induction waiting generalizing output with
  | nil => rfl
  | cons e rest ih =>
    obtain ⟨item, own⟩ := e
    rw [release, release]
    split
    · exact ih (item :: output)
    · rfl

theorem push_onto (r : Reading) (i item : Item) (rank : Int) :
    (r.onto i).push item rank = (r.push item rank).onto i := by
  unfold push onto
  simp only [release_onto]

/-- Operators do not look at what came out. -/
theorem operator_onto (r : Reading) (i : Item) (name : String) (rank : Int) :
    (r.onto i).operator name rank = (r.operator name rank).onto i := by
  have htakes : (r.onto i).expect = r.expect := rfl
  unfold operator
  simp only [htakes, push_onto]
  split
  · rfl
  split
  · rfl
  split <;> rfl

end Reading

/-- A lexeme does the same with one more entry that came out before. -/
theorem Advances.onto {l : Lexeme} (h : Advances r l r') (i : Item) :
    Advances (r.onto i) l (r'.onto i) := by
  cases h with
  | blank => exact .blank
  | comment => exact .comment
  | number n => exact .number n
  | constant x h => exact .constant x h
  | operator rank h =>
    rw [← Reading.operator_onto]
    exact .operator rank h
  | opening h hcall => exact .opening h hcall
  | closing h => exact .closing h

theorem Advances.of_onto {l : Lexeme} {i : Item} (h : Advances (r.onto i) l r') :
    ∃ r₁, Advances r l r₁ ∧ r' = r₁.onto i := by
  cases h with
  | blank => exact ⟨r, .blank, rfl⟩
  | comment => exact ⟨r, .comment, rfl⟩
  | number n => exact ⟨_, .number n, rfl⟩
  | constant x h => exact ⟨_, .constant x h, rfl⟩
  | operator rank h => exact ⟨_, .operator rank h, r.operator_onto i _ rank⟩
  | opening h hcall => exact ⟨_, .opening h hcall, rfl⟩
  | closing h => exact ⟨_, .closing h, rfl⟩

theorem Accepts.onto {ls : List Lexeme} (h : Accepts r ls r') (i : Item) :
    Accepts (r.onto i) ls (r'.onto i) := by
  induction h with
  | nil r => exact .nil _
  | cons h _ ih => exact .cons (h.onto i) ih

/-- So what a row does behind an entry tells what it does without the entry. -/
theorem Accepts.of_onto {ls : List Lexeme} {i : Item} (h : Accepts (r.onto i) ls r') :
    ∃ r₁, Accepts r ls r₁ ∧ r' = r₁.onto i := by
  induction ls generalizing r with
  | nil =>
    cases h
    exact ⟨r, .nil r, rfl⟩
  | cons l ls ih =>
    cases h with
    | cons hl hls =>
      obtain ⟨r₁, hfirst, rfl⟩ := hl.of_onto
      obtain ⟨r₂, hrest, rfl⟩ := ih hls
      exact ⟨r₂, .cons hfirst hrest, rfl⟩

/-! ### Sums and differences -/

/-- Whether nothing but sums and differences takes the operand that lies below a number of others,
and as the left one. -/
def onlySums : Nat → List Item → Bool
  | height, [] => height == 0
  | height, .number _ :: items => onlySums (height + 1) items
  | height + 1, .unary _ :: items => onlySums (height + 1) items
  | 1, .binary name :: items => (name == "+" || name == "-") && onlySums 0 items
  | height + 2, .binary _ :: items => onlySums (height + 1) items
  | _, _ => false

/-- Two operands are brought to integers only if they are integers. -/
theorem eq_ofInt_of_pair {x y : Value} {a b : Int} (h : x.pair y = .ok (.ints a b)) :
    x = .ofInt a ∧ y = .ofInt b := by
  unfold Value.pair at h
  split at h
  · cases h
    exact ⟨rfl, rfl⟩
  · next m n _ =>
    cases hm : Value.numberToFloat m <;> cases hn : Value.numberToFloat n <;> rw [hm, hn] at h <;>
      cases h
  · split at h
    · next p q _ _ =>
      cases p <;> cases q <;> cases h
    · cases h

/-- A sum is an integer only if both summands are. -/
theorem add_eq_ofInt {x y : Value} {n : Int} (h : x.add y = .ok (.ofInt n)) :
    ∃ a b, x = .ofInt a ∧ y = .ofInt b ∧ n = a + b := by
  obtain ⟨p, hpair, h⟩ := except_bind_ok_iff.mp h
  cases p with
  | ints a b =>
    obtain ⟨hx, hy⟩ := eq_ofInt_of_pair hpair
    cases h
    exact ⟨a, b, hx, hy, rfl⟩
  | reals u v => cases h
  | complexes u v => cases h
  | others =>
    dsimp only at h
    split at h <;> cases h

/-- A difference is an integer only if both operands are. -/
theorem sub_eq_ofInt {x y : Value} {n : Int} (h : x.sub y = .ok (.ofInt n)) :
    ∃ a b, x = .ofInt a ∧ y = .ofInt b ∧ n = a - b := by
  obtain ⟨p, hpair, h⟩ := except_bind_ok_iff.mp h
  cases p with
  | ints a b =>
    obtain ⟨hx, hy⟩ := eq_ofInt_of_pair hpair
    cases h
    exact ⟨a, b, hx, hy, rfl⟩
  | _ => cases h

/-- The first step of a program that runs to its end. -/
theorem run_cons_ok_iff {i : Instruction} {is : List Instruction} {stack out : List Value} :
    run (i :: is) stack = .ok out ↔ ∃ next, i.step stack = .ok next ∧ run is next = .ok out :=
  except_bind_ok_iff

/-- The operator that a spelling stands for in a dialect without functions. -/
theorem accept_binary_ok {name : String} {expr : String} {i : Instruction}
    (hd : d.functions = false) (h : accept d expr (.binary name) = .ok i) :
    ∃ op : BinaryOp, i = .binary op ∧ op.name = name := by
  simp only [accept, hd] at h
  cases hfind : (binaryOps false).find? (·.name == name) with
  | none => rw [hfind] at h; cases h
  | some op =>
    rw [hfind] at h
    cases h
    exact ⟨op, rfl, by simpa using List.find?_some hfind⟩

theorem step_unary_ok_iff {op : UnaryOp} {x : Value} {stack out : List Value} :
    Instruction.step (.unary op) (x :: stack) = .ok out ↔
      ∃ y, op.apply x = .ok y ∧ y :: stack = out :=
  except_bind_ok_iff.trans (exists_congr fun _ => and_congr_right fun _ =>
    ⟨Except.ok.inj, congrArg Except.ok⟩)

theorem step_binary_ok_iff {op : BinaryOp} {x y : Value} {stack out : List Value} :
    Instruction.step (.binary op) (y :: x :: stack) = .ok out ↔
      ∃ z, op.apply x y = .ok z ∧ z :: stack = out :=
  except_bind_ok_iff.trans (exists_congr fun _ => and_congr_right fun _ =>
    ⟨Except.ok.inj, congrArg Except.ok⟩)

/-- What a sum or a difference makes of an integer, it makes of any other one. -/
theorem apply_eq_ofInt {op : BinaryOp} (hop : op.name = "+" ∨ op.name = "-") {x y : Value} {n : Int}
    (h : op.apply x y = .ok (.ofInt n)) :
    ∃ a, x = .ofInt a ∧ ∀ b, op.apply (.ofInt b) y = .ok (.ofInt (n - a + b)) := by
  rcases hop with hop | hop
  · obtain rfl : op = .add := by cases op <;> first | rfl | exact absurd hop (by decide)
    obtain ⟨a, k, rfl, rfl, rfl⟩ := add_eq_ofInt h
    refine ⟨a, rfl, fun b => ?_⟩
    show Except.ok (Value.ofInt (b + k)) = _
    congr 2
    omega
  · obtain rfl : op = .sub := by cases op <;> first | rfl | exact absurd hop (by decide)
    obtain ⟨a, k, rfl, rfl, rfl⟩ := sub_eq_ofInt h
    refine ⟨a, rfl, fun b => ?_⟩
    show Except.ok (Value.ofInt (b - k)) = _
    congr 2
    omega

/-- What sums and differences add to an operand does not depend on it. -/
theorem run_onlySums (hd : d.functions = false) {expr : String} {items : List Item}
    {is : List Instruction} (hprogram : program? d expr items = .ok is) {above : List Value}
    {x : Value} {v : Int} (hsums : onlySums above.length items = true)
    (h : run is (above ++ [x]) = .ok [.ofInt v]) :
    ∃ a, x = .ofInt a ∧ ∀ b, run is (above ++ [.ofInt b]) = .ok [.ofInt (v - a + b)] := by
  induction items generalizing is above x with
  | nil =>
    cases hprogram
    cases above with
    | nil =>
      cases h
      exact ⟨v, rfl, fun b => by simp [run]⟩
    | cons y above => cases hsums
  | cons item items ih =>
    obtain ⟨i, js, hitem, hrest, rfl⟩ := program?_cons_ok_iff.mp hprogram
    obtain ⟨next, hstep, hrun⟩ := run_cons_ok_iff.mp h
    -- an instruction that only takes operands from above leaves the one below in its place
    have habove : ∀ above' : List Value, next = above' ++ [x] →
        onlySums above'.length items = true →
        (∀ b : Int, i.step (above ++ [.ofInt b]) = .ok (above' ++ [.ofInt b])) →
        ∃ a, x = .ofInt a ∧
          ∀ b, run (i :: js) (above ++ [.ofInt b]) = .ok [.ofInt (v - a + b)] := by
      rintro above' rfl hsums hsame
      obtain ⟨a, hx, hall⟩ := ih hrest hsums hrun
      exact ⟨a, hx, fun b => run_cons_ok_iff.mpr ⟨_, hsame b, hall b⟩⟩
    cases isPlain_of_accept hd hitem with
    | number n =>
      cases hitem
      cases hstep
      exact habove (.number n :: above) rfl hsums fun _ => rfl
    | sign =>
      obtain rfl : i = .unary .neg := by
        simp only [accept, hd] at hitem
        cases hitem
        rfl
      cases above with
      | nil => cases hsums
      | cons y above =>
        obtain ⟨z, hz, rfl⟩ := step_unary_ok_iff.mp hstep
        exact habove (z :: above) rfl hsums fun b => step_unary_ok_iff.mpr ⟨z, hz, rfl⟩
    | @operation name hname =>
      obtain ⟨op, rfl, rfl⟩ := accept_binary_ok hd hitem
      rcases above with _ | ⟨y, _ | ⟨z, above⟩⟩
      · cases hsums
      · obtain ⟨hop, hsums⟩ := Bool.and_eq_true_iff.mp hsums
        obtain ⟨z, hz, rfl⟩ := step_binary_ok_iff.mp hstep
        -- the operand itself is taken, and what comes out lies below
        obtain ⟨a, rfl, hall⟩ := @ih js hrest [] z hsums hrun
        obtain ⟨c, hx, hother⟩ := apply_eq_ofInt (by simpa using hop) hz
        refine ⟨c, hx, fun b => run_cons_ok_iff.mpr ⟨_, step_binary_ok_iff.mpr
          ⟨_, hother b, rfl⟩, ?_⟩⟩
        have heq : v - c + b = v - a + (a - c + b) := by omega
        rw [heq]
        exact hall _
      · obtain ⟨z', hz', rfl⟩ := step_binary_ok_iff.mp hstep
        exact habove (z' :: above) rfl hsums fun b => step_binary_ok_iff.mpr ⟨z', hz', rfl⟩

/-! ### Another number in front -/

theorem finish_onto {i : Item} {stop : Nat} {items : List Item}
    (h : (r.onto i).finish stop = .ok items) :
    ∃ rest, items = i :: rest ∧ ∀ j stop, (r.onto j).finish stop = .ok (j :: rest) := by
  obtain ⟨hdepth, hcount, rfl⟩ := finish_ok_iff.mp h
  have houtput : ∀ j, (r.onto j).output.reverse ++ (r.onto j).waiting.map (·.1) =
      j :: (r.output.reverse ++ r.waiting.map (·.1)) := by
    intro j
    simp [Reading.onto]
  rw [houtput] at hcount ⊢
  exact ⟨_, rfl, fun j stop => finish_ok_iff.mpr ⟨hdepth, hcount, (houtput j).symm⟩⟩

/-- What is read behind a number is read behind any other one. -/
theorem Accepts.front_number {x : Number} {ls : List Lexeme} {stop : Nat} {items : List Item}
    (h : Accepts {} (.number x :: ls) r) (hfinish : r.finish stop = .ok items) :
    ∃ r₁ rest, Accepts { expect := .operator } ls r₁ ∧ items = .number x :: rest ∧
      ∀ y stop, Accepts {} (.number y :: ls) (r₁.onto (.number y)) ∧
        (r₁.onto (.number y)).finish stop = .ok (.number y :: rest) := by
  have hstart : ∀ y, Advances {} (.number y) (Reading.onto (.number y) { expect := .operator }) :=
    fun y => .number y
  cases h with
  | cons hfirst hrest =>
  cases hfirst with
  | number =>
  change Accepts (Reading.onto (.number x) { expect := .operator }) ls r at hrest
  obtain ⟨r₁, hbehind, rfl⟩ := hrest.of_onto
  obtain ⟨rest, hitems, hall⟩ := finish_onto hfinish
  exact ⟨r₁, rest, hbehind, hitems, fun y stop =>
    ⟨.cons (hstart y) (hbehind.onto (.number y)), hall (.number y) stop⟩⟩

theorem eq_ofInt_of_finiteNumber {expr : String} {v : Value} {n : Int}
    (h : finiteNumber expr v = .ok (.int n)) : v = .ofInt n := by
  unfold finiteNumber at h
  split at h
  · split at h
    · cases h
      rfl
    · cases h
  · split at h <;> cases h
  · cases h

theorem result_ok_iff {is : List Instruction} {v : Value} :
    result is = .ok v ↔ run is [] = .ok [v] := by
  unfold result
  cases run is [] with
  | error e => exact ⟨nofun, nofun⟩
  | ok stack =>
    rcases stack with _ | ⟨x, _ | ⟨y, rest⟩⟩
    · exact ⟨nofun, nofun⟩
    · constructor
      · rintro ⟨⟩
        rfl
      · rintro ⟨⟩
        rfl
    · exact ⟨nofun, nofun⟩

/-- The value of an expression whose first number only sums and differences take, with another
number in its place. -/
theorem evaluate_front (hd : d.functions = false) {expr expr' : String} {a b v : Int}
    {ls : List Lexeme} (hls : readFrom 0 expr.toList = .number (.int a) :: ls)
    (hls' : readFrom 0 expr'.toList = .number (.int b) :: ls)
    {items : List Item} (hitems : postfix? expr.toList = .ok (.number (.int a) :: items))
    (hsums : onlySums 0 items = true) (hblank : isBlankString expr' = false)
    (hsmall : (v - a + b).natAbs < ample) (h : evaluate d expr = .ok (.int v)) :
    evaluate d expr' = .ok (.int (v - a + b)) := by
  obtain ⟨r, items', is, value, haccepts, hfinish, hprogram, hresult, hvalue⟩ :=
    @accepts_of_evaluate d expr hd (by rw [h]; exact nofun)
  rw [h] at hvalue
  obtain rfl := eq_ofInt_of_finiteNumber hvalue
  have hpostfix := postfix?_of_accepts haccepts hfinish
  obtain rfl : .number (.int a) :: items = items' := Except.ok.inj (hitems.symm.trans hpostfix)
  rw [hls] at haccepts
  obtain ⟨r₁, rest, -, hrest, hall⟩ := haccepts.front_number hfinish
  obtain rfl := (List.cons.inj hrest).2
  obtain ⟨haccepts', hfinish'⟩ := hall (.int b) expr'.toList.length
  rw [← hls'] at haccepts'
  obtain ⟨i, js, hi, hjs, rfl⟩ := program?_cons_ok_iff.mp hprogram
  cases hi
  have hprogram' : program? d expr' (.number (.int b) :: items) = .ok (.number (.int b) :: js) :=
    program?_cons_ok_iff.mpr ⟨_, _, rfl, program?_congr hjs expr', rfl⟩
  have hrun : run js [.ofInt a] = .ok [.ofInt v] := result_ok_iff.mp hresult
  obtain ⟨c, hc, hall⟩ := @run_onlySums d hd expr items js hjs [] _ v hsums hrun
  obtain rfl : a = c := by
    cases hc
    rfl
  have hresult' : result (.number (.int b) :: js) = .ok (.ofInt (v - a + b)) :=
    result_ok_iff.mpr (hall b)
  rw [evaluate_of_accepts hblank haccepts' hfinish' hprogram' hresult']
  exact finiteNumber_of_lt_ample hsmall expr'

/-! ### How far the number in front reaches -/

/-- A numeral of digits and points that stands for an integer has no point. -/
theorem plainNumber_int {run : List Char} {m : Int} (h : plainNumber run = .number (.int m)) :
    ∀ c ∈ run, c ≠ '.' := by
  unfold plainNumber at h
  rintro c hc rfl
  have hfull : '.' ∈ (if run.head? == some '.' then '0' :: run else run) := by
    split
    · exact List.mem_cons_of_mem _ hc
    · exact hc
  generalize (if run.head? == some '.' then '0' :: run else run) = full at h hfull
  dsimp only at h
  rw [List.span_eq_takeWhile_dropWhile] at h
  dsimp only at h
  split at h
  · next hnone =>
    have hall := List.dropWhile_eq_nil_iff.mp hnone '.' hfull
    exact absurd hall (by decide)
  · split at h <;> cases h

/-- Only a run of digits is read as an integer. -/
theorem numberAt?_int {ds u : List Char} {m : Int} {n : Nat}
    (hds : ∀ c ∈ ds, c.isDigit = true) (hu : ∀ c ∈ u.head?, c.isDigit = false)
    (h : numberAt? (ds ++ u) = some (.number (.int m), n)) :
    n = ds.length ∧ m = digitsValue ds ∧ ∀ c ∈ u.head?, c ≠ '.' := by
  unfold numberAt? at h
  split at h
  · cases h
  split at h
  · split at h
    all_goals cases h
  dsimp only at h
  rw [List.takeWhile_append_of_pos fun c hc => by rw [hds c hc, Bool.true_or]] at h
  split at h
  · cases h
  obtain ⟨hplain, rfl⟩ := Prod.mk.inj (Option.some.inj h)
  have hpoint : ∀ c ∈ u.head?, c ≠ '.' := by
    rintro c hc rfl
    obtain ⟨v, rfl⟩ := List.head?_eq_some_iff.mp hc
    exact plainNumber_int hplain '.' (by simp) rfl
  have hrun : (u.takeWhile fun c => c.isDigit || c == '.') = [] := by
    cases u with
    | nil => rfl
    | cons c u =>
      refine List.takeWhile_cons_of_neg ?_
      simp [hu c rfl, hpoint c rfl]
  rw [hrun, List.append_nil] at hplain ⊢
  refine ⟨rfl, ?_, hpoint⟩
  rw [plainNumber_run hds] at hplain
  split at hplain
  · cases hplain
    rfl
  · cases hplain

/-- A text that starts with a digit starts with a numeral. -/
theorem numberAt?_digit {c : Char} (hc : c.isDigit = true) (column : Nat) (s : List Char) :
    numberAt? (c :: s) = some (lexemeAt column (c :: s)) := by
  have hnot : ∀ k : Char, k.isDigit = false → c ≠ k := fun k hk => ne_of_apart hc hk
  have hoperator : operatorAt? (c :: s) = none := by
    refine operatorAt?_eq_none (fun hmem => ?_) _
    have hheads : ∀ k ∈ operatorHeads, (!k.isDigit) = true := List.all_eq_true.mp (by decide)
    exact hnot c (by simpa using hheads c hmem) rfl
  have hsome : ∃ p, numberAt? (c :: s) = some p := by
    have hE : ((c :: s).head? == some 'E') = false := by
      refine beq_false_of_ne fun heq => ?_
      exact hnot 'E' (by decide) (Option.some.inj heq)
    unfold numberAt?
    rw [hE]
    simp only [Bool.false_eq_true, if_false]
    split
    · exact ⟨_, rfl⟩
    · rw [List.takeWhile_cons_of_pos (by rw [hc, Bool.true_or])]
      exact ⟨_, rfl⟩
  obtain ⟨p, hp⟩ := hsome
  unfold lexemeAt
  rw [hoperator, hp]
  rfl

/-- The number in front of an expression that is accepted and starts with digits reaches as far as
the digits, if it is an integer. -/
theorem readFrom_front (hd : d.functions = false) {expr : String} {ds u : List Char} {m : Int}
    {items : List Item} (hexpr : expr.toList = ds ++ u) (hne : ds ≠ [])
    (hds : ∀ c ∈ ds, c.isDigit = true) (hu : ∀ c ∈ u.head?, c.isDigit = false)
    (h : ∀ why, evaluate d expr ≠ .error (.formula why))
    (hitems : postfix? expr.toList = .ok (.number (.int m) :: items)) :
    m = digitsValue ds ∧ readFrom 0 expr.toList = .number (.int m) :: readFrom ds.length u ∧
      (∀ c ∈ u.head?, c ≠ '.' ∧ ¬ IsInitial c) ∧
      ∀ column, readFrom column u = readFrom ds.length u := by
  obtain ⟨r, items', is, value, haccepts, hfinish, -⟩ := accepts_of_evaluate hd h
  have hpostfix := postfix?_of_accepts haccepts hfinish
  obtain rfl : .number (.int m) :: items = items' := Except.ok.inj (hitems.symm.trans hpostfix)
  -- what is read first is a numeral, and it is the first entry
  have hfirst : lexemeAt 0 (ds ++ u) = (.number (.int m), ds.length) ∧ m = digitsValue ds ∧
      ∀ c ∈ u.head?, c ≠ '.' := by
    obtain ⟨c, ds', rfl⟩ := List.exists_cons_of_ne_nil hne
    have hnumeral := numberAt?_digit (hds c List.mem_cons_self) 0 (ds' ++ u)
    obtain ⟨ls, hls⟩ := readFrom_cons 0 c (ds' ++ u)
    rw [hexpr, List.cons_append, hls] at haccepts
    rw [List.cons_append]
    generalize lexemeAt 0 (c :: (ds' ++ u)) = p at hnumeral haccepts ⊢
    obtain ⟨l, n⟩ := p
    rcases numberAt?_cases hnumeral with ⟨x, rfl⟩ | ⟨why, rfl⟩
    · obtain ⟨-, rest, -, hrest, -⟩ := haccepts.front_number hfinish
      cases hrest
      obtain ⟨rfl, hvalue, hpoint⟩ := numberAt?_int hds hu hnumeral
      exact ⟨rfl, hvalue, hpoint⟩
    · exact absurd rfl (haccepts.ne_broken _ List.mem_cons_self why)
  obtain ⟨hlexeme, hvalue, hpoint⟩ := hfirst
  have hread := readFrom_append hne (fun _ heq => Lexeme.noConfusion heq) hlexeme
  rw [Nat.zero_add, ← hexpr] at hread
  rw [hread] at haccepts
  obtain ⟨r₁, -, hbehind, -⟩ := haccepts.front_number hfinish
  refine ⟨hvalue, hread, fun c hc => ⟨hpoint c hc, fun hinitial => ?_⟩,
    readFrom_column hbehind.ne_broken⟩
  -- a constant cannot stand where an operator is expected
  exact absurd (hbehind.constant hc hinitial).1 (by decide)

/-- A word with a digit in it that an expression starts with is a numeral, if an integer is the
first entry. -/
theorem isDigit_of_front (hd : d.functions = false) {w u : List Char} {m : Int} {items : List Item}
    (hw : IsWord w) (hu : IsGap u) (hdigit : ∃ c ∈ w, c.isDigit = true)
    (h : ∀ why, evaluate d (String.ofList (w ++ u)) ≠ .error (.formula why))
    (hitems : postfix? (w ++ u) = .ok (.number (.int m) :: items)) :
    ∀ c ∈ w, c.isDigit = true := by
  obtain ⟨ds, rest, rfl, hds, hrest⟩ := exists_run Char.isDigit w
  cases rest with
  | nil =>
    rw [List.append_nil]
    exact hds
  | cons c rest =>
    have hinitial : IsInitial c := ⟨hw.all c (by simp), hrest c rfl⟩
    by_cases hne : ds = []
    · -- a letter or an underscore in front starts a constant, and that has no digits
      subst hne
      obtain ⟨r, items', is, value, haccepts, -⟩ := accepts_of_evaluate hd h
      rw [String.toList_ofList] at haccepts
      obtain ⟨k, hk, hdigit⟩ := hdigit
      have hconstant := haccepts.constant_word hw hu fun k hk => by
        cases hk
        exact hinitial
      rw [List.nil_append] at hk hconstant
      rcases hconstant with heq | heq <;> rw [heq] at hk
      · obtain rfl := List.mem_singleton.mp hk
        exact absurd hdigit (by decide)
      · rcases List.mem_pair.mp hk with rfl | rfl <;> exact absurd hdigit (by decide)
    · have hexpr : (String.ofList (ds ++ c :: rest ++ u)).toList = ds ++ (c :: rest ++ u) := by
        rw [String.toList_ofList, List.append_assoc]
      obtain ⟨-, -, hend, -⟩ := readFrom_front hd hexpr hne hds hrest h
        (by rw [String.toList_ofList]; exact hitems)
      exact absurd hinitial (hend c rfl).2

/-- The value of an expression with digits in front that only sums and differences take, with other
digits in their place. -/
theorem evaluate_digits (hd : d.functions = false) {ds ds' u : List Char} {m v : Int}
    {items : List Item} (hds : IsWord ds) (hdigits : ∀ c ∈ ds, c.isDigit = true)
    (hds' : IsLiteral ds') (hu : IsGap u)
    (hitems : postfix? (ds ++ u) = .ok (.number (.int m) :: items))
    (hsums : onlySums 0 items = true) (hsmall : (v - m + digitsValue ds').natAbs < ample)
    (h : evaluate d (String.ofList (ds ++ u)) = .ok (.int v)) :
    m = digitsValue ds ∧
      evaluate d (String.ofList (ds' ++ u)) = .ok (.int (v - m + digitsValue ds')) := by
  have hgap : ∀ c ∈ u.head?, c.isDigit = false := fun c hc => isDigit_of_not_isWordChar (hu c hc)
  obtain ⟨hm, hread, hend, hcolumn⟩ := readFrom_front hd (String.toList_ofList) hds.ne_nil hdigits
    hgap (by rw [h]; exact nofun) (by rwa [String.toList_ofList])
  refine ⟨hm, ?_⟩
  have hread' : readFrom 0 (ds' ++ u) =
      .number (.int (digitsValue ds')) :: readFrom ds.length u := by
    rw [readFrom_numeral hds' ?_ 0, hcolumn]
    intro c hc
    obtain ⟨hpoint, hinitial⟩ := hend c hc
    have hletter : ∀ k, isWordChar k = true → c ≠ k := fun k hk => (ne_of_apart hk (hu c hc)).symm
    exact endsNumeral_eq_true_iff.mpr ⟨hgap c hc, hpoint, hletter 'e' (by decide),
      hletter 'E' (by decide)⟩
  have hblank : isBlankString (String.ofList (ds' ++ u)) = false := by
    obtain ⟨c, s, rfl⟩ := List.exists_cons_of_ne_nil hds'.ne_nil
    have hc := isWordChar_of_isDigit (hds'.digits c List.mem_cons_self)
    unfold isBlankString isBlankText
    simp [isBlank_of_isWordChar hc]
  refine evaluate_front hd hread ?_ ?_ hsums hblank hsmall h
  · rwa [String.toList_ofList]
  · rwa [String.toList_ofList]

end Kindred.Formula
