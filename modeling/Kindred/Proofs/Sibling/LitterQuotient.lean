import Kindred.Proofs.Formula.Meaning
import Kindred.Proofs.Formula.Numerals
import Kindred.Proofs.Number.Product
import Kindred.Sibling.Litter

/-!
# Quotients as the size of a litter

The size of a litter is rounded up. A division binds more tightly than a multiplication, so in
`a * b / c` the quotient `b / c` is worked out first, and rounded, before it is multiplied. Its
rounding can be enough to make the size one more than the integer above `a * b / c`, or one less. In
`(a * b) / c` the product is worked out first, and the size is the integer above the quotient.

- `HasSize`: litters whose size does not hang on dice or names.
- `evaluate_quotientFirst`, `evaluate_productFirst`: the order in which the operators are applied.
- `hasSize_quotientFirst`, `hasSize_productFirst`: the sizes.
-/

namespace Kindred

open Kindred.Text Kindred.Number Kindred.Formula

variable {s : String} {t : List Char} {a b c n : Nat}

/-! ### Sizes without names and dice -/

/-- Whether a text gives a litter one size, whatever values its names have, if these can be written,
and without a draw. -/
def HasSize (s : String) (n : Nat) : Prop :=
  ∀ (σ : Type) (bs : Bindings) (src : Source σ) (w : World σ), Writable .litterSize bs → ∃ w',
    litterSize s bs src w = .ok n w' ∧ w'.draws = w.draws ∧ w'.chance = w.chance

/-- Whether a number is the integer above what an expression counts as. -/
def GivesSize (value : Except Shortfall Number) (n : Nat) : Prop :=
  ∃ x k, CountsAs value x ∧ x.ceilInt = .ok k ∧ k.toNat = n

/-- A text that is no numeral is worked out and rounded up. -/
theorem litterSize_of_not_isDigits {σ : Type} (bs : Bindings) (hblank : isBlankString s = false)
    (hdigits : isDigits (trim s.toList) = false) : (litterSize s bs : Roll σ Nat) = do
      let result ← evaluateFormula .litterSize bs (String.ofList (trim s.toList))
      return (← Roll.ofExcept result.value.ceilInt).toNat := by
  unfold litterSize
  simp only [hblank, hdigits, Bool.false_eq_true, if_false]

/-- A row with a sign gives a litter the size that its value gives. -/
theorem hasSize_of_givesSize {ts : List Token} (hs : Spaced ts s.toList) (hsign : .star ∈ ts)
    (h : ∀ t, Spaced ts t → GivesSize (evaluate .litterSize (String.ofList t)) n) :
    HasSize s n := by
  intro σ bs src w hbs
  have hts : ts ≠ [] := List.ne_nil_of_mem hsign
  have hbare : Spaced ts (String.ofList (trim s.toList)).toList := by
    rw [String.toList_ofList]
    exact hs.trim
  have hdigits : isDigits (trim s.toList) = false := by
    have hstar : '*' ∈ trim s.toList := hs.trim.mem hsign '*' (List.mem_singleton.mpr rfl)
    refine Bool.eq_false_iff.mpr fun hall => ?_
    have hdecimal := List.all_eq_true.mp (Bool.and_eq_true_iff.mp hall).2 '*' hstar
    exact absurd hdecimal (by decide)
  obtain ⟨x, k, hvalue, hceil, rfl⟩ := h _ hbare.trim
  obtain ⟨e, w', hrun, rfl, hsame⟩ := @evaluateFormula_of_onlyDigits σ .litterSize bs src w
    (by decide) rfl hbs _ hbare.onlyDigits (hbare.isBlankText_eq_false hts) x hvalue
  rw [litterSize_of_not_isDigits bs (hs.isBlankText_eq_false hts) hdigits]
  exact ⟨w', bind_ok_iff.mpr ⟨e, w', hrun,
    bind_pure_ok_iff.mpr ⟨k, Roll.ofExcept_ok_iff.mpr ⟨hceil, rfl⟩, rfl⟩⟩, hsame⟩

/-! ### Values -/

open Token (numeralValue)

theorem givesSize_workedOut {x : Float} {β : Binary} (hx : Binary.ofFloat? x = some β)
    (expr : String) : GivesSize (workedOut expr (.ok (.ofFloat x))) β.ceil.toNat := by
  have hfinite : isFinite x = true := by
    unfold isFinite
    rw [hx]
    rfl
  have hnumber : workedOut expr (.ok (.ofFloat x)) = .ok (.float x) := if_pos hfinite
  have hceil : (Number.float x).ceilInt = .ok β.ceil := by
    show floatToInt Binary.ceil x = _
    unfold floatToInt
    rw [hx]
  exact ⟨_, _, .inl hnumber, hceil, rfl⟩

/-- Whether a number is the integer zero, or zero or undefined as a double. -/
def IsNothing (n : Number) : Prop := n = .int 0 ∨ ∃ x, n = .float x ∧ IsVoid x

/-- Whether a value that is worked out is such a number. -/
def Vanishes (value : Except EvalError Value) : Prop :=
  ∀ v, value = .ok v → ∃ n, v = .number n ∧ IsNothing n

theorem givesSize_of_vanishes {value : Except EvalError Value} (h : Vanishes value)
    (expr : String) : GivesSize (workedOut expr value) 0 := by
  cases hvalue : value with
  | error why => exact ⟨0, 0, .inr ⟨⟨_, rfl⟩, rfl⟩, rfl, rfl⟩
  | ok v =>
    obtain ⟨n, rfl, rfl | ⟨x, rfl, hx⟩⟩ := h v hvalue
    · exact ⟨0, 0, .inl rfl, rfl, rfl⟩
    · cases hparts : Binary.ofFloat? x with
      | none =>
        have hnumber : workedOut expr (.ok (.ofFloat x)) = .error (.formula (.notFinite expr)) := by
          refine if_neg ?_
          unfold isFinite
          rw [hparts]
          exact Bool.false_ne_true
        exact ⟨0, 0, .inr ⟨⟨_, hnumber⟩, rfl⟩, rfl, rfl⟩
      | some β =>
        have hceil := hx.ceil_eq_zero β hparts
        have hsize := givesSize_workedOut hparts expr
        rwa [hceil] at hsize

/-! ### The order of the operators -/

/-- The row `a * b / c`. -/
def quotientFirst (a b c : Nat) : List Token :=
  [.numeral a, .star, .numeral b, .slash, .numeral c]

/-- The row `(a * b) / c`. -/
def productFirst (a b c : Nat) : List Token :=
  [.opening, .numeral a, .star, .numeral b, .closing, .slash, .numeral c]

theorem evaluate_quotientFirst (h : Spaced (quotientFirst a b c) t) :
    evaluate .litterSize (String.ofList t) = workedOut (String.ofList t)
      (((Value.number (numeralValue b)).div (.number (numeralValue c))).bind fun quotient =>
        (Value.number (numeralValue a)).mul quotient) := by
  have hread : Follows {} ((quotientFirst a b c).map Token.lexeme) _ :=
    .cons (fun _ => rfl) (.cons (fun _ => rfl) (.cons (fun _ => rfl) (.cons (fun _ => rfl)
      (.single fun _ => rfl))))
  rw [h.evaluate_eq rfl nofun hread fun _ => rfl]
  refine evaluateItems_eq_workedOut rfl ?_
  show run [.binary .div, .binary .mul] [.number (numeralValue c), .number (numeralValue b),
    .number (numeralValue a)] = _
  rw [run_binary]
  show ((Value.number (numeralValue b)).div (.number (numeralValue c))).bind _ = _
  cases (Value.number (numeralValue b)).div (.number (numeralValue c)) with
  | error why => rfl
  | ok quotient => exact run_binary .mul quotient _ [] []

theorem evaluate_productFirst (h : Spaced (productFirst a b c) t) :
    evaluate .litterSize (String.ofList t) = workedOut (String.ofList t)
      (((Value.number (numeralValue a)).mul (.number (numeralValue b))).bind fun product =>
        product.div (.number (numeralValue c))) := by
  have hread : Follows {} ((productFirst a b c).map Token.lexeme) _ :=
    .cons (fun _ => rfl) (.cons (fun _ => rfl) (.cons (fun _ => rfl) (.cons (fun _ => rfl)
      (.cons (fun _ => rfl) (.cons (fun _ => rfl) (.single fun _ => rfl))))))
  rw [h.evaluate_eq rfl nofun hread fun _ => rfl]
  refine evaluateItems_eq_workedOut rfl ?_
  show run [.binary .mul, .number (numeralValue c), .binary .div] [.number (numeralValue b),
    .number (numeralValue a)] = _
  rw [run_binary]
  show ((Value.number (numeralValue a)).mul (.number (numeralValue b))).bind _ = _
  cases (Value.number (numeralValue a)).mul (.number (numeralValue b)) with
  | error why => rfl
  | ok product => exact run_binary .div (.number (numeralValue c)) product [] []

/-! ### Numerals multiplied and divided -/

theorem numeralValue_of_lt (h : n < 2 ^ 53) : numeralValue n = .int n := by
  have hshort : Short n := short_iff.mpr (Nat.lt_trans h (by decide +kernel))
  exact if_pos hshort

theorem intToFloat_of_lt (h : n < 2 ^ 53) : Value.intToFloat n = .ok (ofInt n) := by
  have hfinite : isFinite (ofInt n) = true := @isFinite_ofInt n 53 (by decide) (by simpa using h)
  unfold Value.intToFloat Number.finiteOfInt?
  simp only [hfinite, if_true]

theorem mul_numeral (h : n < 2 ^ 53) (x : Float) :
    (Value.number (numeralValue n)).mul (.ofFloat x) = .ok (.ofFloat (ofInt n * x)) := by
  rw [numeralValue_of_lt h]
  show (Value.pair (.ofInt n) (.ofFloat x)).bind _ = _
  have hpair : Value.pair (.ofInt n) (.ofFloat x) = .ok (.reals (ofInt n) x) := by
    show (Value.intToFloat n).bind _ = _
    rw [intToFloat_of_lt h]
    rfl
  rw [hpair]
  rfl

/-- The quotient of two integers. -/
theorem div_ofInt (hb : 0 < b) (hc : 0 < c) (hb' : b < 2 ^ 53) (hc' : c < 2 ^ 53) :
    (Value.ofInt b).div (.ofInt c) = .ok (.ofFloat (ofRatio false b c)) := by
  obtain ⟨x, hx, -⟩ := exists_ceil_ofRatio hb hc hb' hc'
  have hfinite : isFinite (ofRatio false b c) = true := by
    unfold isFinite
    rw [hx]
    rfl
  have hsign : ((decide ((b : Int) < 0)) != (decide ((c : Int) < 0))) = false := by
    rw [decide_eq_false (by omega), decide_eq_false (by omega)]
    rfl
  show Value.divInts b c = _
  unfold Value.divInts
  rw [if_neg (by omega)]
  simp only [hsign, Int.natAbs_natCast, hfinite, if_true]

/-- A quotient, and a product with it. -/
theorem quotient_mul (ha' : a < 2 ^ 53) (hb : 0 < b) (hb' : b < 2 ^ 53) (hc : 0 < c)
    (hc' : c < 2 ^ 53) : ((Value.number (numeralValue b)).div (.number (numeralValue c))).bind
      (Value.number (numeralValue a)).mul = .ok (.ofFloat (ofInt a * ofRatio false b c)) := by
  have hdiv : (Value.number (numeralValue b)).div (.number (numeralValue c)) =
      .ok (.ofFloat (ofRatio false b c)) := by
    rw [numeralValue_of_lt hb', numeralValue_of_lt hc']
    exact div_ofInt hb hc hb' hc'
  rw [hdiv]
  exact mul_numeral ha' _

/-- A product, and its quotient. -/
theorem mul_quotient (ha : 0 < a) (hb : 0 < b) (hc : 0 < c) (hab : a * b < 2 ^ 53)
    (hc' : c < 2 ^ 53) : ((Value.number (numeralValue a)).mul (.number (numeralValue b))).bind
      (fun product => product.div (.number (numeralValue c))) =
        .ok (.ofFloat (ofRatio false (a * b) c)) := by
  have ha' : a ≤ a * b := Nat.le_mul_of_pos_right a hb
  have hb' : b ≤ a * b := Nat.le_mul_of_pos_left b ha
  rw [numeralValue_of_lt (n := a) (by omega), numeralValue_of_lt (n := b) (by omega),
    numeralValue_of_lt hc']
  exact div_ofInt (Nat.mul_pos ha hb) hc hab hc'

/-! ### Zero multiplied and divided -/

variable {m n : Number}

theorem isVoid_of_isNothing (h : IsNothing n) {x : Float} (hx : Value.numberToFloat n = .ok x) :
    IsVoid x := by
  rcases h with rfl | ⟨y, rfl, hy⟩
  · cases hx
    exact isVoid_assemble_zero false
  · cases hx
    exact hy

/-- Two numbers are worked with as integers if they both are, and as doubles else. -/
theorem pair_numbers {p : Value.Pair} (h : Value.pair (.number m) (.number n) = .ok p) :
    (∃ i j, m = .int i ∧ n = .int j ∧ p = .ints i j) ∨
      ∃ x y, Value.numberToFloat m = .ok x ∧ Value.numberToFloat n = .ok y ∧ p = .reals x y := by
  have hreals : (do
        return Value.Pair.reals (← Value.numberToFloat m) (← Value.numberToFloat n)) = .ok p →
      ∃ x y, Value.numberToFloat m = .ok x ∧ Value.numberToFloat n = .ok y ∧ p = .reals x y := by
    intro h
    obtain ⟨x, hx, h⟩ := except_bind_ok_iff.mp h
    obtain ⟨y, hy, ⟨⟩⟩ := except_bind_ok_iff.mp h
    exact ⟨x, y, hx, hy, rfl⟩
  cases m with
  | int i =>
    cases n with
    | int j =>
      cases h
      exact .inl ⟨i, j, rfl, rfl, rfl⟩
    | float y => exact .inr (hreals h)
  | float x => cases n <;> exact .inr (hreals h)

theorem vanishes_mul (h : IsNothing m ∨ IsNothing n) :
    Vanishes ((Value.number m).mul (.number n)) := by
  intro v hv
  obtain ⟨p, hp, hv⟩ := except_bind_ok_iff.mp hv
  rcases pair_numbers hp with ⟨i, j, rfl, rfl, rfl⟩ | ⟨x, y, hx, hy, rfl⟩
  · cases hv
    have hzero : i * j = 0 := by
      rcases h with (h | ⟨x, h, -⟩) | (h | ⟨x, h, -⟩)
      · cases h
        exact Int.zero_mul j
      · cases h
      · cases h
        exact Int.mul_zero i
      · cases h
    exact ⟨_, rfl, .inl (congrArg _ hzero)⟩
  · cases hv
    refine ⟨_, rfl, .inr ⟨_, rfl, ?_⟩⟩
    rcases h with h | h
    · exact (isVoid_of_isNothing h hx).mul_left y
    · exact (isVoid_of_isNothing h hy).mul_right x

/-- A quotient is a double, and that of zero is zero. -/
theorem div_ok {v : Value} (hv : (Value.number m).div (.number n) = .ok v) :
    ∃ z, v = .ofFloat z ∧ (IsNothing m → IsVoid z) := by
  obtain ⟨p, hp, hv⟩ := except_bind_ok_iff.mp hv
  rcases pair_numbers hp with ⟨i, j, rfl, rfl, rfl⟩ | ⟨x, y, hx, hy, rfl⟩
  · change Value.divInts i j = .ok v at hv
    unfold Value.divInts at hv
    split at hv
    · cases hv
    · dsimp only at hv
      split at hv
      · cases hv
        refine ⟨_, rfl, ?_⟩
        rintro (h | ⟨x, h, -⟩)
        · cases h
          exact isVoid_assemble_zero _
        · cases h
      · cases hv
  · change (if y == 0 then Except.error _ else Except.ok (Value.ofFloat (x / y))) = .ok v at hv
    split at hv
    · cases hv
    · cases hv
      exact ⟨_, rfl, fun h => (isVoid_of_isNothing h hx).div y⟩

theorem isNothing_numeralValue (h : a * b = 0) :
    IsNothing (numeralValue a) ∨ IsNothing (numeralValue b) := by
  have hzero : IsNothing (numeralValue 0) := .inl (numeralValue_of_lt (by decide))
  rcases Nat.mul_eq_zero.mp h with rfl | rfl
  · exact .inl hzero
  · exact .inr hzero

/-! ### The sizes -/

theorem ceil_zero_div (h : a * b = 0) : ⌈((a * b : Nat) : ℚ) / c⌉₊ = 0 := by
  rw [h, Nat.cast_zero, zero_div, Nat.ceil_zero]

/-- **A product with a quotient as the size of a litter.** However `a * b / c` is written, with
blanks or without, the size that it gives is the integer above it, but for two cases: it can be one
more if the quotient is whole and `b / c` is no double, and one less past 2 ^ 52. -/
theorem hasSize_quotientFirst (hc : 0 < c) (hab : a * b < 2 ^ 53) (hc' : c < 2 ^ 53)
    (hs : Spaced (quotientFirst a b c) s.toList) : ∃ n, HasSize s n ∧ CeilOfProduct a b c n := by
  have hsign : Token.star ∈ quotientFirst a b c := List.mem_cons_of_mem _ List.mem_cons_self
  rcases Nat.eq_zero_or_pos (a * b) with hzero | hpos
  · refine ⟨0, hasSize_of_givesSize hs hsign fun t ht => ?_, .inl (ceil_zero_div hzero).symm⟩
    rw [evaluate_quotientFirst ht]
    refine givesSize_of_vanishes (fun v hv => ?_) _
    obtain ⟨quotient, hquotient, hv⟩ := except_bind_ok_iff.mp hv
    obtain ⟨z, rfl, hz⟩ := div_ok hquotient
    exact vanishes_mul ((isNothing_numeralValue hzero).imp_right
      fun hb => .inr ⟨z, rfl, hz hb⟩) v hv
  · have ha : 0 < a := Nat.pos_of_mul_pos_right hpos
    have hb : 0 < b := Nat.pos_of_mul_pos_left hpos
    have ha' : a ≤ a * b := Nat.le_mul_of_pos_right a hb
    have hb' : b ≤ a * b := Nat.le_mul_of_pos_left b ha
    obtain ⟨x, hx, hceil⟩ := exists_ceilOfProduct ha hb hc hab hc'
    refine ⟨x.ceil.toNat, hasSize_of_givesSize hs hsign fun t ht => ?_, hceil⟩
    rw [evaluate_quotientFirst ht, quotient_mul (by omega) hb (by omega) hc hc']
    exact givesSize_workedOut hx _

/-- Eighteen over four, with blanks: two over four is a double. -/
theorem hasSize_quotientFirst_spaced : Spaced (quotientFirst 9 2 4) " 9 *2/ 4".toList ∧
    0 < 4 ∧ 9 * 2 < 2 ^ 53 ∧ 4 < 2 ^ 53 ∧ ∃ n, HasSize " 9 *2/ 4" n ∧ CeilOfProduct 9 2 4 n := by
  have hs : Spaced (quotientFirst 9 2 4) " 9 *2/ 4".toList :=
    @Spaced.of_blanks [([' '], .numeral 9), ([' '], .star), ([], .numeral 2), ([], .slash),
      ([' '], .numeral 4)] [] (by decide) rfl
  exact ⟨hs, by decide, by decide, by decide,
    hasSize_quotientFirst (by decide) (by decide) (by decide) hs⟩

/-- Seven over twenty-five is no double. It is rounded up, and twenty-five times the double is
rounded to the double behind seven, so the size is eight. -/
theorem hasSize_quotientFirst_rounded_up :
    Spaced (quotientFirst 25 7 25) "25*7/25".toList ∧ 25 * 7 < 2 ^ 53 ∧ 25 < 2 ^ 53 ∧
      ⌈((25 * 7 : Nat) : ℚ) / (25 : Nat)⌉₊ = 7 ∧ HasSize "25*7/25" 8 := by
  have hs : Spaced (quotientFirst 25 7 25) "25*7/25".toList :=
    @Spaced.of_blanks [([], .numeral 25), ([], .star), ([], .numeral 7), ([], .slash),
      ([], .numeral 25)] [] (by decide) rfl
  have hproduct : Binary.ofFloat? (ofInt 25 * ofRatio false 7 25) =
      some ⟨false, 7881299347898369, -50⟩ := by rfl
  refine ⟨hs, by decide, by decide, by norm_num, hasSize_of_givesSize hs (by decide) fun t ht => ?_⟩
  rw [evaluate_quotientFirst ht, quotient_mul (a := 25) (by decide) (by decide) (by decide)
    (by decide) (by decide)]
  exact givesSize_workedOut hproduct _

/-- **A quotient of a product as the size of a litter.** The size that `(a * b) / c` gives is the
integer above it. -/
theorem hasSize_productFirst (hc : 0 < c) (hab : a * b < 2 ^ 53) (hc' : c < 2 ^ 53)
    (hs : Spaced (productFirst a b c) s.toList) : HasSize s ⌈((a * b : Nat) : ℚ) / c⌉₊ := by
  have hsign : Token.star ∈ productFirst a b c :=
    List.mem_cons_of_mem _ (List.mem_cons_of_mem _ List.mem_cons_self)
  refine hasSize_of_givesSize hs hsign fun t ht => ?_
  rw [evaluate_productFirst ht]
  rcases Nat.eq_zero_or_pos (a * b) with hzero | hpos
  · rw [ceil_zero_div hzero]
    refine givesSize_of_vanishes (fun v hv => ?_) _
    obtain ⟨product, hproduct, hv⟩ := except_bind_ok_iff.mp hv
    obtain ⟨n, rfl, hn⟩ := vanishes_mul (isNothing_numeralValue hzero) product hproduct
    obtain ⟨z, rfl, hz⟩ := div_ok hv
    exact ⟨_, rfl, .inr ⟨z, rfl, hz hn⟩⟩
  · have ha : 0 < a := Nat.pos_of_mul_pos_right hpos
    have hb : 0 < b := Nat.pos_of_mul_pos_left hpos
    obtain ⟨x, hx, hceil⟩ := exists_ceil_ofRatio hpos hc hab hc'
    rw [mul_quotient ha hb hc hab hc', ← hceil]
    exact givesSize_workedOut hx _

end Kindred
