import Kindred.Number.Shortest
import Kindred.Proofs.Number.Nearest
import Kindred.Proofs.Text.Numeral

/-!
# The shortest digits of a double are read back

Seventeen digits tell a double from its neighbours, so the search for the fewest digits that do so
ends with digits that are read as the double they were found for.

- `Decimal.value`, `toFloat_congr`: numerals of the same value are read alike.
- `toFloat_of_near`: a numeral close to a double is read as that double.
- `isSome_onGrid?_seventeen`: seventeen digits suffice.
- `toFloat_shortest`: the digits that are found are read back.
-/

namespace Kindred.Number

open Kindred.Text

variable {num den : Nat}

/-! ### How many digits a number has -/

theorem ten_pow_ne_zero (e : Int) : (10 : ℚ) ^ e ≠ 0 := zpow_ne_zero e (by norm_num)

theorem ten_pow_pos (e : Int) : (0 : ℚ) < 10 ^ e := zpow_pos (by norm_num) e

/-- A power of ten just above a quotient, with the next lower one not above it. -/
def IsPlace (q : ℚ) (p : Int) : Prop := 10 ^ (p - 1) ≤ q ∧ q < 10 ^ p

theorem IsPlace.unique {q : ℚ} {p p' : Int} (h : IsPlace q p) (h' : IsPlace q p') : p = p' := by
  have hle : ∀ {a b : Int}, IsPlace q a → IsPlace q b → a ≤ b := by
    intro a b ha hb
    have hpow := lt_of_le_of_lt ha.1 hb.2
    have hexp := (zpow_lt_zpow_iff_right₀ (by norm_num : (1 : ℚ) < 10)).mp hpow
    omega
  exact Int.le_antisymm (hle h h') (hle h' h)

theorem isPlace_digitCount {n : Nat} (hn : 0 < n) : IsPlace (n : ℚ) (digitCount n) := by
  have hcount : digitCount n = (natText n).length := if_neg (by omega)
  have hpos : 0 < (natText n).length := List.length_pos_iff.mpr (natText_ne_nil n)
  have hhigh : n < 10 ^ (natText n).length := (length_natText_le_iff hpos).mp (Nat.le_refl _)
  have hlow : 10 ^ ((natText n).length - 1) ≤ n := by
    by_contra hlt
    rcases Nat.eq_zero_or_pos ((natText n).length - 1) with hone | hmore
    · rw [hone] at hlt
      omega
    · have h := (@length_natText_le_iff n _ hmore).mpr (not_le.mp hlt)
      omega
  rw [hcount]
  constructor
  · rw [show (((natText n).length : Nat) : Int) - 1 = ((natText n).length - 1 : Nat) by omega,
      zpow_natCast]
    exact_mod_cast hlow
  · rw [zpow_natCast]
    exact_mod_cast hhigh

/-- A number of units has as many digits more as the unit has zeros. -/
theorem IsPlace.mul_pow {q : ℚ} {p : Int} (h : IsPlace q p) (e : Int) :
    IsPlace (q * 10 ^ e) (p + e) := by
  have hten : (10 : ℚ) ≠ 0 := by norm_num
  constructor
  · rw [show p + e - 1 = p - 1 + e by omega, zpow_add₀ hten]
    exact mul_le_mul_of_nonneg_right h.1 (ten_pow_pos e).le
  · rw [zpow_add₀ hten]
    exact mul_lt_mul_of_pos_right h.2 (ten_pow_pos e)

theorem inUnits_eq (num den : Nat) (unit : Int) :
    inUnits num den unit = scaled 10 num den unit := by
  cases unit <;> rfl

/-- The place of the point, told by the numbers of digits; it may be the place behind. -/
def guessPlace (num den : Nat) : Int := (digitCount num : Int) - digitCount den

theorem pointPlace_eq (num den : Nat) : pointPlace num den =
    if (scaled 10 num den (guessPlace num den)).2 ≤ (scaled 10 num den (guessPlace num den)).1 then
      guessPlace num den + 1 else guessPlace num den := by
  unfold pointPlace guessPlace
  dsimp only
  cases (digitCount num : Int) - digitCount den with
  | ofNat k => exact if_congr decide_eq_true_iff rfl rfl
  | negSucc k => exact if_congr decide_eq_true_iff rfl rfl

/-- The numbers of digits tell a quotient up to a factor of a hundred. -/
theorem zpow_guessPlace_le (hnum : 0 < num) (hden : 0 < den) :
    (10 : ℚ) ^ (guessPlace num den - 1) ≤ num / den := by
  have hsplit : (10 : ℚ) ^ ((digitCount num : Int) - 1) =
      10 ^ (guessPlace num den - 1) * 10 ^ (digitCount den : Int) := by
    rw [← zpow_add₀ (by norm_num)]
    congr 1
    unfold guessPlace
    omega
  rw [le_div_iff₀ (Nat.cast_pos.mpr hden)]
  calc (10 : ℚ) ^ (guessPlace num den - 1) * den
      ≤ 10 ^ (guessPlace num den - 1) * 10 ^ (digitCount den : Int) :=
        mul_le_mul_of_nonneg_left (isPlace_digitCount hden).2.le (ten_pow_pos _).le
    _ = 10 ^ ((digitCount num : Int) - 1) := hsplit.symm
    _ ≤ num := (isPlace_digitCount hnum).1

theorem lt_zpow_guessPlace (hnum : 0 < num) (hden : 0 < den) :
    (num : ℚ) / den < 10 ^ (guessPlace num den + 1) := by
  have hsplit : (10 : ℚ) ^ (digitCount num : Int) =
      10 ^ (guessPlace num den + 1) * 10 ^ ((digitCount den : Int) - 1) := by
    rw [← zpow_add₀ (by norm_num)]
    congr 1
    unfold guessPlace
    omega
  rw [div_lt_iff₀ (Nat.cast_pos.mpr hden)]
  calc (num : ℚ) < 10 ^ (digitCount num : Int) := (isPlace_digitCount hnum).2
    _ = 10 ^ (guessPlace num den + 1) * 10 ^ ((digitCount den : Int) - 1) := hsplit
    _ ≤ 10 ^ (guessPlace num den + 1) * den :=
        mul_le_mul_of_nonneg_left (isPlace_digitCount hden).1 (ten_pow_pos _).le

/-- The place of the point is told by the size of the quotient. -/
theorem isPlace_pointPlace (hnum : 0 < num) (hden : 0 < den) :
    IsPlace ((num : ℚ) / den) (pointPlace num den) := by
  have hlow := zpow_guessPlace_le hnum hden
  have hhigh := lt_zpow_guessPlace hnum hden
  rw [pointPlace_eq]
  generalize guessPlace num den = g at hlow hhigh ⊢
  have hunit : (scaled 10 num den g).2 ≤ (scaled 10 num den g).1 ↔ (10 : ℚ) ^ g ≤ num / den := by
    have h := @le_scaled_iff 10 num den g (by decide) hden 1
    rw [Nat.mul_one, Nat.cast_one, one_mul] at h
    exact_mod_cast h
  by_cases hreached : (scaled 10 num den g).2 ≤ (scaled 10 num den g).1
  · rw [if_pos hreached]
    refine ⟨?_, hhigh⟩
    rw [Int.add_sub_cancel]
    exact hunit.mp hreached
  · rw [if_neg hreached]
    exact ⟨hlow, not_le.mp fun h => hreached (hunit.mpr h)⟩

/-! ### Reading numerals -/

namespace Decimal

/-- The magnitude that a numeral writes. -/
def value (d : Decimal) : ℚ := d.digits * 10 ^ d.exponent

/-- The magnitude as a quotient. -/
def ratio (d : Decimal) : Nat × Nat :=
  match d.exponent with
  | .ofNat e => (d.digits * Nat.pow 10 e, 1)
  | .negSucc e => (d.digits, Nat.pow 10 (e + 1))

theorem ratio_eq (d : Decimal) : d.ratio = powered 10 d.digits d.exponent := by
  unfold ratio
  cases d.exponent <;> rfl

theorem ratio_pos (d : Decimal) : 0 < d.ratio.2 := by
  rw [ratio_eq]
  exact powered_pos (by decide) _ _

theorem ratio_value (d : Decimal) : (d.ratio.1 : ℚ) / d.ratio.2 = d.value := by
  rw [ratio_eq, powered_value, value, Nat.cast_ofNat]

/-- The power of ten just above a numeral. -/
def top (d : Decimal) : Int := digitCount d.digits + d.exponent

theorem isPlace_top {d : Decimal} (hd : 0 < d.digits) : IsPlace d.value d.top :=
  (isPlace_digitCount hd).mul_pow d.exponent

theorem toFloat_eq (d : Decimal) : d.toFloat =
    if d.digits = 0 ∨ d.top < -330 then assemble d.negative 0 0
    else if 310 < d.top then infinity d.negative
    else ofRatio d.negative d.ratio.1 d.ratio.2 := by
  unfold toFloat ratio top
  dsimp only
  cases d.exponent <;> simp only [Bool.or_eq_true, decide_eq_true_eq]

/-- Numerals of the same value are read as the same double. -/
theorem toFloat_congr {d d' : Decimal} (hnegative : d.negative = d'.negative)
    (h : d.value = d'.value) : d.toFloat = d'.toFloat := by
  have hzero : d.digits = 0 ↔ d'.digits = 0 := by
    have hiff : ∀ d : Decimal, d.digits = 0 ↔ d.value = 0 := by
      intro d
      unfold value
      rw [mul_eq_zero, Nat.cast_eq_zero]
      exact ⟨.inl, fun h => h.resolve_right (ten_pow_ne_zero _)⟩
    rw [hiff d, hiff d', h]
  rw [toFloat_eq, toFloat_eq]
  by_cases hd : d.digits = 0
  · rw [if_pos (.inl hd), if_pos (.inl (hzero.mp hd)), hnegative]
  · have hd' : d'.digits ≠ 0 := fun h => hd (hzero.mpr h)
    have htop : d.top = d'.top :=
      (h ▸ isPlace_top (Nat.pos_of_ne_zero hd)).unique (isPlace_top (Nat.pos_of_ne_zero hd'))
    have hratio : ofRatio d.negative d.ratio.1 d.ratio.2 =
        ofRatio d'.negative d'.ratio.1 d'.ratio.2 := by
      rw [hnegative]
      exact ofRatio_congr d.ratio_pos d'.ratio_pos (by rw [ratio_value, ratio_value, h])
    rw [hratio, htop, hnegative]
    simp only [hd, hd', false_or]

/-- Powers of two and ten compared by their fifth roots, which are small enough to be computed. -/
theorem two_pow_lt_ten_pow {k l : Nat} (h : (2 : ℚ) ^ k < 10 ^ l) :
    (2 : ℚ) ^ ((k * 5 : Nat) : Int) < 10 ^ ((l * 5 : Nat) : Int) := by
  rw [zpow_natCast, zpow_natCast, pow_mul, pow_mul]
  exact pow_lt_pow_left₀ h (by positivity) (by decide)

/-- A numeral that is not below one half of the least double is not read as zero. -/
theorem not_top_lt {d : Decimal} (hd : 0 < d.digits) (h : (2 : ℚ) ^ (-1075 : Int) ≤ d.value) :
    ¬ d.top < -330 := by
  intro htop
  have hvalue : d.value < 10 ^ (-330 : Int) :=
    (isPlace_top hd).2.trans_le (zpow_le_zpow_right₀ (by norm_num) (by omega))
  have hbase : (2 : ℚ) ^ (1075 : Int) < 10 ^ (330 : Int) :=
    two_pow_lt_ten_pow (k := 215) (l := 66) (by norm_num)
  have hinv := inv_strictAnti₀ (zpow_pos (by norm_num) _) hbase
  rw [← zpow_neg, ← zpow_neg] at hinv
  exact absurd (h.trans_lt hvalue) (not_lt.mpr hinv.le)

/-- A numeral that is not above twice the greatest double is not read as infinite by its length. -/
theorem not_lt_top {d : Decimal} (hd : 0 < d.digits) (h : d.value ≤ 2 ^ (1025 : Int)) :
    ¬ 310 < d.top := by
  intro htop
  have hvalue : (10 : ℚ) ^ (310 : Int) ≤ d.value :=
    (zpow_le_zpow_right₀ (by norm_num) (by omega)).trans (isPlace_top hd).1
  have hbase : (2 : ℚ) ^ (1025 : Int) < 10 ^ (310 : Int) :=
    two_pow_lt_ten_pow (k := 205) (l := 62) (by norm_num)
  exact absurd (hvalue.trans h) (not_le.mpr hbase)

/-- A numeral that differs from a double by at most a part in 2 · 10¹⁶ is read as that double. -/
theorem toFloat_of_near {d : Decimal} {b : Binary} (hb : b.IsCanonical) (hm : 0 < b.mantissa)
    (hlow : (b.mantissa : ℚ) * 2 ^ b.exponent * (1 - 1 / (2 * 10 ^ 16)) ≤ d.value)
    (hhigh : d.value ≤ b.mantissa * 2 ^ b.exponent * (1 + 1 / (2 * 10 ^ 16))) :
    d.toFloat = assemble d.negative b.mantissa b.exponent := by
  have hunit : (0 : ℚ) < 2 ^ b.exponent := zpow_pos (by norm_num) _
  have hmpos : (1 : ℚ) ≤ b.mantissa := by exact_mod_cast hm
  have hmle : (b.mantissa : ℚ) ≤ 9007199254740992 := by
    have h := hb.mantissa_lt
    have h' : b.mantissa ≤ 9007199254740992 := by omega
    exact_mod_cast h'
  have hleast : (2 : ℚ) ^ (-1075 : Int) ≤ d.value := by
    refine le_trans ?_ hlow
    rw [show (-1075 : Int) = -1074 - 1 by norm_num, zpow_sub_one₀ (by norm_num)]
    have hmin : (2 : ℚ) ^ (-1074 : Int) ≤ 2 ^ b.exponent :=
      zpow_le_zpow_right₀ (by norm_num) hb.exponent_ge
    refine mul_le_mul ?_ (by norm_num) (by norm_num) (by positivity)
    exact hmin.trans (le_mul_of_one_le_left hunit.le hmpos)
  have hmost : d.value ≤ 2 ^ (1025 : Int) := by
    refine hhigh.trans ?_
    rw [show (1025 : Int) = 53 + 971 + 1 by norm_num, zpow_add_one₀ (by norm_num),
      zpow_add₀ (by norm_num)]
    refine mul_le_mul ?_ (by norm_num) (by norm_num) (by positivity)
    refine mul_le_mul ?_ ?_ hunit.le (by positivity)
    · exact hmle.trans_eq (by norm_num)
    · exact zpow_le_zpow_right₀ (by norm_num) hb.exponent_le
  -- so it is neither below all doubles nor above them, and is rounded as a quotient
  have hdigits : 0 < d.digits := by
    refine Nat.pos_of_ne_zero fun hzero => ?_
    rw [value, hzero, Nat.cast_zero, zero_mul] at hleast
    exact absurd (zpow_pos (by norm_num) _) (not_lt.mpr hleast)
  rw [toFloat_eq, if_neg (not_or.mpr ⟨Nat.ne_of_gt hdigits, not_top_lt hdigits hleast⟩),
    if_neg (not_lt_top hdigits hmost)]
  rw [← ratio_value] at hlow hhigh
  exact ofRatio_of_near d.ratio_pos hm hb.mantissa_lt hb.exponent_ge hb.last hlow hhigh

end Decimal

/-! ### The sign -/

/-- What is read as a double is put together from parts that do not depend on its sign. -/
theorem ofRatio_eq_assemble (num den : Nat) :
    ∃ m e, ∀ negative, ofRatio negative num den = assemble negative m e := by
  by_cases hzero : num = 0 ∨ den = 0
  · refine ⟨0, 0, fun negative => if_pos ?_⟩
    simpa using hzero
  · exact ⟨nearMantissa num den, lastBit num den, fun negative =>
      ofRatio_eq (Nat.pos_of_ne_zero fun h => hzero (.inl h))
        (Nat.pos_of_ne_zero fun h => hzero (.inr h))⟩

theorem Decimal.toFloat_eq_assemble (digits : Nat) (exponent : Int) :
    ∃ m e, ∀ negative, toFloat ⟨negative, digits, exponent⟩ = assemble negative m e := by
  by_cases hzero : digits = 0 ∨ (digitCount digits : Int) + exponent < -330
  · exact ⟨0, 0, fun negative => (toFloat_eq _).trans (if_pos hzero)⟩
  by_cases hlarge : 310 < (digitCount digits : Int) + exponent
  · exact ⟨Nat.pow 2 52, 972, fun negative =>
      (toFloat_eq _).trans ((if_neg hzero).trans (if_pos hlarge))⟩
  · obtain ⟨m, e, h⟩ := ofRatio_eq_assemble (ratio ⟨false, digits, exponent⟩).1
      (ratio ⟨false, digits, exponent⟩).2
    exact ⟨m, e, fun negative =>
      (toFloat_eq _).trans ((if_neg hzero).trans ((if_neg hlarge).trans (h negative)))⟩

/-- The bits of a double without its sign. -/
def magnitudeBits (m : Nat) (e : Int) : Nat :=
  min ((if m < Nat.pow 2 52 then 0 else (e + 1074).toNat) * Nat.pow 2 52 + m) (2047 * Nat.pow 2 52)

theorem assemble_eq (negative : Bool) (m : Nat) (e : Int) : assemble negative m e =
    Float.ofBits (UInt64.ofNat ((if negative then Nat.pow 2 63 else 0) + magnitudeBits m e)) :=
  rfl

/-- The bits of a double that is not negative, infinity included. -/
theorem toBits_assemble (m : Nat) (e : Int) :
    (assemble false m e).toBits.toNat = magnitudeBits m e := by
  have hcap : 2047 * Nat.pow 2 52 = 0x7FF0000000000000 := rfl
  have hle : magnitudeBits m e ≤ 0x7FF0000000000000 := hcap ▸ Nat.min_le_right _ _
  rw [assemble_eq, if_neg Bool.false_ne_true, Nat.zero_add]
  have hbits : (UInt64.ofNat (magnitudeBits m e)).toNat = magnitudeBits m e := by
    refine UInt64.toNat_ofNat_of_lt' ?_
    show _ < 18446744073709551616
    omega
  rcases Nat.lt_or_eq_of_le hle with hlt | heq
  · rw [toBits_ofBits (by rw [hbits]; omega), hbits]
  · rw [heq]
    rfl

/-- Two magnitudes that are the same double are so with a sign, too. -/
theorem assemble_congr {m m' : Nat} {e e' : Int}
    (h : (assemble false m e).toBits = (assemble false m' e').toBits) (negative : Bool) :
    assemble negative m e = assemble negative m' e' := by
  have hbits : magnitudeBits m e = magnitudeBits m' e' := by
    rw [← toBits_assemble, h, toBits_assemble]
  rw [assemble_eq, assemble_eq, hbits]

/-! ### The search for the fewest digits -/

/-- What is found on a grid reads back. -/
theorem toBits_of_onGrid? {x : Float} {num den k : Nat} {unit : Int}
    (h : onGrid? x num den unit = some k) :
    (Decimal.toFloat ⟨false, k, unit⟩).toBits = x.toBits := by
  unfold onGrid? at h
  dsimp only at h
  have hreads := List.find?_some h
  exact beq_iff_eq.mp hreads

/-- Something is found on a grid if the nearer neighbour on it reads back. -/
theorem isSome_onGrid? {x : Float} {num den : Nat} {unit : Int}
    (h : Decimal.toFloat ⟨false, roundDivEven (scaled 10 num den unit).1
      (scaled 10 num den unit).2, unit⟩ = x) : (onGrid? x num den unit).isSome = true := by
  unfold onGrid?
  rw [inUnits_eq]
  dsimp only
  rw [List.find?_cons_of_pos (by rw [h]; exact beq_self_eq_true _)]
  rfl

/-- Seventeen digits tell a double from all others. -/
theorem isSome_onGrid?_seventeen {num den : Nat} {b : Binary} (hb : b.IsCanonical)
    (hm : 0 < b.mantissa) (hnum : 0 < num) (hden : 0 < den)
    (hvalue : (num : ℚ) / den = b.mantissa * 2 ^ b.exponent) :
    (onGrid? (assemble false b.mantissa b.exponent) num den
      (pointPlace num den - 17)).isSome = true := by
  obtain ⟨hplace, -⟩ := isPlace_pointPlace hnum hden
  generalize pointPlace num den = p at hplace
  have hunit := ten_pow_pos (p - 17)
  refine isSome_onGrid? ?_
  generalize hk : roundDivEven (scaled 10 num den (p - 17)).1 (scaled 10 num den (p - 17)).2 = k
  obtain ⟨hlow, hhigh⟩ := @roundDivEven_near (scaled 10 num den (p - 17)).1
    (scaled 10 num den (p - 17)).2 (scaled_pos (by decide) hden)
  rw [hk, scaled_value (by decide) hden, Nat.cast_ofNat] at hlow hhigh
  -- half a unit is small against the quotient, which has seventeen digits
  obtain ⟨t, ht⟩ : ∃ t : ℚ, (num : ℚ) / den = t * 10 ^ (p - 17) :=
    ⟨num / den / 10 ^ (p - 17), by field_simp⟩
  rw [ht, mul_div_cancel_right₀ _ hunit.ne'] at hlow hhigh
  have hdigits : (10000000000000000 : ℚ) ≤ t := by
    rw [ht, show p - 1 = 16 + (p - 17) by omega, zpow_add₀ (by norm_num)] at hplace
    have h := le_of_mul_le_mul_right hplace hunit
    norm_num at h
    exact h
  refine Decimal.toFloat_of_near hb hm ?_ ?_
  · rw [← hvalue, ht, Decimal.value, mul_right_comm]
    refine mul_le_mul_of_nonneg_right ?_ hunit.le
    norm_num
    linarith
  · rw [← hvalue, ht, Decimal.value, mul_right_comm]
    refine mul_le_mul_of_nonneg_right ?_ hunit.le
    norm_num
    linarith

/-- Dropping zeros keeps the value. -/
theorem value_dropZeros (negative : Bool) (fuel n : Nat) (e : Int) :
    Decimal.value ⟨negative, (dropZeros fuel n e).1, (dropZeros fuel n e).2⟩ =
      Decimal.value ⟨negative, n, e⟩ := by
  induction fuel generalizing n e with
  | zero => rfl
  | succ fuel ih =>
    unfold dropZeros
    split
    · next h =>
      rw [Bool.and_eq_true, beq_iff_eq] at h
      rw [ih]
      unfold Decimal.value
      dsimp only
      have hten : n / 10 * 10 = n := Nat.div_mul_cancel (Nat.dvd_of_mod_eq_zero h.1)
      rw [zpow_add_one₀ (by norm_num), mul_comm ((10 : ℚ) ^ e), ← mul_assoc]
      congr 1
      exact_mod_cast hten
    · rfl

/-- The search ends with digits that read back, if there are such within its reach. -/
theorem toBits_searchGrid {x : Float} {num den : Nat} {place : Int} (fuel n k : Nat)
    (hreach : n ≤ k ∧ k < n + fuel) (h : (onGrid? x num den (place - k)).isSome = true) :
    (Decimal.toFloat ⟨false, (searchGrid x num den place fuel n).1,
      (searchGrid x num den place fuel n).2⟩).toBits = x.toBits := by
  induction fuel generalizing n with
  | zero => omega
  | succ fuel ih =>
    unfold searchGrid
    split
    · next digits hfound =>
      -- what is read is told by the value, which the zeros do not change
      have hvalue := value_dropZeros false 20 digits (place - n)
      have hsame := Decimal.toFloat_congr (by rfl) hvalue
      exact (congrArg Float.toBits hsame).trans (toBits_of_onGrid? hfound)
    · next hnone =>
      refine ih (n + 1) ⟨?_, by omega⟩
      rcases Nat.lt_or_eq_of_le hreach.1 with hlt | rfl
      · exact hlt
      · rw [hnone] at h
        cases h

/-- The fewest digits that tell a double from all others are read as that double. -/
theorem toFloat_shortest {b : Binary} (hb : b.IsCanonical) :
    Decimal.toFloat ⟨b.negative, (shortest b).1, (shortest b).2⟩ =
      assemble b.negative b.mantissa b.exponent := by
  have hvalue := b.ratio_value
  have hden := b.ratio_pos
  rcases Nat.eq_zero_or_pos b.mantissa with hzero | hm
  · have hshort : shortest b = (0, 0) := if_pos hzero
    rw [hshort, hzero, assemble_eq, Decimal.toFloat_eq, if_pos (.inl rfl)]
    rfl
  · have hnum : 0 < b.ratio.1 := Nat.pos_of_ne_zero (mt Binary.ratio_eq_zero_iff.mp hm.ne')
    have hnearest : ofRatio false b.ratio.1 b.ratio.2 = assemble false b.mantissa b.exponent := by
      have hpos : (0 : ℚ) ≤ b.mantissa * 2 ^ b.exponent := by positivity
      refine ofRatio_of_near hden hm hb.mantissa_lt hb.exponent_ge hb.last ?_ ?_
      · rw [hvalue]
        exact mul_le_of_le_one_right hpos (by norm_num)
      · rw [hvalue]
        exact le_mul_of_one_le_right hpos (by norm_num)
    have hread : (Decimal.toFloat ⟨false, (shortest b).1, (shortest b).2⟩).toBits =
        (assemble false b.mantissa b.exponent).toBits := by
      have hshort : shortest b = searchGrid (assemble false b.mantissa b.exponent) b.ratio.1
          b.ratio.2 (pointPlace b.ratio.1 b.ratio.2) 17 1 := by
        rw [← hnearest]
        exact if_neg (by omega)
      rw [hshort]
      exact toBits_searchGrid 17 1 17 (by decide)
        (isSome_onGrid?_seventeen hb hm hnum hden hvalue)
    -- the search leaves the sign out, which goes along unchanged
    obtain ⟨m, e, hparts⟩ := Decimal.toFloat_eq_assemble (shortest b).1 (shortest b).2
    rw [hparts] at hread ⊢
    exact assemble_congr hread b.negative

end Kindred.Number
