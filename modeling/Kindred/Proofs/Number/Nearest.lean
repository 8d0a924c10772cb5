import Mathlib.Algebra.Order.Field.Basic
import Mathlib.Algebra.Order.Field.Power
import Mathlib.Algebra.Order.Ring.Rat
import Mathlib.Data.Rat.Cast.Order
import Mathlib.Tactic.FieldSimp
import Mathlib.Tactic.Linarith
import Mathlib.Tactic.NormNum
import Mathlib.Tactic.Positivity
import Mathlib.Tactic.Ring
import Kindred.Proofs.Number.Double

/-!
# The double nearest to a quotient

Which double is nearest to a quotient depends on the value of the quotient only. A quotient that is
close to a double, compared with the size of the double, has that double nearest to it.

- `scaled`, `powered`: a quotient counted in units of a power of a base, and a number of such units.
- `lastBit_eq_iff`: the power of two that the last bit of a double counts.
- `ofRatio_congr`: equal quotients are near the same double.
- `ofRatio_of_near`: the double near a quotient.
- `assemble_of_ofFloat?`: a double put together from its own parts.
-/

namespace Kindred.Number

/-! ### Units -/

/-- A quotient counted in units of a power of a base, again as a quotient. -/
def scaled (base num den : Nat) : Int → Nat × Nat
  | .ofNat k => (num, den * Nat.pow base k)
  | .negSucc k => (num * Nat.pow base (k + 1), den)

variable {base num den : Nat} {e : Int}

theorem scaled_pos (hbase : 0 < base) (hden : 0 < den) : 0 < (scaled base num den e).2 := by
  cases e with
  | ofNat k => exact Nat.mul_pos hden (Nat.pow_pos hbase)
  | negSucc k => exact hden

/-- Counting in other units divides the quotient by the unit. -/
theorem scaled_value (hbase : 0 < base) (hden : 0 < den) :
    ((scaled base num den e).1 : ℚ) / (scaled base num den e).2 = num / den / base ^ e := by
  have hb : (base : ℚ) ≠ 0 := by positivity
  have hd : (den : ℚ) ≠ 0 := by positivity
  cases e with
  | ofNat k =>
    show (num : ℚ) / (den * Nat.pow base k : Nat) = num / den / base ^ (k : Int)
    rw [Nat.pow_eq, zpow_natCast]
    push_cast
    rw [div_div]
  | negSucc k =>
    show ((num * Nat.pow base (k + 1) : Nat) : ℚ) / den = num / den / base ^ (Int.negSucc k)
    rw [Nat.pow_eq, zpow_negSucc]
    push_cast
    rw [div_inv_eq_mul]
    ring

/-- Rounding a quotient changes it by at most one half. -/
theorem roundDivEven_near {num den : Nat} (hden : 0 < den) :
    (num : ℚ) / den - 1 / 2 ≤ roundDivEven num den ∧
      (roundDivEven num den : ℚ) ≤ num / den + 1 / 2 := by
  have hd : (0 : ℚ) < den := Nat.cast_pos.mpr hden
  have hnear := roundDivEven_mul_near num hden
  generalize roundDivEven num den = k at hnear
  have hlow : (2 * num : ℚ) ≤ 2 * (k * den) + den := by exact_mod_cast hnear.1
  have hhigh : (2 * (k * den) : ℚ) ≤ 2 * num + den := by exact_mod_cast hnear.2
  constructor
  · rw [sub_le_iff_le_add, div_le_iff₀ hd]
    linarith
  · rw [← sub_le_iff_le_add, le_div_iff₀ hd]
    linarith

/-- A quotient is at least a multiple of the unit if it is so counted in that unit. -/
theorem le_scaled_iff (hbase : 0 < base) (hden : 0 < den) (k : Nat) :
    (scaled base num den e).2 * k ≤ (scaled base num den e).1 ↔
      (k : ℚ) * (base : ℚ) ^ e ≤ num / den := by
  have hpos : (0 : ℚ) < (scaled base num den e).2 := Nat.cast_pos.mpr (scaled_pos hbase hden)
  have hunit : (0 : ℚ) < (base : ℚ) ^ e := zpow_pos (Nat.cast_pos.mpr hbase) e
  rw [← le_div_iff₀ hunit, ← scaled_value hbase hden, le_div_iff₀ hpos, ← Nat.cast_mul,
    Nat.cast_le, Nat.mul_comm]

/-- A multiple of a power of a base as a quotient. -/
def powered (base m : Nat) : Int → Nat × Nat
  | .ofNat k => (m * Nat.pow base k, 1)
  | .negSucc k => (m, Nat.pow base (k + 1))

theorem powered_pos (hbase : 0 < base) (m : Nat) (e : Int) : 0 < (powered base m e).2 := by
  cases e with
  | ofNat k => exact Nat.one_pos
  | negSucc k => exact Nat.pow_pos hbase

theorem powered_value (base m : Nat) (e : Int) :
    ((powered base m e).1 : ℚ) / (powered base m e).2 = m * (base : ℚ) ^ e := by
  cases e with
  | ofNat k =>
    show ((m * Nat.pow base k : Nat) : ℚ) / (1 : Nat) = m * (base : ℚ) ^ (k : Int)
    rw [Nat.pow_eq, zpow_natCast]
    push_cast
    rw [div_one]
  | negSucc k =>
    show (m : ℚ) / (Nat.pow base (k + 1) : Nat) = m * (base : ℚ) ^ (Int.negSucc k)
    rw [Nat.pow_eq, zpow_negSucc, div_eq_mul_inv]
    push_cast
    rfl

/-! ### Rounding quotients -/

/-- A quotient that is less than one half from an integer is rounded to that integer. -/
theorem roundDivEven_eq {m : Nat} (hden : 0 < den) (hlow : (m : ℚ) - 1 / 2 < num / den)
    (hhigh : (num : ℚ) / den < m + 1 / 2) : roundDivEven num den = m := by
  have hd : (0 : ℚ) < den := Nat.cast_pos.mpr hden
  rw [lt_div_iff₀ hd] at hlow
  rw [div_lt_iff₀ hd] at hhigh
  have hlow' : 2 * m * den < 2 * num + den := by
    have h : (2 * m * den : ℚ) < 2 * num + den := by linarith
    exact_mod_cast h
  have hhigh' : 2 * num < 2 * m * den + den := by
    have h : (2 * num : ℚ) < 2 * m * den + den := by linarith
    exact_mod_cast h
  have hsplit : den * (num / den) + num % den = num := Nat.div_add_mod num den
  have hlt : num % den < den := Nat.mod_lt num hden
  unfold roundDivEven
  dsimp only
  -- the quotient is the integer or the one before it
  rcases Nat.lt_trichotomy (num / den) m with hq | hq | hq
  · have hnext : num / den + 1 = m := by
      by_contra hne
      obtain ⟨k, rfl⟩ : ∃ k, m = num / den + 2 + k := ⟨m - (num / den + 2), by omega⟩
      have h : 2 * (num / den + 2 + k) * den =
          2 * (den * (num / den)) + 4 * den + 2 * (k * den) := by ring
      omega
    have h : 2 * m * den = 2 * (den * (num / den)) + 2 * den := by rw [← hnext]; ring
    rw [if_neg (by omega), if_pos (by omega), hnext]
  · have h : 2 * m * den = 2 * (den * (num / den)) := by rw [← hq]; ring
    rw [if_pos (by omega), hq]
  · obtain ⟨k, hk⟩ : ∃ k, num / den = m + 1 + k := ⟨num / den - (m + 1), by omega⟩
    have h : den * (num / den) = m * den + den + k * den := by rw [hk]; ring
    have h' : 2 * m * den = 2 * (m * den) := by ring
    omega

/-- Rounding depends on the value of a quotient only. -/
theorem roundDivEven_mul_mul {c : Nat} (hc : 0 < c) :
    roundDivEven (num * c) (den * c) = roundDivEven num den := by
  have hlt : ∀ a b : Nat, a * c < b * c ↔ a < b := fun a b => Nat.mul_lt_mul_right hc
  unfold roundDivEven
  dsimp only
  rw [Nat.mul_div_mul_right _ _ hc, Nat.mul_mod_mul_right, ← Nat.mul_assoc]
  simp only [hlt]

theorem roundDivEven_congr {num' den' : Nat} (hden : 0 < den) (hden' : 0 < den')
    (h : (num : ℚ) / den = num' / den') : roundDivEven num den = roundDivEven num' den' := by
  have hd : (den : ℚ) ≠ 0 := by positivity
  have hd' : (den' : ℚ) ≠ 0 := by positivity
  rw [div_eq_div_iff hd hd'] at h
  have hcross : num * den' = num' * den := by exact_mod_cast h
  -- both are the quotient that is extended by the two denominators
  rw [← roundDivEven_mul_mul hden', hcross, Nat.mul_comm den den', roundDivEven_mul_mul hden]

/-! ### The last bit -/

/-- The last bit of a double near a quotient: the quotient has 53 bits up to it, or fewer if the
bit is the last one of all doubles. -/
def IsLastBit (q : ℚ) (e : Int) : Prop :=
  -1074 ≤ e ∧ q < 2 ^ (e + 53) ∧ (e = -1074 ∨ 2 ^ (e + 52) ≤ q)

theorem IsLastBit.unique {q : ℚ} {e e' : Int} (h : IsLastBit q e) (h' : IsLastBit q e') :
    e = e' := by
  have hle : ∀ {a b : Int}, IsLastBit q a → IsLastBit q b → a ≤ b := by
    intro a b ha hb
    obtain ⟨-, -, ha | ha⟩ := ha
    · have := hb.1
      omega
    · have hpow : (2 : ℚ) ^ (a + 52) < 2 ^ (b + 53) := lt_of_le_of_lt ha hb.2.1
      have hexp := (zpow_lt_zpow_iff_right₀ (by norm_num : (1 : ℚ) < 2)).mp hpow
      omega
  exact Int.le_antisymm (hle h h') (hle h' h)

/-- A place from which the quotient has 53 bits is its last bit, unless that lies below the last bit
of all doubles. -/
theorem isLastBit_max {q : ℚ} {l : Int} (hlow : 2 ^ (l + 52) ≤ q) (hhigh : q < 2 ^ (l + 53)) :
    IsLastBit q (max (-1074) l) := by
  have hmono : (2 : ℚ) ^ (l + 53) ≤ 2 ^ (max (-1074) l + 53) :=
    zpow_le_zpow_right₀ (by norm_num) (by omega)
  refine ⟨Int.le_max_left _ _, lt_of_lt_of_le hhigh hmono, ?_⟩
  rcases Int.le_total l (-1074) with h | h
  · exact .inl (Int.max_eq_left h)
  · rw [Int.max_eq_right h]
    exact .inr hlow

/-- The last bit of a quotient, told by the numbers of bits; it may be the bit before. -/
def guessBit (num den : Nat) : Int := (num.log2 : Int) - den.log2 - 52

theorem lastBit_eq : lastBit num den = max (-1074)
    (if (scaled 2 num den (guessBit num den)).1 < (scaled 2 num den (guessBit num den)).2 * 2 ^ 52
      then guessBit num den - 1 else guessBit num den) := by
  unfold lastBit
  dsimp only
  show max (-1074) (if (match guessBit num den with
      | .ofNat e => decide (num < den * Nat.pow 2 (52 + e))
      | .negSucc e => decide (num * Nat.pow 2 (e + 1) < den * Nat.pow 2 52)) = true
    then guessBit num den - 1 else guessBit num den) = _
  cases guessBit num den with
  | ofNat k =>
    have hcomm : den * Nat.pow 2 (52 + k) = den * Nat.pow 2 k * 2 ^ 52 := by
      rw [Nat.pow_eq, Nat.pow_eq, Nat.add_comm, Nat.pow_add, Nat.mul_assoc]
    simp only [scaled, hcomm, decide_eq_true_eq]
    exact congrArg _ (if_congr Iff.rfl rfl rfl)
  | negSucc k =>
    simp only [scaled, Nat.pow_eq, decide_eq_true_eq]
    exact congrArg _ (if_congr Iff.rfl rfl rfl)

theorem zpow_log2_le {n : Nat} (hn : 0 < n) : (2 : ℚ) ^ (n.log2 : Int) ≤ n := by
  rw [zpow_natCast]
  exact_mod_cast Nat.log2_self_le (by omega)

theorem lt_zpow_log2 (n : Nat) : (n : ℚ) < 2 ^ ((n.log2 : Int) + 1) := by
  have h : n < 2 ^ (n.log2 + 1) := Nat.lt_log2_self
  exact_mod_cast h

/-- The numbers of bits tell a quotient up to a factor of four. -/
theorem zpow_guessBit_lt (hnum : 0 < num) (hden : 0 < den) :
    (2 : ℚ) ^ (guessBit num den + 51) < num / den := by
  have hunit : (0 : ℚ) < 2 ^ (guessBit num den + 51) := zpow_pos (by norm_num) _
  have hsplit : (2 : ℚ) ^ (num.log2 : Int) =
      2 ^ (guessBit num den + 51) * 2 ^ ((den.log2 : Int) + 1) := by
    rw [← zpow_add₀ (by norm_num)]
    congr 1
    unfold guessBit
    omega
  rw [lt_div_iff₀ (Nat.cast_pos.mpr hden)]
  calc (2 : ℚ) ^ (guessBit num den + 51) * den
      < 2 ^ (guessBit num den + 51) * 2 ^ ((den.log2 : Int) + 1) :=
        mul_lt_mul_of_pos_left (lt_zpow_log2 den) hunit
    _ = 2 ^ (num.log2 : Int) := hsplit.symm
    _ ≤ num := zpow_log2_le hnum

theorem lt_zpow_guessBit (hden : 0 < den) : (num : ℚ) / den < 2 ^ (guessBit num den + 53) := by
  have hunit : (0 : ℚ) < 2 ^ (guessBit num den + 53) := zpow_pos (by norm_num) _
  have hsplit : (2 : ℚ) ^ ((num.log2 : Int) + 1) =
      2 ^ (guessBit num den + 53) * 2 ^ (den.log2 : Int) := by
    rw [← zpow_add₀ (by norm_num)]
    congr 1
    unfold guessBit
    omega
  rw [div_lt_iff₀ (Nat.cast_pos.mpr hden)]
  calc (num : ℚ) < 2 ^ ((num.log2 : Int) + 1) := lt_zpow_log2 num
    _ = 2 ^ (guessBit num den + 53) * 2 ^ (den.log2 : Int) := hsplit
    _ ≤ 2 ^ (guessBit num den + 53) * den :=
        mul_le_mul_of_nonneg_left (zpow_log2_le hden) hunit.le

theorem isLastBit_lastBit (hnum : 0 < num) (hden : 0 < den) :
    IsLastBit ((num : ℚ) / den) (lastBit num den) := by
  have hlow := zpow_guessBit_lt hnum hden
  have hhigh := @lt_zpow_guessBit num den hden
  rw [lastBit_eq]
  generalize guessBit num den = g at hlow hhigh ⊢
  have hunit : (scaled 2 num den g).2 * 2 ^ 52 ≤ (scaled 2 num den g).1 ↔
      (2 : ℚ) ^ (g + 52) ≤ num / den := by
    have hbound : ((2 ^ 52 : Nat) : ℚ) * ((2 : Nat) : ℚ) ^ g = 2 ^ (g + 52) := by
      rw [zpow_add₀ (by norm_num)]
      push_cast
      ring
    rw [le_scaled_iff (by decide) hden, hbound]
  -- one comparison decides between the two
  by_cases hsmall : (scaled 2 num den g).1 < (scaled 2 num den g).2 * 2 ^ 52
  · rw [if_pos hsmall]
    have hlt : (num : ℚ) / den < 2 ^ (g + 52) := by
      by_contra hge
      exact absurd (hunit.mpr (not_lt.mp hge)) (not_le.mpr hsmall)
    refine isLastBit_max ?_ ?_
    · rw [show g - 1 + 52 = g + 51 by omega]
      exact hlow.le
    · rw [show g - 1 + 53 = g + 52 by omega]
      exact hlt
  · rw [if_neg hsmall]
    exact isLastBit_max (hunit.mp (not_lt.mp hsmall)) hhigh

/-- The power of two that the last bit of a double counts is told by the size of the quotient. -/
theorem lastBit_eq_iff (hnum : 0 < num) (hden : 0 < den) :
    lastBit num den = e ↔ IsLastBit ((num : ℚ) / den) e :=
  ⟨fun h => h ▸ isLastBit_lastBit hnum hden, (isLastBit_lastBit hnum hden).unique⟩

/-! ### The nearest double -/

/-- The mantissa of the double nearest to a quotient. -/
def nearMantissa (num den : Nat) : Nat :=
  roundDivEven (scaled 2 num den (lastBit num den)).1 (scaled 2 num den (lastBit num den)).2

theorem ofRatio_zero {negative : Bool} : ofRatio negative 0 den = assemble negative 0 0 :=
  if_pos (by simp)

theorem ofRatio_eq {negative : Bool} (hnum : 0 < num) (hden : 0 < den) :
    ofRatio negative num den = assemble negative (nearMantissa num den) (lastBit num den) := by
  unfold ofRatio nearMantissa
  rw [if_neg (by simp; omega)]
  dsimp only
  cases lastBit num den <;> rfl

/-- Equal quotients are near the same double. -/
theorem ofRatio_congr {num' den' : Nat} {negative : Bool} (hden : 0 < den) (hden' : 0 < den')
    (h : (num : ℚ) / den = num' / den') :
    ofRatio negative num den = ofRatio negative num' den' := by
  have hd : (den : ℚ) ≠ 0 := by positivity
  have hd' : (den' : ℚ) ≠ 0 := by positivity
  rcases Nat.eq_zero_or_pos num with rfl | hnum
  · have hzero : num' = 0 := by
      rw [Nat.cast_zero, zero_div, eq_comm, div_eq_zero_iff] at h
      exact_mod_cast h.resolve_right hd'
    rw [hzero, ofRatio_zero, ofRatio_zero]
  · have hnum' : 0 < num' := by
      rcases Nat.eq_zero_or_pos num' with rfl | hpos
      · rw [Nat.cast_zero, zero_div, div_eq_zero_iff] at h
        have : num = 0 := by exact_mod_cast h.resolve_right hd
        omega
      · exact hpos
    -- the last bit and the mantissa are told by the value
    have hbit : lastBit num den = lastBit num' den' :=
      (lastBit_eq_iff hnum hden).mpr (h ▸ isLastBit_lastBit hnum' hden')
    have hmantissa : nearMantissa num den = nearMantissa num' den' := by
      unfold nearMantissa
      rw [hbit]
      refine roundDivEven_congr (scaled_pos (by decide) hden) (scaled_pos (by decide) hden') ?_
      rw [scaled_value (by decide) hden, scaled_value (by decide) hden', h]
    rw [ofRatio_eq hnum hden, ofRatio_eq hnum' hden', hbit, hmantissa]

/-- A carry out of the mantissa goes to the exponent. -/
theorem assemble_carry {negative : Bool} (he : -1074 ≤ e) :
    assemble negative (2 ^ 53) e = assemble negative (2 ^ 52) (e + 1) := by
  have hfield : (e + 1 + 1074).toNat = (e + 1074).toNat + 1 := by omega
  have hmagnitude : (e + 1074).toNat * Nat.pow 2 52 + 2 ^ 53 =
      (e + 1 + 1074).toNat * Nat.pow 2 52 + 2 ^ 52 := by
    rw [hfield, Nat.pow_eq]
    omega
  have hlarge : ¬ 2 ^ 53 < Nat.pow 2 52 := by rw [Nat.pow_eq]; omega
  have hlarge' : ¬ 2 ^ 52 < Nat.pow 2 52 := by rw [Nat.pow_eq]; omega
  unfold assemble
  dsimp only
  rw [if_neg hlarge, if_neg hlarge', hmagnitude]

/-- A quotient counted in units of its last bit is rounded to an integer of them. -/
theorem ofRatio_of_units {negative : Bool} {m : Nat} {t : ℚ} (hden : 0 < den)
    (ht : (num : ℚ) / den = t * 2 ^ e) (hpos : 0 < t) (he : -1074 ≤ e)
    (hlast : e = -1074 ∨ 2 ^ 52 ≤ t) (hbits : t < 2 ^ 53) (hlow : (m : ℚ) - 1 / 2 < t)
    (hhigh : t < m + 1 / 2) : ofRatio negative num den = assemble negative m e := by
  have htwo : (2 : ℚ) ≠ 0 := by norm_num
  have hunit : (0 : ℚ) < 2 ^ e := zpow_pos (by norm_num) e
  have hnum : 0 < num := by
    refine Nat.pos_of_ne_zero fun hzero => ?_
    have hquotient : 0 < t * 2 ^ e := mul_pos hpos hunit
    rw [← ht, hzero, Nat.cast_zero, zero_div] at hquotient
    exact lt_irrefl _ hquotient
  have hbit : lastBit num den = e := by
    refine (lastBit_eq_iff hnum hden).mpr ⟨he, ?_, hlast.imp_right fun h => ?_⟩
    · rw [ht, zpow_add₀ htwo, mul_comm t]
      exact mul_lt_mul_of_pos_left hbits hunit
    · rw [ht, zpow_add₀ htwo, mul_comm t]
      exact mul_le_mul_of_nonneg_left h hunit.le
  have hvalue : ((scaled 2 num den e).1 : ℚ) / (scaled 2 num den e).2 = t := by
    rw [scaled_value (by decide) hden, ht]
    exact mul_div_cancel_right₀ _ hunit.ne'
  have hround : nearMantissa num den = m := by
    unfold nearMantissa
    rw [hbit]
    exact roundDivEven_eq (scaled_pos (by decide) hden) (hvalue ▸ hlow) (hvalue ▸ hhigh)
  rw [ofRatio_eq hnum hden, hbit, hround]

/-- A quotient that differs from a double by at most a part in 2 · 10¹⁶ of the double has that
double nearest to it. -/
theorem ofRatio_of_near {negative : Bool} {m : Nat} (hden : 0 < den) (hm : 0 < m)
    (hm' : m < 2 ^ 53) (he : -1074 ≤ e) (hlast : e = -1074 ∨ 2 ^ 52 ≤ m)
    (hlow : (m : ℚ) * 2 ^ e * (1 - 1 / (2 * 10 ^ 16)) ≤ num / den)
    (hhigh : (num : ℚ) / den ≤ m * 2 ^ e * (1 + 1 / (2 * 10 ^ 16))) :
    ofRatio negative num den = assemble negative m e := by
  have hunit : (0 : ℚ) < 2 ^ e := zpow_pos (by norm_num) e
  have hmpos : (0 : ℚ) < m := Nat.cast_pos.mpr hm
  have hmle : (m : ℚ) ≤ 9007199254740991 := by
    have h : m ≤ 9007199254740991 := by omega
    exact_mod_cast h
  obtain ⟨t, ht⟩ : ∃ t : ℚ, (num : ℚ) / den = t * 2 ^ e := ⟨num / den / 2 ^ e, by field_simp⟩
  have htlow : (m : ℚ) * (19999999999999999 / 20000000000000000) ≤ t := by
    rw [ht, mul_right_comm] at hlow
    have h := le_of_mul_le_mul_right hlow hunit
    norm_num at h
    exact h
  have hthigh : t ≤ m * (20000000000000001 / 20000000000000000) := by
    rw [ht, mul_right_comm] at hhigh
    have h := le_of_mul_le_mul_right hhigh hunit
    norm_num at h
    exact h
  by_cases hbinade : e = -1074 ∨ (4503599627370496 : ℚ) ≤ t
  · refine ofRatio_of_units hden ht (by linarith) he ?_ ?_ (by linarith) (by linarith)
    · norm_num at hbinade ⊢
      exact hbinade
    · norm_num
      linarith
  · -- just below a power of two the doubles are twice as close, and the mantissa carries
    obtain ⟨hsub, htsmall⟩ := not_or.mp hbinade
    have hmeq : m = 2 ^ 52 := by
      by_contra hne
      have hge : 4503599627370497 ≤ m := by omega
      have hge' : (4503599627370497 : ℚ) ≤ m := by exact_mod_cast hge
      linarith
    have hmvalue : (m : ℚ) = 4503599627370496 := by rw [hmeq]; norm_num
    have ht' : (num : ℚ) / den = 2 * t * 2 ^ (e - 1) := by
      rw [ht, mul_comm 2, mul_assoc, ← zpow_one_add₀ (by norm_num)]
      congr 2
      omega
    have hhalf : ofRatio negative num den = assemble negative (2 ^ 53) (e - 1) := by
      refine ofRatio_of_units hden ht' (by linarith) (by omega) (.inr ?_) ?_ ?_ ?_
      all_goals norm_num; linarith
    rw [hhalf, assemble_carry (by omega), hmeq]
    congr 1
    omega

/-! ### A double and its parts -/

/-- Doubles with the same bits are the same. -/
theorem eq_of_toBits_eq {x y : Float} (h : x.toBits = y.toBits) : x = y := by
  -- the bits are all that a double consists of
  obtain ⟨⟨b, hb⟩⟩ := x
  obtain ⟨⟨c, hc⟩⟩ := y
  obtain rfl : b = c := h
  rfl

theorem Binary.ratio_eq_powered (b : Binary) : b.ratio = powered 2 b.mantissa b.exponent := by
  unfold ratio
  cases b.exponent <;> rfl

theorem Binary.ratio_value (b : Binary) :
    (b.ratio.1 : ℚ) / b.ratio.2 = b.mantissa * 2 ^ b.exponent := by
  rw [ratio_eq_powered, powered_value, Nat.cast_ofNat]

theorem Binary.ratio_pos (b : Binary) : 0 < b.ratio.2 := by
  rw [ratio_eq_powered]
  exact powered_pos (by decide) _ _

theorem Binary.ratio_eq_zero_iff {b : Binary} : b.ratio.1 = 0 ↔ b.mantissa = 0 := by
  unfold ratio
  cases b.exponent with
  | ofNat e => exact mul_eq_zero_iff_right (Nat.two_pow_pos e).ne'
  | negSucc e => exact Iff.rfl

/-- The sizes of the parts of a double. -/
structure Binary.IsCanonical (b : Binary) : Prop where
  mantissa_lt : b.mantissa < 2 ^ 53
  exponent_ge : -1074 ≤ b.exponent
  exponent_le : b.exponent ≤ 971
  last : b.exponent = -1074 ∨ 2 ^ 52 ≤ b.mantissa

/-- A finite double is the one with its bits. -/
theorem ofBits_toBits {x : Float} (h : isFinite x = true) : Float.ofBits x.toBits = x := by
  refine eq_of_toBits_eq (toBits_ofBits fun hfield => ?_)
  have hnone : Binary.ofFloat? x = none := if_pos (beq_iff_eq.mpr hfield)
  rw [isFinite, hnone] at h
  cases h

/-- A finite double is put together from the fields of its bits. -/
theorem assemble_of_toBits {x : Float} (hfinite : isFinite x = true) {negative : Bool} {m : Nat}
    {e : Int} {sign field : Nat} (hsign : (if negative then 9223372036854775808 else 0) = sign)
    (hfield : (if m < 4503599627370496 then 0 else (e + 1074).toNat) = field)
    (hsmall : field * 4503599627370496 + m < 2047 * 4503599627370496)
    (hsum : sign + (field * 4503599627370496 + m) = x.toBits.toNat) :
    assemble negative m e = x := by
  have h52 : Nat.pow 2 52 = 4503599627370496 := rfl
  have h63 : Nat.pow 2 63 = 9223372036854775808 := rfl
  rw [← ofBits_toBits hfinite, ← UInt64.ofNat_toNat (x := x.toBits), ← hsum]
  unfold assemble
  simp only [h52, h63, hsign, hfield]
  rw [Nat.min_eq_left (by omega)]

/-- The sign bit, counted from the first bit on. -/
theorem sign_eq {n : Nat} (hn : n < 18446744073709551616) :
    (if n / 9223372036854775808 == 1 then 9223372036854775808 else 0) =
      n / 9223372036854775808 * 9223372036854775808 := by
  by_cases hneg : n / 9223372036854775808 = 1
  · rw [hneg]
    rfl
  · rw [if_neg (by simpa using hneg)]
    omega

/-- A double has parts of these sizes, and is put together from them. -/
theorem assemble_of_ofFloat? {x : Float} {b : Binary} (h : Binary.ofFloat? x = some b) :
    b.IsCanonical ∧ assemble b.negative b.mantissa b.exponent = x := by
  have hfinite : isFinite x = true := by rw [isFinite, h]; rfl
  have hbits : x.toBits.toNat < 18446744073709551616 := x.toBits.toNat_lt
  have hsign := sign_eq hbits
  have h52 : Nat.pow 2 52 = 4503599627370496 := rfl
  have h63 : Nat.pow 2 63 = 9223372036854775808 := rfl
  have h11 : Nat.pow 2 11 = 2048 := rfl
  unfold Binary.ofFloat? at h
  simp only [h52, h63, h11] at h
  split at h
  · cases h
  · next hinf =>
    have hinf : x.toBits.toNat / 4503599627370496 % 2048 ≠ 2047 := by simpa using hinf
    split at h
    · -- the exponent of numbers below the smallest with a hidden bit
      next hzero =>
      have hzero : x.toBits.toNat / 4503599627370496 % 2048 = 0 := by simpa using hzero
      cases h
      refine ⟨⟨?_, Int.le_refl _, ?_, .inl rfl⟩, ?_⟩
      · show x.toBits.toNat % 4503599627370496 < 2 ^ 53
        omega
      · show (-1074 : Int) ≤ 971
        omega
      · show assemble _ (x.toBits.toNat % 4503599627370496) (-1074) = x
        exact assemble_of_toBits hfinite hsign (if_pos (by omega)) (by omega) (by omega)
    · next hzero =>
      have hzero : x.toBits.toNat / 4503599627370496 % 2048 ≠ 0 := by simpa using hzero
      cases h
      generalize hfield : x.toBits.toNat / 4503599627370496 % 2048 = field at hinf hzero
      refine ⟨⟨?_, ?_, ?_, .inr (Nat.le_add_right _ _)⟩, ?_⟩
      · show 4503599627370496 + x.toBits.toNat % 4503599627370496 < 2 ^ 53
        omega
      · show -1074 ≤ (field : Int) - 1075
        omega
      · show (field : Int) - 1075 ≤ 971
        omega
      · show assemble _ (4503599627370496 + x.toBits.toNat % 4503599627370496)
          ((field : Int) - 1075) = x
        refine assemble_of_toBits hfinite hsign (if_neg (by omega)) ?_ ?_
        · omega
        · omega

end Kindred.Number
