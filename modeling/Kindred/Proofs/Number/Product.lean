import Mathlib.Algebra.Order.Floor.Ring
import Mathlib.Data.Nat.Cast.Field
import Mathlib.Data.Nat.Prime.Basic
import Mathlib.Data.Rat.Floor
import Kindred.Proofs.Number.Whole

/-!
# A product with a quotient, rounded twice

The quotient of two integers is rounded to a double, and so is the product of that double with a
third integer. Both steps are followed on the values: a quantity that is rounded is counted in units
of the last bit of a double near it, and the nearest integer of them is taken. So a rounded quantity
is off by at most one part in 2 ^ 53, it does not pass an integer that is a double, and it is not
off at all where the quantity is a double itself.

- `RoundsAt`, `Rounds`: a quantity rounded to 53 bits.
- `Rounds.near`, `Rounds.le_of_lt`, `Rounds.eq_of_bits`: how far it is off.
- `HasValue`, `ofRatio_rounds`, `mul_rounds`: the doubles that quotients and products are.
- `IsVoid`: products with zero.
- `ceil_of_value`: the integer above a double.
- `CeilOfProduct`, `exists_ceilOfProduct`: the integer above a product with a rounded quotient.
- `exists_ceil_ofRatio`: the integer above a rounded quotient.
-/

namespace Kindred.Number

open Float.Model (Format UnpackedFloat)
open Float.Model.UnpackedFloat

/-! ### Rounded quantities -/

/-- Whether a quantity has 53 bits down to a power of two, and a number of these powers is the
nearest to it. -/
structure RoundsAt (t : ℚ) (k : Int) (r : Nat) : Prop where
  low : 2 ^ 52 ≤ t / 2 ^ k
  high : t / 2 ^ k < 2 ^ 53
  near : |(r : ℚ) - t / 2 ^ k| ≤ 1 / 2

/-- Whether a quantity is rounded to a value of 53 bits. -/
def Rounds (t v : ℚ) : Prop := ∃ k r, RoundsAt t k r ∧ v = r * 2 ^ k

variable {t v : ℚ} {k : Int} {r : Nat}

theorem unit_pos (k : Int) : (0 : ℚ) < 2 ^ k := zpow_pos (by norm_num) k

namespace RoundsAt

theorem le_mantissa (h : RoundsAt t k r) : 2 ^ 52 ≤ r := by
  have hlow := h.low
  have hnear := (abs_le.mp h.near).1
  have hr : ((2 ^ 52 : Nat) : ℚ) < (r + 1 : Nat) := by push_cast; linarith
  exact Nat.lt_succ_iff.mp (Nat.cast_lt.mp hr)

theorem mantissa_le (h : RoundsAt t k r) : r ≤ 2 ^ 53 := by
  have hhigh := h.high
  have hnear := (abs_le.mp h.near).2
  have hr : (r : ℚ) < (2 ^ 53 + 1 : Nat) := by push_cast; linarith
  exact Nat.lt_succ_iff.mp (Nat.cast_lt.mp hr)

end RoundsAt

namespace Rounds

/-- A rounded quantity is off by at most a part in 2 ^ 53. -/
theorem near (h : Rounds t v) :
    t * (2 ^ 53 - 1) ≤ v * 2 ^ 53 ∧ v * 2 ^ 53 ≤ t * (2 ^ 53 + 1) := by
  obtain ⟨k, r, hr, rfl⟩ := h
  have hunit := unit_pos k
  obtain ⟨q, rfl⟩ : ∃ q, t = q * 2 ^ k := ⟨t / 2 ^ k, by field_simp⟩
  have hlow := hr.low
  obtain ⟨hnear, hnear'⟩ := abs_le.mp hr.near
  rw [mul_div_cancel_right₀ _ hunit.ne'] at hlow hnear hnear'
  have hbelow : q * (2 ^ 53 - 1) ≤ r * 2 ^ 53 := by linarith
  have habove : r * 2 ^ 53 ≤ q * (2 ^ 53 + 1) := by linarith
  constructor
  · linarith [mul_le_mul_of_nonneg_right hbelow hunit.le]
  · linarith [mul_le_mul_of_nonneg_right habove hunit.le]

/-- A rounded quantity does not pass an integer that is a double. -/
theorem le_of_lt {N : Nat} (h : Rounds t v) (ht : t < N) (hN : N ≤ 2 ^ 53) : v ≤ N := by
  obtain ⟨k, r, hr, rfl⟩ := h
  have hunit := unit_pos k
  have hlow := (le_div_iff₀ hunit).mp hr.low
  have hN' : (N : ℚ) ≤ 2 ^ 53 := by exact_mod_cast hN
  -- below 2 ^ 53 the integer is a number of units
  have hk : k < 1 := by
    refine (zpow_lt_zpow_iff_right₀ (by norm_num : (1 : ℚ) < 2)).mp ?_
    rw [zpow_one]
    linarith
  obtain ⟨n, rfl⟩ : ∃ n : Nat, k = -n := ⟨(-k).toNat, by omega⟩
  have hunits : (N : ℚ) = (N * 2 ^ n : Nat) * 2 ^ (-(n : Int)) := by
    rw [zpow_neg, zpow_natCast]
    push_cast
    field_simp
  have hr' : (r : ℚ) < (N * 2 ^ n + 1 : Nat) := by
    have hq : t / 2 ^ (-(n : Int)) < (N * 2 ^ n : Nat) := by rwa [div_lt_iff₀ hunit, ← hunits]
    have hnear := (abs_le.mp hr.near).2
    push_cast at hq ⊢
    linarith
  rw [hunits]
  exact mul_le_mul_of_nonneg_right (Nat.cast_le.mpr (Nat.lt_succ_iff.mp (Nat.cast_lt.mp hr')))
    hunit.le

/-- A quantity that is a double is rounded to itself. -/
theorem eq_of_bits {M : Nat} {j : Int} (h : Rounds t v) (ht : t = M * 2 ^ j) (hM : M < 2 ^ 53) :
    v = t := by
  obtain ⟨k, r, hr, rfl⟩ := h
  have hunit := unit_pos k
  have hlow := hr.low
  have hM' : (M : ℚ) < 2 ^ 53 := by exact_mod_cast hM
  have hq : t / 2 ^ k = M * 2 ^ (j - k) := by
    rw [ht, zpow_sub₀ (by norm_num), mul_div_assoc]
  -- it has at most 53 bits, so it is a number of units
  have hk : k ≤ j := by
    by_contra hlt
    have hhalf : (2 : ℚ) ^ (j - k) ≤ 2 ^ (-1 : Int) :=
      zpow_le_zpow_right₀ (by norm_num) (by omega)
    have hM0 : (0 : ℚ) ≤ M := Nat.cast_nonneg M
    rw [hq] at hlow
    norm_num at hhalf
    nlinarith
  obtain ⟨n, hn⟩ : ∃ n : Nat, j - k = n := ⟨(j - k).toNat, by omega⟩
  have hunits : t / 2 ^ k = (M * 2 ^ n : Nat) := by
    rw [hq, hn, zpow_natCast]
    push_cast
    rfl
  have hr' : r = M * 2 ^ n := by
    obtain ⟨hnear, hnear'⟩ := abs_le.mp hr.near
    rw [hunits] at hnear hnear'
    have hle : (r : ℚ) < (M * 2 ^ n + 1 : Nat) := by push_cast at hnear' ⊢; linarith
    have hge : ((M * 2 ^ n : Nat) : ℚ) < (r + 1 : Nat) := by push_cast at hnear ⊢; linarith
    exact Nat.le_antisymm (Nat.lt_succ_iff.mp (Nat.cast_lt.mp hle))
      (Nat.lt_succ_iff.mp (Nat.cast_lt.mp hge))
  rw [hr', ← hunits, div_mul_cancel₀ _ hunit.ne']

end Rounds

/-! ### Doubles and their values -/

/-- Whether a double is a positive number of a value that is neither very small nor very large. -/
def HasValue (x : Float) (v : ℚ) : Prop :=
  ∃ m e, IsNormal x m e ∧ -500 ≤ e ∧ e ≤ 400 ∧ v = m * 2 ^ e

variable {x y : Float} {a b : ℚ} {num den : Nat}

/-- A double whose parts are a mantissa and an exponent has the bits that they are packed into. -/
theorem eq_pack_of_unpack {s : Sign} {m : Nat} {e : Int} {h : 0 < m}
    (hx : x.toModel.unpack = .finite s m e h) : x = .ofModel (.pack (.finite s m e h)) := by
  have hfinite : x.toModel.toBits.toNat / 0x10000000000000 % 0x800 ≠ 0x7FF := by
    intro hones
    rw [← toNat_unpackExponent] at hones
    have hexponent : @unpackExponent Format.binary64 x.toModel.toBits.toBitVec = -1#_ :=
      BitVec.eq_of_toNat_eq hones
    have hunpack : unpack Format.binary64 x.toModel.toBits.toBitVec = .finite s m e h := hx
    unfold unpack at hunpack
    dsimp only at hunpack
    rw [if_pos hexponent] at hunpack
    by_cases hmantissa : @unpackMantissa Format.binary64 x.toModel.toBits.toBitVec = 0#_
    · rw [if_pos hmantissa] at hunpack
      cases hunpack
    · rw [if_neg hmantissa] at hunpack
      cases hunpack
  have hbits : (Float.Model.pack (.finite s m e h)).toBits = x.toModel.toBits := by
    rw [← hx]
    exact congrArg UInt64.ofBitVec (pack_unpack hfinite)
  obtain ⟨⟨bits, valid⟩⟩ := x
  congr 1
  cases hpack : Float.Model.pack (.finite s m e h)
  rw [hpack] at hbits
  cases hbits
  rfl

theorem IsNormal.ofFloat? {m : Nat} {e : Int} (h : IsNormal x m e) :
    Binary.ofFloat? x = some ⟨false, m, e⟩ := by
  obtain ⟨hlow, hhigh, hmin, hmax, hpos, hunpack⟩ := h
  rw [eq_pack_of_unpack hunpack]
  exact @ofFloat?_pack false m e hpos hlow hhigh hmin hmax

/-- A quantity that is counted in units of a power of two and rounded. -/
theorem roundsAt_roundDivEven (hden : 0 < den) (hvalue : (num : ℚ) / den = t / 2 ^ k)
    (hlow : 2 ^ 52 ≤ t / 2 ^ k) (hhigh : t / 2 ^ k < 2 ^ 53) :
    RoundsAt t k (roundDivEven num den) :=
  ⟨hlow, hhigh, hvalue ▸ abs_sub_le_iff.mpr
    ⟨sub_le_iff_le_add'.mpr (roundDivEven_near hden).2, sub_le_comm.mp (roundDivEven_near hden).1⟩⟩

/-- A mantissa that carries into another bit keeps its value. -/
theorem carry_value (k : Int) : ((2 ^ 53 : Nat) : ℚ) * 2 ^ k = (2 ^ 52 : Nat) * 2 ^ (k + 1) := by
  rw [zpow_add₀ (by norm_num), zpow_one]
  push_cast
  ring

theorem hasValue_ofInt {n : Nat} (hpos : 0 < n) (hn : n < 2 ^ 53) : HasValue (ofInt n) n := by
  have hlog : n.log2 < 53 := (Nat.log2_lt (by omega)).mpr hn
  obtain ⟨m, e, k, hx, he, he', hvalue⟩ := isNormal_ofInt hpos (by omega)
  rw [(nearest_near (by omega)).2.2 hn] at hvalue
  refine ⟨m, e, hx, by omega, by omega, ?_⟩
  have hvalue' : (m : ℚ) * 2 ^ k = n * 2 ^ 52 := by exact_mod_cast hvalue
  rw [show e = (k : Int) - (52 : Nat) by omega, zpow_sub₀ (by norm_num), zpow_natCast, zpow_natCast,
    ← mul_div_assoc, hvalue', mul_div_cancel_right₀ _ (by norm_num)]

/-- A quotient of integers below 2 ^ 53 is neither very small nor very large. -/
theorem quotient_bounds (hnum : 0 < num) (hden : 0 < den) (hnum' : num < 2 ^ 53)
    (hden' : den < 2 ^ 53) :
    (2 : ℚ) ^ (-53 : Int) < num / den ∧ (num : ℚ) / den < 2 ^ (53 : Int) := by
  have hd : (0 : ℚ) < den := Nat.cast_pos.mpr hden
  have hnum1 : (1 : ℚ) ≤ num := Nat.one_le_cast.mpr hnum
  have hden1 : (1 : ℚ) ≤ den := Nat.one_le_cast.mpr hden
  have hlt : ∀ {n : Nat}, n < 2 ^ 53 → (n : ℚ) < 2 ^ (53 : Int) := fun h => by exact_mod_cast h
  constructor
  · rw [lt_div_iff₀ hd]
    calc (2 : ℚ) ^ (-53 : Int) * den < 2 ^ (-53 : Int) * 2 ^ (53 : Int) :=
          mul_lt_mul_of_pos_left (hlt hden') (unit_pos _)
      _ = 1 := by norm_num
      _ ≤ num := hnum1
  · rw [div_lt_iff₀ hd]
    calc (num : ℚ) < 2 ^ (53 : Int) := hlt hnum'
      _ ≤ 2 ^ (53 : Int) * den := le_mul_of_one_le_right (unit_pos _).le hden1

theorem exponent_lt {e f : Int} (h : (2 : ℚ) ^ e < 2 ^ f) : e < f :=
  (zpow_lt_zpow_iff_right₀ (by norm_num)).mp h

/-- The double nearest to a quotient of integers below 2 ^ 53 is the quotient, rounded. -/
theorem ofRatio_rounds (hnum : 0 < num) (hden : 0 < den) (hnum' : num < 2 ^ 53)
    (hden' : den < 2 ^ 53) :
    ∃ v, Rounds ((num : ℚ) / den) v ∧ HasValue (ofRatio false num den) v := by
  obtain ⟨hsmall, hlarge⟩ := quotient_bounds hnum hden hnum' hden'
  obtain ⟨he, hhigh, hlow⟩ := isLastBit_lastBit hnum hden
  rw [ofRatio_eq hnum hden]
  unfold nearMantissa
  generalize lastBit num den = e at he hhigh hlow ⊢
  have hmin : -106 < e := by
    have hexp := exponent_lt (lt_trans hsmall hhigh)
    omega
  have hlow : (2 : ℚ) ^ (e + 52) ≤ num / den := hlow.resolve_left (by omega)
  have hmax : e < 1 := by
    have hexp := exponent_lt (lt_of_le_of_lt hlow hlarge)
    omega
  have hrounds : RoundsAt ((num : ℚ) / den) e
      (roundDivEven (scaled 2 num den e).1 (scaled 2 num den e).2) := by
    rw [zpow_add₀ (by norm_num), mul_comm] at hlow hhigh
    exact roundsAt_roundDivEven (scaled_pos (by decide) hden) (scaled_value (by decide) hden)
      ((le_div_iff₀ (unit_pos e)).mpr hlow) ((div_lt_iff₀ (unit_pos e)).mpr hhigh)
  generalize roundDivEven (scaled 2 num den e).1 (scaled 2 num den e).2 = r at hrounds ⊢
  refine ⟨_, ⟨e, r, hrounds, rfl⟩, ?_⟩
  rcases isNormal_assemble hrounds.le_mantissa hrounds.mantissa_le (by omega) (by omega) with
    ⟨-, hx⟩ | ⟨rfl, hx⟩
  · exact ⟨r, e, hx, by omega, by omega, rfl⟩
  · exact ⟨2 ^ 52, e + 1, hx, by omega, by omega, carry_value e⟩

/-- The product of two doubles is the product of their values, rounded. -/
theorem mul_rounds (hx : HasValue x a) (hy : HasValue y b) :
    ∃ v m e, Rounds (a * b) v ∧ Binary.ofFloat? (x * y) = some ⟨false, m, e⟩ ∧ v = m * 2 ^ e := by
  obtain ⟨m₁, e₁, ⟨hlow₁, hhigh₁, -, -, hpos₁, hunpack₁⟩, hmin₁, hmax₁, rfl⟩ := hx
  obtain ⟨m₂, e₂, ⟨hlow₂, hhigh₂, -, -, hpos₂, hunpack₂⟩, hmin₂, hmax₂, rfl⟩ := hy
  have hmul : x * y = .ofModel (.pack (roundWithAccuracy Format.binary64 .positive (m₁ * m₂)
      (e₁ + e₂) .exact)) := by
    have hmodel : x * y =
        .ofModel (.pack (mul Format.binary64 x.toModel.unpack y.toModel.unpack)) := rfl
    rw [hmodel, hunpack₁, hunpack₂]
    rfl
  -- the product of two mantissas has 105 or 106 bits
  have hS : m₁ * m₂ ≠ 0 := Nat.mul_ne_zero (by omega) (by omega)
  have hlog : 104 ≤ (m₁ * m₂).log2 := by
    refine (Nat.le_log2 hS).mpr ?_
    calc 2 ^ 104 = 2 ^ 52 * 2 ^ 52 := by norm_num
      _ ≤ m₁ * m₂ := Nat.mul_le_mul hlow₁ hlow₂
  have hlog' : (m₁ * m₂).log2 < 106 := by
    refine (Nat.log2_lt hS).mpr ?_
    calc m₁ * m₂ < 2 ^ 53 * 2 ^ 53 := Nat.mul_lt_mul'' hhigh₁ hhigh₂
      _ = 2 ^ 106 := by norm_num
  obtain ⟨k, hk⟩ : ∃ k, (m₁ * m₂).log2 = k + 52 := ⟨(m₁ * m₂).log2 - 52, by omega⟩
  obtain ⟨m, e, hpos, hround, hlow, hhigh, hcases⟩ :=
    @roundWithAccuracy_eq .positive (m₁ * m₂) (e₁ + e₂) (by omega) (by omega)
  rw [hk, Nat.add_sub_cancel] at hcases
  have hvalue : ((m₁ * m₂ : Nat) : ℚ) / (2 ^ k : Nat) =
      m₁ * 2 ^ e₁ * (m₂ * 2 ^ e₂) / 2 ^ (e₁ + e₂ + k) := by
    rw [zpow_add₀ (by norm_num), zpow_add₀ (by norm_num), zpow_natCast]
    push_cast
    field_simp
  have hbelow : 2 ^ 52 * 2 ^ k ≤ m₁ * m₂ := by
    rw [← Nat.pow_add, Nat.add_comm, ← hk]
    exact Nat.log2_self_le hS
  have habove : m₁ * m₂ < 2 ^ 53 * 2 ^ k := by
    rw [← Nat.pow_add, Nat.add_comm, show k + 53 = (m₁ * m₂).log2 + 1 by omega]
    exact Nat.lt_log2_self
  have hunit : (0 : ℚ) < (2 ^ k : Nat) := Nat.cast_pos.mpr (Nat.two_pow_pos k)
  have hrounds := roundsAt_roundDivEven (Nat.two_pow_pos k) hvalue
    (hvalue ▸ (le_div_iff₀ hunit).mpr (by exact_mod_cast hbelow))
    (hvalue ▸ (div_lt_iff₀ hunit).mpr (by exact_mod_cast habove))
  refine ⟨_, m, e, ⟨_, _, hrounds, rfl⟩, ?_, ?_⟩
  · rw [hmul, hround]
    exact @ofFloat?_pack false m e hpos hlow hhigh (by omega) (by omega)
  · rcases hcases with ⟨rfl, rfl⟩ | ⟨rfl, hcarry, rfl⟩
    · rfl
    · rw [hcarry]
      exact carry_value _

/-! ### Products with zero -/

/-- Whether a double is zero or no number at all, as what zero is a factor of. -/
inductive IsVoid : Float → Prop where
  | zero (s : Sign) : IsVoid (.ofModel (.pack (.zero s)))
  | notANumber : IsVoid (.ofModel (.pack .notANumber))

theorem isVoid_assemble_zero (negative : Bool) : IsVoid (assemble negative 0 0) := by
  cases negative with
  | false => exact .zero .positive
  | true => exact .zero .negative

theorem unpack_pack_zero (s : Sign) : (Float.Model.pack (.zero s)).unpack = .zero s := by
  cases s <;> rfl

namespace IsVoid

theorem mul_left (h : IsVoid x) (y : Float) : IsVoid (x * y) := by
  have hmul : x * y =
      .ofModel (.pack (mul Format.binary64 x.toModel.unpack y.toModel.unpack)) := rfl
  rw [hmul]
  cases h with
  | zero s =>
    rw [unpack_pack_zero]
    cases y.toModel.unpack with
    | notANumber => exact .notANumber
    | infinity s' => exact .notANumber
    | zero s' => exact .zero _
    | finite s' m e h => exact .zero _
  | notANumber => exact .notANumber

theorem mul_right (h : IsVoid y) (x : Float) : IsVoid (x * y) := by
  have hmul : x * y =
      .ofModel (.pack (mul Format.binary64 x.toModel.unpack y.toModel.unpack)) := rfl
  rw [hmul]
  cases h with
  | zero s =>
    rw [unpack_pack_zero]
    cases x.toModel.unpack with
    | notANumber => exact .notANumber
    | infinity s' => exact .notANumber
    | zero s' => exact .zero _
    | finite s' m e h => exact .zero _
  | notANumber => cases x.toModel.unpack <;> exact .notANumber

theorem div (h : IsVoid x) (y : Float) : IsVoid (x / y) := by
  have hdiv : x / y =
      .ofModel (.pack (UnpackedFloat.div Format.binary64 x.toModel.unpack y.toModel.unpack)) := rfl
  rw [hdiv]
  cases h with
  | zero s =>
    rw [unpack_pack_zero]
    cases y.toModel.unpack with
    | notANumber => exact .notANumber
    | infinity s' => exact .zero _
    | zero s' => exact .notANumber
    | finite s' m e h => exact .zero _
  | notANumber => exact .notANumber

/-- The integer above such a double, where there is one, is zero. -/
theorem ceil_eq_zero (h : IsVoid x) : ∀ b ∈ Binary.ofFloat? x, b.ceil = 0 := by
  cases h with
  | zero s => cases s <;> rintro b ⟨⟩ <;> rfl
  | notANumber => exact nofun

end IsVoid

/-! ### The integer above -/

/-- The integer above a positive double is that above its value. -/
theorem ceil_of_value (m : Nat) (e : Int) : (Binary.mk false m e).ceil = ⌈(m : ℚ) * 2 ^ e⌉ := by
  have hvalue : ((Binary.mk false m e).ratio.1 : ℚ) / (Binary.mk false m e).ratio.2 = m * 2 ^ e :=
    Binary.ratio_value _
  have hceil : (Binary.mk false m e).ceil =
      -((-((Binary.mk false m e).ratio.1 : Int)).fdiv (Binary.mk false m e).ratio.2) := rfl
  generalize (Binary.mk false m e).ratio = ratio at hvalue hceil
  have hfloor : ⌊-((ratio.1 : ℚ) / ratio.2)⌋ = -(ratio.1 : Int) / ratio.2 := by
    rw [← neg_div, ← Int.cast_natCast, ← Int.cast_neg]
    exact Rat.floor_intCast_div_natCast _ _
  rw [hceil, Int.fdiv_eq_ediv_of_nonneg _ (Int.natCast_nonneg _), ← hfloor, Int.floor_neg, neg_neg,
    hvalue]

/-! ### The quotient of a product -/

section Product

variable {a b c : Nat}

/-- A quotient with a power of two for a denominator has no more bits than its numerator. -/
theorem exists_bits {j : Nat} (hden : 0 < den) (h : den ∣ num * 2 ^ j) :
    ∃ M ≤ num, ∃ i : Int, (num : ℚ) / den = M * 2 ^ i := by
  have hdvd : ∀ {d : Nat}, 0 < d → d ∣ num → ∃ M ≤ num, ∃ i : Int, (num : ℚ) / d = M * 2 ^ i := by
    rintro d hd ⟨M, rfl⟩
    refine ⟨M, Nat.le_mul_of_pos_left M hd, 0, ?_⟩
    have hd' : (d : ℚ) ≠ 0 := Nat.cast_ne_zero.mpr hd.ne'
    push_cast
    field_simp
  -- an odd denominator divides the numerator, an even one is halved
  induction j generalizing den with
  | zero => exact hdvd hden (by simpa using h)
  | succ j ih =>
    rcases Nat.even_or_odd den with heven | hodd
    · obtain ⟨half, rfl⟩ := even_iff_two_dvd.mp heven
      have hhalf : half ∣ num * 2 ^ j := by
        refine Nat.dvd_of_mul_dvd_mul_left (by decide : 0 < 2) ?_
        rwa [mul_left_comm, ← Nat.pow_succ']
      obtain ⟨M, hM, i, hi⟩ := ih (by omega) hhalf
      refine ⟨M, hM, i - 1, ?_⟩
      rw [zpow_sub₀ (by norm_num), zpow_one, ← mul_div_assoc, ← hi]
      push_cast
      field_simp
    · have hcoprime : Nat.Coprime den (2 ^ (j + 1)) := (Nat.coprime_two_right.mpr hodd).pow_right _
      exact hdvd hden (hcoprime.dvd_of_dvd_mul_right h)

theorem div_mul_lt (h : ¬ den ∣ num) : num / den * den < num :=
  lt_of_le_of_ne (Nat.div_mul_le_self num den) fun heq => h ⟨_, by rw [Nat.mul_comm, heq]⟩

theorem ceil_div_of_dvd (hden : 0 < den) (h : den ∣ num) : ⌈(num : ℚ) / den⌉₊ = num / den := by
  rw [← Nat.cast_div h (Nat.cast_ne_zero.mpr hden.ne'), Nat.ceil_natCast]

theorem ceil_div_of_not_dvd (hden : 0 < den) (h : ¬ den ∣ num) :
    ⌈(num : ℚ) / den⌉₊ = num / den + 1 := by
  have hd : (0 : ℚ) < den := Nat.cast_pos.mpr hden
  have hhigh : num ≤ (num / den + 1) * den := by
    rw [Nat.mul_comm]
    exact (Nat.lt_mul_div_succ num hden).le
  refine Nat.le_antisymm (Nat.ceil_le.mpr ((div_le_iff₀ hd).mpr ?_))
    (Nat.lt_ceil.mpr ((lt_div_iff₀ hd).mpr ?_))
  · exact_mod_cast hhigh
  · exact_mod_cast div_mul_lt h

variable {y : ℚ}

/-- What rounding a quotient and then a product with it leaves of the product. -/
theorem product_bounds (hc : 0 < c) (hy : Rounds ((b : ℚ) / c) y) (hv : Rounds (a * y) v) :
    a * y * c * 2 ^ 53 ≤ a * b * (2 ^ 53 + 1) ∧
      a * b * (2 ^ 106 - 2 ^ 54 + 1) ≤ v * c * 2 ^ 106 := by
  have hc' : (0 : ℚ) < c := Nat.cast_pos.mpr hc
  have ha : (0 : ℚ) ≤ a := Nat.cast_nonneg a
  obtain ⟨q, hq⟩ : ∃ q : ℚ, (b : ℚ) = q * c := ⟨b / c, by field_simp⟩
  obtain ⟨hylow, hyhigh⟩ := hy.near
  have hvlow := hv.near.1
  rw [hq, mul_div_cancel_right₀ _ hc'.ne'] at hylow hyhigh
  rw [hq]
  constructor
  · calc a * y * c * 2 ^ 53 = a * c * (y * 2 ^ 53) := by ring
      _ ≤ a * c * (q * (2 ^ 53 + 1)) := mul_le_mul_of_nonneg_left hyhigh (mul_nonneg ha hc'.le)
      _ = a * (q * c) * (2 ^ 53 + 1) := by ring
  · calc a * (q * c) * (2 ^ 106 - 2 ^ 54 + 1)
        = a * c * (2 ^ 53 - 1) * (q * (2 ^ 53 - 1)) := by ring
      _ ≤ a * c * (2 ^ 53 - 1) * (y * 2 ^ 53) :=
          mul_le_mul_of_nonneg_left hylow (mul_nonneg (mul_nonneg ha hc'.le) (by norm_num))
      _ = c * 2 ^ 53 * (a * y * (2 ^ 53 - 1)) := by ring
      _ ≤ c * 2 ^ 53 * (v * 2 ^ 53) :=
          mul_le_mul_of_nonneg_left hvlow (mul_nonneg hc'.le (by norm_num))
      _ = v * c * 2 ^ 106 := by ring

/-- The rounded product is at most one past the whole part of the quotient. -/
theorem ceil_product_le (hc : 0 < c) (hab : a * b < 2 ^ 53) (hy : Rounds ((b : ℚ) / c) y)
    (hv : Rounds (a * y) v) : ⌈v⌉₊ ≤ a * b / c + 1 := by
  have hc' : (0 : ℚ) < c := Nat.cast_pos.mpr hc
  have hhigh := (product_bounds hc hy hv).1
  have hab' : (a * b : ℚ) < 2 ^ 53 := by exact_mod_cast hab
  have hnext : (a * b : ℚ) + 1 ≤ c * (a * b / c + 1 : Nat) := by
    exact_mod_cast Nat.lt_mul_div_succ (a * b) hc
  refine Nat.ceil_le.mpr (hv.le_of_lt (lt_of_mul_lt_mul_right ?_ hc'.le) ?_)
  · linarith
  · exact Nat.lt_of_le_of_lt (Nat.div_le_self _ _) hab

/-- The rounded product is not below the whole part of the quotient. -/
theorem le_ceil_product (ha : 0 < a) (hb : 0 < b) (hc : 2 ≤ c) (hab : a * b < 2 ^ 53)
    (hy : Rounds ((b : ℚ) / c) y) (hv : Rounds (a * y) v) : a * b / c ≤ ⌈v⌉₊ := by
  have hc' : (0 : ℚ) < c := Nat.cast_pos.mpr (by omega)
  have hlow := (product_bounds (by omega) hy hv).2
  have hab' : (a * b : ℚ) < 2 ^ 53 := by exact_mod_cast hab
  have hab0 : (0 : ℚ) < a * b := by exact_mod_cast Nat.mul_pos ha hb
  have hdiv : ((a * b / c : Nat) : ℚ) * c ≤ a * b := by exact_mod_cast Nat.div_mul_le_self _ _
  have hc2 : (2 : ℚ) ≤ c := by exact_mod_cast hc
  have hlt : ((a * b / c : Nat) : ℚ) < v + 1 := by
    refine lt_of_mul_lt_mul_right ?_ hc'.le
    linarith
  have hceil := Nat.le_ceil v
  have hnext : ((a * b / c : Nat) : ℚ) < (⌈v⌉₊ + 1 : Nat) := by
    push_cast
    linarith
  exact Nat.lt_succ_iff.mp (Nat.cast_lt.mp hnext)

theorem lt_ceil_of_near (hden : 0 < den) (hdvd : ¬ den ∣ num) (hv : (num : ℚ) - 1 < v * den) :
    num / den < ⌈v⌉₊ := by
  have hdiv : ((num / den : Nat) : ℚ) * den + 1 ≤ num := by exact_mod_cast div_mul_lt hdvd
  refine Nat.lt_ceil.mpr (lt_of_mul_lt_mul_right ?_ (Nat.cast_pos.mpr hden).le)
  linarith

/-- Up to 2 ^ 52 the rounded product is past the whole part of a quotient that is not whole. -/
theorem lt_ceil_product (ha : 0 < a) (hb : 0 < b) (hc : 0 < c) (hab : a * b ≤ 2 ^ 52)
    (hdvd : ¬ c ∣ a * b) (hy : Rounds ((b : ℚ) / c) y) (hv : Rounds (a * y) v) :
    a * b / c < ⌈v⌉₊ := by
  have hlow := (product_bounds hc hy hv).2
  have hab' : (a * b : ℚ) ≤ 2 ^ 52 := by exact_mod_cast hab
  have hab0 : (0 : ℚ) < a * b := by exact_mod_cast Nat.mul_pos ha hb
  refine lt_ceil_of_near hc hdvd ?_
  push_cast
  linarith

/-- A rounded product with a quotient that is a double is the quotient of the product. -/
theorem product_eq {j : Nat} (ha : 0 < a) (hc : 0 < c) (hab : a * b < 2 ^ 53)
    (hdvd : c ∣ b * 2 ^ j) (hy : Rounds ((b : ℚ) / c) y) (hv : Rounds (a * y) v) :
    v = (a * b : Nat) / c := by
  obtain ⟨M, hM, i, hi⟩ := exists_bits hc hdvd
  have hb : b ≤ a * b := Nat.le_mul_of_pos_left b ha
  have haM : a * M ≤ a * b := Nat.mul_le_mul_left a hM
  obtain rfl := hy.eq_of_bits hi (by omega)
  rw [hv.eq_of_bits (M := a * M) (j := i) (by rw [hi]; push_cast; ring) (by omega)]
  push_cast
  ring

/-- What the integer above the quotient `a * b / c` becomes where `b / c` is rounded first: it can
be one more if the quotient is whole and `b / c` is no double, and one less past 2 ^ 52. -/
def CeilOfProduct (a b c n : Nat) : Prop :=
  n = ⌈((a * b : Nat) : ℚ) / c⌉₊ ∨
    (n = ⌈((a * b : Nat) : ℚ) / c⌉₊ + 1 ∧ c ∣ a * b ∧ ∀ j, ¬ c ∣ b * 2 ^ j) ∨
    (n + 1 = ⌈((a * b : Nat) : ℚ) / c⌉₊ ∧ ¬ c ∣ a * b ∧ 2 ^ 52 < a * b)

theorem ceilOfProduct_of_rounds (ha : 0 < a) (hb : 0 < b) (hc : 0 < c) (hab : a * b < 2 ^ 53)
    (hy : Rounds ((b : ℚ) / c) y) (hv : Rounds (a * y) v) : CeilOfProduct a b c ⌈v⌉₊ := by
  unfold CeilOfProduct
  by_cases hexact : ∃ j, c ∣ b * 2 ^ j
  · obtain ⟨j, hj⟩ := hexact
    exact .inl (product_eq ha hc hab hj hy hv ▸ rfl)
  have hc2 : 2 ≤ c := by
    rcases Nat.lt_or_ge 1 c with h | h
    · exact h
    · exact absurd ⟨0, by rw [Nat.le_antisymm h hc]; exact one_dvd _⟩ hexact
  have hhigh := ceil_product_le hc hab hy hv
  have hlow := le_ceil_product ha hb hc2 hab hy hv
  by_cases hdvd : c ∣ a * b
  · rw [ceil_div_of_dvd hc hdvd]
    rcases Nat.eq_or_lt_of_le hlow with heq | hlt
    · exact .inl heq.symm
    · exact .inr (.inl ⟨by omega, hdvd, not_exists.mp hexact⟩)
  · rw [ceil_div_of_not_dvd hc hdvd]
    rcases Nat.eq_or_lt_of_le hhigh with heq | hlt
    · exact .inl heq
    · refine .inr (.inr ⟨by omega, hdvd, Nat.lt_of_not_le fun hsmall => ?_⟩)
      have hpast := lt_ceil_product ha hb hc hsmall hdvd hy hv
      omega

/-- Nothing changes in the integer above a quotient that is rounded once. -/
theorem Rounds.ceil_eq (h : Rounds ((num : ℚ) / den) v) (hden : 0 < den) (hnum : num < 2 ^ 53) :
    ⌈v⌉₊ = ⌈(num : ℚ) / den⌉₊ := by
  have hd : (0 : ℚ) < den := Nat.cast_pos.mpr hden
  by_cases hdvd : den ∣ num
  · obtain ⟨M, hM, i, hi⟩ := exists_bits (j := 0) hden (by simpa using hdvd)
    rw [h.eq_of_bits hi (by omega)]
  · rw [ceil_div_of_not_dvd hden hdvd]
    refine Nat.le_antisymm (Nat.ceil_le.mpr (h.le_of_lt ((div_lt_iff₀ hd).mpr ?_) ?_))
      (lt_ceil_of_near hden hdvd ?_)
    · have hnext := Nat.lt_mul_div_succ num hden
      rw [Nat.mul_comm] at hnext
      exact_mod_cast hnext
    · exact Nat.lt_of_le_of_lt (Nat.div_le_self _ _) hnum
    · have hnum' : (num : ℚ) < 2 ^ 53 := by exact_mod_cast hnum
      obtain ⟨q, hq⟩ : ∃ q : ℚ, (num : ℚ) = q * den := ⟨num / den, by field_simp⟩
      have hlow := h.near.1
      rw [hq, mul_div_cancel_right₀ _ hd.ne'] at hlow
      have hlow' := mul_le_mul_of_nonneg_right hlow hd.le
      linarith

/-- The double that the product with the rounded quotient is, and the integer above it. -/
theorem exists_ceilOfProduct (ha : 0 < a) (hb : 0 < b) (hc : 0 < c) (hab : a * b < 2 ^ 53)
    (hc' : c < 2 ^ 53) : ∃ x, Binary.ofFloat? (ofInt a * ofRatio false b c) = some x ∧
      CeilOfProduct a b c x.ceil.toNat := by
  have ha' : a ≤ a * b := Nat.le_mul_of_pos_right a hb
  have hb' : b ≤ a * b := Nat.le_mul_of_pos_left b ha
  obtain ⟨y, hy, hvalue⟩ := ofRatio_rounds hb hc (by omega) hc'
  obtain ⟨v, m, e, hv, hparts, rfl⟩ := mul_rounds (hasValue_ofInt ha (by omega)) hvalue
  refine ⟨_, hparts, ?_⟩
  rw [ceil_of_value, Int.ceil_toNat]
  exact ceilOfProduct_of_rounds ha hb hc hab hy hv

/-- The double nearest to a quotient, and the integer above it. -/
theorem exists_ceil_ofRatio (hnum : 0 < num) (hden : 0 < den) (hnum' : num < 2 ^ 53)
    (hden' : den < 2 ^ 53) : ∃ x, Binary.ofFloat? (ofRatio false num den) = some x ∧
      x.ceil.toNat = ⌈(num : ℚ) / den⌉₊ := by
  obtain ⟨v, hv, m, e, hx, -, -, rfl⟩ := ofRatio_rounds hnum hden hnum' hden'
  refine ⟨_, hx.ofFloat?, ?_⟩
  rw [ceil_of_value, Int.ceil_toNat]
  exact hv.ceil_eq hden hnum'

end Product

end Kindred.Number
