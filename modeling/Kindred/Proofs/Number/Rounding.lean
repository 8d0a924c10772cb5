import Mathlib.Algebra.Group.Int.Defs
import Mathlib.Algebra.Group.Nat.Defs
import Kindred.Formula.Rounding
import Kindred.Proofs.Number.Double

/-!
# Integers rounded as doubles

How old someone looks without a mapping is found with doubles: the age becomes the double nearest to
it, one half is added, the sum is rounded to a double again, and the floor of that is taken. These
steps are followed here on mantissas and exponents. Where the last bit of a double counts whole
numbers or more, someone may look a few years older or younger than they are: up to 54 bits at most
one year, and up to 57 bits at most eight years younger.

- `roundedMantissa_shiftRight`: a mantissa that is shifted is rounded as a quotient is.
- `roundWithAccuracy_eq`, `round_eq`: the mantissa and the exponent of what is rounded to a double.
- `IsNormal`, `isNormal_ofInt`: the parts of the double nearest to an integer.
- `add_half`: the parts of a double with one half added.
- `roundHalfUp_ofNat`, `clampAge_ofNat`, `clampAge_near`: how far a rounded age is from the age.
-/

namespace Kindred.Number

open Float.Model (Format UnpackedFloat)
open Float.Model.UnpackedFloat

/-! ### Rounding to 53 bits -/

/-- A mantissa that is shifted keeps the first bit that it loses, and whether the others were all
zero. -/
theorem shiftRight_succ (S k : Nat) : (⟨S, false, false⟩ : ExtendedMantissa) >>> (k + 1) =
    ⟨S / 2 ^ (k + 1), S / 2 ^ k % 2 != 0, S % 2 ^ k != 0⟩ := by
  induction k with
  | zero =>
    have hsticky : (S % 2 ^ 0 != 0) = false := by rw [Nat.pow_zero, Nat.mod_one]; rfl
    rw [hsticky, Nat.pow_zero, Nat.div_one]
    rfl
  | succ k ih =>
    show ((⟨S, false, false⟩ : ExtendedMantissa) >>> (k + 1)).shiftRightOne = _
    rw [ih]
    unfold ExtendedMantissa.shiftRightOne
    have hmod : S % 2 ^ (k + 1) = S % 2 ^ k + 2 ^ k * (S / 2 ^ k % 2) := Nat.mod_pow_succ
    have hpos : 0 < 2 ^ k := Nat.two_pow_pos k
    have hsticky : ((S / 2 ^ k % 2 != 0) || (S % 2 ^ k != 0)) = (S % 2 ^ (k + 1) != 0) := by
      rw [hmod]
      rcases Nat.mod_two_eq_zero_or_one (S / 2 ^ k) with h | h
      · rw [h, Nat.mul_zero, Nat.add_zero]
        rfl
      · rw [h, Nat.mul_one]
        have hne : S % 2 ^ k + 2 ^ k ≠ 0 := by omega
        simp
    rw [Nat.div_div_eq_div_mul, ← Nat.pow_succ, hsticky]

theorem roundDivEven_one (n : Nat) : roundDivEven n 1 = n := by
  have h := roundDivEven_mul n 1 (by decide)
  rwa [Nat.mul_one] at h

/-- A shifted mantissa is rounded as the quotient is. -/
theorem roundedMantissa_shiftRight (S k : Nat) :
    ((⟨S, false, false⟩ : ExtendedMantissa) >>> k).roundedMantissa = roundDivEven S (2 ^ k) := by
  cases k with
  | zero =>
    show S = _
    exact (roundDivEven_one S).symm
  | succ k =>
    have hmod : S % 2 ^ (k + 1) = S % 2 ^ k + 2 ^ k * (S / 2 ^ k % 2) := Nat.mod_pow_succ
    have hlt : S % 2 ^ k < 2 ^ k := Nat.mod_lt _ (Nat.two_pow_pos k)
    have hpow : 2 ^ (k + 1) = 2 * 2 ^ k := Nat.pow_succ'
    rw [shiftRight_succ]
    unfold roundDivEven
    dsimp only
    rw [hmod]
    -- the two bits tell on which side of the half the remainder lies
    rcases Nat.mod_two_eq_zero_or_one (S / 2 ^ k) with hbit | hbit
    · rw [hbit, if_pos (by omega)]
      by_cases hlow : S % 2 ^ k = 0
      · rw [hlow]; rfl
      · rw [show (S % 2 ^ k != 0) = true from bne_iff_ne.mpr hlow]; rfl
    · rw [hbit, if_neg (by omega)]
      by_cases hlow : S % 2 ^ k = 0
      · rw [hlow, if_neg (by omega)]
        show S / 2 ^ (k + 1) + S / 2 ^ (k + 1) % 2 = _
        split <;> omega
      · rw [if_pos (by omega), show (S % 2 ^ k != 0) = true from bne_iff_ne.mpr hlow]
        rfl

/-- The exponent that a mantissa of at least 53 bits gets. -/
theorem targetExponent_eq {S : Nat} {e : Int} (hlog : 52 ≤ S.log2)
    (he : -1074 ≤ e + (S.log2 - 52 : Nat)) :
    Format.binary64.targetExponent (Float.Model.totalExponent S e) = e + (S.log2 - 52 : Nat) := by
  show max ((S.log2 : Int) + 1 + e - 53) (-1074) = _
  omega

/-- A mantissa of at least 53 bits is shifted until 53 are left. -/
theorem shiftToTargetExponent_eq {S : Nat} {e : Int} (hlog : 52 ≤ S.log2)
    (he : -1074 ≤ e + (S.log2 - 52 : Nat)) :
    shiftToTargetExponent Format.binary64 S e .exact =
      ((⟨S, false, false⟩ : ExtendedMantissa) >>> (S.log2 - 52), e + (S.log2 - 52 : Nat)) := by
  have hshift : (e + (S.log2 - 52 : Nat) - e).toNat = S.log2 - 52 := by omega
  unfold shiftToTargetExponent
  rw [targetExponent_eq hlog he]
  unfold shiftToExponent
  dsimp only
  rw [hshift]
  rfl

theorem log2_eq_of_bounds {m k : Nat} (hlow : 2 ^ k ≤ m) (hhigh : m < 2 ^ (k + 1)) :
    m.log2 = k := by
  have hm : m ≠ 0 := by have := Nat.two_pow_pos k; omega
  exact (Nat.log2_eq_iff hm).mpr ⟨hlow, hhigh⟩

theorem log2_mul_two_pow {n : Nat} (hn : n ≠ 0) (k : Nat) : (n * 2 ^ k).log2 = n.log2 + k := by
  refine log2_eq_of_bounds ?_ ?_
  · rw [Nat.pow_add]
    exact Nat.mul_le_mul_right _ (Nat.log2_self_le hn)
  · rw [Nat.add_right_comm, Nat.pow_add]
    exact Nat.mul_lt_mul_of_pos_right Nat.lt_log2_self (Nat.two_pow_pos k)

/-- The first 53 bits of a number, rounded. -/
theorem roundDivEven_bounds {S : Nat} (hlog : 52 ≤ S.log2) :
    2 ^ 52 ≤ roundDivEven S (2 ^ (S.log2 - 52)) ∧
      roundDivEven S (2 ^ (S.log2 - 52)) ≤ 2 ^ 53 := by
  have hS : S ≠ 0 := by rintro rfl; revert hlog; decide
  have hpow : 2 ^ 52 * 2 ^ (S.log2 - 52) = 2 ^ S.log2 := by
    rw [← Nat.pow_add]
    congr 1
    omega
  have hlow : 2 ^ 52 ≤ S / 2 ^ (S.log2 - 52) := by
    rw [Nat.le_div_iff_mul_le (Nat.two_pow_pos _), hpow]
    exact Nat.log2_self_le hS
  have hhigh : S / 2 ^ (S.log2 - 52) < 2 ^ 53 := by
    rw [Nat.div_lt_iff_lt_mul (Nat.two_pow_pos _), Nat.pow_succ', Nat.mul_assoc, hpow,
      ← Nat.pow_succ']
    exact Nat.lt_log2_self
  have hround := roundDivEven_eq_or S (2 ^ (S.log2 - 52))
  omega

/-- Rounding a mantissa to a double keeps its first 53 bits, rounded; a carry into another bit is
passed on to the exponent. -/
theorem roundWithAccuracy_eq {s : Sign} {S : Nat} {e : Int} (hlog : 52 ≤ S.log2)
    (he : -1074 ≤ e + (S.log2 - 52 : Nat)) :
    ∃ m e' h, roundWithAccuracy Format.binary64 s S e .exact = .finite s m e' h ∧
      2 ^ 52 ≤ m ∧ m < 2 ^ 53 ∧
      (m = roundDivEven S (2 ^ (S.log2 - 52)) ∧ e' = e + (S.log2 - 52 : Nat) ∨
        m = 2 ^ 52 ∧ roundDivEven S (2 ^ (S.log2 - 52)) = 2 ^ 53 ∧
          e' = e + (S.log2 - 52 : Nat) + 1) := by
  obtain ⟨hlow, hhigh⟩ := roundDivEven_bounds hlog
  unfold roundWithAccuracy
  rw [shiftToTargetExponent_eq hlog he]
  dsimp only
  rw [roundedMantissa_shiftRight]
  generalize roundDivEven S (2 ^ (S.log2 - 52)) = r at hlow hhigh ⊢
  by_cases hcarry : r < 2 ^ 53
  · have hr : r.log2 = 52 := log2_eq_of_bounds hlow hcarry
    rw [shiftToTargetExponent_eq (by omega) (by omega), hr]
    dsimp only
    rw [dif_neg (by show ¬ r = 0; omega)]
    exact ⟨r, _, by omega, rfl, hlow, hcarry, .inl ⟨rfl, by omega⟩⟩
  · obtain rfl : r = 2 ^ 53 := by omega
    have hr : (2 ^ 53).log2 = 53 := Nat.log2_two_pow
    rw [shiftToTargetExponent_eq (by omega) (by omega), hr]
    exact ⟨2 ^ 52, e + (S.log2 - 52 : Nat) + 1, by decide, rfl, Nat.le_refl _, by decide,
      .inr ⟨rfl, rfl, rfl⟩⟩

/-- A mantissa that is long enough is not extended before it is rounded. -/
theorem round_eq {s : Sign} {S : Nat} {e : Int} (hlog : 52 ≤ S.log2)
    (he : -1074 ≤ e + (S.log2 - 52 : Nat)) :
    ∃ m e' h, UnpackedFloat.round Format.binary64 s S e = .finite s m e' h ∧
      2 ^ 52 ≤ m ∧ m < 2 ^ 53 ∧
      (m = roundDivEven S (2 ^ (S.log2 - 52)) ∧ e' = e + (S.log2 - 52 : Nat) ∨
        m = 2 ^ 52 ∧ roundDivEven S (2 ^ (S.log2 - 52)) = 2 ^ 53 ∧
          e' = e + (S.log2 - 52 : Nat) + 1) := by
  have hround : UnpackedFloat.round Format.binary64 s S e =
      roundWithAccuracy Format.binary64 s S e .exact := by
    have hnone : (e - (e + (S.log2 - 52 : Nat))).toNat = 0 := by omega
    unfold UnpackedFloat.round
    rw [targetExponent_eq hlog he]
    unfold decreaseExponent
    dsimp only
    rw [hnone, Nat.shiftLeft_zero, Int.natCast_zero, Int.sub_zero]
  rw [hround]
  exact roundWithAccuracy_eq hlog he

/-! ### Doubles and their parts -/

/-- Whether a double is a mantissa of 53 bits, counted in a power of two. -/
def IsNormal (x : Float) (m : Nat) (e : Int) : Prop :=
  2 ^ 52 ≤ m ∧ m < 2 ^ 53 ∧ -1074 ≤ e ∧ e ≤ 971 ∧
    ∃ h, x.toModel.unpack = .finite .positive m e h

/-- The sign of a double. -/
def signOf (negative : Bool) : Sign := if negative then .negative else .positive

theorem toNat_packComponents_signOf {negative : Bool} {f : BitVec 11} {m : BitVec 52} :
    (packComponents Format.binary64 (signOf negative) f m).toNat =
      (negative.toNat * 0x800 + f.toNat) * 0x10000000000000 + m.toNat := by
  cases negative
  · exact @toNat_packComponents 0#1 f m
  · exact @toNat_packComponents 1#1 f m

/-- The bits of a mantissa that is packed. -/
theorem toNat_pack {negative : Bool} {m : Nat} {e : Int} {h : 0 < m} (hlow : 2 ^ 52 ≤ m)
    (hhigh : m < 2 ^ 53) (he : -1074 ≤ e) (he' : e ≤ 971) :
    (pack Format.binary64 (.finite (signOf negative) m e h)).toNat =
      (negative.toNat * 0x800 + (e + 1075).toNat) * 0x10000000000000 + (m - 2 ^ 52) := by
  have hlog : m.log2 = 52 := log2_eq_of_bounds hlow hhigh
  have hexp : (e + Format.binary64.exponentBias +
      Format.binary64.mantissaBitsWithoutImplicit).toNat = (e + 1075).toNat := by
    show (e + 1023 + 52).toNat = _
    omega
  have hsmall : ¬ 2 ^ Format.binary64.exponentBits ≤ (e + 1075).toNat + 1 := by
    show ¬ 2048 ≤ _
    omega
  unfold pack
  simp only [hexp]
  rw [if_neg hsmall, if_pos (by rw [hlog]; rfl), toNat_packComponents_signOf]
  have hfield : (BitVec.ofNat 11 (e + 1075).toNat).toNat = (e + 1075).toNat := by
    rw [BitVec.toNat_ofNat]
    omega
  have hfraction : (BitVec.ofNat 52 m).toNat = m - 2 ^ 52 := by
    rw [BitVec.toNat_ofNat]
    omega
  exact congr (congrArg _ (congrArg (fun n => (_ + n) * _) hfield)) hfraction

/-- The parts of a double, told by its bits. -/
theorem ofFloat?_of_toBits {x : Float} {negative : Bool} {f fraction : Nat}
    (hx : x.toBits.toNat = (negative.toNat * 0x800 + f) * 0x10000000000000 + fraction)
    (hfraction : fraction < 2 ^ 52) (hlow : 0 < f) (hhigh : f < 2047) :
    Binary.ofFloat? x = some ⟨negative, 2 ^ 52 + fraction, (f : Int) - 1075⟩ := by
  have h52 : Nat.pow 2 52 = 0x10000000000000 := rfl
  have h63 : Nat.pow 2 63 = 0x8000000000000000 := rfl
  have h11 : Nat.pow 2 11 = 0x800 := rfl
  have hfield : x.toBits.toNat / 0x10000000000000 % 0x800 = f := by omega
  have hrest : x.toBits.toNat % 0x10000000000000 = fraction := by omega
  have hsign : (x.toBits.toNat / 0x8000000000000000 == 1) = negative := by
    have hone : x.toBits.toNat / 0x8000000000000000 = negative.toNat := by omega
    rw [hone]
    cases negative <;> rfl
  unfold Binary.ofFloat?
  simp only [h52, h63, h11, hfield, hrest, hsign]
  rw [if_neg (by rw [beq_iff_eq]; omega), if_neg (by rw [beq_iff_eq]; omega)]
  rfl

/-- The parts of a double that a mantissa was packed into. -/
theorem ofFloat?_pack {negative : Bool} {m : Nat} {e : Int} {h : 0 < m} (hlow : 2 ^ 52 ≤ m)
    (hhigh : m < 2 ^ 53) (he : -1074 ≤ e) (he' : e ≤ 971) :
    Binary.ofFloat? (.ofModel (.pack (.finite (signOf negative) m e h))) =
      some ⟨negative, m, e⟩ := by
  have hbits : (Float.ofModel (.pack (.finite (signOf negative) m e h))).toBits.toNat =
      (negative.toNat * 0x800 + (e + 1075).toNat) * 0x10000000000000 + (m - 2 ^ 52) :=
    @toNat_pack negative m e h hlow hhigh he he'
  rw [ofFloat?_of_toBits hbits (by omega) (by omega) (by omega)]
  have hm : 2 ^ 52 + (m - 2 ^ 52) = m := by omega
  have hexp : ((e + 1075).toNat : Int) - 1075 = e := by omega
  rw [hm, hexp]

theorem finite_congr {s : Sign} {m m' : Nat} {e e' : Int} {h : 0 < m} {h' : 0 < m'} (hm : m = m')
    (he : e = e') : UnpackedFloat.finite s m e h = .finite s m' e' h' := by
  subst hm he
  rfl

/-- The double that bits with an exponent of their own stand for. -/
theorem unpack_ofBits {b : UInt64} {negative : Bool} {f fraction : Nat}
    (hb : b.toNat = (negative.toNat * 0x800 + f) * 0x10000000000000 + fraction)
    (hfraction : fraction < 2 ^ 52) (hlow : 0 < f) (hhigh : f < 2047) :
    ∃ h, (Float.ofBits b).toModel.unpack =
      .finite (signOf negative) (2 ^ 52 + fraction) ((f : Int) - 1075) h := by
  have hfield : b.toNat / 0x10000000000000 % 0x800 = f := by omega
  have hmodel : (Float.ofBits b).toModel.unpack = unpack Format.binary64 b.toBitVec := by
    show unpack Format.binary64 (pack Format.binary64 (unpack Format.binary64 b.toBitVec)) = _
    rw [pack_unpack (by omega)]
  have hexp : (@unpackExponent Format.binary64 b.toBitVec).toNat = f := by
    rw [toNat_unpackExponent, hfield]
  have hmant : (@unpackMantissa Format.binary64 b.toBitVec).toNat = fraction := by
    rw [toNat_unpackMantissa]
    omega
  have hsign : Sign.ofBitVec (@unpackSign Format.binary64 b.toBitVec) = signOf negative := by
    have hbit : @unpackSign Format.binary64 b.toBitVec = BitVec.ofBool negative := by
      apply BitVec.eq_of_toNat_eq
      rw [toNat_unpackSign, BitVec.toNat_ofBool]
      omega
    rw [hbit]
    cases negative <;> rfl
  have hones : @unpackExponent Format.binary64 b.toBitVec ≠ -1#_ := by
    intro heq
    rw [heq] at hexp
    have hexp : (2047 : Nat) = f := hexp
    omega
  have hzeros : @unpackExponent Format.binary64 b.toBitVec ≠ 0#_ := by
    intro heq
    rw [heq] at hexp
    have hexp : (0 : Nat) = f := hexp
    omega
  have hwhole : (1#1 ++ @unpackMantissa Format.binary64 b.toBitVec).toNat = 2 ^ 52 + fraction := by
    rw [BitVec.toNat_append, ← Nat.shiftLeft_add_eq_or_of_lt (BitVec.isLt _), hmant]
    rfl
  refine ⟨by omega, ?_⟩
  rw [hmodel]
  unfold unpack
  dsimp only
  rw [if_neg hones, if_neg hzeros, hsign]
  exact finite_congr hwhole (by rw [hexp]; rfl)

/-- The bits of a double that is put together from a mantissa with its leading bit. -/
theorem exists_assemble_eq_ofBits {negative : Bool} {m : Nat} {e : Int} (hlow : 2 ^ 52 ≤ m)
    (hhigh : m ≤ 2 ^ 53) (he : -1074 ≤ e) (he' : e ≤ 970) :
    ∃ b : UInt64, assemble negative m e = Float.ofBits b ∧
      b.toNat = (negative.toNat * 0x800 + (e + 1074).toNat) * 0x10000000000000 + m := by
  have h52 : Nat.pow 2 52 = 0x10000000000000 := rfl
  have h63 : (if negative = true then Nat.pow 2 63 else 0) =
      negative.toNat * 0x8000000000000000 := by cases negative <;> rfl
  have hsign := Bool.toNat_lt negative
  unfold assemble
  simp only [h52, h63]
  rw [if_neg (by omega), Nat.min_eq_left (by omega)]
  refine ⟨_, rfl, ?_⟩
  rw [UInt64.toNat_ofNat_of_lt' (by show _ < 0x10000000000000000; omega)]
  omega

/-- A double put together is the one with these parts; a mantissa of 54 bits is a carry. -/
theorem isNormal_assemble {m : Nat} {e : Int} (hlow : 2 ^ 52 ≤ m) (hhigh : m ≤ 2 ^ 53)
    (he : -1074 ≤ e) (he' : e ≤ 970) :
    m < 2 ^ 53 ∧ IsNormal (assemble false m e) m e ∨
      m = 2 ^ 53 ∧ IsNormal (assemble false m e) (2 ^ 52) (e + 1) := by
  obtain ⟨b, hb, hbits⟩ := @exists_assemble_eq_ofBits false m e hlow hhigh he he'
  rw [hb]
  obtain ⟨fraction, rfl⟩ := Nat.exists_eq_add_of_le hlow
  have hfield : (e + 1075).toNat = (e + 1074).toNat + 1 := by omega
  have hcarried : (e + 1076).toNat = (e + 1074).toNat + 2 := by omega
  by_cases hm : fraction < 2 ^ 52
  · refine .inl ⟨by omega, by omega, by omega, he, by omega, ?_⟩
    have hunpack := @unpack_ofBits b false ((e + 1075).toNat) fraction
      (by rw [hbits, hfield]; omega) hm (by omega) (by omega)
    rwa [show (((e + 1075).toNat : Nat) : Int) - 1075 = e by omega] at hunpack
  · refine .inr ⟨by omega, Nat.le_refl _, by decide, by omega, by omega, ?_⟩
    have hunpack := @unpack_ofBits b false ((e + 1076).toNat) 0
      (by rw [hbits, hcarried]; omega) (by decide) (by omega) (by omega)
    rwa [show (((e + 1076).toNat : Nat) : Int) - 1075 = e + 1 by omega] at hunpack

/-! ### The double nearest to an integer -/

/-- The integer that the double nearest to a number is. -/
def nearest (n : Nat) : Nat := roundDivEven n (2 ^ (n.log2 - 52)) * 2 ^ (n.log2 - 52)

/-- The double nearest to an integer is put together from its first 53 bits, rounded. -/
theorem ofInt_eq_assemble {n : Int} (hn : n ≠ 0) :
    ∃ r, ofInt n = assemble (n < 0) r ((n.natAbs.log2 : Int) - 52) ∧ 2 ^ 52 ≤ r ∧ r ≤ 2 ^ 53 ∧
      r * 2 ^ n.natAbs.log2 = nearest n.natAbs * 2 ^ 52 := by
  unfold ofInt ofRatio
  have hn : n.natAbs ≠ 0 := by omega
  rw [if_neg (by simp [hn])]
  simp only [lastBit_one hn]
  refine ⟨_, rfl, ?_⟩
  unfold nearest
  generalize n.natAbs = n at hn ⊢
  cases hbit : (n.log2 : Int) - 52 with
  | ofNat k =>
    rw [Int.ofNat_eq_natCast] at hbit
    have hk : n.log2 - 52 = k := by omega
    have hpow : 2 ^ n.log2 = 2 ^ k * 2 ^ 52 := by rw [← Nat.pow_add]; congr 1; omega
    obtain ⟨hlow, hhigh⟩ := @roundDivEven_bounds n (by omega)
    simp only [Nat.one_mul, Nat.pow_eq]
    rw [hk] at hlow hhigh ⊢
    exact ⟨hlow, hhigh, by rw [hpow, Nat.mul_assoc]⟩
  | negSucc k =>
    -- the integer has fewer bits, and nothing is rounded
    have hk : n.log2 - 52 = 0 := by omega
    have hpow : n.log2 + (k + 1) = 52 := by omega
    have hlow : 2 ^ 52 ≤ n * 2 ^ (k + 1) := by
      have h := Nat.mul_le_mul_right (2 ^ (k + 1)) (Nat.log2_self_le hn)
      rwa [← Nat.pow_add, hpow] at h
    have hhigh : n * 2 ^ (k + 1) ≤ 2 ^ 53 := by
      have h := Nat.mul_le_mul_right (2 ^ (k + 1)) (Nat.le_of_lt (@Nat.lt_log2_self n))
      rwa [← Nat.pow_add, show n.log2 + 1 + (k + 1) = 53 by omega] at h
    simp only [Nat.pow_eq]
    rw [hk, Nat.pow_zero, roundDivEven_one, roundDivEven_one, Nat.mul_one, Nat.mul_assoc,
      ← Nat.pow_add, Nat.add_comm (k + 1), hpow]
    exact ⟨hlow, hhigh, rfl⟩

/-- The double nearest to an integer, by its parts. -/
theorem isNormal_ofInt {n : Nat} (hpos : 0 < n) (hlog : n.log2 ≤ 1022) :
    ∃ m e k, IsNormal (ofInt n) m e ∧ e + 52 = (k : Nat) ∧ e ≤ n.log2 - 51 ∧
      m * 2 ^ k = nearest n * 2 ^ 52 := by
  obtain ⟨r, hr, hlow, hhigh, hvalue⟩ := @ofInt_eq_assemble n (by omega)
  have hsign : decide ((n : Int) < 0) = false := decide_eq_false (by omega)
  rw [Int.natAbs_natCast] at hr hvalue
  rw [hr, hsign]
  have he : -1074 ≤ (n.log2 : Int) - 52 := by omega
  rcases isNormal_assemble hlow hhigh he (by omega) with ⟨-, h⟩ | ⟨rfl, h⟩
  · exact ⟨r, _, n.log2, h, by omega, by omega, hvalue⟩
  · refine ⟨2 ^ 52, _, n.log2 + 1, h, by omega, by omega, ?_⟩
    rw [← hvalue, ← Nat.pow_add, ← Nat.pow_add, ← Nat.add_assoc, Nat.add_right_comm]

/-- A quotient that is less than one half above an integer is rounded to it. -/
theorem roundDivEven_of_small {q r den : Nat} (h : 2 * r < den) :
    roundDivEven (q * den + r) den = q := by
  have hdiv : (q * den + r) / den = q := by
    rw [Nat.mul_comm, Nat.mul_add_div (by omega), Nat.div_eq_of_lt (by omega), Nat.add_zero]
  have hmod : (q * den + r) % den = r := by
    rw [Nat.mul_comm, Nat.mul_add_mod, Nat.mod_eq_of_lt (by omega)]
  unfold roundDivEven
  dsimp only
  rw [hmod, if_pos h, hdiv]

/-- An integer of at most 57 bits is at most 8 above the double nearest to it. -/
theorem le_nearest {n : Nat} (hn : n < 2 ^ 57) : n ≤ nearest n + 8 := by
  unfold nearest
  rcases Nat.eq_zero_or_pos n with rfl | hpos
  · exact Nat.zero_le _
  have hlog : n.log2 < 57 := (Nat.log2_lt (by omega)).mpr hn
  have hden : 2 ^ (n.log2 - 52) ≤ 2 ^ 4 := Nat.pow_le_pow_right (by decide) (by omega)
  have hround := (roundDivEven_mul_near n (Nat.two_pow_pos (n.log2 - 52))).1
  omega

/-- An integer of at most 54 bits is next to the double nearest to it, and one of at most 53 bits is
a double. -/
theorem nearest_near {n : Nat} (hn : n < 2 ^ 54) :
    n ≤ nearest n + 1 ∧ nearest n ≤ n + 1 ∧ (n < 2 ^ 53 → nearest n = n) := by
  unfold nearest
  by_cases hsmall : n < 2 ^ 53
  · have hlog : n.log2 - 52 = 0 := by
      rcases Nat.eq_zero_or_pos n with rfl | hpos
      · rfl
      · have hlog : n.log2 < 53 := (Nat.log2_lt (by omega)).mpr hsmall
        omega
    rw [hlog, Nat.pow_zero, roundDivEven_one]
    omega
  · have hlog : n.log2 = 53 := log2_eq_of_bounds (by omega) hn
    have hround := roundDivEven_mul_near n (show 0 < 2 ^ 1 by decide)
    rw [hlog, show 53 - 52 = 1 from rfl]
    omega

theorem nearest_le (n : Nat) : nearest n ≤ 2 * n := by
  unfold nearest
  rcases Nat.eq_zero_or_pos n with rfl | hpos
  · exact Nat.le_refl 0
  have hself : 2 ^ n.log2 ≤ n := Nat.log2_self_le (by omega)
  by_cases hlog : 52 ≤ n.log2
  · have hround := Nat.mul_le_mul_right (2 ^ (n.log2 - 52)) (roundDivEven_bounds hlog).2
    have hpow : 2 ^ 53 * 2 ^ (n.log2 - 52) = 2 * 2 ^ n.log2 := by
      rw [← Nat.pow_add, ← Nat.pow_succ']
      congr 1
      omega
    omega
  · rw [show n.log2 - 52 = 0 by omega, Nat.pow_zero, roundDivEven_one]
    omega

/-! ### One half more -/

/-- The floor of a positive double. -/
theorem floor_of_parts {m k : Nat} {e : Int} (he : e + 52 = k) :
    (Binary.mk false m e).floor = (m * 2 ^ k / 2 ^ 52 : Nat) := by
  have hfloor : ∀ num den : Nat, Int.fdiv (num : Int) den = (num / den : Nat) := by
    intro num den
    rw [Int.fdiv_eq_ediv_of_nonneg _ (Int.natCast_nonneg den)]
    rfl
  unfold Binary.floor Binary.ratio Binary.signed
  cases e with
  | ofNat j =>
    rw [Int.ofNat_eq_natCast] at he
    have hk : k = j + 52 := by omega
    simp only [Nat.pow_eq, Bool.false_eq_true, if_false]
    rw [hfloor, hk, Nat.div_one, Nat.pow_add, ← Nat.mul_assoc,
      Nat.mul_div_cancel _ (Nat.two_pow_pos 52)]
  | negSucc j =>
    have hk : j + 1 + k = 52 := by omega
    have hpow : 2 ^ 52 = 2 ^ (j + 1) * 2 ^ k := by rw [← Nat.pow_add, hk]
    simp only [Nat.pow_eq, Bool.false_eq_true, if_false]
    rw [hfloor, hpow, Nat.mul_div_mul_right _ _ (Nat.two_pow_pos k)]

theorem unpack_half :
    ∃ h, (0.5 : Float).toModel.unpack = .finite .positive (2 ^ 52) (-53) h :=
  ⟨by decide, rfl⟩

/-- One half is added to a double by its parts. -/
theorem add_half_eq {x : Float} {m j S : Nat} {hm : 0 < m} {e : Int}
    (hx : x.toModel.unpack = .finite .positive m e hm) (he : e + 52 = j)
    (hS : m * 2 ^ (j + 1) + 2 ^ 52 = S) :
    x + 0.5 = .ofModel (.pack (UnpackedFloat.round Format.binary64 .positive S (-53))) := by
  obtain ⟨h, hhalf⟩ := unpack_half
  have hsum : x + 0.5 =
      .ofModel (.pack (add Format.binary64 x.toModel.unpack (0.5 : Float).toModel.unpack)) := rfl
  have hscale : (e - -53).toNat = j + 1 := by omega
  have hpositive : ∀ n : Int, Sign.positive.apply n = n := fun _ => rfl
  have hmantissa : ((m * 2 ^ (j + 1) : Nat) : Int) + ((2 ^ 52 : Nat) : Int) = (S : Int) := by
    rw [← Int.natCast_add, hS]
  rw [hsum, hx, hhalf]
  unfold add decreaseExponent
  dsimp only
  rw [Int.min_eq_right (by omega), hscale, Int.sub_self, Int.toNat_zero, Nat.shiftLeft_zero,
    Nat.shiftLeft_eq, hpositive, hpositive, hmantissa]
  have hpos : compare (S : Int) 0 = .gt := by
    rw [Int.compare_eq_gt, ← hS]
    have := Nat.two_pow_pos 52
    omega
  unfold UnpackedFloat.normalize
  rw [hpos]
  dsimp only
  rw [Int.toNat_natCast]

/-- Twice a double and one more, counted in halves of its last bit. -/
theorem twice_add_one {m j N : Nat} (h : m * 2 ^ j = N * 2 ^ 52) :
    m * 2 ^ (j + 1) + 2 ^ 52 = (2 * N + 1) * 2 ^ 52 := by
  have hpow : m * 2 ^ (j + 1) = 2 * (m * 2 ^ j) := by
    rw [Nat.pow_succ', Nat.mul_left_comm]
  rw [hpow, h, Nat.add_mul, Nat.one_mul, Nat.mul_assoc]

theorem log2_twice_add_one {m j N : Nat} (hlow : 2 ^ 52 ≤ m) (hhigh : m < 2 ^ 53)
    (h : m * 2 ^ j = N * 2 ^ 52) : ((2 * N + 1) * 2 ^ 52).log2 = j + 53 := by
  have hN : 2 ^ j ≤ N := by
    refine Nat.le_of_mul_le_mul_right ?_ (Nat.two_pow_pos 52)
    rw [← h, Nat.mul_comm]
    exact Nat.mul_le_mul_right _ hlow
  have hN' : N < 2 ^ (j + 1) := by
    refine Nat.lt_of_mul_lt_mul_right (a := 2 ^ 52) ?_
    rw [← h, Nat.pow_succ', Nat.mul_right_comm, ← Nat.pow_succ']
    exact Nat.mul_lt_mul_of_pos_right hhigh (Nat.two_pow_pos j)
  have hpow : 2 ^ (j + 1) = 2 * 2 ^ j := Nat.pow_succ'
  have hpow' : 2 ^ (j + 2) = 2 * 2 ^ (j + 1) := Nat.pow_succ'
  have hodd : (2 * N + 1).log2 = j + 1 := log2_eq_of_bounds (by omega) (by omega)
  rw [log2_mul_two_pow (by omega), hodd]

/-- The double that half of one is added to. -/
theorem add_half {x : Float} {m j N : Nat} {e : Int} (hx : IsNormal x m e) (he : e + 52 = j)
    (hvalue : m * 2 ^ j = N * 2 ^ 52) (he' : e ≤ 970) :
    ∃ m' e' k, Binary.ofFloat? (x + 0.5) = some ⟨false, m', e'⟩ ∧ e' + 52 = (k : Nat) ∧
      m' * 2 ^ k = roundDivEven ((2 * N + 1) * 2 ^ 52) (2 ^ (j + 1)) * 2 ^ j := by
  obtain ⟨hlow, hhigh, -, -, hm, hunpack⟩ := hx
  rw [add_half_eq hunpack he (twice_add_one hvalue)]
  have hlog := log2_twice_add_one hlow hhigh hvalue
  obtain ⟨m', e', h', hround, hlow', hhigh', hcases⟩ :=
    @round_eq .positive ((2 * N + 1) * 2 ^ 52) (-53) (by omega) (by omega)
  rw [hround]
  rw [hlog, show j + 53 - 52 = j + 1 by omega] at hcases
  rcases hcases with ⟨rfl, he'⟩ | ⟨rfl, hcarry, he'⟩
  · exact ⟨_, e', j, @ofFloat?_pack false _ _ _ hlow' hhigh' (by omega) (by omega), by omega, rfl⟩
  · refine ⟨_, e', j + 1, @ofFloat?_pack false _ _ _ hlow' hhigh' (by omega) (by omega), by omega,
      ?_⟩
    rw [hcarry, ← Nat.pow_add, ← Nat.pow_add, ← Nat.add_assoc, Nat.add_right_comm]

/-- Where the last bit of a double counts two or more, one half that is added is lost. -/
theorem floor_add_half_of_large {m j N : Nat} (h : m * 2 ^ j = N * 2 ^ 52) (hj : 53 ≤ j) :
    roundDivEven ((2 * N + 1) * 2 ^ 52) (2 ^ (j + 1)) * 2 ^ j / 2 ^ 52 = N := by
  have hden : 2 ^ (53 + 1) ≤ 2 ^ (j + 1) := Nat.pow_le_pow_right (by decide) (by omega)
  rw [← twice_add_one h, roundDivEven_of_small (by omega), h,
    Nat.mul_div_cancel _ (Nat.two_pow_pos 52)]

/-- Where it counts one or less, the floor of the sum is at most the next integer. -/
theorem floor_add_half_le {j N : Nat} (hj : j ≤ 52) :
    roundDivEven ((2 * N + 1) * 2 ^ 52) (2 ^ (j + 1)) * 2 ^ j / 2 ^ 52 ≤ N + 1 := by
  have hden : 2 ^ j ≤ 2 ^ 52 := Nat.pow_le_pow_right (by decide) hj
  have hhalf : ∀ q : Nat, q * 2 ^ (j + 1) = 2 * (q * 2 ^ j) := fun q => by
    rw [Nat.pow_succ', Nat.mul_left_comm]
  have hround := (roundDivEven_mul_near ((2 * N + 1) * 2 ^ 52) (Nat.two_pow_pos (j + 1))).2
  rw [hhalf, Nat.pow_succ'] at hround
  refine Nat.div_le_of_le_mul ?_
  rw [Nat.pow_succ']
  omega

/-- A double and one half, rounded to a double, has as its floor the double or the integer after it,
and the double if that is large. -/
theorem floor_add_half {m j N : Nat} (hhigh : m < 2 ^ 53) (h : m * 2 ^ j = N * 2 ^ 52) :
    N ≤ roundDivEven ((2 * N + 1) * 2 ^ 52) (2 ^ (j + 1)) * 2 ^ j / 2 ^ 52 ∧
      roundDivEven ((2 * N + 1) * 2 ^ 52) (2 ^ (j + 1)) * 2 ^ j / 2 ^ 52 ≤ N + 1 ∧
      (2 ^ 53 ≤ N → roundDivEven ((2 * N + 1) * 2 ^ 52) (2 ^ (j + 1)) * 2 ^ j / 2 ^ 52 = N) := by
  refine ⟨?_, ?_, fun hN => floor_add_half_of_large h (Nat.lt_of_not_le fun hj => ?_)⟩
  · have hquotient : m ≤ (2 * N + 1) * 2 ^ 52 / 2 ^ (j + 1) := by
      rw [Nat.le_div_iff_mul_le (Nat.two_pow_pos _), ← twice_add_one h]
      exact Nat.le_add_right _ _
    have hround := roundDivEven_eq_or ((2 * N + 1) * 2 ^ 52) (2 ^ (j + 1))
    rw [Nat.le_div_iff_mul_le (Nat.two_pow_pos _), ← h]
    exact Nat.mul_le_mul_right _ (by omega)
  · rcases Nat.lt_or_ge 52 j with hj | hj
    · exact Nat.le_succ_of_le (Nat.le_of_eq (floor_add_half_of_large h hj))
    · exact floor_add_half_le hj
  · -- a mantissa has at most 53 bits, so a large double has a last bit that counts two at least
    have hden : 2 ^ j ≤ 2 ^ 52 := Nat.pow_le_pow_right (by decide) hj
    have hlarge : m * 2 ^ j ≤ m * 2 ^ 52 := Nat.mul_le_mul_left m hden
    omega

end Kindred.Number

namespace Kindred

open Kindred.Number

/-! ### Ages -/

/-- An integer is rounded to the double nearest to it, or to the number after that. -/
theorem roundHalfUp_ofNat {n bits : Nat} (hpos : 0 < n) (hbits : bits ≤ 1022)
    (hn : n < Nat.pow 2 bits) :
    ∃ c : Nat, roundHalfUp (.int n) = .ok (c : Int) ∧ nearest n ≤ c ∧ c ≤ nearest n + 1 ∧
      (2 ^ 53 ≤ nearest n → c = nearest n) := by
  have hlog : n.log2 < bits := (Nat.log2_lt (by omega)).mpr hn
  obtain ⟨m, e, j, hx, he, hsmall, hvalue⟩ := isNormal_ofInt hpos (by omega)
  obtain ⟨m', e', k, hparts, he', hsum⟩ := add_half hx he hvalue (by omega)
  have hround : roundHalfUp (.int n) = .ok (m' * 2 ^ k / 2 ^ 52 : Nat) := by
    have hfinite : isFinite (ofInt n) = true :=
      @isFinite_ofInt n bits (by omega) hn
    unfold roundHalfUp Number.toFloat? finiteOfInt?
    simp only [hfinite, if_true]
    unfold floatToInt
    rw [hparts]
    exact congrArg Except.ok (floor_of_parts he')
  refine ⟨_, hround, ?_⟩
  rw [hsum]
  exact floor_add_half hx.2.1 hvalue

theorem clampAge_of_roundHalfUp {n : Number} {c : Nat} (h : roundHalfUp n = .ok (c : Int)) :
    clampAge n = .ok (c : Int) := by
  unfold clampAge
  rw [h]
  exact congrArg Except.ok (Int.max_eq_right (Int.natCast_nonneg c))

/-- An age of at most 57 bits comes out at most eight years lower. -/
theorem clampAge_ofNat {n : Nat} (hn : n < 2 ^ 57) :
    ∃ c : Nat, clampAge (.int n) = .ok (c : Int) ∧ n ≤ c + 8 ∧ c ≤ 4 * n := by
  rcases Nat.eq_zero_or_pos n with rfl | hpos
  · exact ⟨0, rfl, by decide, by decide⟩
  obtain ⟨c, hround, hlow, hhigh, -⟩ := roundHalfUp_ofNat hpos (by decide) hn
  have hnear := le_nearest hn
  have hnear' := nearest_le n
  exact ⟨c, clampAge_of_roundHalfUp hround, by omega, by omega⟩

/-- An age of at most 54 bits comes out at most one year lower or higher. -/
theorem clampAge_near {n : Nat} (hn : n < 2 ^ 54) :
    ∃ c : Nat, clampAge (.int n) = .ok (c : Int) ∧ n ≤ c + 1 ∧ c ≤ n + 1 := by
  rcases Nat.eq_zero_or_pos n with rfl | hpos
  · exact ⟨0, rfl, by decide, by decide⟩
  obtain ⟨c, hround, hlow, hhigh, hlost⟩ := roundHalfUp_ofNat hpos (by decide) hn
  obtain ⟨hnear, hnear', hsame⟩ := nearest_near hn
  exact ⟨c, clampAge_of_roundHalfUp hround, by omega, by omega⟩

end Kindred
