import Kindred.Number.Basic

/-!
# Doubles put together and taken apart

A finite double keeps its bits: they are unpacked into a sign, an exponent and a mantissa, and these
are packed into the same bits again. So a double put together from parts that are not too large is
finite, and an integer has a finite double nearest to it as long as its exponent fits.

- `toBits_ofBits`: the bits of a finite double.
- `isFinite_assemble`: doubles put together from their parts.
- `finiteOfInt?_isSome`: integers of at most 1023 bits.
-/

namespace Kindred.Number

open Float.Model (Format)
open Float.Model.UnpackedFloat

variable {b : UInt64}

/-! ### The bits of a double -/

/-- The exponent field of a row of bits. -/
theorem toNat_unpackExponent :
    (@unpackExponent Format.binary64 b.toBitVec).toNat = b.toNat / 0x10000000000000 % 0x800 := by
  simp [unpackExponent, BitVec.extractLsb, BitVec.extractLsb', Nat.shiftRight_eq_div_pow]

theorem toNat_unpackMantissa :
    (@unpackMantissa Format.binary64 b.toBitVec).toNat = b.toNat % 0x10000000000000 := by
  simp [unpackMantissa, BitVec.extractLsb, BitVec.extractLsb', Nat.shiftRight_eq_div_pow]

theorem toNat_unpackSign :
    (@unpackSign Format.binary64 b.toBitVec).toNat = b.toNat / 0x8000000000000000 := by
  have hb := b.toNat_lt
  show (b.toBitVec.extractLsb 63 63).toNat = _
  rw [BitVec.extractLsb_toNat, Nat.shiftRight_eq_div_pow]
  show b.toNat / 0x8000000000000000 % 2 = _
  omega

/-- The three fields side by side. -/
theorem toNat_packComponents {s : BitVec 1} {e : BitVec 11} {m : BitVec 52} :
    (packComponents Format.binary64 (Sign.ofBitVec s) e m).toNat =
      (s.toNat * 0x800 + e.toNat) * 0x10000000000000 + m.toNat := by
  have hsign : ∀ s : BitVec 1, (Sign.ofBitVec s).toBitVec = s := by decide
  unfold packComponents
  rw [hsign, BitVec.toNat_append, BitVec.toNat_append, ← Nat.shiftLeft_add_eq_or_of_lt e.isLt,
    ← Nat.shiftLeft_add_eq_or_of_lt m.isLt, Nat.shiftLeft_eq, Nat.shiftLeft_eq]

/-- The fields of a row of bits, put side by side again. -/
theorem packComponents_unpack :
    packComponents Format.binary64 (Sign.ofBitVec (@unpackSign Format.binary64 b.toBitVec))
      (@unpackExponent Format.binary64 b.toBitVec) (@unpackMantissa Format.binary64 b.toBitVec) =
        b.toBitVec := by
  apply BitVec.eq_of_toNat_eq
  rw [toNat_packComponents, toNat_unpackSign, toNat_unpackExponent, toNat_unpackMantissa]
  show _ = b.toNat
  omega

/-- A small mantissa is packed with the exponent field zero. -/
theorem pack_subnormal {s : Sign} {m : BitVec 52} {e : Int} {h : 0 < m.toNat} (he : e = -1074) :
    pack Format.binary64 (.finite s m.toNat e h) =
      packComponents Format.binary64 s 0#11 m := by
  obtain rfl := he
  have hlog : ¬ m.toNat.log2 + 1 = Format.binary64.mantissaBits := by
    have hlt : m.toNat.log2 < 52 := (Nat.log2_lt (by omega)).mpr m.isLt
    show ¬ m.toNat.log2 + 1 = 53
    omega
  unfold pack
  rw [if_neg (by decide), if_neg hlog, BitVec.ofNat_toNat, BitVec.setWidth_eq]

/-- A mantissa with its leading bit is packed with the exponent field that belongs to it. -/
theorem pack_normal {s : Sign} {e : BitVec 11} {m : BitVec 52} {h : 0 < (1#1 ++ m).toNat}
    (he : e.toNat ≠ 2047) :
    pack Format.binary64 (.finite s (1#1 ++ m).toNat ((e.toNat : Int) - 1075) h) =
      packComponents Format.binary64 s e m := by
  have hm : (1#1 ++ m).toNat = 2 ^ 52 + m.toNat := by
    rw [BitVec.toNat_append, ← Nat.shiftLeft_add_eq_or_of_lt m.isLt]
    rfl
  have hlog : (1#1 ++ m).toNat.log2 + 1 = Format.binary64.mantissaBits := by
    have hlow : 52 ≤ (1#1 ++ m).toNat.log2 := (Nat.le_log2 (by omega)).mpr (by omega)
    have hhigh : (1#1 ++ m).toNat.log2 < 53 := (Nat.log2_lt (by omega)).mpr (by omega)
    show _ = 53
    omega
  have hexp : ((e.toNat : Int) - 1075 + Format.binary64.exponentBias +
      Format.binary64.mantissaBitsWithoutImplicit).toNat = e.toNat := by
    show ((e.toNat : Int) - 1075 + 1023 + 52).toNat = e.toNat
    omega
  have hsmall : ¬ 2 ^ Format.binary64.exponentBits ≤ e.toNat + 1 := by
    have hlt := e.isLt
    show ¬ 2048 ≤ _
    omega
  unfold pack
  simp only [hexp]
  rw [if_neg hsmall, if_pos hlog, BitVec.ofNat_toNat, BitVec.setWidth_eq]
  have hmant : BitVec.ofNat 52 (1#1 ++ m).toNat = m := by
    apply BitVec.eq_of_toNat_eq
    rw [BitVec.toNat_ofNat, hm]
    omega
  exact congrArg _ hmant

/-- A finite double is packed into the bits that it was unpacked from. -/
theorem pack_unpack (h : b.toNat / 0x10000000000000 % 0x800 ≠ 0x7FF) :
    pack Format.binary64 (unpack Format.binary64 b.toBitVec) = b.toBitVec := by
  rw [← toNat_unpackExponent] at h
  have hparts := @packComponents_unpack b
  have hfinite : @unpackExponent Format.binary64 b.toBitVec ≠ -1#_ := by
    intro heq
    exact h (by rw [heq]; rfl)
  unfold unpack
  dsimp only
  rw [if_neg hfinite]
  by_cases he : @unpackExponent Format.binary64 b.toBitVec = 0#_
  · rw [he] at hparts
    by_cases hm : @unpackMantissa Format.binary64 b.toBitVec = 0#_
    · rw [hm] at hparts
      rw [if_pos he, dif_pos hm]
      exact hparts
    · rw [if_pos he, dif_neg hm]
      exact (pack_subnormal (by rw [he]; rfl)).trans hparts
  · rw [if_neg he]
    exact (pack_normal h).trans hparts

/-- A finite double keeps its bits. -/
theorem toBits_ofBits (h : b.toNat / 0x10000000000000 % 0x800 ≠ 0x7FF) :
    (Float.ofBits b).toBits = b := by
  show UInt64.ofBitVec (pack Format.binary64 (unpack Format.binary64 b.toBitVec)) = b
  rw [pack_unpack h]

theorem isFinite_ofBits (h : b.toNat / 0x10000000000000 % 0x800 ≠ 0x7FF) :
    isFinite (Float.ofBits b) = true := by
  have hfield : (b.toNat / Nat.pow 2 52 % Nat.pow 2 11 == 2047) = false :=
    beq_false_of_ne h
  unfold isFinite Binary.ofFloat?
  simp only [toBits_ofBits h, hfield, Bool.false_eq_true, if_false]
  split <;> rfl

/-! ### Doubles put together -/

/-- What is not too large is finite. -/
theorem isFinite_assemble {negative : Bool} {m : Nat} {e : Int} (hm : m ≤ Nat.pow 2 53)
    (he : e ≤ 970) : isFinite (assemble negative m e) = true := by
  have h52 : Nat.pow 2 52 = 4503599627370496 := rfl
  have h53 : Nat.pow 2 53 = 9007199254740992 := rfl
  have h63 : Nat.pow 2 63 = 9223372036854775808 := rfl
  unfold assemble
  simp only [h52, h63]
  rw [h53] at hm
  have hfield : (if m < 4503599627370496 then 0 else (e + 1074).toNat) ≤ 2044 := by
    split <;> omega
  -- so the field is not cut off, and stays below that of infinities even if the mantissa overflows
  generalize (if m < 4503599627370496 then 0 else (e + 1074).toNat) = field at hfield
  rw [Nat.min_eq_left (by omega)]
  have hsign : (if negative = true then 9223372036854775808 else 0) = 0 ∨
      (if negative = true then 9223372036854775808 else 0) = 9223372036854775808 := by
    cases negative
    · exact Or.inl rfl
    · exact Or.inr rfl
  generalize (if negative = true then 9223372036854775808 else 0) = sign at hsign
  have hbits : (UInt64.ofNat (sign + (field * 4503599627370496 + m))).toNat =
      sign + (field * 4503599627370496 + m) := by
    refine UInt64.toNat_ofNat_of_lt' ?_
    show _ < 18446744073709551616
    omega
  apply isFinite_ofBits
  rw [hbits]
  omega

/-- The last bit of a double near an integer is the last one of the integer's first 53 bits. -/
theorem lastBit_one {n : Nat} (h : n ≠ 0) : lastBit n 1 = (n.log2 : Int) - 52 := by
  have hlow : 2 ^ n.log2 ≤ n := Nat.log2_self_le h
  have hlog : ((n.log2 : Int) - (1 : Nat).log2 - 52) = (n.log2 : Int) - 52 := by
    have hone : (1 : Nat).log2 = 0 := by decide
    rw [hone]
    omega
  -- the first guess counts bits only, and for a whole number it is not one too low
  unfold lastBit
  simp only [hlog]
  cases hguess : (n.log2 : Int) - 52 with
  | ofNat e =>
    rw [Int.ofNat_eq_natCast] at hguess
    have he : 52 + e = n.log2 := by omega
    have hlarge : ¬ n < 1 * Nat.pow 2 (52 + e) := by
      rw [he, Nat.one_mul, Nat.pow_eq]
      omega
    simp only [hlarge, decide_false, Bool.false_eq_true, if_false, Int.ofNat_eq_natCast]
    omega
  | negSucc e =>
    have he : n.log2 + (e + 1) = 52 := by omega
    have hlarge : ¬ n * Nat.pow 2 (e + 1) < 1 * Nat.pow 2 52 := by
      have hmul : 2 ^ n.log2 * 2 ^ (e + 1) ≤ n * 2 ^ (e + 1) := Nat.mul_le_mul_right _ hlow
      rw [← Nat.pow_add, he] at hmul
      rw [Nat.one_mul, Nat.pow_eq, Nat.pow_eq]
      omega
    simp only [hlarge, decide_false, Bool.false_eq_true, if_false]
    omega

/-- A rounded quotient is at most one half away from the quotient. -/
theorem roundDivEven_mul_near (n : Nat) {den : Nat} (hden : 0 < den) :
    2 * n ≤ 2 * (roundDivEven n den * den) + den ∧
      2 * (roundDivEven n den * den) ≤ 2 * n + den := by
  have hsplit : den * (n / den) + n % den = n := Nat.div_add_mod n den
  have hlt : n % den < den := Nat.mod_lt n hden
  have hnext : (n / den + 1) * den = den * (n / den) + den := by
    rw [Nat.add_mul, Nat.one_mul, Nat.mul_comm]
  have hsame : n / den * den = den * (n / den) := Nat.mul_comm _ _
  unfold roundDivEven
  dsimp only
  split
  · omega
  · split
    · omega
    · split <;> omega

theorem roundDivEven_le {num den k : Nat} (h : num / den < k) : roundDivEven num den ≤ k := by
  rcases roundDivEven_eq_or num den with heq | heq <;> omega

/-- An integer of at most 1023 bits is near a finite double. -/
theorem isFinite_ofInt {n : Int} {bits : Nat} (hbits : bits ≤ 1023)
    (h : n.natAbs < Nat.pow 2 bits) : isFinite (ofInt n) = true := by
  unfold ofInt ofRatio
  rcases Nat.eq_zero_or_pos n.natAbs with hn | hn
  · rw [hn]
    exact isFinite_assemble (Nat.zero_le _) (by decide)
  · have hn : n.natAbs ≠ 0 := by omega
    have hlog : n.natAbs.log2 < bits := (Nat.log2_lt hn).mpr h
    have hhigh : n.natAbs < 2 ^ (n.natAbs.log2 + 1) := Nat.lt_log2_self
    rw [if_neg (by simp [hn])]
    simp only [lastBit_one hn]
    refine isFinite_assemble ?_ (by omega)
    cases hbit : (n.natAbs.log2 : Int) - 52 with
    | ofNat k =>
      rw [Int.ofNat_eq_natCast] at hbit
      have hk : n.natAbs.log2 + 1 = 53 + k := by omega
      refine roundDivEven_le ?_
      rw [hk, Nat.pow_add] at hhigh
      rw [Nat.one_mul]
      exact Nat.div_lt_of_lt_mul (by rw [Nat.mul_comm]; exact hhigh)
    | negSucc k =>
      -- a short integer is scaled up to 53 bits
      have hk : n.natAbs.log2 + 1 + (k + 1) = 53 := by omega
      refine roundDivEven_le ?_
      rw [Nat.div_one, ← hk]
      show _ < 2 ^ (_ + (k + 1))
      rw [Nat.pow_add]
      exact Nat.mul_lt_mul_of_pos_right hhigh (Nat.pow_pos (by decide))

/-- There is a finite double nearest to such an integer. -/
theorem finiteOfInt?_isSome {n : Int} {bits : Nat} (hbits : bits ≤ 1023)
    (h : n.natAbs < Nat.pow 2 bits) : (Number.finiteOfInt? n).isSome = true := by
  unfold Number.finiteOfInt?
  simp only [isFinite_ofInt hbits h, if_true, Option.isSome_some]

end Kindred.Number
