import Kindred.Formula.Rounding
import Kindred.Proofs.Number.Nearest
import Kindred.Proofs.Number.Rounding

/-!
# How large integers near doubles are

Finite doubles lie below 2 ^ 1024. So do the integers next to them, and the integers that have a
finite double near them.

- `finiteBound`: the bound.
- `Binary.IsCanonical.ratio_le`, `Binary.natAbs_floor_le`, `Binary.natAbs_ceil_le`: the integers
  next to a double.
- `natAbs_le_of_floatToInt`: what a double is rounded to.
- `natAbs_le_of_isFinite_ofInt`: integers with a finite double near them.
-/

namespace Kindred.Number

/-- The number of bits of the greatest finite double. -/
@[irreducible] def finiteBits : Nat := 1024

/-- The power of two that finite doubles lie below. -/
def finiteBound : Nat := Nat.pow 2 finiteBits

/-! ### Integers next to doubles -/

namespace Binary

variable {b : Binary}

/-- The magnitude of a double is not above the bound. -/
theorem IsCanonical.ratio_le (h : b.IsCanonical) : b.ratio.1 ≤ finiteBound := by
  have hmantissa : b.mantissa ≤ Nat.pow 2 53 := h.mantissa_lt.le
  have hexponent := h.exponent_le
  -- the powers stay as they are, and only their exponents are compared
  have hpow : ∀ k, Nat.pow 2 53 * Nat.pow 2 k = Nat.pow 2 (53 + k) := fun k =>
    (Nat.pow_add 2 53 k).symm
  unfold ratio
  cases he : b.exponent with
  | ofNat e =>
    rw [he] at hexponent
    have hle : e ≤ 971 := Int.ofNat_le.mp hexponent
    calc b.mantissa * Nat.pow 2 e ≤ Nat.pow 2 53 * Nat.pow 2 e := Nat.mul_le_mul_right _ hmantissa
      _ = Nat.pow 2 (53 + e) := hpow e
      _ ≤ finiteBound := Nat.pow_le_pow_right (by decide) (by unfold finiteBits; omega)
  | negSucc e =>
    exact hmantissa.trans (Nat.pow_le_pow_right (by decide) (by unfold finiteBits; omega))

theorem natAbs_signed (n : Nat) : (b.signed n).natAbs = n := by
  unfold signed
  split
  · rw [Int.natAbs_neg, Int.natAbs_natCast]
  · rw [Int.natAbs_natCast]

theorem natAbs_fdiv_le (n : Int) (den : Nat) : (Int.fdiv n den).natAbs ≤ n.natAbs := by
  rw [Int.fdiv_eq_ediv_of_nonneg n (Int.natCast_nonneg den)]
  exact Int.natAbs_ediv_le_natAbs n den

theorem natAbs_floor_le (b : Binary) : b.floor.natAbs ≤ b.ratio.1 := by
  unfold floor
  refine (natAbs_fdiv_le _ _).trans ?_
  rw [natAbs_signed]

theorem natAbs_ceil_le (b : Binary) : b.ceil.natAbs ≤ b.ratio.1 := by
  unfold ceil
  show (-Int.fdiv (-b.signed b.ratio.1) b.ratio.2).natAbs ≤ b.ratio.1
  rw [Int.natAbs_neg]
  refine (natAbs_fdiv_le _ _).trans ?_
  rw [Int.natAbs_neg, natAbs_signed]

end Binary

/-- What a double is rounded to is not above the bound. -/
theorem natAbs_le_of_floatToInt {round : Binary → Int} (hround : ∀ b, (round b).natAbs ≤ b.ratio.1)
    {x : Float} {n : Int} (h : floatToInt round x = .ok n) : n.natAbs ≤ finiteBound := by
  unfold floatToInt at h
  cases hx : Binary.ofFloat? x with
  | none =>
    rw [hx] at h
    cases h
  | some b =>
    rw [hx] at h
    cases h
    exact (hround b).trans (assemble_of_ofFloat? hx).1.ratio_le

/-! ### Integers with a double near them -/

/-- What is too large for a finite double is put together as an infinite one. -/
theorem assemble_eq_infinity {negative : Bool} {m : Nat} {e : Int} (hm : 2 ^ 52 ≤ m)
    (he : 972 ≤ e) : assemble negative m e = infinity negative := by
  have h52 : Nat.pow 2 52 = 4503599627370496 := rfl
  have hfull : ¬ m < 4503599627370496 := by omega
  unfold infinity assemble
  simp only [h52, if_neg hfull, Nat.lt_irrefl, if_false]
  rw [Nat.min_eq_right (by omega), Nat.min_eq_right (by omega)]

theorem isFinite_infinity (negative : Bool) : isFinite (infinity negative) = false := by
  cases negative <;> decide

/-- An integer with a finite double near it is not above the bound. -/
theorem natAbs_le_of_isFinite_ofInt {n : Int} (h : isFinite (ofInt n) = true) :
    n.natAbs ≤ finiteBound := by
  by_contra hlarge
  have hlarge : finiteBound < n.natAbs := Nat.lt_of_not_le hlarge
  have hne : n.natAbs ≠ 0 := by omega
  have hbits : ∀ k, Nat.pow 2 k ≤ n.natAbs → k ≤ n.natAbs.log2 := fun k => (Nat.le_log2 hne).mpr
  have hlog : finiteBits ≤ n.natAbs.log2 := hbits finiteBits hlarge.le
  unfold finiteBits at hlog
  -- the mantissa has all its bits, and the exponent is beyond that of finite doubles
  obtain ⟨k, hk⟩ : ∃ k : Nat, n.natAbs.log2 = 52 + k := ⟨n.natAbs.log2 - 52, by omega⟩
  have hlast : lastBit n.natAbs 1 = .ofNat k := by
    rw [lastBit_one hne, hk]
    show ((52 + k : Nat) : Int) - 52 = (k : Int)
    omega
  have hmantissa : 2 ^ 52 ≤ nearMantissa n.natAbs 1 := by
    have hbounds := (@roundDivEven_bounds n.natAbs (by omega)).1
    rw [hk, Nat.add_sub_cancel_left] at hbounds
    unfold nearMantissa
    rw [hlast]
    show 2 ^ 52 ≤ roundDivEven n.natAbs (1 * 2 ^ k)
    rwa [Nat.one_mul]
  have hinfinite : ofInt n = infinity (n < 0) := by
    unfold ofInt
    rw [ofRatio_eq (by omega) Nat.one_pos, hlast]
    refine assemble_eq_infinity hmantissa ?_
    show (972 : Int) ≤ (k : Int)
    omega
  rw [hinfinite, isFinite_infinity] at h
  cases h

end Kindred.Number
