import Kindred.Proofs.Number.Size

/-!
# Numbers that are integers

A number may be an integer in two forms, as an integer or as a double. Integers below 2 ^ 53 are
doubles, and doubles that are such integers are added without rounding.

- `IsWhole`: a double that is such an integer, by its sign, mantissa and exponent.
- `isWhole_unpack`, `IsWhole.ofFloat?_pack`: doubles taken apart, and put together again.
- `isWhole_round`, `IsWhole.add`: the sum of two of them.
- `EqInt`: whether a number is an integer, in either form.
- `EqInt.add`, `eqInt_ofInt`, `EqInt.floorInt`, `EqInt.zero_lt_iff`: sums, integers as doubles,
  floors and the order against zero.
-/

namespace Kindred.Number

open Float.Model (Format UnpackedFloat)
open Float.Model.UnpackedFloat

/-! ### The order against integers -/

/-- The sign of a product. -/
theorem apply_mul (s : Sign) (a d : Int) : s.apply (a * d) = s.apply a * d := by
  cases s
  · exact (Int.neg_mul a d).symm
  · rfl

/-- An integer that is scaled up to 53 bits. -/
theorem scaled_bounds {n j : Nat} (hn : 0 < n) (hbits : n.log2 + j = 52) :
    2 ^ 52 ≤ n * 2 ^ j ∧ n * 2 ^ j < 2 ^ 53 := by
  have hlog : (n * 2 ^ j).log2 = 52 := by rw [log2_mul_two_pow (by omega), hbits]
  exact (Nat.log2_eq_iff (Nat.mul_ne_zero (by omega) (Nat.two_pow_pos j).ne')).mp hlog

namespace Binary

variable {b : Binary} {k : Int}

theorem signed_eq (b : Binary) (n : Nat) : b.signed n = (signOf b.negative).apply n := by
  unfold signed signOf
  cases b.negative <;> rfl

theorem compareInt_eq_iff :
    b.compareInt k = .eq ↔ (signOf b.negative).apply b.ratio.1 = k * b.ratio.2 := by
  rw [← signed_eq]
  exact compare_eq_iff_eq

/-- The magnitude and the sign of an integer that a double is. -/
theorem eq_of_compareInt (h : b.compareInt k = .eq) :
    b.ratio.1 = k.natAbs * b.ratio.2 ∧ (signOf b.negative).apply k.natAbs = k := by
  have hratio := ratio_pos b
  rw [compareInt_eq_iff] at h
  have hmagnitude : b.ratio.1 = k.natAbs * b.ratio.2 := by
    have hnatAbs := congrArg Int.natAbs h
    rwa [← signed_eq, natAbs_signed, Int.natAbs_mul, Int.natAbs_natCast] at hnatAbs
  refine ⟨hmagnitude, Int.eq_of_mul_eq_mul_right (Int.natCast_ne_zero.mpr hratio.ne') ?_⟩
  rw [← apply_mul, ← Int.natCast_mul, ← hmagnitude, h]

/-- The mantissa and the exponent of a double that is an integer below 2 ^ 53. -/
theorem IsCanonical.whole (hb : b.IsCanonical) (h : b.compareInt k = .eq)
    (hk : k.natAbs < 2 ^ 53) : b.mantissa = 0 ∧ k = 0 ∨ 0 < k.natAbs ∧ ∃ j,
      k.natAbs.log2 + j = 52 ∧ b.mantissa = k.natAbs * 2 ^ j ∧ b.exponent = -(j : Nat) := by
  obtain ⟨negative, m, e⟩ := b
  obtain ⟨hm, -, -, hlast⟩ := hb
  have hmagnitude := (eq_of_compareInt h).1
  dsimp only at hm hlast ⊢
  rcases Nat.eq_zero_or_pos k.natAbs with hzero | hpos
  · rw [hzero, Nat.zero_mul] at hmagnitude
    exact .inl ⟨ratio_eq_zero_iff.mp hmagnitude, Int.natAbs_eq_zero.mp hzero⟩
  refine .inr ⟨hpos, ?_⟩
  unfold ratio at hmagnitude
  cases e with
  | ofNat e =>
    dsimp only at hmagnitude
    rw [Nat.pow_eq, Nat.mul_one] at hmagnitude
    have hlarge : 2 ^ 52 ≤ m := hlast.resolve_left nofun
    -- a larger exponent would make the integer too large
    obtain rfl : e = 0 := by
      by_contra hne
      have hscale : 2 ≤ 2 ^ e := Nat.le_self_pow hne 2
      have hlarge' := Nat.mul_le_mul hlarge hscale
      omega
    rw [Nat.pow_zero, Nat.mul_one] at hmagnitude
    subst hmagnitude
    exact ⟨0, log2_eq_of_bounds hlarge hm, (Nat.mul_one _).symm, rfl⟩
  | negSucc e =>
    dsimp only at hmagnitude
    rw [Nat.pow_eq] at hmagnitude
    have hscale : e + 1 < 53 := by
      refine (Nat.pow_lt_pow_iff_right (a := 2) (by decide)).mp ?_
      calc 2 ^ (e + 1) ≤ k.natAbs * 2 ^ (e + 1) := Nat.le_mul_of_pos_left _ hpos
        _ < 2 ^ 53 := hmagnitude ▸ hm
    have hlarge : 2 ^ 52 ≤ m := hlast.resolve_left (by omega)
    refine ⟨e + 1, ?_, hmagnitude, rfl⟩
    rw [← log2_mul_two_pow (by omega), ← hmagnitude]
    exact log2_eq_of_bounds hlarge hm

end Binary

/-! ### Whole doubles by their parts -/

/-- Whether a double, by its parts, is an integer below 2 ^ 53: it is zero, or the integer is scaled
up to a mantissa of 53 bits and the exponent takes the scale back. -/
inductive IsWhole : UnpackedFloat → Int → Prop where
  | zero (s : Sign) : IsWhole (.zero s) 0
  | finite (negative : Bool) {n j : Nat} (hbits : n.log2 + j = 52) (h : 0 < n * 2 ^ j) :
      IsWhole (.finite (signOf negative) (n * 2 ^ j) (-j) h) ((signOf negative).apply n)

theorem compareInt_scaled (negative : Bool) (n j : Nat) :
    (Binary.mk negative (n * 2 ^ j) (-j)).compareInt ((signOf negative).apply n) = .eq := by
  rw [Binary.compareInt_eq_iff]
  cases j with
  | zero =>
    show (signOf negative).apply (n * 2 ^ 0 * 2 ^ 0 : Nat) = (signOf negative).apply n * 1
    rw [Nat.pow_zero, Nat.mul_one, Nat.mul_one, Int.mul_one]
  | succ j =>
    show (signOf negative).apply (n * 2 ^ (j + 1) : Nat) =
      (signOf negative).apply n * (2 ^ (j + 1) : Nat)
    rw [Int.natCast_mul, apply_mul]

theorem compareInt_zero (negative : Bool) (e : Int) :
    (Binary.mk negative 0 e).compareInt 0 = .eq := by
  rw [Binary.compareInt_eq_iff, Int.zero_mul]
  cases e <;> cases negative <;> simp [Binary.ratio, signOf, Sign.apply]

/-- A double that is put together from such parts is the integer. -/
theorem IsWhole.ofFloat?_pack {u : UnpackedFloat} {k : Int} (h : IsWhole u k) :
    ∃ b, Binary.ofFloat? (.ofModel (.pack u)) = some b ∧ b.compareInt k = .eq := by
  cases h with
  | zero s =>
    cases s with
    | negative => exact ⟨⟨true, 0, -1074⟩, rfl, compareInt_zero _ _⟩
    | positive => exact ⟨⟨false, 0, -1074⟩, rfl, compareInt_zero _ _⟩
  | @finite negative n j hbits h =>
    obtain ⟨hlow, hhigh⟩ := scaled_bounds (Nat.pos_of_mul_pos_right h) hbits
    exact ⟨_, Number.ofFloat?_pack hlow hhigh (by omega) (by omega), compareInt_scaled negative n j⟩

/-- The parts of a double that is put together from a mantissa with its leading bit. -/
theorem unpack_assemble {negative : Bool} {m : Nat} {e : Int} (hlow : 2 ^ 52 ≤ m)
    (hhigh : m < 2 ^ 53) (he : -1074 ≤ e) (he' : e ≤ 970) :
    ∃ h, (assemble negative m e).toModel.unpack = .finite (signOf negative) m e h := by
  obtain ⟨b, hb, hbits⟩ := @exists_assemble_eq_ofBits negative m e hlow hhigh.le he he'
  obtain ⟨fraction, rfl⟩ := Nat.exists_eq_add_of_le hlow
  have hfield : (e + 1075).toNat = (e + 1074).toNat + 1 := by omega
  have hunpack := @unpack_ofBits b negative (e + 1075).toNat fraction
    (by rw [hbits, hfield]; omega) (by omega) (by omega) (by omega)
  rw [hb]
  rwa [show ((e + 1075).toNat : Int) - 1075 = e by omega] at hunpack

theorem assemble_zero (negative : Bool) (e : Int) :
    assemble negative 0 e = Float.ofBits (if negative then 0x8000000000000000 else 0) := by
  have h52 : Nat.pow 2 52 = 0x10000000000000 := rfl
  have h63 : Nat.pow 2 63 = 0x8000000000000000 := rfl
  unfold assemble
  simp only [h52, h63]
  rw [if_pos (show 0 < 0x10000000000000 by decide), Nat.zero_mul, Nat.zero_min, Nat.add_zero]
  cases negative <;> rfl

theorem unpack_assemble_zero (negative : Bool) (e : Int) :
    (assemble negative 0 e).toModel.unpack = .zero (signOf negative) := by
  rw [assemble_zero]
  cases negative <;> rfl

/-- A double that is put together from an integer scaled up to 53 bits. -/
theorem isWhole_unpack_assemble {negative : Bool} {n j : Nat} (hn : 0 < n)
    (hbits : n.log2 + j = 52) :
    IsWhole (assemble negative (n * 2 ^ j) (-j)).toModel.unpack ((signOf negative).apply n) := by
  obtain ⟨hlow, hhigh⟩ := scaled_bounds hn hbits
  obtain ⟨hpos, hunpack⟩ := @unpack_assemble negative _ (-(j : Int)) hlow hhigh (by omega)
    (by omega)
  rw [hunpack]
  exact .finite negative hbits hpos

/-- The double nearest to an integer below 2 ^ 53 is put together from the integer. -/
theorem isWhole_unpack_ofInt {n : Int} (hn : n.natAbs < 2 ^ 53) :
    IsWhole (ofInt n).toModel.unpack n := by
  by_cases hzero : n = 0
  · rw [hzero, show ofInt 0 = assemble false 0 0 from rfl, unpack_assemble_zero]
    exact .zero _
  obtain ⟨r, hr, -, -, hvalue⟩ := ofInt_eq_assemble hzero
  have hlog : n.natAbs.log2 < 53 := (Nat.log2_lt (by omega)).mpr hn
  obtain ⟨j, hj⟩ : ∃ j, n.natAbs.log2 + j = 52 := ⟨52 - n.natAbs.log2, by omega⟩
  have hmantissa : r = n.natAbs * 2 ^ j := by
    rw [(nearest_near (by omega)).2.2 hn, ← hj, Nat.add_comm, Nat.pow_add,
      ← Nat.mul_assoc] at hvalue
    exact Nat.eq_of_mul_eq_mul_right (Nat.two_pow_pos _) hvalue
  have hsign : (signOf (n < 0)).apply n.natAbs = n := by
    by_cases hneg : n < 0
    · rw [decide_eq_true hneg]
      show -(n.natAbs : Int) = n
      omega
    · rw [decide_eq_false hneg]
      show (n.natAbs : Int) = n
      omega
  have hwhole := @isWhole_unpack_assemble (n < 0) n.natAbs j (by omega) hj
  rwa [← hmantissa, hsign, show -(j : Int) = (n.natAbs.log2 : Int) - 52 by omega, ← hr] at hwhole

/-- A double that is an integer below 2 ^ 53 has such parts. -/
theorem isWhole_unpack {x : Float} {b : Binary} (hx : Binary.ofFloat? x = some b) {k : Int}
    (h : b.compareInt k = .eq) (hk : k.natAbs < 2 ^ 53) : IsWhole x.toModel.unpack k := by
  obtain ⟨hcanonical, rfl⟩ := assemble_of_ofFloat? hx
  rcases hcanonical.whole h hk with ⟨hzero, rfl⟩ | ⟨hpos, j, hbits, hm, he⟩
  · rw [hzero, unpack_assemble_zero]
    exact .zero _
  · have hwhole := @isWhole_unpack_assemble b.negative _ _ hpos hbits
    rwa [(Binary.eq_of_compareInt h).2, ← hm, ← he] at hwhole

/-! ### Sums -/

/-- A mantissa with fewer bits is scaled up before it is rounded. -/
theorem round_eq_round_scaled {s : Sign} {S k : Nat} {e : Int} (hpos : 0 < S)
    (hbits : S.log2 + k = 52) (he : -1074 ≤ e - k) :
    UnpackedFloat.round Format.binary64 s S e =
      UnpackedFloat.round Format.binary64 s (S * 2 ^ k) (e - k) := by
  have htarget : Format.binary64.targetExponent (Float.Model.totalExponent S e) = e - k := by
    show max ((S.log2 : Int) + 1 + e - 53) (-1074) = _
    omega
  have htarget' : Format.binary64.targetExponent
      (Float.Model.totalExponent (S * 2 ^ k) (e - k)) = e - k := by
    show max (((S * 2 ^ k).log2 : Int) + 1 + (e - k) - 53) (-1074) = _
    rw [log2_mul_two_pow (by omega)]
    omega
  unfold UnpackedFloat.round
  rw [htarget, htarget']
  unfold decreaseExponent
  dsimp only
  rw [show (e - (e - k)).toNat = k by omega, Int.sub_self, Int.toNat_zero, Nat.shiftLeft_zero,
    Nat.shiftLeft_eq, Int.natCast_zero, Int.sub_zero]

/-- An integer that is scaled up to 53 bits or more is rounded without loss. -/
theorem isWhole_round_of_le {negative : Bool} {n l : Nat} (hn : 0 < n) (hsmall : n < 2 ^ 53)
    (hbits : 52 ≤ n.log2 + l) (hl : l ≤ 52) :
    IsWhole (UnpackedFloat.round Format.binary64 (signOf negative) (n * 2 ^ l) (-l))
      ((signOf negative).apply n) := by
  have hlog : n.log2 < 53 := (Nat.log2_lt (by omega)).mpr hsmall
  obtain ⟨j, hj⟩ : ∃ j, n.log2 + j = 52 := ⟨52 - n.log2, by omega⟩
  obtain ⟨t, rfl⟩ : ∃ t, l = j + t := ⟨l - j, by omega⟩
  have hlog : (n * 2 ^ (j + t)).log2 = 52 + t := by rw [log2_mul_two_pow (by omega)]; omega
  obtain ⟨-, hhigh⟩ := scaled_bounds hn hj
  -- the bits that are lost are zeros
  have hexact : roundDivEven (n * 2 ^ (j + t)) (2 ^ ((n * 2 ^ (j + t)).log2 - 52)) = n * 2 ^ j := by
    rw [hlog, Nat.add_sub_cancel_left, Nat.pow_add, ← Nat.mul_assoc,
      roundDivEven_mul _ _ (Nat.two_pow_pos t)]
  obtain ⟨m, e, h, hround, -, -, ⟨rfl, rfl⟩ | ⟨rfl, hcarry, -⟩⟩ :=
    @round_eq (signOf negative) (n * 2 ^ (j + t)) (-((j + t : Nat) : Int)) (by omega) (by omega)
  · have he : -((j + t : Nat) : Int) + ((n * 2 ^ (j + t)).log2 - 52 : Nat) = -(j : Int) := by omega
    rw [hround, finite_congr hexact he]
    exact .finite negative hj (Nat.mul_pos hn (Nat.two_pow_pos j))
  · omega

theorem isWhole_round {negative : Bool} {n l : Nat} (hn : 0 < n) (hsmall : n < 2 ^ 53)
    (hl : l ≤ 52) :
    IsWhole (UnpackedFloat.round Format.binary64 (signOf negative) (n * 2 ^ l) (-l))
      ((signOf negative).apply n) := by
  rcases Nat.le_total 52 (n.log2 + l) with hbits | hbits
  · exact isWhole_round_of_le hn hsmall hbits hl
  · obtain ⟨k, hk⟩ : ∃ k, n.log2 + l + k = 52 := ⟨52 - (n.log2 + l), by omega⟩
    have hlog : (n * 2 ^ l).log2 + k = 52 := by rw [log2_mul_two_pow (by omega), hk]
    rw [round_eq_round_scaled (Nat.mul_pos hn (Nat.two_pow_pos l)) hlog (by omega), Nat.mul_assoc,
      ← Nat.pow_add, show -(l : Int) - k = -((l + k : Nat) : Int) by omega]
    exact isWhole_round_of_le hn hsmall (by omega) (by omega)

/-- A scaled integer is brought to 53 bits without loss. -/
theorem isWhole_normalize {k : Int} {l : Nat} (hk : k.natAbs < 2 ^ 53) (hl : l ≤ 52) :
    IsWhole (UnpackedFloat.normalize Format.binary64 (k * (2 ^ l : Nat)) (-l) .positive) k := by
  have hscale : (0 : Int) < (2 ^ l : Nat) := Int.natCast_pos.mpr (Nat.two_pow_pos l)
  unfold UnpackedFloat.normalize
  rcases Int.lt_trichotomy k 0 with hneg | rfl | hpos
  · obtain ⟨n, rfl⟩ : ∃ n : Nat, k = -n := ⟨k.natAbs, by omega⟩
    have hmantissa : (-(-(n : Int) * (2 ^ l : Nat))).toNat = n * 2 ^ l := by
      rw [Int.neg_mul, Int.neg_neg, ← Int.natCast_mul, Int.toNat_natCast]
    rw [Int.compare_eq_lt.mpr (Int.mul_neg_of_neg_of_pos hneg hscale)]
    dsimp only
    rw [hmantissa]
    exact @isWhole_round true n l (by omega) (by omega) hl
  · rw [Int.zero_mul]
    exact .zero .positive
  · obtain ⟨n, rfl⟩ : ∃ n : Nat, k = n := ⟨k.natAbs, by omega⟩
    rw [Int.compare_eq_gt.mpr (Int.mul_pos hpos hscale)]
    dsimp only
    rw [← Int.natCast_mul, Int.toNat_natCast]
    exact @isWhole_round false n l (by omega) (by omega) hl

/-- A whole double with a smaller exponent. -/
theorem apply_decreaseExponent (s : Sign) (n : Nat) {j l : Nat} (h : j ≤ l) :
    s.apply (decreaseExponent (n * 2 ^ j) (-j) (-l)).1 = s.apply n * (2 ^ l : Nat) := by
  have hshift : (-(j : Int) - -l).toNat = l - j := by omega
  have hpow : n * 2 ^ j * 2 ^ (l - j) = n * 2 ^ l := by
    rw [Nat.mul_assoc, ← Nat.pow_add, Nat.add_sub_cancel' h]
  unfold decreaseExponent
  dsimp only
  rw [hshift, Nat.shiftLeft_eq, hpow, Int.natCast_mul, apply_mul]

/-- Doubles that are integers below 2 ^ 53 are added without loss, if the sum is one, too. -/
theorem IsWhole.add {u v : UnpackedFloat} {k n : Int} (hu : IsWhole u k) (hv : IsWhole v n)
    (hsum : (k + n).natAbs < 2 ^ 53) :
    IsWhole (UnpackedFloat.add Format.binary64 u v) (k + n) := by
  cases hu with
  | zero s =>
    cases hv with
    | zero t =>
      show IsWhole (if s == t then .zero s else .zero .positive) 0
      split
      · exact .zero s
      · exact .zero .positive
    | finite negative hbits h =>
      rw [Int.zero_add]
      exact .finite negative hbits h
  | @finite negative m j hbits h =>
    cases hv with
    | zero t =>
      rw [Int.add_zero]
      exact .finite negative hbits h
    | @finite negative' n i hbits' h' =>
      have hmin : min (-(j : Int)) (-i) = -(max j i : Nat) := by omega
      unfold UnpackedFloat.add
      dsimp only
      rw [hmin, apply_decreaseExponent _ _ (Nat.le_max_left j i),
        apply_decreaseExponent _ _ (Nat.le_max_right j i), ← Int.add_mul]
      exact isWhole_normalize hsum (by omega)

/-! ### Numbers -/

/-- Whether a number is an integer, as an integer or as a double. -/
def EqInt (v : Number) (n : Int) : Prop := v.compare? (.int n) = some .eq

instance (v : Number) (n : Int) : Decidable (v.EqInt n) :=
  inferInstanceAs (Decidable (v.compare? (.int n) = some .eq))

section EqInt

variable {v : Number} {x y : Float} {n k : Int}

theorem eqInt_int_iff : (Number.int k).EqInt n ↔ k = n := by
  show some (compare k n) = some .eq ↔ _
  rw [Option.some_inj]
  exact compare_eq_iff_eq

theorem eqInt_float_iff : (Number.float x).EqInt n ↔
    ∃ b, Binary.ofFloat? x = some b ∧ b.compareInt n = .eq := by
  show compareFloatInt? x n = some .eq ↔ _
  unfold compareFloatInt?
  cases Binary.ofFloat? x with
  | some b => simp
  | none =>
    -- the infinities are above or below all integers
    refine ⟨fun h => ?_, fun ⟨b, h, _⟩ => by cases h⟩
    dsimp only at h
    split at h
    · cases h
    · split at h <;> cases h

/-- A number is one integer at most. -/
theorem EqInt.unique (hn : v.EqInt n) (hk : v.EqInt k) : n = k := by
  cases v with
  | int m => exact (eqInt_int_iff.mp hn).symm.trans (eqInt_int_iff.mp hk)
  | float x =>
    obtain ⟨b, hb, hbn⟩ := eqInt_float_iff.mp hn
    obtain ⟨c, hc, hck⟩ := eqInt_float_iff.mp hk
    cases hb.symm.trans hc
    have heq := (Binary.compareInt_eq_iff.mp hbn).symm.trans (Binary.compareInt_eq_iff.mp hck)
    exact Int.eq_of_mul_eq_mul_right (Int.natCast_ne_zero.mpr b.ratio_pos.ne') heq

/-- An integer below 2 ^ 53 is the double nearest to it. -/
theorem eqInt_ofInt (hn : n.natAbs < 2 ^ 53) : (Number.float (ofInt n)).EqInt n := by
  have hfinite : isFinite (ofInt n) = true := @isFinite_ofInt n 53 (by decide) hn
  have hpack : Float.ofModel (.pack (ofInt n).toModel.unpack) = ofInt n := ofBits_toBits hfinite
  rw [eqInt_float_iff, ← hpack]
  exact (isWhole_unpack_ofInt hn).ofFloat?_pack

/-- Doubles that are integers below 2 ^ 53 are added as these integers. -/
theorem EqInt.add (hx : (Number.float x).EqInt k) (hy : (Number.float y).EqInt n)
    (hk : k.natAbs < 2 ^ 53) (hn : n.natAbs < 2 ^ 53) (hsum : (k + n).natAbs < 2 ^ 53) :
    (Number.float (x + y)).EqInt (k + n) := by
  obtain ⟨b, hb, hbk⟩ := eqInt_float_iff.mp hx
  obtain ⟨c, hc, hcn⟩ := eqInt_float_iff.mp hy
  have hadd : x + y = .ofModel (.pack (UnpackedFloat.add Format.binary64 x.toModel.unpack
    y.toModel.unpack)) := rfl
  rw [eqInt_float_iff, hadd]
  exact ((isWhole_unpack hb hbk hk).add (isWhole_unpack hc hcn hn) hsum).ofFloat?_pack

/-- A number that is an integer below 2 ^ 53 is the same integer as a double. -/
theorem EqInt.toFloat (h : v.EqInt n) (hn : n.natAbs < 2 ^ 53) :
    (Number.float v.toFloat).EqInt n := by
  cases v with
  | int k =>
    obtain rfl := eqInt_int_iff.mp h
    exact eqInt_ofInt hn
  | float x => exact h

/-- An integer is its own floor. -/
theorem EqInt.floorInt (h : v.EqInt n) : v.floorInt = .ok n := by
  cases v with
  | int k => exact congrArg Except.ok (eqInt_int_iff.mp h)
  | float x =>
    obtain ⟨b, hb, hbn⟩ := eqInt_float_iff.mp h
    have hfloor : b.floor = n := by
      unfold Binary.floor
      rw [Binary.signed_eq, Binary.compareInt_eq_iff.mp hbn]
      exact Int.mul_fdiv_cancel n (Int.natCast_ne_zero.mpr b.ratio_pos.ne')
    show floatToInt Binary.floor x = _
    unfold floatToInt
    rw [hb, ← hfloor]

/-- A number that is an integer is above zero exactly if the integer is. -/
theorem EqInt.zero_lt_iff (h : v.EqInt n) : Number.lt 0 v = true ↔ 0 < n := by
  unfold Number.lt
  rw [beq_iff_eq]
  cases v with
  | int k =>
    obtain rfl := eqInt_int_iff.mp h
    show some (compare 0 k) = some .lt ↔ _
    rw [Option.some_inj]
    exact compare_lt_iff_lt
  | float x =>
    obtain ⟨b, hb, hbn⟩ := eqInt_float_iff.mp h
    show (compareFloatInt? x 0).map Ordering.swap = some .lt ↔ _
    unfold compareFloatInt?
    rw [hb]
    show some (compare (b.signed b.ratio.1) (0 * b.ratio.2)).swap = some .lt ↔ _
    rw [Option.some_inj, Binary.signed_eq, Binary.compareInt_eq_iff.mp hbn, Int.zero_mul,
      Ordering.swap_eq_lt, compare_gt_iff_gt]
    exact mul_pos_iff_of_pos_right (Int.natCast_pos.mpr b.ratio_pos)

end EqInt

end Kindred.Number
