import Kindred.Text.Blank
import Kindred.Text.Digit
import Kindred.Text.Letter
import Kindred.Text.Word

/-!
# Classes of characters

How the classes of characters lie to one another. Decimal digits of every script are word
characters. Blanks are none, and no letters either, so a blank ends whatever word or numeral stands
in front of it.

- `isWordChar_of_isDecimal`, `isCased_of_isDecimal`: digits are word characters, and no letters.
- `isWordChar_of_isBlank`, `isCased_of_isBlank`: blanks are apart from word characters and letters.
-/

namespace Kindred.Text

/-- Characters that a class tells apart are different. -/
theorem ne_of_apart {p : Char → Bool} {c k : Char} (hc : p c = true) (hk : p k = false) :
    c ≠ k := by
  rintro rfl
  rw [hc] at hk
  cases hk

/-- A character of a class is none of some characters outside of it. -/
theorem not_mem_of_apart {p : Char → Bool} {c : Char} {l : List Char} (hc : p c = true)
    (hl : (l.all fun k => !p k) = true) : c ∉ l := by
  intro hmem
  have hout := List.all_eq_true.mp hl c hmem
  rw [hc] at hout
  cases hout

/-! ### Digits -/

theorem isWordChar_of_isDigit {c : Char} (h : c.isDigit = true) : isWordChar c = true := by
  have hc : c.toNat < 128 := by
    simp only [Char.isDigit, Bool.and_eq_true, decide_eq_true_eq] at h
    have hle : c.toNat ≤ 57 := h.2
    omega
  have ha : c.isAlphanum = true := by simp [Char.isAlphanum, h]
  simp [isWordChar, isAlphanumeric_of_isAlphanum ha hc]

/-- Whether every run of ten that starts at one of some numbers lies within one of some ranges, both
in increasing order. -/
def holdsTens : List Nat → List (Nat × Nat) → Bool
  | [], _ => true
  | _ :: _, [] => false
  | z :: zs, (a, b) :: rest =>
    if b < z then a ≤ z && holdsTens (z :: zs) rest
    else a ≤ z && z + 9 ≤ b && holdsTens zs ((a, b) :: rest)
termination_by zs ranges => zs.length + ranges.length

/-- What lies in one of the runs lies in one of the ranges. -/
theorem inRanges_of_holdsTens (zs : List Nat) (ranges : List (Nat × Nat))
    (h : holdsTens zs ranges = true) {z n : Nat} (hz : z ∈ zs) (hlow : z ≤ n) (hhigh : n < z + 10)
    (hsorted : zs.Pairwise (· < ·)) : inRanges n ranges = true := by
  induction zs, ranges using holdsTens.induct with
  | case1 ranges => exact absurd hz List.not_mem_nil
  | case2 z zs => simp [holdsTens] at h
  | case3 y zs a b rest hb ih =>
    -- the first range ends below the first run, and so below all of them
    rw [holdsTens, if_pos hb, Bool.and_eq_true, decide_eq_true_eq] at h
    have hy : y ≤ z := by
      rcases List.mem_cons.mp hz with rfl | hz
      · exact Nat.le_refl _
      · exact Nat.le_of_lt ((List.pairwise_cons.mp hsorted).1 z hz)
    have hrest : inRanges n rest = true := ih h.2 hz hsorted
    rw [inRanges, if_neg (by omega), if_neg (by omega)]
    exact hrest
  | case4 y zs a b rest hb ih =>
    rw [holdsTens, if_neg hb, Bool.and_eq_true, Bool.and_eq_true, decide_eq_true_eq,
      decide_eq_true_eq] at h
    -- the first range holds the first run, and may hold others
    obtain ⟨⟨ha, hten⟩, htail⟩ := h
    rcases List.mem_cons.mp hz with rfl | hz
    · rw [inRanges, if_neg (by omega), if_pos (by omega)]
    · exact ih htail hz (List.pairwise_cons.mp hsorted).2

/-- A decimal digit is an ASCII digit, or it lies in one of the other runs of ten. -/
theorem isDecimal_cases {c : Char} (h : isDecimal c = true) :
    c.isDigit = true ∨ ¬c.toNat < 128 ∧ ∃ z ∈ digitZeros, z ≤ c.toNat ∧ c.toNat < z + 10 := by
  unfold isDecimal digitValue? at h
  split at h
  · next hd => exact Or.inl hd
  · split at h
    · cases h
    · next hc =>
      rw [Option.isSome_map] at h
      obtain ⟨z, hz⟩ := Option.isSome_iff_exists.mp h
      have hrun := List.find?_some hz
      rw [Bool.and_eq_true, decide_eq_true_eq, decide_eq_true_eq] at hrun
      exact Or.inr ⟨hc, z, List.mem_of_find?_eq_some hz, hrun⟩

/-- Every decimal digit of any script is a word character. -/
theorem isWordChar_of_isDecimal {c : Char} (h : isDecimal c = true) : isWordChar c = true := by
  rcases isDecimal_cases h with hd | ⟨hc, z, hz, hlow, hhigh⟩
  · exact isWordChar_of_isDigit hd
  · have hin : inRanges c.toNat alphanumericRanges = true :=
      inRanges_of_holdsTens digitZeros alphanumericRanges (by decide +kernel) hz hlow hhigh
        (by decide)
    simp [isWordChar, isAlphanumeric, hc, hin]

/-- What lies in one of some ranges lies between the ends of one of them. -/
theorem exists_of_inRanges {n : Nat} {ranges : List (Nat × Nat)} (h : inRanges n ranges = true) :
    ∃ r ∈ ranges, r.1 ≤ n ∧ n ≤ r.2 := by
  induction ranges with
  | nil => cases h
  | cons r rest ih =>
    obtain ⟨low, high⟩ := r
    unfold inRanges at h
    split at h
    · cases h
    · split at h
      · exact ⟨(low, high), List.mem_cons_self, by omega, by omega⟩
      · obtain ⟨r, hr, hn⟩ := ih h
        exact ⟨r, List.mem_cons_of_mem _ hr, hn⟩

/-- No decimal digit is a letter. -/
theorem isCased_of_isDecimal {c : Char} (h : isDecimal c = true) : isCased c = false := by
  rcases isDecimal_cases h with hd | ⟨hc, z, hz, hlow, hhigh⟩
  · have hall : ∀ n < 58, 48 ≤ n → isCased (Char.ofNat n) = false := by decide
    simp only [Char.isDigit, Bool.and_eq_true, decide_eq_true_eq] at hd
    have hlow : 48 ≤ c.toNat := hd.1
    have hhigh : c.toNat ≤ 57 := hd.2
    rw [← Char.ofNat_toNat c]
    exact hall _ (by omega) hlow
  · have hapart : (digitZeros.all fun z =>
        casedRanges.all fun r => r.2 < z || z + 9 < r.1) = true := by decide +kernel
    have hout : inRanges c.toNat casedRanges = false := by
      refine Bool.eq_false_iff.mpr fun hin => ?_
      obtain ⟨r, hr, hn⟩ := exists_of_inRanges hin
      have hdisjoint := List.all_eq_true.mp (List.all_eq_true.mp hapart z hz) r hr
      simp only [Bool.or_eq_true, decide_eq_true_eq] at hdisjoint
      omega
    simp [isCased, hc, hout]

/-! ### Blanks -/

/-- The code points of the blanks. -/
def blankCodes : List Nat :=
  [9, 10, 11, 12, 13, 28, 29, 30, 31, 32, 0x85, 0xA0, 0x1680, 0x2000, 0x2001, 0x2002, 0x2003,
   0x2004, 0x2005, 0x2006, 0x2007, 0x2008, 0x2009, 0x200A, 0x2028, 0x2029, 0x202F, 0x205F, 0x3000]

theorem mem_blankCodes {c : Char} (h : isBlank c = true) : c.toNat ∈ blankCodes := by
  simp only [isBlank, Bool.or_eq_true, Bool.and_eq_true, decide_eq_true_eq, beq_iff_eq] at h
  simp only [blankCodes, List.mem_cons, List.not_mem_nil, or_false]
  omega

/-- What holds of the characters with those codes holds of every blank. -/
theorem of_isBlank {p : Char → Prop} (hp : ∀ n ∈ blankCodes, p (Char.ofNat n)) {c : Char}
    (h : isBlank c = true) : p c := by
  have hc := hp _ (mem_blankCodes h)
  rwa [Char.ofNat_toNat] at hc

/-- No blank is a word character. -/
theorem isWordChar_of_isBlank {c : Char} (h : isBlank c = true) : isWordChar c = false :=
  of_isBlank (p := fun c => isWordChar c = false) (by decide +kernel) h

theorem isBlank_of_isWordChar {c : Char} (h : isWordChar c = true) : isBlank c = false := by
  refine Bool.eq_false_iff.mpr fun hblank => ?_
  rw [isWordChar_of_isBlank hblank] at h
  cases h

theorem isCased_of_isBlank {c : Char} (h : isBlank c = true) : isCased c = false :=
  of_isBlank (p := fun c => isCased c = false) (by decide +kernel) h

theorem isDecimal_of_not_isWordChar {c : Char} (h : isWordChar c = false) :
    isDecimal c = false := by
  refine Bool.eq_false_iff.mpr fun hd => ?_
  rw [isWordChar_of_isDecimal hd] at h
  cases h

theorem isDigit_of_not_isWordChar {c : Char} (h : isWordChar c = false) : c.isDigit = false := by
  refine Bool.eq_false_iff.mpr fun hd => ?_
  rw [isWordChar_of_isDigit hd] at h
  cases h

end Kindred.Text
