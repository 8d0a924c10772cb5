import Mathlib.Data.List.Basic
import Mathlib.Data.List.TakeDrop
import Mathlib.Data.List.TakeWhile
import Kindred.Proofs.Text.Character

/-!
# Numerals

The digits that a number is written with, and the runs of digits at the front of a text. What is
written is read back: the digits of a number have that number as their value, and a run of digits
ends where the text behind it starts with something else.

- `span_append`, `append_of_span`: a run ends in front of the first character outside its class.
- `isDigit_of_mem_natText`, `natText_ne_nil`, `head?_natText`: the form of a numeral.
- `digitsValue_natText`: its value.
- `digitsValue_append_zeros`, `digitsValue_zeros_append`: zeros behind it and in front of it.
- `digitsValue_lt`, `length_natText_le_iff`: its length.
- `short_iff`, `overlong`: which integers are short, and the least that is not.
-/

namespace Kindred.Text

/-! ### Runs -/

variable {p : Char → Bool} {ds rest : List Char}

/-- A run of one class ends in front of what lies outside of it. -/
theorem span_append (hds : ∀ c ∈ ds, p c = true) (hrest : ∀ c ∈ rest.head?, p c = false) :
    (ds ++ rest).span p = (ds, rest) := by
  rw [List.span_eq_takeWhile_dropWhile, List.takeWhile_append_of_pos hds,
    List.dropWhile_append_of_pos hds]
  cases rest with
  | nil => simp
  | cons c rest =>
    have hc := hrest c rfl
    simp [hc]

theorem span_of_all (hds : ∀ c ∈ ds, p c = true) : ds.span p = (ds, []) := by
  have h : (ds ++ []).span p = (ds, []) := span_append hds nofun
  rwa [List.append_nil] at h

/-- A run is the front of a text, and of one class. -/
theorem append_of_span {s : List Char} (h : s.span p = (ds, rest)) :
    s = ds ++ rest ∧ ∀ c ∈ ds, p c = true := by
  rw [List.span_eq_takeWhile_dropWhile] at h
  obtain ⟨rfl, rfl⟩ := Prod.mk.inj h
  exact ⟨List.takeWhile_append_dropWhile.symm, fun c hc => List.mem_takeWhile_imp hc⟩

/-- Every text starts with a run of a class, which may be empty. -/
theorem exists_run (p : Char → Bool) (s : List Char) : ∃ run rest, s = run ++ rest ∧
    (∀ c ∈ run, p c = true) ∧ ∀ c ∈ rest.head?, p c = false := by
  refine ⟨s.takeWhile p, s.dropWhile p, List.takeWhile_append_dropWhile.symm,
    fun c hc => List.mem_takeWhile_imp hc, fun c hc => ?_⟩
  have hnot := List.head?_dropWhile_not p s
  rw [Option.mem_def.mp hc] at hnot
  exact Bool.eq_false_iff.mpr (by simpa using hnot)

/-- No run starts where the first character is outside the class. -/
theorem span_of_head? (hrest : ∀ c ∈ rest.head?, p c = false) : rest.span p = ([], rest) :=
  @span_append p [] rest (List.forall_mem_nil _) hrest

/-! ### Digits -/

theorem isDigit_of_mem_natText {n : Nat} {c : Char} (h : c ∈ natText n) : c.isDigit = true :=
  Nat.isDigit_of_mem_toDigits (by decide) (by decide) h

theorem natText_ne_nil (n : Nat) : natText n ≠ [] := Nat.toDigits_ne_nil

theorem natText_of_lt {n : Nat} (h : n < 10) : natText n = [n.digitChar] :=
  Nat.toDigits_of_lt_base h

/-- The last digit of a number stands behind the digits of the others. -/
theorem natText_of_le {n : Nat} (h : 10 ≤ n) :
    natText n = natText (n / 10) ++ [(n % 10).digitChar] :=
  Nat.toDigits_of_base_le (by decide) h

/-- A number that is not zero has no zero in front. -/
theorem head?_natText {n : Nat} (h : n ≠ 0) : (natText n).head? ≠ some '0' := by
  induction n using Nat.strongRecOn with
  | ind n ih =>
    -- the first digit of a longer numeral is the first digit of its tenth part
    rcases Nat.lt_or_ge n 10 with hn | hn
    · rw [natText_of_lt hn]
      have hdigit : ∀ k, k < 10 → k ≠ 0 → [k.digitChar].head? ≠ some '0' := by decide
      exact hdigit n hn h
    · rw [natText_of_le hn, List.head?_append_of_ne_nil _ (natText_ne_nil _)]
      exact ih (n / 10) (by omega) (by omega)

/-- The value of a row of ASCII digits. -/
theorem digitsValue_eq_ofDigitChars (hds : ∀ c ∈ ds, c.isDigit = true) :
    digitsValue ds = Nat.ofDigitChars 10 ds 0 := by
  unfold digitsValue
  rw [Nat.ofDigitChars_eq_foldl]
  refine List.foldl_ext _ _ 0 fun n c hc => ?_
  simp [digitValue?, hds c hc]

/-- A numeral has the number that it writes as its value. -/
@[simp] theorem digitsValue_natText (n : Nat) : digitsValue (natText n) = n := by
  rw [digitsValue_eq_ofDigitChars fun c => isDigit_of_mem_natText]
  exact Nat.ofDigitChars_ten_toDigits

theorem isDigit_of_mem_zeros {k : Nat} {c : Char} (h : c ∈ List.replicate k '0') :
    c.isDigit = true := by
  rw [List.eq_of_mem_replicate h]
  rfl

/-- Zeros behind the digits of a number multiply it. -/
theorem digitsValue_append_zeros (hds : ∀ c ∈ ds, c.isDigit = true) (k : Nat) :
    digitsValue (ds ++ List.replicate k '0') = digitsValue ds * Nat.pow 10 k := by
  have hall : ∀ c ∈ ds ++ List.replicate k '0', c.isDigit = true := by
    intro c hc
    rcases List.mem_append.mp hc with hc | hc
    · exact hds c hc
    · exact isDigit_of_mem_zeros hc
  rw [digitsValue_eq_ofDigitChars hall, digitsValue_eq_ofDigitChars hds, Nat.ofDigitChars_append,
    Nat.ofDigitChars_replicate_zero, Nat.mul_comm]
  rfl

/-- Zeros in front of the digits of a number leave it as it is. -/
theorem digitsValue_zeros_append (hds : ∀ c ∈ ds, c.isDigit = true) (k : Nat) :
    digitsValue (List.replicate k '0' ++ ds) = digitsValue ds := by
  have hall : ∀ c ∈ List.replicate k '0' ++ ds, c.isDigit = true := by
    intro c hc
    rcases List.mem_append.mp hc with hc | hc
    · exact isDigit_of_mem_zeros hc
    · exact hds c hc
  rw [digitsValue_eq_ofDigitChars hall, digitsValue_eq_ofDigitChars hds, Nat.ofDigitChars_append,
    Nat.ofDigitChars_replicate_zero, Nat.mul_zero]

/-- The value of a digit has one digit. -/
theorem digitValue?_lt {c : Char} {n : Nat} (h : digitValue? c = some n) : n < 10 := by
  unfold digitValue? at h
  split at h
  · next hdigit =>
    simp only [Char.isDigit, Bool.and_eq_true, decide_eq_true_eq] at hdigit
    have hhigh : c.toNat ≤ 57 := hdigit.2
    cases h
    omega
  · split at h
    · cases h
    · obtain ⟨z, hz, rfl⟩ := Option.map_eq_some_iff.mp h
      have hrun := List.find?_some hz
      simp only [Bool.and_eq_true, decide_eq_true_eq] at hrun
      omega

/-- A row of digits writes a number of at most as many digits. -/
theorem digitsValue_lt {k : Nat} (h : ds.length ≤ k) : digitsValue ds < Nat.pow 10 k := by
  have hfold : ∀ n, ds.foldl (fun n c => 10 * n + (digitValue? c).getD 0) n <
      (n + 1) * Nat.pow 10 ds.length := by
    clear h
    induction ds with
    | nil => simp
    | cons c ds ih =>
      intro n
      have hdigit : (digitValue? c).getD 0 < 10 := by
        cases hc : digitValue? c with
        | none => decide
        | some k => exact digitValue?_lt hc
      have hle : 10 * n + (digitValue? c).getD 0 + 1 ≤ (n + 1) * 10 := by omega
      have hpow : Nat.pow 10 (ds.length + 1) = 10 * Nat.pow 10 ds.length := by
        rw [Nat.pow_eq, Nat.pow_eq, Nat.pow_succ, Nat.mul_comm]
      rw [List.foldl_cons, List.length_cons, hpow, ← Nat.mul_assoc]
      exact Nat.lt_of_lt_of_le (ih _) (Nat.mul_le_mul_right _ hle)
  have hlt := hfold 0
  rw [Nat.zero_add, Nat.one_mul] at hlt
  exact Nat.lt_of_lt_of_le hlt (Nat.pow_le_pow_right (by decide) h)

/-- How long a numeral is. -/
theorem length_natText_le_iff {n k : Nat} (h : 0 < k) : (natText n).length ≤ k ↔ n < Nat.pow 10 k :=
  Nat.length_toDigits_le_iff (by decide) h

/-! ### Short integers -/

theorem short_iff {n : Int} : Short n ↔ n.natAbs < Nat.pow 10 longestNumeral :=
  length_natText_le_iff (by decide)

theorem short_of_natAbs_le {m n : Int} (hn : Short n) (h : m.natAbs ≤ n.natAbs) : Short m :=
  short_iff.mpr (Nat.lt_of_le_of_lt h (short_iff.mp hn))

theorem short_digitsValue (h : ds.length ≤ longestNumeral) : Short (digitsValue ds) :=
  short_iff.mpr (digitsValue_lt h)

theorem short_zero : Short 0 := by decide

theorem short_max {m n : Int} (hm : Short m) (hn : Short n) : Short (max m n) := by
  rcases Int.le_total m n with h | h
  · rwa [Int.max_eq_right h]
  · rwa [Int.max_eq_left h]

/-- The least number with too many digits. -/
@[irreducible] def overlong : Nat := Nat.pow 10 longestNumeral

theorem short_iff_lt_overlong {n : Int} : Short n ↔ n.natAbs < overlong := by
  unfold overlong
  exact short_iff

theorem not_short_overlong : ¬ Short overlong := by
  rw [short_iff_lt_overlong, Int.natAbs_natCast]
  exact Nat.lt_irrefl overlong

/-! ### Runs of digits -/

theorem spanAsciiDigits_append (hds : ∀ c ∈ ds, c.isDigit = true)
    (hrest : ∀ c ∈ rest.head?, c.isDigit = false) : spanAsciiDigits (ds ++ rest) = (ds, rest) :=
  span_append hds hrest

/-- A run of ASCII digits ends in front of what is no digit of any script. -/
theorem spanDigits_append (hds : ∀ c ∈ ds, c.isDigit = true)
    (hrest : ∀ c ∈ rest.head?, isDecimal c = false) : spanDigits (ds ++ rest) = (ds, rest) :=
  span_append (fun c hc => isDecimal_of_isDigit (hds c hc)) hrest

theorem isDigits_of_isDigit (hne : ds ≠ []) (hds : ∀ c ∈ ds, c.isDigit = true) :
    isDigits ds = true := by
  unfold isDigits
  rw [Bool.and_eq_true, Bool.not_eq_true', List.isEmpty_eq_false_iff, List.all_eq_true]
  exact ⟨hne, fun c hc => isDecimal_of_isDigit (hds c hc)⟩

end Kindred.Text
