import Kindred.Dice.Record
import Kindred.Numeral
import Kindred.Proofs.Json.RoundTrip
import Kindred.Proofs.Number.Size

/-!
# Values with short integers

A text with an integer of more than 4300 digits cannot be read. Integers near finite doubles are
short, and so are numerals that were read and what is built from short integers alone. The total of
some dice is short only if there are not too many of them; but it stands beside the dice in a
record, so that a record with a longer total lists more integers than anybody could ever write.

- `short_of_le_bound`, `short_of_le_twice_bound`, `short_max`, `short_of_readNumeral`: short
  integers.
- `Tame`: values with short integers, unless there are too many of them.
- `tame_record`, `tame_list_map`, `tame_ofOption_iff`: values put together.
-/

namespace Kindred

open Kindred.Record Kindred.Json Kindred.Number Kindred.Text

/-! ### Short integers -/

/-- Twice the bound of finite doubles is short. -/
theorem short_of_le_twice_bound {n : Int} (h : n.natAbs ≤ 2 * finiteBound) : Short n := by
  -- the powers are too large to be computed, so that only their exponents are compared
  have hbits : finiteBits + 1 < longestNumeral := by
    unfold finiteBits longestNumeral
    omega
  have hlonger : ∀ {i j : Nat}, i < j → Nat.pow 10 i < Nat.pow 10 j :=
    Nat.pow_lt_pow_right (by decide)
  refine short_iff.mpr (Nat.lt_of_le_of_lt h ?_)
  calc 2 * finiteBound = Nat.pow 2 (finiteBits + 1) := Nat.pow_succ'.symm
    _ ≤ Nat.pow 10 (finiteBits + 1) := Nat.pow_le_pow_left (by decide) _
    _ < Nat.pow 10 longestNumeral := hlonger hbits

theorem short_of_le_bound {n : Int} (h : n.natAbs ≤ finiteBound) : Short n :=
  short_of_le_twice_bound (by omega)

/-- A numeral that is read has a short value. -/
theorem short_of_readNumeral {ds : List Char} {n : Nat} (h : readNumeral ds = .ok n) :
    Short n := by
  unfold readNumeral at h
  split at h
  · cases h
  · next hlength =>
    cases h
    rw [short_iff, Int.natAbs_natCast]
    exact digitsValue_lt (Nat.not_lt.mp hlength)

/-! ### Values -/

/-- How many digits the number of integers has that nobody could ever list. -/
@[irreducible] def manyDigits : Nat := longestNumeral - 1

/-- More integers than anybody could ever list. -/
def manyIntegers : Nat := Nat.pow 10 manyDigits

/-- Whether the integers of a value are short, unless there are too many of them. -/
def Tame (d : Data) : Prop := (integers d).length < manyIntegers → ∀ n ∈ integers d, Short n

theorem integersOf_eq_flatMap (ds : List Data) : integersOf ds = ds.flatMap integers := by
  induction ds with
  | nil => rfl
  | cons d ds ih => rw [integersOf, ih, List.flatMap_cons]

theorem integers_record (parts : List (String × Data)) :
    integers (.record parts) = parts.flatMap fun p => integers p.2 := by
  rw [record_eq_map, integers]
  induction parts with
  | nil => rfl
  | cons p parts ih =>
    rw [List.flatMap_cons, ← ih]
    rfl

@[simp] theorem integers_intsData (ns : List Int) : integers (intsData ns) = ns := by
  show integersOf (ns.map .int) = ns
  rw [integersOf_eq_flatMap, List.flatMap_map]
  exact List.flatMap_singleton' ns

/-- A part has no more integers than the whole. -/
theorem length_integers_le {α : Type} {as : List α} {f : α → Data} {d : Data}
    (hd : integers d = as.flatMap fun a => integers (f a)) {a : α} (ha : a ∈ as) :
    (integers (f a)).length ≤ (integers d).length := by
  rw [hd, List.flatMap_def]
  have hmem : integers (f a) ∈ as.map fun a => integers (f a) := List.mem_map.mpr ⟨a, ha, rfl⟩
  exact (List.sublist_flatten_of_mem hmem).length_le

/-- What is tame in all its parts is tame. -/
theorem tame_flatMap {α : Type} {as : List α} {f : α → Data} {d : Data}
    (hd : integers d = as.flatMap fun a => integers (f a)) (h : ∀ a ∈ as, Tame (f a)) :
    Tame d := by
  -- a part has no more integers than the whole, so that its own condition holds
  intro hsize n hn
  rw [hd] at hn
  obtain ⟨a, ha, hna⟩ := List.mem_flatMap.mp hn
  exact h a ha (Nat.lt_of_le_of_lt (length_integers_le hd ha) hsize) n hna

theorem tame_record {parts : List (String × Data)} (h : ∀ p ∈ parts, Tame p.2) :
    Tame (.record parts) :=
  tame_flatMap (integers_record parts) h

theorem tame_list_map {α : Type} {write : α → Data} {as : List α}
    (h : ∀ a ∈ as, Tame (write a)) : Tame (.list (as.map write)) := by
  refine tame_flatMap ?_ h
  rw [integers, integersOf_eq_flatMap, List.flatMap_map]

theorem tame_of_integers_nil {d : Data} (h : integers d = []) : Tame d := by
  intro _ n hn
  rw [h] at hn
  cases hn

@[simp] theorem tame_text (s : String) : Tame (.text s) := tame_of_integers_nil rfl

@[simp] theorem tame_bool (b : Bool) : Tame (.bool b) := tame_of_integers_nil rfl

@[simp] theorem tame_float (x : Float) : Tame (.float x) := tame_of_integers_nil rfl

theorem tame_int {n : Int} (h : Short n) : Tame (.int n) := by
  intro _ m hm
  cases List.mem_singleton.mp hm
  exact h

@[simp] theorem tame_ofOption_iff {α : Type} {write : α → Data} {o : Option α} :
    Tame (.ofOption write o) ↔ ∀ a ∈ o, Tame (write a) := by
  cases o with
  | none => exact iff_of_true (tame_of_integers_nil rfl) fun a ha => by cases ha
  | some a =>
    constructor
    · rintro h b ⟨⟩
      exact h
    · exact fun h => h a rfl

end Kindred
