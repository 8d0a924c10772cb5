import Kindred.Proofs.Number.Whole
import Kindred.Proofs.Sibling.LeadingDice

/-!
# What is recorded for a number of litters

A number of litters that starts with dice keeps a record of them: the dice, their total, what the
modifier adds, and the sum. Below 2 ^ 53 the record is exact, whether the modifier is an integer or
a double. The number of litters is the sum, or none below zero. The record cuts off what is below
zero for open-ended dice only: for plain dice it keeps a negative sum.

- `LitterDice.throw`: the dice in front, with the one way in which they may fail.
- `LitterRoll.thrown`, `LitterRoll.allDice`: the dice that a record keeps.
- `ModifierIs`, `ModifierIs.modifierValue`: what the modifier counts.
- `LitterRoll.Tells`, `litterCount_tells`: the record of a number of litters.
-/

namespace Kindred

open Kindred.Text Kindred.Number Kindred.Formula

variable {σ : Type} {src : Source σ} {w w' w₁ : World σ} {formula : String} {bs : Bindings}

/-! ### The dice -/

/-- The dice in front of a formula: those of the throw, and those that sixes add. -/
def LitterDice.throw : LitterDice → Nat → Roll σ (List Int × List Int)
  | openEnded, n => do
    let roll ← Kindred.openEnded n
    return (roll.initial, roll.extra)
  | plain, n => do
    let rolls ← dice n 6
    return (rolls, [])

namespace LitterRoll

/-- The dice of the throw that a record keeps. -/
def thrown (r : LitterRoll) : List Int :=
  match r.roll with
  | some roll => roll.initial
  | none => r.rolls.getD []

/-- All dice that a record keeps. -/
def allDice (r : LitterRoll) : List Int :=
  match r.roll with
  | some roll => roll.all
  | none => r.rolls.getD []

end LitterRoll

/-! ### The modifier -/

/-- What the text behind the dice counts in a world: nothing if it is blank or if it fails as a
formula, and otherwise the integer that it comes to behind a zero. -/
inductive ModifierIs (bs : Bindings) (modifier : List Char) (src : Source σ) (w : World σ) :
    Int → Prop where
  | blank (h : isBlankText modifier = true) : ModifierIs bs modifier src w 0
  | broken (hsolid : isBlankText modifier = false) {why : FormulaError} {w' : World σ}
      (h : evaluateStrict .sibling bs (String.ofList ('0' :: modifier)) src w =
        .error (.formula why) w') : ModifierIs bs modifier src w 0
  | value (hsolid : isBlankText modifier = false) {e : Evaluation} {w' : World σ} {k : Int}
      (h : evaluateStrict .sibling bs (String.ofList ('0' :: modifier)) src w = .ok e w')
      (hk : e.value.EqInt k) : ModifierIs bs modifier src w k

/-- What the text behind the dice counts is worked out. -/
theorem ModifierIs.modifierValue {modifier : List Char} {k : Int}
    (h : ModifierIs bs modifier src w k) :
    ∃ m w', Kindred.modifierValue bs modifier src w = .ok m w' ∧ m.EqInt k := by
  unfold Kindred.modifierValue
  cases h with
  | blank h =>
    rw [if_pos h]
    exact ⟨0, w, rfl, eqInt_int_iff.mpr rfl⟩
  | broken hsolid h =>
    rw [if_neg (by rw [hsolid]; exact Bool.false_ne_true)]
    obtain ⟨_, _, hzero⟩ := exists_evaluateFormula_of_formula h
    exact ⟨0, _, bind_ok_iff.mpr ⟨_, _, hzero, rfl⟩, eqInt_int_iff.mpr rfl⟩
  | @value hsolid e w' k h hk =>
    rw [if_neg (by rw [hsolid]; exact Bool.false_ne_true)]
    exact ⟨e.value, w', bind_ok_iff.mpr ⟨e, w', evaluateFormula_of_ok h, rfl⟩, hk⟩

/-! ### The sum -/

/-- What is recorded of a sum: open-ended dice have no negative one. -/
def LitterDice.recorded : LitterDice → Int → Int
  | openEnded, sum => max 0 sum
  | plain, sum => sum

section Sum

variable {m v : Number} {k n total : Int}

/-- A total and a modifier below 2 ^ 53 are added exactly. -/
theorem eqInt_withModifier (h : m.EqInt k) (htotal : total.natAbs < 2 ^ 53)
    (hk : k.natAbs < 2 ^ 53) (hsum : (total + k).natAbs < 2 ^ 53) :
    (withModifier total m).EqInt (total + k) := by
  cases m with
  | int k' =>
    obtain rfl := eqInt_int_iff.mp h
    exact eqInt_int_iff.mpr rfl
  | float x => exact (eqInt_ofInt htotal).add h htotal hk hsum

theorem eqInt_atLeastZero (h : v.EqInt n) : (atLeastZero v).EqInt (max 0 n) := by
  unfold atLeastZero
  by_cases hpos : 0 < n
  · rw [if_pos (h.zero_lt_iff.mpr hpos), Int.max_eq_right hpos.le]
    exact h
  · rw [if_neg (mt h.zero_lt_iff.mp hpos), Int.max_eq_left (Int.not_lt.mp hpos)]
    exact eqInt_int_iff.mpr rfl

theorem exists_recordedTotal (h : v.EqInt n) (hn : n.natAbs < 2 ^ 53) :
    ∃ x, recordedTotal v = .ok x ∧ (Number.float x).EqInt n := by
  refine ⟨v.toFloat, ?_, h.toFloat hn⟩
  unfold recordedTotal
  cases v with
  | int k =>
    obtain rfl := eqInt_int_iff.mp h
    have hnearest : (Number.int k).toFloat? = some (ofInt k) :=
      if_pos (@isFinite_ofInt k 53 (by decide) hn)
    rw [hnearest]
    rfl
  | float x => rfl

theorem floorNonNegative_of_eqInt (h : v.EqInt n) : floorNonNegative v = .ok n.toNat := by
  unfold floorNonNegative
  rw [h.floorInt]
  rfl

end Sum

/-! ### The record -/

/-- Whether a record tells how a number of litters came about: from its dice, and from a modifier
that counts an integer. -/
structure LitterRoll.Tells (r : LitterRoll) (count : Nat) (k : Int) : Prop where
  diceCount_eq : r.diceCount = r.thrown.length
  base_eq : r.base = totalOf r.allDice
  modifier : r.modifierValue.EqInt k
  result : (Number.float r.result).EqInt (r.kind.recorded (r.base + k))
  count_eq : count = (r.base + k).toNat

/-- The sum in a record is the number of litters, except for a negative sum of plain dice. -/
theorem LitterRoll.Tells.result_eq_count {r : LitterRoll} {count : Nat} {k : Int}
    (h : r.Tells count k) (hkind : r.kind = .openEnded ∨ 0 ≤ r.base + k) :
    (Number.float r.result).EqInt count := by
  have hresult := h.result
  have hcount : (count : Int) = max 0 (r.base + k) := by
    rw [h.count_eq]
    omega
  rw [hcount]
  unfold LitterDice.recorded at hresult
  cases hform : r.kind with
  | openEnded =>
    rw [hform] at hresult
    exact hresult
  | plain =>
    rw [hform] at hresult hkind
    rwa [Int.max_eq_right (hkind.resolve_left nofun)]

section Record

variable {lead : LeadingDice} {n : Nat} {thrown added : List Int} {k : Int}

/-- The dice in front and what stands behind them are recorded. -/
theorem leadingCount_tells (hn : readNumeral lead.digits = .ok n)
    (hdice : lead.kind.throw n src w = .ok (thrown, added) w₁)
    (hmodifier : ModifierIs bs lead.modifier src w₁ k)
    (htotal : (totalOf (thrown ++ added)).natAbs < 2 ^ 53) (hk : k.natAbs < 2 ^ 53)
    (hsum : (totalOf (thrown ++ added) + k).natAbs < 2 ^ 53) :
    ∃ c w' r, leadingCount formula bs lead src w = .ok c w' ∧ c.roll = some r ∧
      r.kind = lead.kind ∧ r.thrown = thrown ∧ r.allDice = thrown ++ added ∧ thrown.length = n ∧
      r.Tells c.count k := by
  obtain ⟨m, w', hm, hmk⟩ := hmodifier.modifierValue
  have hwhole := eqInt_withModifier hmk htotal hk hsum
  have hcount := floorNonNegative_of_eqInt hwhole
  cases hkind : lead.kind with
  | openEnded =>
    rw [hkind] at hdice
    obtain ⟨roll, hroll, heq⟩ := bind_pure_ok_iff.mp hdice
    cases heq
    obtain ⟨hlength, hall⟩ := openEnded_dice hroll
    obtain ⟨x, hx, hresult⟩ := exists_recordedTotal (eqInt_atLeastZero hwhole) (by omega)
    rw [hall] at hx hresult hcount
    refine ⟨_, w', _, leadingCount_of_openEnded hkind hn hroll hm hx hcount, rfl, rfl, rfl, rfl,
      hlength, ?_⟩
    exact ⟨congrArg _ hlength.symm, hall.symm, hmk.toFloat hk, hresult, rfl⟩
  | plain =>
    rw [hkind] at hdice
    obtain ⟨rolls, hrolls, heq⟩ := bind_pure_ok_iff.mp hdice
    cases heq
    have hlength := times_length hrolls
    obtain ⟨x, hx, hresult⟩ := exists_recordedTotal hwhole hsum
    rw [List.append_nil] at hx hresult hcount
    refine ⟨_, w', _, leadingCount_of_plain hkind hn hrolls hm hx hcount, rfl, rfl, rfl,
      (List.append_nil _).symm, hlength, ?_⟩
    exact ⟨congrArg _ hlength.symm, rfl, hmk.toFloat hk, hresult, rfl⟩

/-- A number of litters that starts with dice is recorded with these dice, as many as the formula
says in the throw, with what the modifier counts and with the sum of both, all below 2 ^ 53. The
number is the sum, or zero where the sum is negative. The record has zero there for open-ended dice
and the negative sum for plain ones. -/
theorem litterCount_tells (hlead : LeadingDice.ofText? formula = some lead)
    (hn : readNumeral lead.digits = .ok n)
    (hdice : lead.kind.throw n src w = .ok (thrown, added) w₁)
    (hmodifier : ModifierIs bs lead.modifier src w₁ k)
    (htotal : (totalOf (thrown ++ added)).natAbs < 2 ^ 53) (hk : k.natAbs < 2 ^ 53)
    (hsum : (totalOf (thrown ++ added) + k).natAbs < 2 ^ 53) :
    ∃ c w' r, litterCount formula bs src w = .ok c w' ∧ c.roll = some r ∧ r.kind = lead.kind ∧
      r.thrown = thrown ∧ r.allDice = thrown ++ added ∧ thrown.length = n ∧ r.Tells c.count k := by
  unfold litterCount
  rw [hlead]
  exact leadingCount_tells hn hdice hmodifier htotal hk hsum

/-- Whether a modifier counts an integer without variables, where all dice show a three. -/
def sampleCounts (modifier : String) (k : Int) (w : World Unit) : Bool :=
  match evaluateStrict .sibling [] (String.ofList ('0' :: modifier.toList)) (Source.constant 3 0) w
    with
  | .ok e _ => e.value.EqInt k
  | .error _ _ => false

theorem modifierIs_of_sampleCounts {modifier : String} {k : Int} {w : World Unit}
    (hsolid : isBlankText modifier.toList = false) (h : sampleCounts modifier k w = true) :
    ModifierIs [] modifier.toList (Source.constant 3 0) w k := by
  unfold sampleCounts at h
  split at h
  · next e w' hrun => exact .value hsolid hrun (of_decide_eq_true h)
  · cases h

/-- A modifier that comes to a double. -/
theorem litterCount_tells_sample :
    LeadingDice.ofText? "2T6-8/2" = some ⟨.plain, ['2'], "-8/2".toList⟩ ∧ ∃ c w' r,
      litterCount "2T6-8/2" [] (Source.constant 3 0) (World.start ()) = .ok c w' ∧
      c.roll = some r ∧ r.allDice = [3, 3] ∧ r.Tells c.count (-4) := by
  have hlead : LeadingDice.ofText? "2T6-8/2" = some ⟨.plain, ['2'], "-8/2".toList⟩ := by decide
  have hdice : LitterDice.plain.throw 2 (Source.constant 3 0) (World.start ()) =
      .ok ([3, 3], []) { World.start () with draws := [.int 1 6 3, .int 1 6 3] } := rfl
  have hmodifier := @modifierIs_of_sampleCounts "-8/2" (-4)
    { World.start () with draws := [.int 1 6 3, .int 1 6 3] } (by decide) (by decide +kernel)
  obtain ⟨c, w', r, hc, hr, -, -, hall, -, htells⟩ :=
    litterCount_tells hlead rfl hdice hmodifier (by decide) (by decide) (by decide)
  exact ⟨hlead, c, w', r, hc, hr, hall, htells⟩

/-- A negative sum of plain dice is recorded, although there are no litters. -/
theorem litterCount_negative_recorded : ∃ c w' r,
    litterCount "1T6-10" [] (Source.constant 3 0) (World.start ()) = .ok c w' ∧
    c.roll = some r ∧ c.count = 0 ∧ r.base = 3 ∧ r.modifierValue.EqInt (-10) ∧
    (Number.float r.result).EqInt (-7) ∧
    ¬ (Number.float r.result).EqInt (max 0 (r.base + -10)) := by
  have hdice : LitterDice.plain.throw 1 (Source.constant 3 0) (World.start ()) =
      .ok ([3], []) { World.start () with draws := [.int 1 6 3] } := rfl
  have hmodifier := @modifierIs_of_sampleCounts "-10" (-10)
    { World.start () with draws := [.int 1 6 3] } (by decide) (by decide +kernel)
  obtain ⟨c, w', r, hc, hr, hkind, -, hall, -, htells⟩ :=
    @leadingCount_tells _ _ _ _ "1T6-10" _ ⟨.plain, ['1'], "-10".toList⟩ _ _ _ _ rfl hdice
      hmodifier (by decide) (by decide) (by decide)
  have hbase : r.base = 3 := by rw [htells.base_eq, hall]; rfl
  have hresult := htells.result
  rw [hkind, hbase] at hresult
  refine ⟨c, w', r, hc, hr, ?_, hbase, htells.modifier, hresult, fun hzero => ?_⟩
  · rw [htells.count_eq, hbase]
    rfl
  · rw [hbase] at hzero
    exact absurd (hresult.unique hzero) (by decide)

end Record

end Kindred
