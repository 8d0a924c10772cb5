import Kindred.Parent.Generation
import Kindred.Proofs.Roll

/-!
# Where looks come from

How old someone looks is worked out by a formula, found in a table, or is the age itself. The first
and the last are rounded, and what is below zero is taken as zero. The age of a parent is based on
the looks of the oldest sibling.

- `clampAge_ok`: ages that are rounded.
- `mappedAge_of_absent`, `mappedAge_some`, `exists_formulaAge_of_error`: formulas that are absent,
  and those that fail.
- `exists_clampAge_of_mappedAge`, `actualToApparent_origin`: what looks are rounded from.
- `oldestApparent_origin`: whose looks a roll for a parent is based on.
- `rollStatus_parts`, `rollParentAge_parts`: all that is rolled for the parents.
-/

namespace Kindred

variable {σ : Type} {src : Source σ} {w w' : World σ} {m : Option AgeMapping}

theorem clampAge_ok {n : Number} {k : Int} (h : clampAge n = .ok k) :
    ∃ r, roundHalfUp n = .ok r ∧ k = max 0 r := by
  unfold clampAge at h
  cases hround : roundHalfUp n with
  | error why =>
    rw [hround] at h
    cases h
  | ok r =>
    rw [hround] at h
    cases h
    exact ⟨r, rfl, rfl⟩

/-! ### Formulas for ages -/

section Formulas

variable {d : Dialect} {formula name : String} {age : Int}

theorem mappedAge_of_absent {formula : Option String} (h : formula.getD "" = "") (name : String)
    (age : Int) : (mappedAge d formula name age : Roll σ (Option Int)) = pure none := by
  cases formula with
  | none => rfl
  | some f =>
    obtain rfl : f = "" := h
    rfl

theorem mappedAge_some (h : formula ≠ "") (name : String) (age : Int) :
    (mappedAge d (some formula) name age : Roll σ (Option Int)) =
      formulaAge d formula name age := by
  unfold mappedAge
  split
  · next heq => cases heq
  · next heq => exact absurd (Option.some.inj heq) h
  · next heq =>
    cases heq
    rfl

/-- A formula that fails is reported, and gives no age. -/
theorem exists_formulaAge_of_error {why : FormulaError}
    (h : evaluateStrict d [(name, .int age)] formula src w = .error (.formula why) w') :
    ∃ w₁, formulaAge d formula name age src w = .ok none w₁ := by
  have herror : (some <$> evaluateStrict d [(name, .int age)] formula) src w =
      .error (.formula why) w' := map_error_iff.mpr h
  unfold formulaAge
  rw [run_bind, Roll.orElseFormula_of_formula herror]
  cases writeNumeral age <;> exact ⟨_, rfl⟩

/-- An age that a formula gives is its value, rounded. -/
theorem exists_clampAge_of_formulaAge {k : Int}
    (h : formulaAge d formula name age src w = .ok (some k) w') : ∃ n, clampAge n = .ok k := by
  unfold formulaAge at h
  obtain ⟨result, w₁, -, h⟩ := bind_ok_iff.mp h
  cases result with
  | none => cases (pure_ok_iff.mp h).1
  | some e =>
    obtain ⟨n, hn, heq⟩ := bind_pure_ok_iff.mp h
    cases heq
    exact ⟨e.value, (Roll.ofExcept_ok_iff.mp hn).1⟩

theorem exists_clampAge_of_mappedAge {formula : Option String} {k : Int}
    (h : mappedAge d formula name age src w = .ok (some k) w') : ∃ n, clampAge n = .ok k := by
  unfold mappedAge at h
  split at h
  · cases (pure_ok_iff.mp h).1
  · cases (pure_ok_iff.mp h).1
  · exact exists_clampAge_of_formulaAge h

end Formulas

/-! ### Looks -/

/-- How old someone looks is rounded, or stands in the table. -/
theorem actualToApparent_origin {age k : Int} (h : actualToApparent m age src w = .ok k w') :
    (∃ n, clampAge n = .ok k) ∨ ∃ t ∈ m, ∃ b ∈ t.table, k = max 0 b.apparent := by
  obtain ⟨mapped, w₁, hmapped, h⟩ := bind_ok_iff.mp h
  cases mapped with
  | some apparent =>
    obtain ⟨rfl, -⟩ := pure_ok_iff.mp h
    exact .inl (exists_clampAge_of_mappedAge hmapped)
  | none =>
    have h := (Roll.ofExcept_ok_iff.mp h).1
    unfold tableApparent at h
    split at h
    · next b hb =>
      cases h
      obtain ⟨t, ht, hfind⟩ := Option.bind_eq_some_iff.mp hb
      exact .inr ⟨t, ht, b, List.mem_of_find?_eq_some hfind, rfl⟩
    · exact .inl ⟨_, h⟩

/-- How old the character looks is found from the age by the mapping. -/
theorem actualToApparent_of_ok {ws ws' : World σ × Session} {age : Int}
    (h : characterApparentAge src ws = .ok age ws') :
    ∃ w', actualToApparent ws.2.mapping (ws.2.family.characterAge.getD 0) src ws.1 =
      .ok age w' := by
  obtain ⟨_, _, heq, h⟩ := bind_ok_iff.mp h
  cases heq
  exact Roll.quietly_ok (Play.roll_ok_iff.mp h).1

/-- The age of a parent is based on how old the oldest sibling looks, or the character where there
are no siblings. -/
theorem oldestApparent_origin {siblings : List Sibling} {age k : Int}
    (h : oldestApparent siblings age m src w = .ok k w') :
    siblings = [] ∧ k = age ∨ ∃ b ∈ siblings, (∀ c ∈ siblings, c.age ≤ b.age) ∧
      ∃ w₁, actualToApparent m b.age src w = .ok k w₁ := by
  unfold oldestApparent at h
  cases hmax : (siblings.map (·.age)).max? with
  | none =>
    rw [hmax] at h
    obtain ⟨rfl, -⟩ := pure_ok_iff.mp h
    exact .inl ⟨List.map_eq_nil_iff.mp (List.max?_eq_none_iff.mp hmax), rfl⟩
  | some oldest =>
    rw [hmax] at h
    obtain ⟨holdest, hmost⟩ := List.max?_eq_some_iff.mp hmax
    obtain ⟨b, hb, rfl⟩ := List.mem_map.mp holdest
    exact .inr ⟨b, hb, fun c hc => hmost _ (List.mem_map_of_mem hc), Roll.quietly_ok h⟩

/-! ### Rolls for parents -/

/-- What is rolled for the status of the parents: a formula, which is rounded down, and a status for
it. -/
theorem rollStatus_parts {rules : ParentRules} {age : Int} {r : StatusRoll}
    (h : rollStatus rules age src w = .ok r w') :
    ∃ e w₁ value, evaluateFormula .parentStatus [("characterApparentAge", .int age)]
        rules.formula src w = .ok e w₁ ∧
      e.value.floorInt = .ok value ∧
      ⟨rules.formula, age, value, determineStatus rules.table value⟩ = r := by
  obtain ⟨e, w₁, he, h⟩ := bind_ok_iff.mp h
  obtain ⟨value, _, hvalue, h⟩ := bind_ok_iff.mp h
  obtain ⟨_, w₂, -, h⟩ := bind_ok_iff.mp h
  exact ⟨e, w₁, value, he, (Roll.ofExcept_ok_iff.mp hvalue).1, (pure_ok_iff.mp h).1⟩

/-- What is rolled for the age of a parent: the looks that it is based on, how old the parent looks
by a formula, and how old the parent is. -/
theorem rollParentAge_parts {formula : String} {siblings : List Sibling} {age : Int}
    {r : ParentAge} (h : rollParentAge formula siblings age m src w = .ok r w') :
    ∃ base w₁ e w₂ apparent actual w₃,
      oldestApparent siblings age m src w = .ok base w₁ ∧
      evaluateFormula .parentAge [("oldestSiblingOrCharacterApparentAge", .int base)]
        formula src w₁ = .ok e w₂ ∧
      floorNonNegative e.value = .ok apparent ∧
      apparentToActual m apparent src w₂ = .ok actual w₃ ∧
      ⟨formula, base, apparent, max 0 actual, e.openEnded⟩ = r := by
  obtain ⟨base, w₁, hbase, h⟩ := bind_ok_iff.mp h
  obtain ⟨e, w₂, he, h⟩ := bind_ok_iff.mp h
  obtain ⟨apparent, _, happarent, h⟩ := bind_ok_iff.mp h
  obtain ⟨hfloor, rfl⟩ := Roll.ofExcept_ok_iff.mp happarent
  obtain ⟨actual, w₃, hactual, h⟩ := bind_ok_iff.mp h
  obtain ⟨_, w₄, -, h⟩ := bind_ok_iff.mp h
  exact ⟨base, w₁, e, w₂, apparent, actual, w₃, hbase, he, hfloor, hactual,
    (pure_ok_iff.mp h).1⟩

end Kindred
