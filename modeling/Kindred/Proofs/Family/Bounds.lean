import Kindred.Proofs.Age.Lookup
import Kindred.Proofs.Family.Saved
import Kindred.Proofs.Formula.Containment
import Kindred.Proofs.Record.Tame
import Kindred.Proofs.Sibling.Litters

/-!
# How large what is rolled gets

Ages and counts come from finite doubles, from the table of a mapping or from what a roll was asked
for, and so they are short if the latter are. Dice are kept beside their total.

- `Number.IsFinite.natAbs_le`, `floorNonNegative_le_of_recordedTotal`: numbers that are rounded.
- `OpenEnded.IsFair`, `evaluateFormula_fair`: the dice of a formula, and their total.
- `actualToApparent_short`, `apparentToActual_short`: ages.
- `litterCount_tame`, `rollLitter_short`, `rollSide_tame`: one side of siblings.
- `rollStatus_short`, `rollParentAge_tame`: the parents.
-/

namespace Kindred

open Kindred.Record Kindred.Json Kindred.Number Kindred.Text

/-! ### Numbers -/

/-- A finite number has a floor, or a ceiling, that is not above the bound. -/
theorem Number.IsFinite.natAbs_le {n : Number} (h : n.IsFinite) {k : Int}
    (hk : n.floorInt = .ok k ∨ n.ceilInt = .ok k) : k.natAbs ≤ finiteBound := by
  have hfinite := h.isFinite_toFloat
  cases n with
  | int m =>
    have hm : m = k := by rcases hk with hk | hk <;> exact Except.ok.inj hk
    rw [← hm]
    exact natAbs_le_of_isFinite_ofInt hfinite
  | float x =>
    rcases hk with hk | hk
    · exact natAbs_le_of_floatToInt Binary.natAbs_floor_le hk
    · exact natAbs_le_of_floatToInt Binary.natAbs_ceil_le hk

theorem floorNonNegative_ok_iff {n : Number} {k : Nat} :
    floorNonNegative n = .ok k ↔ ∃ m, n.floorInt = .ok m ∧ m.toNat = k := by
  unfold floorNonNegative
  cases n.floorInt with
  | error why => exact iff_of_false (fun h => by cases h) (by rintro ⟨_, h, _⟩; cases h)
  | ok m =>
    constructor
    · exact fun h => ⟨m, rfl, Except.ok.inj h⟩
    · rintro ⟨_, ⟨⟩, rfl⟩
      rfl

/-- The count that a finite number stands for is not above the bound. -/
theorem Number.IsFinite.floorNonNegative_le {n : Number} (h : n.IsFinite) {k : Nat}
    (hk : floorNonNegative n = .ok k) : k ≤ finiteBound := by
  obtain ⟨m, hm, rfl⟩ := floorNonNegative_ok_iff.mp hk
  have hle := h.natAbs_le (.inl hm)
  omega

/-- A count that a recorded total stands for is not above the bound. -/
theorem floorNonNegative_le_of_recordedTotal {n : Number} {x : Float} {k : Nat}
    (hx : recordedTotal n = .ok x) (hk : floorNonNegative n = .ok k) : k ≤ finiteBound := by
  cases n with
  | int m =>
    refine Number.IsFinite.floorNonNegative_le ?_ hk
    unfold recordedTotal at hx
    cases hfinite : (Number.int m).toFloat? with
    | none =>
      rw [hfinite] at hx
      cases hx
    | some y => exact ⟨y, hfinite, Formula.isFinite_of_finiteOfInt? hfinite⟩
  | float y =>
    obtain ⟨m, hm, rfl⟩ := floorNonNegative_ok_iff.mp hk
    have hle := natAbs_le_of_floatToInt Binary.natAbs_floor_le hm
    omega

/-- A number that is not above zero stands for the count zero. -/
theorem floorNonNegative_le_of_atLeastZero {n : Number} {x : Float} {k : Nat}
    (hx : recordedTotal (atLeastZero n) = .ok x) (hk : floorNonNegative n = .ok k) :
    k ≤ finiteBound := by
  unfold atLeastZero at hx
  split at hx
  · exact floorNonNegative_le_of_recordedTotal hx hk
  · next hlow =>
    cases n with
    | int m =>
      have hm : ¬ 0 < m := by
        intro hpos
        refine hlow ?_
        show (some (compare 0 m) == some Ordering.lt) = true
        rw [compare_lt_iff_lt.mpr hpos]
        rfl
      rw [floorNonNegative_int] at hk
      cases hk
      omega
    | float y =>
      obtain ⟨m, hm, rfl⟩ := floorNonNegative_ok_iff.mp hk
      have hle := natAbs_le_of_floatToInt Binary.natAbs_floor_le hm
      omega

/-! ### Dice -/

/-- The total of dice with six sides is short if there are not too many of them. -/
theorem short_totalOf {ns : List Int} (h : ∀ n ∈ ns, 1 ≤ n ∧ n ≤ 6)
    (hsize : ns.length < manyIntegers) : Short (totalOf ns) := by
  have hlow := length_le_totalOf fun n hn => (h n hn).1
  have hhigh := totalOf_le fun n hn => (h n hn).2
  have hdigits : longestNumeral = manyDigits + 1 := by
    unfold manyDigits
    rfl
  have hpow : Nat.pow 10 (manyDigits + 1) = 10 * manyIntegers := Nat.pow_succ'
  rw [short_iff, hdigits, hpow]
  omega

theorem short_of_die {n : Int} (h : 1 ≤ n ∧ n ≤ 6) : Short n := by
  have hten : Short 10 := by decide
  exact short_of_natAbs_le hten (by omega)

/-- Whether an open-ended roll shows dice with six sides, and their total. -/
def OpenEnded.IsFair (r : OpenEnded) : Prop :=
  (∀ n ∈ r.all, 1 ≤ n ∧ n ≤ 6) ∧ r.total = totalOf r.all

theorem OpenEnded.integers_toData (r : OpenEnded) :
    integers r.toData = r.all ++ [r.total] := by
  unfold toData all
  rw [integers_record]
  simp [integers]

theorem OpenEnded.IsFair.short_total {r : OpenEnded} (h : r.IsFair)
    (hsize : r.all.length < manyIntegers) : Short r.total := by
  rw [h.2]
  exact short_totalOf h.1 hsize

theorem OpenEnded.IsFair.tame {r : OpenEnded} (h : r.IsFair) : Tame r.toData := by
  intro hsize n hn
  rw [r.integers_toData] at hsize hn
  rw [List.length_append] at hsize
  rcases List.mem_append.mp hn with hdie | htotal
  · exact short_of_die (h.1 n hdie)
  · cases List.mem_singleton.mp htotal
    exact h.short_total (by omega)

section Rolls

variable {σ : Type} {src : Source σ} {w w' : World σ} {d : Dialect} {bs : Formula.Bindings}
  {formula : String}

theorem openEnded_fair (hsrc : src.InRange) {count : Nat} {r : OpenEnded}
    (h : openEnded count src w = .ok r w') : r.IsFair := by
  obtain ⟨initial, w₁, hinitial, h⟩ := bind_ok_iff.mp h
  obtain ⟨fuel, w₂, -, h⟩ := bind_ok_iff.mp h
  obtain ⟨extra, hextra, rfl⟩ := bind_pure_ok_iff.mp h
  have hthrow := (times_ok (fun w n w' hn => die_ok hsrc (by decide) hn) hinitial).2
  have hchains := (chains_ok hsrc hextra).2
  exact ⟨List.forall_mem_append.mpr ⟨hthrow, hchains⟩, (totalOf_append initial extra).symm⟩

theorem rollToken_fair (hsrc : src.InRange) {t : DiceToken} {total : Int} {own : Option OpenEnded}
    (h : rollToken t src w = .ok (total, own) w') : ∀ r ∈ own, r.IsFair := by
  rcases rollToken_origin h with ⟨-, r, hr, -, rfl⟩ | ⟨-, ns, -, -, rfl⟩
  · rintro r' ⟨⟩
    exact openEnded_fair hsrc hr
  · intro r hr
    cases hr

/-- The first open-ended roll of a text shows dice with six sides, and their total. -/
theorem rollPieces_fair (hsrc : src.InRange) {ps : List Piece} {rolled : Rolled}
    (h : rollPieces d ps src w = .ok rolled w') : ∀ r ∈ rolled.openEnded, r.IsFair := by
  induction ps generalizing w rolled with
  | nil =>
    obtain ⟨rfl, -⟩ := pure_ok_iff.mp h
    intro r hr
    cases hr
  | cons piece ps ih =>
    cases piece with
    | char c =>
      obtain ⟨rest, hrest, rfl⟩ := bind_pure_ok_iff.mp h
      have hfair := ih hrest
      exact hfair
    | dice t =>
      unfold rollPieces at h
      split at h
      · obtain ⟨⟨total, own⟩, w₁, hown, h⟩ := bind_ok_iff.mp h
        obtain ⟨digits, w₂, -, h⟩ := bind_ok_iff.mp h
        obtain ⟨rest, hrest, rfl⟩ := bind_pure_ok_iff.mp h
        intro r hr
        rcases Option.or_eq_some_iff.mp (Option.mem_def.mp hr) with hfirst | ⟨-, hlater⟩
        · exact rollToken_fair hsrc hown r hfirst
        · exact ih hrest r hlater
      · obtain ⟨rest, hrest, rfl⟩ := bind_pure_ok_iff.mp h
        have hfair := ih hrest
        exact hfair

theorem evaluateStrict_fair (hsrc : src.InRange) {e : Evaluation}
    (h : evaluateStrict d bs formula src w = .ok e w') : ∀ r ∈ e.openEnded, r.IsFair := by
  cases hblank : isBlankString formula with
  | true =>
    rw [Formula.evaluateStrict_of_blank hblank] at h
    cases h
  | false =>
    rw [evaluateStrict_of_not_blank hblank] at h
    obtain ⟨named, w₁, -, h⟩ := bind_ok_iff.mp h
    obtain ⟨rolled, w₂, hrolled, h⟩ := bind_ok_iff.mp h
    obtain ⟨n, -, rfl⟩ := bind_pure_ok_iff.mp h
    exact rollPieces_fair hsrc hrolled

theorem evaluateFormula_fair (hsrc : src.InRange) {e : Evaluation}
    (h : evaluateFormula d bs formula src w = .ok e w') : ∀ r ∈ e.openEnded, r.IsFair := by
  rcases Formula.evaluateFormula_cases h with h | ⟨-, hnone⟩
  · exact evaluateStrict_fair hsrc h
  · rw [hnone]
    intro r hr
    cases hr

/-! ### Ages -/

/-- Whether the ages in the table of a mapping are short. -/
def AgeMapping.IsShort (m : AgeMapping) : Prop :=
  ∀ b ∈ m.table, Short b.minActual ∧ Short b.maxActual ∧ Short b.apparent

theorem short_of_clampAge {n : Number} {k : Int} (h : clampAge n = .ok k) : Short k := by
  obtain ⟨r, hround, rfl⟩ := clampAge_ok h
  unfold roundHalfUp at hround
  split at hround
  · exact short_max short_zero
      (short_of_le_bound (natAbs_le_of_floatToInt Binary.natAbs_floor_le hround))
  · cases hround

variable {m : Option AgeMapping} (hm : ∀ t ∈ m, t.IsShort)

include hm

/-- How old someone looks is short. -/
theorem actualToApparent_short {age k : Int} (h : actualToApparent m age src w = .ok k w') :
    Short k := by
  rcases actualToApparent_origin h with ⟨n, hn⟩ | ⟨t, ht, b, hb, rfl⟩
  · exact short_of_clampAge hn
  · exact short_max short_zero (hm t ht b hb).2.2

omit hm in
/-- An age that is drawn from brackets is short if these are. -/
theorem drawAge_short (hsrc : src.InRange) {brackets : List AgeBracket} {apparent k : Int}
    (hbrackets : ∀ b ∈ brackets, Short b.minActual ∧ Short b.maxActual) (hlooks : Short apparent)
    (h : drawAge brackets apparent src w = .ok k w') : Short k := by
  rcases drawAge_ok hsrc h with ⟨b, hb, hlow, hhigh⟩ | ⟨-, rfl⟩
  · -- the age lies between zero and the end of the span
    obtain ⟨hmin, hmax⟩ := hbrackets b hb
    have hstart : 0 ≤ b.span.1 := Int.le_max_left 0 _
    have hend : Short b.span.2 := short_max (short_max short_zero hmin) hmax
    exact short_of_natAbs_le hend (by omega)
  · exact short_max short_zero hlooks

/-- The age of someone who looks that old is short. -/
theorem apparentToActual_short (hsrc : src.InRange) {apparent k : Int} (hlooks : Short apparent)
    (h : apparentToActual m apparent src w = .ok k w') : Short k := by
  obtain ⟨mapped, w₁, hmapped, h⟩ := bind_ok_iff.mp h
  cases mapped with
  | some age =>
    obtain ⟨rfl, -⟩ := pure_ok_iff.mp h
    obtain ⟨n, hn⟩ := exists_clampAge_of_mappedAge hmapped
    exact short_of_clampAge hn
  | none =>
    refine drawAge_short hsrc (fun b hb => ?_) hlooks h
    have hb := List.mem_of_mem_filter hb
    cases m with
    | none => cases hb
    | some t =>
      obtain ⟨hmin, hmax, -⟩ := hm t rfl b hb
      exact ⟨hmin, hmax⟩

end Rolls

/-! ### Siblings -/

section Siblings

variable {σ : Type} {src : Source σ} {w w' : World σ} {bs : Formula.Bindings} {formula : String}

/-- The integers in what was rolled for a number of litters, if a double stands behind its dice. -/
theorem LitterRoll.integers_toData {r : LitterRoll} {x : Float} (hx : r.modifierValue = .float x) :
    integers r.toData = r.diceCount :: (integers (.ofOption OpenEnded.toData r.roll) ++
      (integers (.ofOption intsData r.rolls) ++ [r.base])) := by
  unfold toData
  rw [integers_record, hx]
  cases r.modifier <;> simp [integers, Data.ofNumber, Data.ofOption]

/-- Whether what was rolled for a number of litters is tame, with a double behind its dice. -/
structure LitterRoll.IsTame (r : LitterRoll) : Prop where
  value : ∃ x, r.modifierValue = .float x
  tame : Tame r.toData

/-- What was rolled for a number of litters is tame if its dice are, and if they make their total
short. -/
theorem LitterRoll.isTame {r : LitterRoll} (hvalue : ∃ x, r.modifierValue = .float x)
    (hcount : Short r.diceCount) (hroll : ∀ o ∈ r.roll, Tame o.toData)
    (hrolls : ∀ ns ∈ r.rolls, ∀ n ∈ ns, Short n)
    (hbase : (∀ o ∈ r.roll, o.all.length < manyIntegers) →
      (∀ ns ∈ r.rolls, ns.length < manyIntegers) → Short r.base) : r.IsTame := by
  refine ⟨hvalue, fun hsize n hn => ?_⟩
  obtain ⟨x, hx⟩ := hvalue
  rw [integers_toData hx] at hsize hn
  simp only [List.length_cons, List.length_append] at hsize
  have hdice : ∀ o ∈ r.roll, o.all.length < manyIntegers := by
    intro o ho
    rw [Option.mem_def.mp ho, Data.ofOption, o.integers_toData, List.length_append] at hsize
    omega
  have hplain : ∀ ns ∈ r.rolls, ns.length < manyIntegers := by
    intro ns hns
    rw [Option.mem_def.mp hns, Data.ofOption, integers_intsData] at hsize
    omega
  have hints : ∀ ns ∈ r.rolls, Tame (intsData ns) := fun ns hns => tame_list_map fun n hn =>
    tame_int (hrolls ns hns n hn)
  rw [List.mem_cons, List.mem_append, List.mem_append, List.mem_singleton] at hn
  rcases hn with rfl | hn | hn | rfl
  · exact hcount
  · exact tame_ofOption_iff.mpr hroll (by omega) n hn
  · exact tame_ofOption_iff.mpr hints (by omega) n hn
  · exact hbase hdice hplain

/-- What it is read as has the same integers. -/
theorem LitterRoll.IsTame.reread {r : LitterRoll} (h : r.IsTame) : r.reread.IsTame := by
  obtain ⟨⟨x, hx⟩, htame⟩ := h
  have hx' : r.reread.modifierValue = .float (echoFloat x) := by
    unfold LitterRoll.reread
    rw [hx]
    rfl
  refine ⟨⟨_, hx'⟩, ?_⟩
  unfold Tame
  rw [LitterRoll.integers_toData hx']
  unfold Tame at htame
  rwa [LitterRoll.integers_toData hx] at htame

/-- What is recorded for a number of litters is tame, and the number is not above the bound. -/
theorem leadingCount_tame (hsrc : src.InRange) {lead : LeadingDice} {c : LitterCount}
    (h : leadingCount formula bs lead src w = .ok c w') :
    c.count ≤ finiteBound ∧ ∀ r ∈ c.roll, r.IsTame := by
  obtain ⟨n, m, sum, x, w₁, hn, -, hcount, hdice⟩ := leadingCount_ok h
  have hshort := short_of_readNumeral hn
  -- the dice stand beside their total, in one of two places
  rcases hdice with ⟨roll, hroll, -, hx, hrecord⟩ | ⟨rolls, hrolls, -, hx, hrecord⟩
  · have hfair := openEnded_fair hsrc hroll
    refine ⟨floorNonNegative_le_of_atLeastZero hx hcount, ?_⟩
    rw [hrecord]
    rintro r ⟨⟩
    refine LitterRoll.isTame ⟨_, rfl⟩ hshort ?_ (fun _ h => by cases h) fun hmany _ => ?_
    · rintro o ⟨⟩
      exact hfair.tame
    · exact hfair.short_total (hmany roll rfl)
  · have hfair := (dice_ok hsrc (by decide) hrolls).2
    refine ⟨floorNonNegative_le_of_recordedTotal hx hcount, ?_⟩
    rw [hrecord]
    rintro r ⟨⟩
    refine LitterRoll.isTame ⟨_, rfl⟩ hshort (fun _ h => by cases h) ?_ fun _ hmany => ?_
    · rintro ns ⟨⟩ n hn
      exact short_of_die (hfair n hn)
    · exact short_totalOf hfair (hmany rolls rfl)

theorem litterCount_tame (hsrc : src.InRange) {c : LitterCount}
    (h : litterCount formula bs src w = .ok c w') :
    c.count ≤ finiteBound ∧ ∀ r ∈ c.roll, r.IsTame := by
  rcases litterCount_ok h with ⟨lead, -, hlead⟩ | ⟨-, hnone, e, he, hcount⟩
  · exact leadingCount_tame hsrc hlead
  · refine ⟨(Formula.evaluateFormula_finite he).floorNonNegative_le hcount, ?_⟩
    rw [hnone]
    intro r hr
    cases hr

/-- The size of a litter is short. -/
theorem litterSize_short {k : Nat} (h : litterSize formula bs src w = .ok k w') : Short k := by
  unfold litterSize at h
  split at h
  · obtain ⟨rfl, -⟩ := pure_ok_iff.mp h
    decide
  · dsimp only at h
    split at h
    · exact short_of_readNumeral (Roll.ofExcept_ok_iff.mp h).1
    · obtain ⟨e, w₁, he, h⟩ := bind_ok_iff.mp h
      obtain ⟨n, hn, rfl⟩ := bind_pure_ok_iff.mp h
      have hle :=
        (Formula.evaluateFormula_finite he).natAbs_le (.inr (Roll.ofExcept_ok_iff.mp hn).1)
      exact short_of_le_bound (by omega)

/-- Whether the integers of a sibling are short, and how large the number of its litter is. The
younger litters are numbered on from the older ones. -/
structure Sibling.IsTame (b : Sibling) : Prop where
  position : Short b.position
  age : Short b.age
  litter_pos : 1 ≤ b.litter
  litter_le : b.litter ≤ if b.isOlder then finiteBound else 2 * finiteBound

theorem Sibling.IsTame.litter_le_twice {b : Sibling} (h : b.IsTame) :
    b.litter ≤ 2 * finiteBound := by
  have hle := h.litter_le
  split at hle <;> omega

theorem Sibling.IsTame.tame {b : Sibling} (h : b.IsTame) : Tame b.toData := by
  have hpos := h.litter_pos
  have hle := h.litter_le_twice
  have hlitter : Short b.litter := short_of_le_twice_bound (by omega)
  exact tame_record (by simp [tame_int hlitter, tame_int h.position, tame_int h.age])

variable {m : Option AgeMapping} (hm : ∀ t ∈ m, t.IsShort)

include hm

/-- The siblings of a litter have short positions and a short age. -/
theorem rollLitter_short (hsrc : src.InRange) {side : Side} {rules : SiblingRules} {age n : Int}
    {l : List Sibling} (h : rollLitter side rules age m n src w = .ok l w') :
    ∀ b ∈ l, Short b.position ∧ Short b.age := by
  obtain ⟨size, _, looks, _, apparent, actual, _, genders, _, hsize, he, happarent, hactual,
    hgenders, -, rfl⟩ := rollLitter_parts h
  have hlength := (times_ok (p := fun _ => True) (fun _ _ _ _ => trivial) hgenders).1
  have hlooks : Short apparent := by
    have hle := (Formula.evaluateFormula_finite he).floorNonNegative_le happarent
    exact short_of_le_bound (by omega)
  have hage := apparentToActual_short hm hsrc hlooks hactual
  intro b hb
  obtain ⟨⟨gender, i⟩, hi, rfl⟩ := List.mem_map.mp hb
  have hlt : i < genders.length := by
    have hzip := List.mem_zipIdx hi
    omega
  refine ⟨short_of_natAbs_le (litterSize_short hsize) ?_, short_max short_zero hage⟩
  show ((i : Int) + 1).natAbs ≤ (size : Int).natAbs
  omega

/-- What is rolled for one side is tame. -/
theorem rollSide_tame (hsrc : src.InRange) {side : Side} {rules : SiblingRules} {age start : Int}
    {r : SideRoll} (hstart : 1 ≤ start)
    (hstart' : start ≤ if side = .older then 1 else finiteBound + 1)
    (h : rollSide side rules age m start src w = .ok r w') :
    (∀ b ∈ r.siblings, b.IsTame) ∧ r.litters ≤ finiteBound ∧ ∀ l ∈ r.roll, l.IsTame := by
  have hcount : r.litters ≤ finiteBound ∧ ∀ l ∈ r.roll, l.IsTame := by
    obtain ⟨c, w₁, hc, hlitters, hroll⟩ := rollSide_count h
    rw [hlitters, hroll]
    exact litterCount_tame hsrc hc
  refine ⟨fun b hb => ?_, hcount⟩
  obtain ⟨rfl, ls, w₁, hls, hsiblings⟩ := rollSide_ok h
  rw [hsiblings] at hb
  obtain ⟨hlitters, hlength⟩ := litters_ok hls
  obtain ⟨hlow, hhigh⟩ := hlitters.litter_mem hb
  have hside := hlitters.isOlder_eq hb
  obtain ⟨hposition, hage⟩ :=
    forall_mem_litters (fun _ _ _ _ hl => rollLitter_short hm hsrc hl) hls b hb
  have hle := hcount.1
  refine ⟨hposition, hage, by omega, ?_⟩
  rw [hside]
  cases hr : r.side with
  | older =>
    rw [hr, if_pos rfl] at hstart'
    show b.litter ≤ finiteBound
    omega
  | younger =>
    rw [hr, if_neg (by decide)] at hstart'
    show b.litter ≤ 2 * finiteBound
    omega

end Siblings

/-! ### Parents -/

section Parents

variable {σ : Type} {src : Source σ} {w w' : World σ}

/-- What is rolled for the status of the parents is short. -/
theorem rollStatus_short {rules : ParentRules} {age : Int} {r : StatusRoll} (hage : Short age)
    (h : rollStatus rules age src w = .ok r w') : Short r.apparentAge ∧ Short r.result := by
  obtain ⟨e, _, value, he, hvalue, rfl⟩ := rollStatus_parts h
  exact ⟨hage, short_of_le_bound ((Formula.evaluateFormula_finite he).natAbs_le (.inl hvalue))⟩

theorem StatusRoll.tame {r : StatusRoll} (hage : Short r.apparentAge) (hresult : Short r.result) :
    Tame r.toData :=
  tame_record (by simp [tame_int hage, tame_int hresult])

/-- What is rolled for the age of a parent is tame. -/
theorem rollParentAge_tame (hsrc : src.InRange) {formula : String} {siblings : List Sibling}
    {age : Int} {m : Option AgeMapping} (hm : ∀ t ∈ m, t.IsShort) {r : ParentAge}
    (hage : Short age) (h : rollParentAge formula siblings age m src w = .ok r w') :
    Tame r.toData := by
  obtain ⟨base, _, e, _, apparent, actual, _, hbase, he, happarent, hactual, rfl⟩ :=
    rollParentAge_parts h
  have hbase : Short base := by
    rcases oldestApparent_origin hbase with ⟨-, rfl⟩ | ⟨b, -, -, w₁, hlooks⟩
    · exact hage
    · exact actualToApparent_short hm hlooks
  have hlooks : Short apparent := by
    have hle := (Formula.evaluateFormula_finite he).floorNonNegative_le happarent
    exact short_of_le_bound (by omega)
  have hactual := short_max short_zero (apparentToActual_short hm hsrc hlooks hactual)
  have hdice : ∀ o ∈ e.openEnded, Tame o.toData := fun o ho =>
    (evaluateFormula_fair hsrc he o ho).tame
  refine tame_record ?_
  simp [tame_int hbase, tame_int hlooks, tame_int hactual]
  exact hdice

end Parents

end Kindred
