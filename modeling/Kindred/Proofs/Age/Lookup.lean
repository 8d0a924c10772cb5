import Kindred.Proofs.Age.Apparent
import Kindred.Proofs.Dice.Rolled
import Kindred.Proofs.Fixed
import Kindred.Proofs.Formula.Containment

/-!
# Looking ages up in a table

A table of brackets is read in two directions. How old someone looks stands in the first row that
holds the age; an age at which someone looks that old is drawn from one of the rows with these
looks, where ages that are negative are left out and a row that is the wrong way round has one age.
A formula would come first in either direction, unless it fails.

- `AgeBracket.Holds`, `AgeBracket.Spans`: the ages in a row, and those that may be drawn from it.
- `AgeMapping.LooksByTable`, `AgeMapping.ReversesByTable`: look-ups that are left to the table.
- `actualToApparent_cases`, `apparentToActual_cases`: looks by the table, and ages by the table.
- `AgeMapping.MayFind`, `mayFind_iff`: the ages that may be found are those that the rows span.
- `apparentToActual_reverses`: the way back, and that it ends where it came from.
-/

namespace Kindred

variable {σ : Type} {src : Source σ} {w w' : World σ}

/-! ### Rows -/

namespace AgeBracket

variable {b : AgeBracket} {age : Int}

/-- Whether an age lies in a bracket. -/
def Holds (b : AgeBracket) (age : Int) : Prop := b.minActual ≤ age ∧ age ≤ b.maxActual

/-- Whether an age may be drawn from a bracket. -/
def Spans (b : AgeBracket) (age : Int) : Prop := b.span.1 ≤ age ∧ age ≤ b.span.2

theorem contains_iff : b.contains (.int age) = true ↔ b.Holds age := by
  rw [contains_int, Bool.and_eq_true, decide_eq_true_iff, decide_eq_true_iff]
  rfl

/-- An age in a row may be drawn from it, unless it is negative. -/
theorem Holds.spans (h : b.Holds age) (hage : 0 ≤ age) : b.Spans age := by
  obtain ⟨hlow, hhigh⟩ := h
  unfold Spans span
  omega

/-- What may be drawn from a row without negative ages lies in it. -/
theorem Spans.holds (h : b.Spans age) (hmin : 0 ≤ b.minActual)
    (hmax : b.minActual ≤ b.maxActual) : b.Holds age := by
  obtain ⟨hlow, hhigh⟩ := h
  unfold span at hlow hhigh
  dsimp only at hlow hhigh
  unfold Holds
  omega

end AgeBracket

/-! ### Formulas that are absent or fail -/

namespace AgeMapping

/-- Whether a mapping has no formula for how old someone looks. -/
def LooksByTable (t : AgeMapping) : Prop := t.apparentFormula.getD "" = ""

/-- Whether a mapping has no formula for an age at which someone looks that old, or one that
fails. -/
def ReversesByTable (t : AgeMapping) (apparent : Int) : Prop :=
  ∀ f, t.actualFormula = some f → f ≠ "" → ∀ {σ : Type} (src : Source σ) (w : World σ),
    ∃ why w', evaluateStrict .actualAge [("apparentAge", .int apparent)] f src w =
      .error (.formula why) w'

theorem LooksByTable.of_none {t : AgeMapping} (h : t.apparentFormula = none) :
    t.LooksByTable := by
  unfold LooksByTable
  rw [h]
  rfl

theorem ReversesByTable.of_none {t : AgeMapping} (h : t.actualFormula = none) (apparent : Int) :
    t.ReversesByTable apparent := by
  intro f hf
  rw [h] at hf
  cases hf

end AgeMapping

variable {t : AgeMapping} {age apparent : Int}

/-- No formula stands in the way of the table, and nothing is drawn for one. -/
theorem AgeMapping.ReversesByTable.exists_mappedAge (h : t.ReversesByTable apparent)
    (src : Source σ) (w : World σ) : ∃ w₁, w₁.Alike w ∧
      mappedAge .actualAge t.actualFormula "apparentAge" apparent src w = .ok none w₁ := by
  obtain ⟨w₁, hnone⟩ : ∃ w₁,
      mappedAge .actualAge t.actualFormula "apparentAge" apparent src w = .ok none w₁ := by
    cases hformula : t.actualFormula with
    | none => exact ⟨w, rfl⟩
    | some f =>
      by_cases hf : f = ""
      · rw [hf, mappedAge_of_absent rfl]
        exact ⟨w, rfl⟩
      · obtain ⟨why, w', herror⟩ := h f hformula hf src w
        rw [mappedAge_some hf]
        exact exists_formulaAge_of_error herror
  obtain ⟨result, hfixed⟩ :
      (mappedAge .actualAge t.actualFormula "apparentAge" apparent : Roll σ (Option Int)).Fixed :=
    ⟨_, mappedAge_comesTo rfl _ _ _⟩
  have hend := hfixed src w
  rw [hnone] at hend
  cases hend with
  | ok alike => exact ⟨w₁, alike, hnone⟩

/-! ### Looks by the table -/

/-- Without a formula it is the table that says how old someone looks. -/
theorem actualToApparent_eq (h : t.LooksByTable) :
    (actualToApparent (some t) age : Roll σ Int) = Roll.ofExcept (tableApparent (some t) age) := by
  unfold actualToApparent
  rw [Option.bind_some, mappedAge_of_absent h]
  rfl

/-- Without a formula someone looks as the row of the age says, and else as old as they are. -/
theorem actualToApparent_cases (hformula : t.LooksByTable) {looks : Int}
    (h : actualToApparent (some t) age src w = .ok looks w') :
    (∃ b ∈ t.table, b.Holds age ∧ looks = max 0 b.apparent) ∨
      (∀ b ∈ t.table, ¬ b.Holds age) ∧ clampAge (.int age) = .ok looks := by
  rw [actualToApparent_eq hformula] at h
  have h := (Roll.ofExcept_ok_iff.mp h).1
  unfold tableApparent at h
  rw [Option.bind_some] at h
  cases hfind : t.table.find? (·.contains (.int age)) with
  | some b =>
    have hin : b.contains (.int age) = true := by simpa using List.find?_some hfind
    rw [hfind] at h
    cases h
    exact .inl ⟨b, List.mem_of_find?_eq_some hfind, AgeBracket.contains_iff.mp hin, rfl⟩
  | none =>
    rw [hfind] at h
    exact .inr ⟨fun b hb hin => List.find?_eq_none.mp hfind b hb (AgeBracket.contains_iff.mpr hin),
      h⟩

/-- An age that is in the table has looks by one of the rows that hold it. -/
theorem exists_actualToApparent (hformula : t.LooksByTable) {b : AgeBracket} (hb : b ∈ t.table)
    (hholds : b.Holds age) : ∃ c ∈ t.table, c.Holds age ∧
      ∀ {σ : Type} (src : Source σ) (w : World σ),
        actualToApparent (some t) age src w = .ok (max 0 c.apparent) w := by
  have hsome : (t.table.find? (·.contains (.int age))).isSome = true :=
    List.find?_isSome.mpr ⟨b, hb, AgeBracket.contains_iff.mpr hholds⟩
  obtain ⟨c, hfind⟩ := Option.isSome_iff_exists.mp hsome
  have hin : c.contains (.int age) = true := by simpa using List.find?_some hfind
  refine ⟨c, List.mem_of_find?_eq_some hfind, AgeBracket.contains_iff.mp hin, fun src w => ?_⟩
  rw [actualToApparent_eq hformula]
  refine Roll.ofExcept_ok_iff.mpr ⟨?_, rfl⟩
  unfold tableApparent
  rw [Option.bind_some, hfind]

/-! ### Ages by the table -/

/-- A bracket is drawn, and then an age from it. -/
theorem drawAge_cons (first : AgeBracket) (rest : List AgeBracket) (apparent : Int) :
    (drawAge (first :: rest) apparent : Roll σ Int) =
      (Roll.drawInt 0 ((first :: rest).length - 1) >>= fun i =>
        Roll.drawInt ((first :: rest).getD i.toNat first).span.1
          ((first :: rest).getD i.toNat first).span.2) := rfl

/-- An age is drawn from one of the brackets; where there is none, it is the apparent age. -/
theorem drawAge_ok (hsrc : src.InRange) {brackets : List AgeBracket} {apparent age : Int}
    (h : drawAge brackets apparent src w = .ok age w') :
    (∃ b ∈ brackets, b.Spans age) ∨ brackets = [] ∧ age = max 0 apparent := by
  cases brackets with
  | nil => exact .inr ⟨rfl, (pure_ok_iff.mp h).1.symm⟩
  | cons first rest =>
    obtain ⟨i, w₁, -, h⟩ := bind_ok_iff.mp h
    have hchosen : (first :: rest).getD i.toNat first ∈ first :: rest := by
      rw [List.getD_eq_getElem?_getD]
      cases hget : (first :: rest)[i.toNat]? with
      | none => exact List.mem_cons_self
      | some b => exact List.mem_of_getElem? hget
    exact .inl ⟨_, hchosen, drawInt_ok hsrc (AgeBracket.span_le _) h⟩

/-- Drawing an age does not fail, as no row is empty. -/
theorem drawAge_failsOnly {p : Fault → Prop} (brackets : List AgeBracket) (apparent : Int) :
    (drawAge brackets apparent : Roll σ Int).FailsOnly p := by
  cases brackets with
  | nil => exact .pure _
  | cons first rest =>
    refine Roll.FailsOnly.bind (.drawInt ?_) fun i => .drawInt (AgeBracket.span_le _)
    rw [List.length_cons]
    omega

theorem drawInt_scripted {low high n : Int} (hlow : low ≤ n) (hhigh : n ≤ high) {ns : List Int}
    {fs : List Float} {w : World (List Int × List Float)} (hw : w.chance = (n :: ns, fs)) :
    Roll.drawInt low high Source.scripted w =
      .ok n { w with chance := (ns, fs), draws := .int low high n :: w.draws } := by
  have hclamp : Source.clamp n low high = n := by
    unfold Source.clamp
    omega
  have hint : Source.scripted.int low high w.chance = (n, (ns, fs)) := by
    rw [hw]
    exact congrArg (·, (ns, fs)) hclamp
  unfold Roll.drawInt
  rw [if_neg (by simp [Source.scripted]), hint]

/-- Two integers make any age of any of the brackets the one that is drawn. -/
theorem exists_drawAge {brackets : List AgeBracket} {b : AgeBracket} (hb : b ∈ brackets)
    (hage : b.Spans age) (apparent : Int) : ∃ i : Int,
      ∀ w : World (List Int × List Float), w.chance = ([i, age], []) →
        ∃ w', drawAge brackets apparent Source.scripted w = .ok age w' := by
  obtain ⟨k, hk, rfl⟩ := List.getElem_of_mem hb
  refine ⟨k, fun w hw => ?_⟩
  cases brackets with
  | nil => cases hb
  | cons first rest =>
    have hchosen : (first :: rest).getD k first = (first :: rest)[k] := by
      rw [List.getD_eq_getElem?_getD, List.getElem?_eq_getElem hk, Option.getD_some]
    have hchoice :=
      @drawInt_scripted 0 ((first :: rest).length - 1) k (by omega) (by omega) _ _ w hw
    rw [drawAge_cons, run_bind, hchoice]
    dsimp only
    rw [Int.toNat_natCast, hchosen]
    exact ⟨_, drawInt_scripted hage.1 hage.2 rfl⟩

/-- The way back from an apparent age is a draw from the rows with it. -/
theorem AgeMapping.ReversesByTable.exists_drawAge (h : t.ReversesByTable apparent)
    (src : Source σ) (w : World σ) : ∃ w₁, w₁.Alike w ∧ apparentToActual (some t) apparent src w =
      drawAge (t.table.filter fun b => b.apparent = apparent) apparent src w₁ := by
  obtain ⟨w₁, halike, hnone⟩ := h.exists_mappedAge src w
  refine ⟨w₁, halike, ?_⟩
  unfold apparentToActual
  rw [Option.bind_some, run_bind, hnone]
  rfl

/-- Without a formula an age is drawn from a row with the looks, or is these if there is none. -/
theorem apparentToActual_cases (hsrc : src.InRange) (hformula : t.ReversesByTable apparent)
    (h : apparentToActual (some t) apparent src w = .ok age w') :
    (∃ b ∈ t.table, b.apparent = apparent ∧ b.Spans age) ∨
      (∀ b ∈ t.table, b.apparent ≠ apparent) ∧ age = max 0 apparent := by
  obtain ⟨w₁, -, htable⟩ := hformula.exists_drawAge src w
  rw [htable] at h
  rcases drawAge_ok hsrc h with ⟨b, hb, hspan⟩ | ⟨hnil, hage⟩
  · obtain ⟨hb, hlooks⟩ := List.mem_filter.mp hb
    exact .inl ⟨b, hb, of_decide_eq_true hlooks, hspan⟩
  · refine .inr ⟨fun b hb hlooks => ?_, hage⟩
    exact List.filter_eq_nil_iff.mp hnil b hb (decide_eq_true hlooks)

/-- The way back by a table always ends with an age, and asks for no empty range. -/
theorem exists_apparentToActual (hformula : t.ReversesByTable apparent) (src : Source σ)
    (w : World σ) :
    ∃ age w', apparentToActual (some t) apparent src w = .ok age w' ∧ w.Extends w' := by
  obtain ⟨w₁, -, htable⟩ := hformula.exists_drawAge src w
  obtain ⟨age, w', hage⟩ := (drawAge_failsOnly _ apparent).exists_ok
    fun w' hend => drawAge_failsOnly (p := fun _ => False) _ apparent hend
  rw [← htable] at hage
  have hsound := (apparentToActual_stepwise (some t) apparent).sound src w
  rw [hage] at hsound
  cases hsound with
  | ok state => exact ⟨age, w', hage, state⟩

/-! ### There and back -/

namespace AgeMapping

/-- Whether an age may be found for someone who looks that old, by some source that draws what it
is asked for. -/
def MayFind (t : AgeMapping) (apparent age : Int) : Prop :=
  ∃ (σ : Type) (src : Source σ) (w w' : World σ), src.InRange ∧
    apparentToActual (some t) apparent src w = .ok age w'

/-- An age that a row with the looks spans may be found. -/
theorem ReversesByTable.mayFind (h : t.ReversesByTable apparent) {b : AgeBracket}
    (hb : b ∈ t.table) (hlooks : b.apparent = apparent) (hage : b.Spans age) :
    t.MayFind apparent age := by
  have hmem : b ∈ t.table.filter fun b => b.apparent = apparent :=
    List.mem_filter.mpr ⟨hb, decide_eq_true hlooks⟩
  obtain ⟨i, hdraw⟩ := Kindred.exists_drawAge hmem hage apparent
  obtain ⟨w₁, ⟨hchance, -⟩, htable⟩ := h.exists_drawAge Source.scripted (World.start ([i, age], []))
  obtain ⟨w', hw'⟩ := hdraw w₁ hchance
  exact ⟨_, Source.scripted, _, w', Source.inRange_scripted, htable.trans hw'⟩

/-- The ages that may be found are those that the rows with the looks span. -/
theorem mayFind_iff (h : t.ReversesByTable apparent)
    (hcarried : ∃ b ∈ t.table, b.apparent = apparent) :
    t.MayFind apparent age ↔ ∃ b ∈ t.table, b.apparent = apparent ∧ b.Spans age := by
  constructor
  · rintro ⟨σ, src, w, w', hsrc, hage⟩
    rcases apparentToActual_cases hsrc h hage with hrow | ⟨hnone, -⟩
    · exact hrow
    · obtain ⟨b, hb, hlooks⟩ := hcarried
      exact absurd hlooks (hnone b hb)
  · rintro ⟨b, hb, hlooks, hspan⟩
    exact h.mayFind hb hlooks hspan

/-- Whether a table has no row that is empty or has negative ages, and rows that differ share no
age. -/
structure IsApart (t : AgeMapping) : Prop where
  nonneg : ∀ b ∈ t.table, 0 ≤ b.minActual
  nonempty : ∀ b ∈ t.table, b.minActual ≤ b.maxActual
  disjoint : ∀ b ∈ t.table, ∀ c ∈ t.table, b ≠ c → ∀ age, ¬ (b.Holds age ∧ c.Holds age)

/-- Someone of an age that a row spans has the looks of the row, where rows are apart. -/
theorem IsApart.actualToApparent_ok (ht : t.IsApart) (hformula : t.LooksByTable) {b : AgeBracket}
    (hb : b ∈ t.table) (hspan : b.Spans age) (src : Source σ) (w : World σ) :
    actualToApparent (some t) age src w = .ok (max 0 b.apparent) w := by
  have hholds := hspan.holds (ht.nonneg b hb) (ht.nonempty b hb)
  obtain ⟨c, hc, hcholds, hlooks⟩ := exists_actualToApparent hformula hb hholds
  have heq : b = c := Classical.byContradiction fun hne =>
    ht.disjoint b hb c hc hne age ⟨hholds, hcholds⟩
  rw [heq]
  exact hlooks src w

end AgeMapping

/-- Every age of a table may be found again for its looks. -/
theorem exists_there_and_back (hlooks : t.LooksByTable)
    (hages : ∀ b ∈ t.table, 0 ≤ b.apparent ∧ t.ReversesByTable b.apparent) (hage : 0 ≤ age)
    {b : AgeBracket} (hb : b ∈ t.table) (hholds : b.Holds age) :
    ∃ (σ : Type) (src : Source σ) (w w' : World σ), src.InRange ∧
      (do apparentToActual (some t) (← actualToApparent (some t) age)) src w = .ok age w' := by
  obtain ⟨c, hc, hcholds, hrun⟩ := exists_actualToApparent hlooks hb hholds
  obtain ⟨hpos, hback⟩ := hages c hc
  obtain ⟨σ, src, w, w', hsrc, hfound⟩ := hback.mayFind hc rfl (hcholds.spans hage)
  refine ⟨σ, src, w, w', hsrc, bind_ok_iff.mpr ⟨_, w, hrun src w, ?_⟩⟩
  rw [Int.max_eq_right hpos]
  exact hfound

/-- Ages and looks by a table. For looks that a row has, the ages that may be found are those that
the rows with these looks span; an age is found whatever is drawn, and no draw asks for an empty
range. If rows are apart, someone of an age that is found has the looks that it was found for. And
every age in the table may be found again for its looks, if no looks are negative. -/
theorem apparentToActual_reverses (hformula : t.ReversesByTable apparent)
    (hcarried : ∃ b ∈ t.table, b.apparent = apparent) :
    (∀ age, t.MayFind apparent age ↔ ∃ b ∈ t.table, b.apparent = apparent ∧
      max 0 b.minActual ≤ age ∧ age ≤ max (max 0 b.minActual) b.maxActual) ∧
    (∀ {σ : Type} (src : Source σ) (w : World σ), ∃ age w',
      apparentToActual (some t) apparent src w = .ok age w' ∧ w.Extends w') ∧
    (t.LooksByTable → t.IsApart → 0 ≤ apparent → ∀ age, t.MayFind apparent age →
      ∀ {σ : Type} (src : Source σ) (w : World σ),
        actualToApparent (some t) age src w = .ok apparent w) ∧
    (t.LooksByTable → (∀ b ∈ t.table, 0 ≤ b.apparent ∧ t.ReversesByTable b.apparent) →
      ∀ age, 0 ≤ age → (∃ b ∈ t.table, b.Holds age) →
        ∃ (σ : Type) (src : Source σ) (w w' : World σ), src.InRange ∧
          (do apparentToActual (some t) (← actualToApparent (some t) age)) src w = .ok age w') := by
  refine ⟨fun age => AgeMapping.mayFind_iff hformula hcarried,
    fun src w => exists_apparentToActual hformula src w, ?_, ?_⟩
  · intro hlooks hapart hpos age hfind _ src w
    obtain ⟨b, hb, rfl, hspan⟩ := (AgeMapping.mayFind_iff hformula hcarried).mp hfind
    rw [hapart.actualToApparent_ok hlooks hb hspan, Int.max_eq_right hpos]
  · rintro hlooks hages age hage ⟨b, hb, hholds⟩
    exact exists_there_and_back hlooks hages hage hb hholds

/-- A table with two rows for one look, and a formula for the way back that is cut off. -/
def sampleLookup : AgeMapping :=
  { actualFormula := some "apparentAge +", table := [⟨0, 20, 10⟩, ⟨61, 100, 25⟩, ⟨101, 150, 25⟩] }

theorem reversesByTable_sampleLookup : sampleLookup.ReversesByTable 25 := by
  intro f hf _ σ src w
  cases hf
  have hwritable : Formula.Writable .actualAge [("apparentAge", .int 25)] := by decide
  have hroll : (rollPieces .actualAge (pieces (Formula.namedText .actualAge
      [("apparentAge", .int 25)] "apparentAge +")) : Roll σ Rolled) src w =
        .ok { text := "25 +".toList } w := rfl
  have hcut : Formula.evaluate .actualAge (String.ofList "25 +".toList) =
      .error (.formula (.unreadable "25 +" (.flaw 4 .parity))) := by rfl
  rw [Formula.evaluateStrict_of_writable (by rfl) hwritable, run_bind, hroll]
  dsimp only
  rw [run_bind, Roll.evaluate_of_formula hcut]
  exact ⟨_, _, rfl⟩

/-- Who looks 25 by that table is from 61 to 150 years old, and may be 101. -/
theorem apparentToActual_reverses_sample :
    (∀ age, sampleLookup.MayFind 25 age ↔ 61 ≤ age ∧ age ≤ 150) ∧
    actualToApparent (some sampleLookup) 101 (Source.constant 3 0) (World.start ()) =
      .ok 25 (World.start ()) := by
  have hcarried : ∃ b ∈ sampleLookup.table, b.apparent = 25 :=
    ⟨⟨61, 100, 25⟩, List.mem_cons_of_mem _ List.mem_cons_self, rfl⟩
  obtain ⟨hfind, -, hback, -⟩ := apparentToActual_reverses reversesByTable_sampleLookup hcarried
  have hiff : ∀ age, sampleLookup.MayFind 25 age ↔ 61 ≤ age ∧ age ≤ 150 := by
    intro age
    rw [hfind]
    simp only [sampleLookup, List.mem_cons, List.not_mem_nil, or_false, exists_eq_or_imp,
      exists_eq_left, Int.reduceEq, false_and, true_and, false_or]
    omega
  refine ⟨hiff, ?_⟩
  have hapart : sampleLookup.IsApart := by
    refine ⟨by decide, by decide, fun b hb c hc hne age hshared => ?_⟩
    simp only [sampleLookup, List.mem_cons, List.not_mem_nil, or_false] at hb hc
    unfold AgeBracket.Holds at hshared
    -- two rows are the same one, or their bounds are apart
    rcases hb with rfl | rfl | rfl <;> rcases hc with rfl | rfl | rfl <;>
      first | exact hne rfl | (dsimp only at hshared; omega)
  exact hback rfl hapart (by decide) 101 ((hiff 101).mpr (by decide)) _ _

end Kindred
