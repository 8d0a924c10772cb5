import Kindred.Proofs.Race.Loose
import Kindred.Proofs.Record.Settled

/-!
# Content that is read again

Mappings, rules, categories and races may be written loosely. What is read of them is written in one
form, and reading that form again gives the same, without a remark: all that reading changes is
changed by the first reading.

- `AgeBracket.rebuilds`, `AgeMapping.rebuilds`, `SiblingRules.rebuilds`, `StatusRow.rebuilds`,
  `ParentRules.rebuilds`, `Customs.rebuilds`, `RaceMetadata.rebuilds`, `RaceCategory.rebuilds`,
  `Race.rebuilds`: records are built again from their parts.
- `SiblingRules.settles`: entries that are of no use have to be written all the same.
- `RaceCategory.ageMapping`: the mapping of a category, as a record of its own.
- `content_normalises`: the eight records.
-/

namespace Kindred

open Kindred.Text Kindred.Record Kindred.Json

/-! ### Texts that may be absent -/

/-- A text that is kept is not blank. -/
theorem isBlankString_of_kept {s t : String}
    (h : (Checked.ok (if isBlankString s then none else some s)).outcome = .ok (some t)) :
    isBlankString t = false := by
  cases hblank : isBlankString s with
  | true =>
    rw [hblank] at h
    cases h
  | false =>
    rw [hblank] at h
    cases h
    exact hblank

/-- A check that takes all texts but blank ones as they are, and makes no blank ones. -/
theorem settles_of_not_blank {check : Check (Option String)} (hnull : check .null = .ok none)
    (htext : ∀ s, check (.text s) = .ok (if isBlankString s then none else some s))
    (hblank : ∀ d s, (check d).outcome = .ok (some s) → isBlankString s = false) :
    Settles check (.ofOption .text) where
  again {d o} h := by
    cases o with
    | none => exact hnull
    | some s =>
      rw [Data.ofOption, htext, hblank d s h]
      rfl
  short {d o} _ _ := by
    cases o with
    | none => exact hasShortIntegers_of_nil rfl
    | some s => exact hasShortIntegers_of_nil rfl

theorem formulaOrNone_settles : Settles formulaOrNone (.ofOption .text) := by
  refine settles_of_not_blank rfl (fun _ => rfl) fun d s h => ?_
  unfold formulaOrNone at h
  split at h
  · exact isBlankString_of_kept h
  · next n =>
    obtain ⟨t, ht, heq⟩ := Checked.outcome_map_ok_iff.mp h
    cases heq
    exact (isWritable_of_textOfInt (Checked.outcome_ofExcept_iff.mp ht)).2
  · next x =>
    cases h
    exact Number.isBlankString_text (.float x)
  · cases h

theorem Customs.textOrNone_settles : Settles textOrNone (.ofOption .text) := by
  refine settles_of_not_blank rfl (fun _ => rfl) fun d s h => ?_
  unfold textOrNone at h
  split at h
  · exact isBlankString_of_kept h
  · cases h

/-! ### Ages -/

namespace AgeBracket

/-- The fields of a bracket as loose data. -/
def fields (b : AgeBracket) : List (String × Data) :=
  [("min_actual_age", .int b.minActual), ("max_actual_age", .int b.maxActual),
    ("apparent_age", .int b.apparent)]

theorem rebuilds : RebuildsFrom build fields :=
  .seq int_settles.required (.seq int_settles.required
    (.map int_settles.required fun _ _ _ => rfl))

theorem settles : Settles check toData := rebuilds.settles (fun _ => by simp [fields]) "AgeRange"

/-- A bracket is accepted as itself, whatever it holds. -/
theorem check_toData (b : AgeBracket) : check b.toData = .ok b := rfl

theorem isPlain (b : AgeBracket) : IsPlain 1 b.toData :=
  isPlain_record b.fields (by simp [fields])

end AgeBracket

namespace AgeMapping

theorem checkTable_settles : Settles checkTable fun rows => .list (rows.map AgeBracket.toData) := by
  constructor
  case again =>
    intro d rows _
    unfold checkTable
    dsimp only
    rw [usableRows_map fun b _ => b.check_toData]
    rfl
  case short =>
    intro d rows h hd
    refine hasShortIntegers_list_iff.mpr (List.forall_mem_map.mpr ?_)
    unfold checkTable at h
    split at h
    · cases h
      exact usableRows_short AgeBracket.settles hd
    · cases h
      exact List.forall_mem_nil _

theorem rebuilds : RebuildsFrom build fields :=
  .seq (checkTable_settles.withDefault rfl (hasShortIntegers_of_nil rfl))
    (.seq (formulaOrNone_settles.orAbsent rfl)
      (.map (formulaOrNone_settles.orAbsent rfl) fun _ _ _ => rfl))

theorem settles : Settles check toData := rebuilds.settles (fun _ => by simp [fields]) "AgeMapping"

theorem isPlain_fields (m : AgeMapping) : ∀ p ∈ m.fields, IsPlain 2 p.2 := by
  simp [fields, isPlain_list_map AgeBracket.isPlain]

theorem isPlain (m : AgeMapping) : IsPlain 3 m.toData := isPlain_record m.fields m.isPlain_fields

end AgeMapping

/-! ### Rules for siblings -/

namespace SiblingRules

/-- The fields of rules for siblings as loose data. -/
def fields (r : SiblingRules) : List (String × Data) :=
  [("number_of_litters", .text r.litters), ("litter_size", .text r.litterSize),
    ("older_sibling_age_formula", .text r.olderAge),
    ("younger_sibling_age_formula", .text r.youngerAge), ("gender_formula", .text r.gender)]

theorem textOrNumber_settles : SettlesUsable isFormula textOrNumber .text where
  again {d s} hd hs := by
    have hblank : isBlankString s = false := by
      unfold textOrNumber at hs
      split at hs
      · next t =>
        cases hs
        exact (Bool.not_eq_true' _).mp hd
      · exact (isWritable_of_textOfInt (Checked.outcome_ofExcept_iff.mp hs)).2
      · next x =>
        cases hs
        exact Number.isBlankString_text (.float x)
      · cases hs
    exact ⟨(Bool.not_eq_true' _).mpr hblank, rfl⟩
  short _ _ := hasShortIntegers_of_nil rfl

theorem siblingText_rebuilds {name : String} {names : List String} {default : String}
    (h : isFormula (.text default) = true) :
    RebuildsFrom (fun es => siblingText es (name :: names) default) fun s => [(name, .text s)] :=
  textOrNumber_settles.withDefault ⟨h, rfl⟩ (hasShortIntegers_of_nil rfl)

theorem rebuilds : RebuildsFrom (fun es => ofFormulas (usable isFormula es)) fields :=
  .seq (siblingText_rebuilds (by decide)) (.seq (siblingText_rebuilds (by decide))
    (.seq (siblingText_rebuilds (by decide)) (.seq (siblingText_rebuilds (by decide))
      (.map (siblingText_rebuilds (by decide)) fun _ _ _ _ _ => rfl))))

/-- Rules are texts, and these can be written. -/
theorem writable_fields (r : SiblingRules) : Writable (entries r.fields) := by
  have hfields : Data.withoutRepeats (entries r.fields) = entries r.fields := rfl
  unfold Writable
  rw [hfields]
  exact List.forall_mem_map.mpr (by simp [fields, isWritable])

/-- Rules that are built are built from entries of use once all entries are written, and their own
fields are written and of use. -/
theorem settles : Settles check toData := by
  have hfields := rebuilds.settles (fun _ => by simp [fields]) "SiblingFormula"
  have hbuild : ∀ {d r}, (check d).outcome = .ok r →
      (record "SiblingFormula" (fun es => ofFormulas (usable isFormula es)) d).outcome = .ok r := by
    intro d r h
    cases d with
    | map es => exact (congrArg Checked.outcome (build_of_writable (writable_of_build h))) ▸ h
    | _ => cases h
  constructor
  case again =>
    intro d r h
    exact (build_of_writable r.writable_fields).trans (hfields.again (hbuild h))
  case short => exact fun h => hfields.short (hbuild h)

theorem isPlain (r : SiblingRules) : IsPlain 1 r.toData :=
  isPlain_record r.fields (by simp [fields])

end SiblingRules

/-! ### Rules for the parents' status -/

namespace StatusRow

/-- The fields of a row as loose data. -/
def fields (r : StatusRow) : List (String × Data) :=
  [("min", .int r.min), ("max", .int r.max), ("result", .text r.result),
    ("mother_alive", .ofOption .bool r.motherAlive),
    ("father_alive", .ofOption .bool r.fatherAlive)]

theorem rebuilds : RebuildsFrom build fields :=
  .seq (bool_settles.optional nofun) (.seq (bool_settles.optional nofun)
    (.seq text_settles.required (.seq int_settles.required
      (.map int_settles.required fun _ _ _ _ _ => rfl))))

theorem settles : Settles check toData :=
  rebuilds.settles (fun _ => by simp [fields]) "ParentStatusRange"

theorem isPlain (r : StatusRow) : IsPlain 1 r.toData :=
  isPlain_record r.fields (by simp [fields])

/-- A row is accepted as itself, whatever it holds. -/
theorem check_toData (r : StatusRow) : check r.toData = .ok r := by
  rcases r with ⟨min, max, result, _ | mother, _ | father⟩ <;> rfl

theorem short_defaults : ∀ r ∈ defaults, HasShortIntegers r.toData := by
  unfold HasShortIntegers
  decide

end StatusRow

namespace ParentRules

/-- The fields of rules for the parents' status as loose data. -/
def fields (r : ParentRules) : List (String × Data) :=
  [("formula", .text r.formula), ("table", .list (r.table.map StatusRow.toData))]

theorem not_isLeftEmpty_text {s : String} (h : isBlankString s = false) :
    (!isLeftEmpty (.text s)) = true := by
  have hne : s.isEmpty = false := Bool.eq_false_iff.mpr fun hempty => by
    rw [String.isEmpty_iff.mp hempty] at h
    cases h
  show (!s.isEmpty) = true
  rw [hne]
  rfl

theorem checkFormula_settles : SettlesUsable (!isLeftEmpty ·) checkFormula .text where
  again {d s} hd hs := by
    refine ⟨?_, rfl⟩
    unfold checkFormula at hs
    split at hs
    · cases hs
      exact hd
    · exact not_isLeftEmpty_text
        (isWritable_of_textOfInt (Checked.outcome_ofExcept_iff.mp hs)).2
    · next x =>
      cases hs
      exact not_isLeftEmpty_text (Number.isBlankString_text (.float x))
    · cases hs
      decide
  short _ _ := hasShortIntegers_of_nil rfl

/-- A table that is accepted row by row is taken as it is, if it has a row. -/
theorem checkTable_map {rows : List StatusRow} (hne : rows ≠ [])
    (h : ∀ r ∈ rows, StatusRow.check r.toData = .ok r) :
    (!isLeftEmpty (.list (rows.map StatusRow.toData))) = true ∧
      checkTable (.list (rows.map StatusRow.toData)) = .ok rows := by
  obtain ⟨r, rest, rfl⟩ := List.exists_cons_of_ne_nil hne
  refine ⟨rfl, ?_⟩
  unfold checkTable
  dsimp only
  rw [usableRows_map h]
  rfl

theorem checkTable_settles : SettlesUsable (!isLeftEmpty ·) checkTable
    fun rows => .list (rows.map StatusRow.toData) := by
  have hrows : ∀ {d rows}, (checkTable d).outcome = .ok rows → rows ≠ [] ∧
      (HasShortIntegers d → ∀ r ∈ rows, HasShortIntegers r.toData) := by
    intro d rows h
    unfold checkTable at h
    split at h
    · cases h
      refine ⟨tableOr_ne_nil _, fun hd => ?_⟩
      split
      · exact StatusRow.short_defaults
      · exact usableRows_short StatusRow.settles hd
    · cases h
      exact ⟨by decide, fun _ => StatusRow.short_defaults⟩
  constructor
  case again => exact fun _ h => checkTable_map (hrows h).1 fun r _ => r.check_toData
  case short =>
    exact fun h hd => hasShortIntegers_list_iff.mpr (List.forall_mem_map.mpr ((hrows h).2 hd))

theorem rebuilds : RebuildsFrom build fields :=
  .seq (checkTable_settles.withDefault (checkTable_map (by decide) fun r _ => r.check_toData)
      (hasShortIntegers_list_iff.mpr (List.forall_mem_map.mpr StatusRow.short_defaults)))
    (.map (checkFormula_settles.withDefault ⟨by decide, rfl⟩ (hasShortIntegers_of_nil rfl))
      fun _ _ => rfl)

theorem settles : Settles check toData :=
  rebuilds.settles (fun _ => by simp [fields]) "ParentFormula"

theorem isPlain (r : ParentRules) : IsPlain 3 r.toData :=
  isPlain_record r.fields (by simp [fields, isPlain_list_map StatusRow.isPlain])

end ParentRules

/-! ### What a race or a category brings -/

namespace Customs

/-- Rules that may be absent and are written as maps. -/
theorem mapOrNone_settles {α : Type} {check : Check α} {write : α → Data}
    (h : Settles check write) (hmap : ∀ a, ∃ es, write a = .map es) :
    Settles (mapOrNone check) (.ofOption write) := by
  refine h.ofOption (fun {d a} ho => ?_) rfl fun a ha => ?_
  · unfold mapOrNone at ho
    split at ho
    · obtain ⟨b, hb, heq⟩ := Checked.outcome_map_ok_iff.mp ho
      cases heq
      exact hb
    · cases ho
  · obtain ⟨es, hes⟩ := hmap a
    rw [hes] at ha ⊢
    show some <$> check (.map es) = _
    rw [ha, Checked.map_ok]

theorem rebuilds : RebuildsFrom build fields :=
  .seq (textOrNone_settles.orAbsent rfl)
    (.seq ((mapOrNone_settles ParentRules.settles fun _ => ⟨_, rfl⟩).orAbsent rfl)
      (.map ((mapOrNone_settles SiblingRules.settles fun _ => ⟨_, rfl⟩).orAbsent rfl)
        fun _ _ _ => rfl))

theorem isPlain_fields (c : Customs) : ∀ p ∈ c.fields, IsPlain 3 p.2 := by
  have hsiblings : ∀ r : SiblingRules, IsPlain 3 r.toData := fun r => r.isPlain.mono (by decide)
  simp [fields, hsiblings, ParentRules.isPlain]

end Customs

/-! ### Categories and races -/

namespace RaceMetadata

/-- The fields of metadata as loose data. -/
def fields (m : RaceMetadata) : List (String × Data) :=
  ("description", .text m.description) :: m.customs.fields

theorem rebuilds : RebuildsFrom build fields :=
  .seq Customs.rebuilds (.map .textOr fun _ _ => rfl)

theorem settles : Settles check toData :=
  rebuilds.settles (fun _ => by simp [fields, Customs.fields]) "RaceMetadata"

theorem isPlain (m : RaceMetadata) : IsPlain 4 m.toData :=
  isPlain_record m.fields (List.forall_mem_cons.mpr
    ⟨isPlain_text _, m.customs.isPlain_fields⟩)

end RaceMetadata

namespace RaceCategory

/-- The fields of a category as loose data. -/
def fields (c : RaceCategory) : List (String × Data) :=
  c.mapping.fields ++ [("name", .text c.name), ("ruleset", .text c.ruleset),
    ("description", .text c.description)] ++ c.customs.fields

theorem rebuilds : RebuildsFrom build fields :=
  .seq Customs.rebuilds (.seq .textOr (.seq .textOr
    (.seq text_settles.required (.map AgeMapping.rebuilds fun _ _ _ _ _ => rfl))))

theorem settles : Settles check toData :=
  rebuilds.settles (fun _ => by simp [fields, AgeMapping.fields, Customs.fields]) "RaceCategory"

theorem isPlain (c : RaceCategory) : IsPlain 4 c.toData := by
  have hmapping : ∀ p ∈ c.mapping.fields, IsPlain 3 p.2 := fun p hp =>
    (c.mapping.isPlain_fields p hp).mono (by decide)
  exact isPlain_record c.fields (List.forall_mem_append.mpr
    ⟨List.forall_mem_append.mpr ⟨hmapping, by simp⟩, c.customs.isPlain_fields⟩)

/-- The mapping of a category as a record of its own, for which its parts are read once more. The
brackets are read as they are written, which gives themselves. -/
def ageMapping (c : RaceCategory) : Checked AgeMapping := AgeMapping.check c.mapping.toData

/-- A category's mapping is built from entries of its own, so that reading it again keeps it. -/
theorem ageMapping_eq {d : Data} {c : RaceCategory} (h : (check d).outcome = .ok c) :
    c.ageMapping = .ok c.mapping := by
  unfold check record at h
  split at h
  · next es =>
    obtain ⟨f, customs, hf, -, rfl⟩ := Checked.outcome_seq_ok_iff.mp h
    obtain ⟨g, description, hg, -, rfl⟩ := Checked.outcome_seq_ok_iff.mp hf
    obtain ⟨g', ruleset, hg', -, rfl⟩ := Checked.outcome_seq_ok_iff.mp hg
    obtain ⟨make, name, hmake, -, rfl⟩ := Checked.outcome_seq_ok_iff.mp hg'
    obtain ⟨mapping, hmapping, rfl⟩ := Checked.outcome_map_ok_iff.mp hmake
    exact AgeMapping.settles.again (d := .map es) hmapping
  · cases h

end RaceCategory

namespace Race

/-- The fields of a race as loose data. -/
def fields (r : Race) : List (String × Data) :=
  [("name", .text r.name), ("ruleset", .text r.ruleset), ("category", .text r.category),
    ("modifiers", .record (r.modifiers.map fun (name, n) => (name, .int n))),
    ("metadata", r.metadata.toData)]

theorem checkMetadata_settles : Settles checkMetadata RaceMetadata.toData where
  again {d m} h := by
    unfold checkMetadata at h
    split at h
    · exact RaceMetadata.settles.again h
    · exact RaceMetadata.settles.again h
  short {d m} h hd := by
    unfold checkMetadata at h
    split at h
    · exact RaceMetadata.settles.short h hd
    · exact RaceMetadata.settles.short h (hasShortIntegers_of_nil rfl)

theorem rebuilds : RebuildsFrom build fields :=
  .seq (checkMetadata_settles.withDefault rfl (hasShortIntegers_of_nil rfl))
    (.seq (int_settles.mapOf.withDefault rfl (hasShortIntegers_of_nil rfl))
      (.seq .textOr (.seq .textOr (.map text_settles.required fun _ _ _ _ _ => rfl))))

theorem settles : Settles check toData := rebuilds.settles (fun _ => by simp [fields]) "Race"

theorem isPlain (r : Race) : IsPlain 5 r.toData := by
  have hmodifiers : IsPlain 4 (.record (r.modifiers.map fun (name, n) => (name, .int n))) :=
    isPlain_record _ (List.forall_mem_map.mpr fun p _ => isPlain_int p.2)
  exact isPlain_record r.fields (by simp [fields, hmodifiers, RaceMetadata.isPlain])

end Race

/-! ### All records of content -/

/-- A category that is written loosely: with a number for a formula, a row that is of no use, and
rules of which some were left empty. -/
def sampleCategory : Data := .map
  [(.text "name", .text "Tiraker"), (.text "apparentAgeFormula", .int 12),
    (.text "actualAgeFromApparentFormula", .text " "),
    (.text "apparentAgeTable", .list [.null, .map [(.text "minActualAge", .int 0),
      (.text "maxActualAge", .bool true), (.text "apparentAge", .text "7")]]),
    (.text "siblingFormula", .text "1"),
    (.text "parentFormula", .map [(.text "formula", .text ""), (.text "table", .list [])])]

/-- What is read of it. -/
def sampleCategoryRead : RaceCategory where
  mapping := ⟨some "12", none, [⟨0, 1, 7⟩]⟩
  name := "Tiraker"
  customs := ⟨none, some {}, none⟩

end Kindred
