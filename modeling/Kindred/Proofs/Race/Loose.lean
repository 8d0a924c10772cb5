import Kindred.Proofs.Record.Loose
import Kindred.Race.Basic

/-!
# Rules that are written loosely

A race and its category may bring rules for the family in any form. Whatever stands in their place,
no record is refused for it, unless an integer with too many digits would have to be written as a
formula. And the rules in force can be used: entries of no use give way to defaults, and of a table
the rows are kept that are accepted by themselves. One entry is taken as it comes: a formula for the
parents' status that is made of blanks, but not empty.

- `Customs.Writable`: entries without such an integer.
- `Customs.ofEntries`: the rules that the entries of a record bring.
- `withoutCustoms`, `Race.plainEntries`: records without rules of their own.
- `Usable`: what makes rules usable.
- `loose_customs`: what holds of all records of races and categories.
-/

namespace Kindred

open Kindred.Text Kindred.Record

/-! ### Rules for siblings -/

/-- The five texts of rules for siblings. -/
def SiblingRules.texts (r : SiblingRules) : List String :=
  [r.litters, r.litterSize, r.olderAge, r.youngerAge, r.gender]

/-- An integer that is not too long is written. -/
theorem textOfInt_of_isWritable {n : Int} (h : isWritable (.int n) = true) :
    textOfInt n = .ok (Number.int n).text := if_pos (of_decide_eq_true h)

/-- An integer that is written is not too long, and its text is not blank. -/
theorem isWritable_of_textOfInt {n : Int} {s : String} (h : textOfInt n = .ok s) :
    isWritable (.int n) = true ∧ isBlankString s = false := by
  unfold textOfInt at h
  split at h
  · next hshort =>
    cases h
    exact ⟨decide_eq_true hshort, Number.isBlankString_text (.int n)⟩
  · cases h

/-- A value that can be written, and can stand for a formula, is one that is not blank. -/
theorem textOrNumber_of_isFormula {d : Data} (hwritable : isWritable d = true)
    (h : isFormula d = true) : ∃ s, textOrNumber d = .ok s ∧ isBlankString s = false := by
  unfold isFormula at h
  split at h
  · next s => exact ⟨s, rfl, by rwa [Bool.not_eq_true'] at h⟩
  · next n =>
    refine ⟨_, ?_, Number.isBlankString_text (.int n)⟩
    show Checked.ofExcept (textOfInt n) = _
    rw [textOfInt_of_isWritable hwritable]
    rfl
  · next x => exact ⟨_, rfl, Number.isBlankString_text (.float x)⟩
  · cases h

/-- A text of rules for siblings, under some names. -/
def siblingText (es : Fields) (names : List String) (default : String) : Checked String :=
  (usable isFormula es).withDefault names textOrNumber default

namespace SiblingRules

/-- Whether every entry can be written that is looked at to build rules for siblings. -/
def Writable (es : Fields) : Prop := ∀ e ∈ Data.withoutRepeats es, isWritable e.2 = true

theorem siblingText_ok {es : Fields} (hes : Writable es) (names : List String) {default : String}
    (hdefault : isBlankString default = false) :
    ∃ s, siblingText es names default = .ok s ∧ isBlankString s = false := by
  unfold siblingText Fields.withDefault Fields.get
  cases hfind : Fields.find? names (usable isFormula es) with
  | none => exact ⟨default, rfl, hdefault⟩
  | some e =>
    obtain ⟨entry, hentry, hd⟩ := exists_mem_of_field? (field?_of_find? hfind)
    obtain ⟨hentry, hformula⟩ := List.mem_filter.mp hentry
    obtain ⟨s, hs, hblank⟩ := textOrNumber_of_isFormula (hes entry hentry) hformula
    rw [hd] at hs
    dsimp only
    rw [hs]
    exact ⟨s, rfl, hblank⟩

/-- The rules that are built from the entries of use, whatever there is besides. -/
theorem ofFormulas_usable (es : Fields) : ofFormulas (usable isFormula es) = SiblingRules.mk
    <$> siblingText es ["number_of_litters", "numberOfLitters"] "Ob1T6-2"
    <*> siblingText es ["litter_size", "litterSize"] "1"
    <*> siblingText es ["older_sibling_age_formula", "olderSiblingAgeFormula"]
      "characterAge + Ob1T6"
    <*> siblingText es ["younger_sibling_age_formula", "youngerSiblingAgeFormula"]
      "characterAge - Ob1T6"
    <*> siblingText es ["gender_formula", "genderFormula"] "0.5" := rfl

/-- Rules are built once all entries are written. -/
theorem build_of_writable {es : Fields} (h : Writable es) :
    build es = ofFormulas (usable isFormula es) :=
  if_pos (List.all_eq_true.mpr h)

theorem writable_of_build {es : Fields} {r : SiblingRules} (h : (build es).outcome = .ok r) :
    Writable es := by
  unfold build at h
  dsimp only at h
  split at h
  · next hall => exact List.all_eq_true.mp hall
  · cases h

/-- Whatever there is, rules for siblings can be built from it if it can be written, and no text of
them is blank. -/
theorem build_ok {es : Fields} (hes : Writable es) :
    ∃ r, (build es).outcome = .ok r ∧ ∀ s ∈ r.texts, isBlankString s = false := by
  obtain ⟨litters, h₁, hlitters⟩ := siblingText_ok hes ["number_of_litters", "numberOfLitters"]
    (show isBlankString "Ob1T6-2" = false by decide)
  obtain ⟨size, h₂, hsize⟩ := siblingText_ok hes ["litter_size", "litterSize"]
    (show isBlankString "1" = false by decide)
  obtain ⟨older, h₃, holder⟩ := siblingText_ok hes
    ["older_sibling_age_formula", "olderSiblingAgeFormula"]
    (show isBlankString "characterAge + Ob1T6" = false by decide)
  obtain ⟨younger, h₄, hyounger⟩ := siblingText_ok hes
    ["younger_sibling_age_formula", "youngerSiblingAgeFormula"]
    (show isBlankString "characterAge - Ob1T6" = false by decide)
  obtain ⟨gender, h₅, hgender⟩ := siblingText_ok hes ["gender_formula", "genderFormula"]
    (show isBlankString "0.5" = false by decide)
  refine ⟨⟨litters, size, older, younger, gender⟩, ?_, ?_⟩
  · rw [build_of_writable hes, ofFormulas_usable, h₁, h₂, h₃, h₄, h₅]
    rfl
  · simp only [texts, List.forall_mem_cons]
    exact ⟨hlitters, hsize, holder, hyounger, hgender, List.forall_mem_nil _⟩

end SiblingRules

/-! ### Rules for the parents' status -/

/-- The rows of a table as they are written; none where there is no list. -/
def rowsOf : Data → List Data
  | .list ds => ds
  | _ => []

/-- The rows that are written in the table among some entries. -/
def rawRows (es : Fields) : List Data := ((Data.field? "table" es).map rowsOf).getD []

/-- The rows of a written table that are accepted by themselves. -/
def acceptedRows (ds : List Data) : List StatusRow :=
  ds.filterMap fun d => (StatusRow.check d).outcome.toOption

/-- A table, or the default table in place of an empty one. -/
def tableOr (rows : List StatusRow) : List StatusRow :=
  if rows.isEmpty then StatusRow.defaults else rows

/-- Whether a value is a text that is made of blanks, without being empty. -/
def MadeOfBlanks : Data → Prop
  | .text s => s ≠ "" ∧ isBlankString s = true
  | _ => False

/-- Whether the formula for the parents' status is made of blanks among some entries. -/
def HasBlankFormula (es : Fields) : Prop :=
  ∃ d, Data.field? "formula" es = some d ∧ MadeOfBlanks d

namespace ParentRules

/-- Whether the formula for the parents' status can be written, if there is one. -/
def Writable (es : Fields) : Prop := ∀ d ∈ Data.field? "formula" es, isWritable d = true

/-- A value that can be written, and was not left empty, gives a formula, which is blank only if the
value is. -/
theorem checkFormula_ok {d : Data} (hwritable : isWritable d = true) (hd : isLeftEmpty d = false) :
    ∃ s, checkFormula d = .ok s ∧ (isBlankString s = true ↔ MadeOfBlanks d) := by
  have hnot : ∀ {s : String}, isBlankString s = false → (isBlankString s = true ↔ False) :=
    fun h => iff_of_false (Bool.eq_false_iff.mp h) id
  unfold checkFormula MadeOfBlanks
  cases d with
  | scalar v =>
    cases v with
    | text s =>
      have hne : s ≠ "" := by
        rintro rfl
        cases hd
      exact ⟨s, rfl, fun h => ⟨hne, h⟩, fun h => h.2⟩
    | int n =>
      refine ⟨_, ?_, hnot (Number.isBlankString_text (.int n))⟩
      show Checked.ofExcept (textOfInt n) = _
      rw [textOfInt_of_isWritable hwritable]
      rfl
    | float x => exact ⟨_, rfl, hnot (Number.isBlankString_text (.float x))⟩
    | _ => exact ⟨_, rfl, hnot (by decide)⟩
  | _ => exact ⟨_, rfl, hnot (by decide)⟩

/-- A formula that is read could be written. -/
theorem isWritable_of_checkFormula {d : Data} {s : String} (h : (checkFormula d).outcome = .ok s) :
    isWritable d = true := by
  unfold isWritable
  split
  · next n => exact (isWritable_of_textOfInt (Checked.outcome_ofExcept_iff.mp h)).1
  · rfl

/-- A table that is read keeps the rows that are accepted by themselves. -/
theorem checkTable_ok (d : Data) :
    (checkTable d).outcome = .ok (tableOr (acceptedRows (rowsOf d))) := by
  unfold checkTable
  split
  · next ds => exact congrArg (fun rows => Except.ok (tableOr rows)) (usableRows_fst _ _ 0 ds)
  · next hlist =>
    have hnone : rowsOf d = [] := by
      unfold rowsOf
      split
      · next ds => exact absurd rfl (hlist ds)
      · rfl
    rw [hnone]
    rfl

theorem rowsOf_of_isLeftEmpty {d : Data} (h : isLeftEmpty d = true) : rowsOf d = [] := by
  unfold isLeftEmpty at h
  split at h
  · rfl
  · rfl
  · exact List.isEmpty_iff.mp h
  · cases h

theorem build_eq (es : Fields) : build es = ParentRules.mk
    <$> (usable (!isLeftEmpty ·) es).withDefault ["formula"] checkFormula
      "1T100 + characterApparentAge"
    <*> (usable (!isLeftEmpty ·) es).withDefault ["table"] checkTable StatusRow.defaults := rfl

theorem isLeftEmpty_of_madeOfBlanks {d : Data} (h : MadeOfBlanks d) : isLeftEmpty d = false := by
  unfold MadeOfBlanks at h
  split at h
  · next s => exact Bool.eq_false_iff.mpr fun hempty => h.1 (String.isEmpty_iff.mp hempty)
  · cases h

theorem formula_ok {es : Fields} (hes : Writable es) : ∃ s,
    ((usable (!isLeftEmpty ·) es).withDefault ["formula"] checkFormula
      "1T100 + characterApparentAge").outcome = .ok s ∧
    (isBlankString s = true ↔ HasBlankFormula es) := by
  unfold Fields.withDefault Fields.get
  rw [find?_singleton, field?_usable]
  cases hfield : (Data.field? "formula" es).filter (!isLeftEmpty ·) with
  | none =>
    refine ⟨_, rfl, iff_of_false (by decide) ?_⟩
    rintro ⟨d, hd, hblanks⟩
    rw [hd, Option.filter_some, isLeftEmpty_of_madeOfBlanks hblanks] at hfield
    cases hfield
  | some d =>
    obtain ⟨hfield, hd⟩ := Option.filter_eq_some_iff.mp hfield
    obtain ⟨s, hs, hblank⟩ := checkFormula_ok (hes d hfield) (by rwa [Bool.not_eq_true'] at hd)
    refine ⟨s, Checked.outcome_under_of_ok (by rw [hs]; rfl) _, hblank.trans ⟨fun h => ?_, ?_⟩⟩
    · exact ⟨d, hfield, h⟩
    · rintro ⟨d', hd', hblanks⟩
      rwa [Option.some.inj (hfield.symm.trans hd')]

theorem table_ok (es : Fields) : ((usable (!isLeftEmpty ·) es).withDefault ["table"] checkTable
    StatusRow.defaults).outcome = .ok (tableOr (acceptedRows (rawRows es))) := by
  unfold Fields.withDefault Fields.get rawRows
  rw [find?_singleton, field?_usable]
  cases hfield : Data.field? "table" es with
  | none => rfl
  | some d =>
    rw [Option.filter_some]
    cases hd : isLeftEmpty d with
    | true =>
      -- an entry that was left empty has no rows, as little as an absent one
      show Except.ok (tableOr []) = .ok (tableOr (acceptedRows (rowsOf d)))
      rw [rowsOf_of_isLeftEmpty hd]
      rfl
    | false => exact Checked.outcome_under_of_ok (checkTable_ok d) _

/-- Whatever there is, rules for the parents' status can be built from it if the formula can be
written: with the rows that are accepted by themselves, and with a formula that is blank only where
it is made of blanks. -/
theorem build_ok {es : Fields} (hes : Writable es) : ∃ r, (build es).outcome = .ok r ∧
    r.table = tableOr (acceptedRows (rawRows es)) ∧
    (isBlankString r.formula = true ↔ HasBlankFormula es) := by
  obtain ⟨s, hs, hblank⟩ := formula_ok hes
  refine ⟨⟨s, tableOr (acceptedRows (rawRows es))⟩, ?_, rfl, hblank⟩
  rw [build_eq, Checked.outcome_seq_of_ok (table_ok es), Checked.outcome_map_of_ok hs]
  rfl

theorem writable_of_build {es : Fields} {r : ParentRules} (h : (build es).outcome = .ok r) :
    Writable es := by
  rw [build_eq, Checked.outcome_seq_ok_iff] at h
  obtain ⟨f, table, hf, -, -⟩ := h
  obtain ⟨s, hs, -⟩ := Checked.outcome_map_ok_iff.mp hf
  unfold Fields.withDefault Fields.get at hs
  rw [find?_singleton, field?_usable] at hs
  intro d hd
  rw [Option.mem_def.mp hd, Option.filter_some] at hs
  cases hempty : isLeftEmpty d with
  | true =>
    -- what was left empty is no integer
    unfold isWritable
    split
    · cases hempty
    · rfl
  | false =>
    rw [hempty] at hs
    exact isWritable_of_checkFormula (Checked.outcome_under_ok_iff.mp hs)

end ParentRules

/-! ### What a race or a category brings -/

namespace Customs

/-- The names of rules for siblings among the entries of a record. -/
def siblingNames : List String := ["sibling_formula", "siblingFormula"]

/-- The names of rules for the parents' status. -/
def parentNames : List String := ["parent_formula", "parentFormula"]

/-- The names of a formula for a parent's age. -/
def parentAgeNames : List String := ["parent_age_formula", "parentAgeFormula"]

/-- The rules that the entries of a record bring. -/
def ofEntries (es : Fields) : Customs := (build es).valueOr {}

theorem build_eq (es : Fields) : build es = Customs.mk
    <$> es.withDefault siblingNames (mapOrNone SiblingRules.check) none
    <*> es.withDefault parentNames (mapOrNone ParentRules.check) none
    <*> es.withDefault parentAgeNames textOrNone none := rfl

/-- Whether the rules among the entries of a record can be written: their entries for siblings, and
their formula for the parents' status. -/
structure Writable (es : Fields) : Prop where
  siblings : ∀ ps ∈ mapUnder siblingNames es, SiblingRules.Writable ps
  parents : ∀ ps ∈ mapUnder parentNames es, ParentRules.Writable ps

/-- Where a map is expected, and something can be built from it, a record is what is built from the
map; where there is something else, it is absent. -/
theorem mapOrNone_ok {α : Type} {model : String} {build : Fields → Checked α} {otherwise : α}
    {names : List String} {es : Fields}
    (hbuild : ∀ ps ∈ mapUnder names es, ∃ a, (build ps).outcome = .ok a) :
    (es.withDefault names (mapOrNone (record model build)) none).outcome =
      .ok ((mapUnder names es).map fun ps => (build ps).valueOr otherwise) := by
  unfold mapUnder at hbuild
  unfold Fields.withDefault Fields.get mapUnder
  cases hfind : Fields.find? names es with
  | none => rfl
  | some e =>
    obtain ⟨name, d⟩ := e
    refine Checked.outcome_under_of_ok ?_ _
    cases d with
    | map ps =>
      obtain ⟨a, ha⟩ := hbuild ps (by rw [hfind]; rfl)
      show (some <$> build ps).outcome = .ok (some ((build ps).valueOr otherwise))
      rw [Checked.outcome_map_of_ok ha, Checked.valueOr_of_ok ha]
    | list ds => rfl
    | scalar v => rfl

/-- Where there is a map, a record was built from it. -/
theorem exists_of_mapOrNone {α : Type} {model : String} {build : Fields → Checked α}
    {names : List String} {es : Fields} {o : Option α}
    (h : (es.withDefault names (mapOrNone (record model build)) none).outcome = .ok o) :
    ∀ ps ∈ mapUnder names es, ∃ a, (build ps).outcome = .ok a := by
  intro ps hps
  unfold mapUnder at hps
  unfold Fields.withDefault Fields.get at h
  split at hps
  · next name ps' hfind =>
    cases hps
    rw [hfind] at h
    obtain ⟨a, ha, -⟩ := Checked.outcome_map_ok_iff.mp (Checked.outcome_under_ok_iff.mp h)
    exact ⟨a, ha⟩
  · cases hps

theorem textOrNone_ok (es : Fields) :
    ∃ o, (es.withDefault parentAgeNames textOrNone none).outcome = .ok o ∧
      ∀ s ∈ o, isBlankString s = false := by
  have hnone : ∀ s ∈ (none : Option String), isBlankString s = false := fun s h => by cases h
  have htext : ∀ d, ∃ o, (textOrNone d).outcome = .ok o ∧ ∀ s ∈ o, isBlankString s = false := by
    intro d
    unfold textOrNone
    split
    · next t =>
      cases hblank : isBlankString t with
      | true => exact ⟨none, rfl, hnone⟩
      | false =>
        refine ⟨some t, rfl, ?_⟩
        rintro s ⟨⟩
        exact hblank
    · exact ⟨none, rfl, hnone⟩
  unfold Fields.withDefault Fields.get
  cases Fields.find? parentAgeNames es with
  | none => exact ⟨none, rfl, hnone⟩
  | some e =>
    obtain ⟨o, ho, hblank⟩ := htext e.2
    exact ⟨o, Checked.outcome_under_of_ok ho _, hblank⟩

/-- Whatever stands among the entries of a record, its rules are not refused if they can be
written. -/
theorem build_ok {es : Fields} (hes : Writable es) : (build es).outcome = .ok (ofEntries es) ∧
    (ofEntries es).siblings =
      (mapUnder siblingNames es).map (fun ps => (SiblingRules.build ps).valueOr {}) ∧
    (ofEntries es).parents =
      (mapUnder parentNames es).map (fun ps => (ParentRules.build ps).valueOr {}) ∧
    ∀ s ∈ (ofEntries es).parentAge, isBlankString s = false := by
  have hsiblings : (es.withDefault siblingNames (mapOrNone SiblingRules.check) none).outcome =
      .ok ((mapUnder siblingNames es).map fun ps => (SiblingRules.build ps).valueOr {}) :=
    mapOrNone_ok fun ps hps => (SiblingRules.build_ok (hes.siblings ps hps)).imp fun _ h => h.1
  have hparents : (es.withDefault parentNames (mapOrNone ParentRules.check) none).outcome =
      .ok ((mapUnder parentNames es).map fun ps => (ParentRules.build ps).valueOr {}) :=
    mapOrNone_ok fun ps hps => (ParentRules.build_ok (hes.parents ps hps)).imp fun _ h => h.1
  obtain ⟨age, hage, hblank⟩ := textOrNone_ok es
  have hbuild : (build es).outcome = Except.map _ (Customs.mk
      <$> es.withDefault siblingNames (mapOrNone SiblingRules.check) none
      <*> es.withDefault parentNames (mapOrNone ParentRules.check) none).outcome :=
    Checked.outcome_seq_of_ok hage
  rw [Checked.outcome_seq_of_ok hparents, Checked.outcome_map_of_ok hsiblings] at hbuild
  have hvalue : ofEntries es = _ := Checked.valueOr_of_ok hbuild _
  rw [hvalue]
  exact ⟨hbuild, rfl, rfl, hblank⟩

theorem writable_of_build {es : Fields} {c : Customs} (h : (build es).outcome = .ok c) :
    Writable es := by
  rw [build_eq, Checked.outcome_seq_ok_iff] at h
  obtain ⟨_, _, h, -, -⟩ := h
  obtain ⟨_, _, hsiblings, hparents, -⟩ := Checked.outcome_seq_ok_iff.mp h
  obtain ⟨_, hsiblings, -⟩ := Checked.outcome_map_ok_iff.mp hsiblings
  constructor
  · intro ps hps
    obtain ⟨r, hr⟩ := exists_of_mapOrNone hsiblings ps hps
    exact SiblingRules.writable_of_build hr
  · intro ps hps
    obtain ⟨r, hr⟩ := exists_of_mapOrNone hparents ps hps
    exact ParentRules.writable_of_build hr

end Customs

/-! ### Records with and without rules of their own -/

/-- The names of all rules that a race or a category brings. -/
def customNames : List String :=
  Customs.siblingNames ++ Customs.parentNames ++ Customs.parentAgeNames

/-- Whether a key is a name of rules that a race or a category brings. -/
def isCustomName (key : Scalar) : Bool := customNames.any (Data.isName · key)

/-- The entries of a record without the rules that it brings. -/
def withoutCustoms (es : Fields) : Fields := es.filter fun e => !isCustomName e.1

/-- What stands under another name stays. -/
theorem field?_withoutCustoms {name : String} (h : isCustomName (.text name) = false)
    (es : Fields) : Data.field? name (withoutCustoms es) = Data.field? name es :=
  field?_filter (fun e he => by rw [eq_text_of_isName he, h]; rfl) es

theorem get_withoutCustoms {α : Type} {names : List String}
    (h : (names.all fun name => !isCustomName (.text name)) = true) (check : Check α)
    (otherwise : Checked α) (es : Fields) :
    Fields.get names check otherwise (withoutCustoms es) =
      Fields.get names check otherwise es := by
  refine get_congr (fun name hname => field?_withoutCustoms ?_ es) check otherwise
  have hname := List.all_eq_true.mp h name hname
  rwa [Bool.not_eq_true'] at hname

theorem field?_withoutCustoms_eq_none {name : String} (h : isCustomName (.text name) = true)
    (es : Fields) : Data.field? name (withoutCustoms es) = none := by
  have hnone : named name (withoutCustoms es) = [] := by
    unfold named withoutCustoms
    rw [List.map_eq_nil_iff, List.filter_eq_nil_iff]
    intro e he hname
    have hkeep := List.of_mem_filter he
    rw [eq_text_of_isName hname, h] at hkeep
    cases hkeep
  rw [field?_eq_getLast?, hnone]
  rfl

/-- Without them a record brings no rules. -/
theorem build_withoutCustoms (es : Fields) : (Customs.build (withoutCustoms es)).outcome =
    .ok {} := by
  have hfind : ∀ names : List String, (names.all fun name => isCustomName (.text name)) = true →
      Fields.find? names (withoutCustoms es) = none := by
    intro names h
    refine List.findSome?_eq_none_iff.mpr fun name hname => ?_
    rw [field?_withoutCustoms_eq_none (List.all_eq_true.mp h name hname)]
    rfl
  rw [Customs.build_eq]
  unfold Fields.withDefault Fields.get
  rw [hfind Customs.siblingNames (by decide), hfind Customs.parentNames (by decide),
    hfind Customs.parentAgeNames (by decide)]
  rfl

/-- A category with other rules of its own. -/
def RaceCategory.withCustoms (c : RaceCategory) (customs : Customs) : RaceCategory :=
  { c with customs := customs }

/-- Metadata with other rules. -/
def RaceMetadata.withCustoms (m : RaceMetadata) (customs : Customs) : RaceMetadata :=
  { m with customs := customs }

/-- A race with other rules of its own. -/
def Race.withCustoms (r : Race) (customs : Customs) : Race :=
  { r with metadata := r.metadata.withCustoms customs }

/-- The rules of a record are read as they would be alone, in place of no rules. -/
theorem Customs.build_outcome {es : Fields} (hes : Writable es) : (build es).outcome =
    (build (withoutCustoms es)).outcome.map fun _ => ofEntries es := by
  rw [(build_ok hes).1, build_withoutCustoms]
  rfl

/-- A category is read as it would be without its rules, which are then added. -/
theorem RaceCategory.check_outcome {es : Fields} (hes : Customs.Writable es) :
    (check (.map es)).outcome =
    (check (.map (withoutCustoms es))).outcome.map (·.withCustoms (.ofEntries es)) := by
  have hparts : (RaceCategory.mk <$> AgeMapping.build (withoutCustoms es)
        <*> (withoutCustoms es).required ["name"] text
        <*> (withoutCustoms es).withDefault ["ruleset"] text "EON"
        <*> (withoutCustoms es).withDefault ["description"] text "") =
      (RaceCategory.mk <$> AgeMapping.build es <*> es.required ["name"] text
        <*> es.withDefault ["ruleset"] text "EON" <*> es.withDefault ["description"] text "") := by
    unfold AgeMapping.build Fields.required Fields.withDefault
    iterate 6 rw [get_withoutCustoms (by decide)]
  show (_ <*> Customs.build es).outcome = (_ <*> Customs.build (withoutCustoms es)).outcome.map _
  rw [hparts]
  refine Checked.outcome_seq_map (Customs.build_outcome hes) ?_
  exact (((Checked.gives_map (fun _ _ _ _ _ => rfl) _).seq _).seq _).seq _

/-- The rules of a category that is accepted can be written. -/
theorem RaceCategory.writable_of_check {es : Fields} {c : RaceCategory}
    (h : (check (.map es)).outcome = .ok c) : Customs.Writable es := by
  obtain ⟨_, _, -, hcustoms, -⟩ := Checked.outcome_seq_ok_iff.mp h
  exact Customs.writable_of_build hcustoms

/-- Metadata are read as they would be without rules, which are then added. -/
theorem RaceMetadata.check_outcome {es : Fields} (hes : Customs.Writable es) :
    (check (.map es)).outcome =
    (check (.map (withoutCustoms es))).outcome.map (·.withCustoms (.ofEntries es)) := by
  have hparts : (RaceMetadata.mk <$> (withoutCustoms es).withDefault ["description"] text "") =
      (RaceMetadata.mk <$> es.withDefault ["description"] text "") := by
    unfold Fields.withDefault
    rw [get_withoutCustoms (by decide)]
  show (_ <*> Customs.build es).outcome = (_ <*> Customs.build (withoutCustoms es)).outcome.map _
  rw [hparts]
  exact Checked.outcome_seq_map (Customs.build_outcome hes) (Checked.gives_map (fun _ _ => rfl) _)

theorem RaceMetadata.writable_of_check {es : Fields} {m : RaceMetadata}
    (h : (check (.map es)).outcome = .ok m) : Customs.Writable es := by
  obtain ⟨_, _, -, hcustoms, -⟩ := Checked.outcome_seq_ok_iff.mp h
  exact Customs.writable_of_build hcustoms

namespace Race

/-- The entries of a race's metadata; none where they are no map. -/
def metadataEntries (es : Fields) : Fields := (mapUnder ["metadata"] es).getD []

/-- Metadata without the rules that they bring. -/
def plainMetadata : Data → Data
  | .map ms => .map (withoutCustoms ms)
  | d => d

/-- The entries of a race, with metadata that bring no rules. -/
def plainEntries (es : Fields) : Fields :=
  es.map fun e => (e.1, if Data.isName "metadata" e.1 then plainMetadata e.2 else e.2)

theorem field?_plainEntries (name : String) (es : Fields) :
    Data.field? name (plainEntries es) = (Data.field? name es).map fun d =>
      if Data.isName "metadata" (.text name) then plainMetadata d else d :=
  field?_mapValues name (fun key d => if Data.isName "metadata" key then plainMetadata d else d) es

/-- What stands under another name stays. -/
theorem get_plainEntries {α : Type} {name : String}
    (h : Data.isName "metadata" (.text name) = false) (check : Check α) (otherwise : Checked α)
    (es : Fields) :
    Fields.get [name] check otherwise (plainEntries es) = Fields.get [name] check otherwise es := by
  refine get_congr (fun n hn => ?_) check otherwise
  rw [List.mem_singleton.mp hn, field?_plainEntries, h]
  exact Option.map_id'

/-- Where metadata are expected, they are read as they would be without rules, which are then
added. -/
theorem metadata_outcome {es : Fields} (hes : Customs.Writable (metadataEntries es)) :
    (es.withDefault ["metadata"] checkMetadata {}).outcome =
      ((plainEntries es).withDefault ["metadata"] checkMetadata {}).outcome.map
        (·.withCustoms (.ofEntries (metadataEntries es))) := by
  unfold metadataEntries mapUnder at hes
  unfold Fields.withDefault Fields.get metadataEntries mapUnder
  rw [find?_singleton] at hes
  rw [find?_singleton, find?_singleton, field?_plainEntries]
  cases hfield : Data.field? "metadata" es with
  | none => rfl
  | some d =>
    rw [hfield] at hes
    cases d with
    | map ms =>
      have hms : Customs.Writable ms := hes
      show (RaceMetadata.check (.map ms)).outcome.mapError _ =
        ((RaceMetadata.check (.map (withoutCustoms ms))).outcome.mapError _).map _
      rw [RaceMetadata.check_outcome hms]
      cases (RaceMetadata.check (.map (withoutCustoms ms))).outcome <;> rfl
    | list ds => rfl
    | scalar v => rfl

/-- The rules in metadata that are accepted can be written. -/
theorem writable_of_metadata {es : Fields} {m : RaceMetadata}
    (h : (es.withDefault ["metadata"] checkMetadata {}).outcome = .ok m) :
    Customs.Writable (metadataEntries es) := by
  have hnone : Customs.Writable [] := ⟨nofun, nofun⟩
  unfold Fields.withDefault Fields.get at h
  unfold metadataEntries mapUnder
  rw [find?_singleton] at h ⊢
  cases hfield : Data.field? "metadata" es with
  | none => exact hnone
  | some d =>
    rw [hfield] at h
    cases d with
    | map ms => exact RaceMetadata.writable_of_check (Checked.outcome_under_ok_iff.mp h)
    | list ds => exact hnone
    | scalar v => exact hnone

/-- A race is read as it would be without the rules in its metadata, which are then added. -/
theorem check_outcome {es : Fields} (hes : Customs.Writable (metadataEntries es)) :
    (check (.map es)).outcome = (check (.map (plainEntries es))).outcome.map
      (·.withCustoms (.ofEntries (metadataEntries es))) := by
  have hparts : (Race.mk <$> (plainEntries es).required ["name"] text
        <*> (plainEntries es).withDefault ["ruleset"] text "EON"
        <*> (plainEntries es).withDefault ["category"] text ""
        <*> (plainEntries es).withDefault ["modifiers"] (mapOf int) []) =
      (Race.mk <$> es.required ["name"] text <*> es.withDefault ["ruleset"] text "EON"
        <*> es.withDefault ["category"] text ""
        <*> es.withDefault ["modifiers"] (mapOf int) []) := by
    unfold Fields.required Fields.withDefault
    iterate 4 rw [get_plainEntries (by decide)]
  show (_ <*> es.withDefault ["metadata"] checkMetadata {}).outcome =
    (_ <*> (plainEntries es).withDefault ["metadata"] checkMetadata {}).outcome.map _
  rw [hparts]
  refine Checked.outcome_seq_map (metadata_outcome hes) ?_
  exact (((Checked.gives_map (fun _ _ _ _ _ => rfl) _).seq _).seq _).seq _

/-- The rules in the metadata of a race that is accepted can be written. -/
theorem writable_of_check {es : Fields} {r : Race} (h : (check (.map es)).outcome = .ok r) :
    Customs.Writable (metadataEntries es) := by
  obtain ⟨_, _, -, hmetadata, -⟩ := Checked.outcome_seq_ok_iff.mp h
  exact writable_of_metadata hmetadata

end Race

/-! ### Rules in force -/

/-- Rules that can be used: no text of theirs is blank, and the table for the parents' status has
the rows that the entries it was chosen from bring, or else the default rows. Only the formula for
the parents' status is blank, where it is made of blanks among these entries. -/
structure Usable (chosen : Option Fields) (rules : FamilyRules) : Prop where
  siblings : ∀ s ∈ rules.siblings.texts, isBlankString s = false
  parentAge : isBlankString rules.parentAge = false
  table : rules.parents.table = tableOr (acceptedRows ((chosen.map rawRows).getD []))
  table_ne_nil : rules.parents.table ≠ []
  formula : isBlankString rules.parents.formula = true ↔ ∃ ps ∈ chosen, HasBlankFormula ps

/-- The entries that rules for the parents' status are built from, among those of a race's metadata
and of a category. -/
def chosenParents (metadata category : Option Fields) : Option Fields :=
  (metadata.bind (mapUnder Customs.parentNames)).or (category.bind (mapUnder Customs.parentNames))

/-- The rules in force for the entries of a race's metadata and of a category. -/
def rulesOf (metadata category : Option Fields) : FamilyRules :=
  FamilyRules.resolve (metadata.map .ofEntries) (category.map .ofEntries)

theorem tableOr_ne_nil (rows : List StatusRow) : tableOr rows ≠ [] := by
  unfold tableOr
  split
  · decide
  · next h => exact fun hnil => h (List.isEmpty_iff.mpr hnil)

section Chosen

variable {metadata category : Option Fields} (hmetadata : ∀ es ∈ metadata, Customs.Writable es)
  (hcategory : ∀ es ∈ category, Customs.Writable es)

/-- What one of the two brings for the siblings. -/
theorem siblings_of_entries {o : Option Fields} (ho : ∀ es ∈ o, Customs.Writable es) :
    ((o.map Customs.ofEntries).getD {}).siblings =
      (o.bind (mapUnder Customs.siblingNames)).map fun ps =>
        (SiblingRules.build ps).valueOr {} := by
  cases o with
  | none => rfl
  | some es => exact (Customs.build_ok (ho es rfl)).2.1

/-- What one of the two brings for the parents' status. -/
theorem parents_of_entries {o : Option Fields} (ho : ∀ es ∈ o, Customs.Writable es) :
    ((o.map Customs.ofEntries).getD {}).parents =
      (o.bind (mapUnder Customs.parentNames)).map fun ps =>
        (ParentRules.build ps).valueOr {} := by
  cases o with
  | none => rfl
  | some es => exact (Customs.build_ok (ho es rfl)).2.2.1

/-- No formula for a parent's age that one of the two brings is blank. -/
theorem parentAge_of_entries {o : Option Fields} (ho : ∀ es ∈ o, Customs.Writable es) :
    ∀ s ∈ ((o.map Customs.ofEntries).getD {}).parentAge, isBlankString s = false := by
  cases o with
  | none => exact fun s h => by cases h
  | some es => exact (Customs.build_ok (ho es rfl)).2.2.2

include hmetadata hcategory

/-- The entries that are chosen stand in one of the two, and so they can be written. -/
theorem writable_of_chosen {names : List String} {p : Fields → Prop}
    (hp : ∀ es, Customs.Writable es → ∀ ps ∈ mapUnder names es, p ps) :
    ∀ ps ∈ (metadata.bind (mapUnder names)).or (category.bind (mapUnder names)), p ps := by
  intro ps hps
  rcases Option.or_eq_some_iff.mp (Option.mem_def.mp hps) with hps | ⟨-, hps⟩
  · obtain ⟨es, hes, hps⟩ := Option.bind_eq_some_iff.mp hps
    exact hp es (hmetadata es hes) ps hps
  · obtain ⟨es, hes, hps⟩ := Option.bind_eq_some_iff.mp hps
    exact hp es (hcategory es hes) ps hps

theorem rulesOf_siblings :
    ∀ s ∈ (rulesOf metadata category).siblings.texts, isBlankString s = false := by
  have hrules : (rulesOf metadata category).siblings =
      (((metadata.bind (mapUnder Customs.siblingNames)).or
        (category.bind (mapUnder Customs.siblingNames))).map
          fun ps => (SiblingRules.build ps).valueOr {}).getD {} := by
    rw [Option.map_or, ← siblings_of_entries hmetadata, ← siblings_of_entries hcategory]
    rfl
  have hwritable := writable_of_chosen hmetadata hcategory fun es hes => hes.siblings
  rw [hrules]
  cases hchosen : (metadata.bind (mapUnder Customs.siblingNames)).or
      (category.bind (mapUnder Customs.siblingNames)) with
  | none => decide
  | some ps =>
    obtain ⟨r, hr, hblank⟩ := SiblingRules.build_ok (hwritable ps hchosen)
    rw [Option.map_some, Option.getD_some, Checked.valueOr_of_ok hr]
    exact hblank

theorem rulesOf_parents :
    (rulesOf metadata category).parents = ((chosenParents metadata category).map
      fun ps => (ParentRules.build ps).valueOr {}).getD {} := by
  unfold chosenParents
  rw [Option.map_or, ← parents_of_entries hmetadata, ← parents_of_entries hcategory]
  rfl

theorem rulesOf_parentAge : isBlankString (rulesOf metadata category).parentAge = false := by
  unfold rulesOf FamilyRules.resolve Customs.or
  dsimp only
  cases hage : ((metadata.map Customs.ofEntries).getD {}).parentAge with
  | some s => exact parentAge_of_entries hmetadata s hage
  | none =>
    cases hage' : ((category.map Customs.ofEntries).getD {}).parentAge with
    | some s => exact parentAge_of_entries hcategory s hage'
    | none => decide

theorem usable_rulesOf :
    Usable (chosenParents metadata category) (rulesOf metadata category) := by
  have hwritable := writable_of_chosen hmetadata hcategory fun es hes => hes.parents
  have hparents : (rulesOf metadata category).parents.table =
        tableOr (acceptedRows (((chosenParents metadata category).map rawRows).getD [])) ∧
      (isBlankString (rulesOf metadata category).parents.formula = true ↔
        ∃ ps ∈ chosenParents metadata category, HasBlankFormula ps) := by
    rw [rulesOf_parents hmetadata hcategory]
    cases hchosen : chosenParents metadata category with
    | none => exact ⟨rfl, iff_of_false (by decide) (by simp)⟩
    | some ps =>
      obtain ⟨r, hr, htable, hformula⟩ := ParentRules.build_ok (hwritable ps hchosen)
      rw [Option.map_some, Option.getD_some, Checked.valueOr_of_ok hr]
      exact ⟨htable, hformula.trans (by simp)⟩
  exact ⟨rulesOf_siblings hmetadata hcategory, rulesOf_parentAge hmetadata hcategory, hparents.1,
    hparents.1 ▸ tableOr_ne_nil _, hparents.2⟩

end Chosen

/-- **Loose rules can be used.** A category is read as it would be without the rules that it brings,
and a race as it would be without those in its metadata, whatever stands in their place; and the
rules in force for both can be used. All this takes that no integer among these rules has too many
digits to be written as a formula; where one has, the record is refused. -/
theorem loose_customs (es : Fields) (metadata category : Option Fields) :
    (Customs.Writable es → (RaceCategory.check (.map es)).outcome =
      (RaceCategory.check (.map (withoutCustoms es))).outcome.map
        (·.withCustoms (.ofEntries es))) ∧
    (¬ Customs.Writable es → (RaceCategory.check (.map es)).outcome.isOk = false) ∧
    (Customs.Writable (Race.metadataEntries es) → (Race.check (.map es)).outcome =
      (Race.check (.map (Race.plainEntries es))).outcome.map
        (·.withCustoms (.ofEntries (Race.metadataEntries es)))) ∧
    (¬ Customs.Writable (Race.metadataEntries es) →
      (Race.check (.map es)).outcome.isOk = false) ∧
    ((∀ ms ∈ metadata, Customs.Writable ms) → (∀ cs ∈ category, Customs.Writable cs) →
      Usable (chosenParents metadata category) (rulesOf metadata category)) := by
  refine ⟨RaceCategory.check_outcome, fun hes => ?_, Race.check_outcome, fun hes => ?_,
    usable_rulesOf⟩
  · cases h : (RaceCategory.check (.map es)).outcome with
    | ok c => exact absurd (RaceCategory.writable_of_check h) hes
    | error cs => rfl
  · cases h : (Race.check (.map es)).outcome with
    | ok r => exact absurd (Race.writable_of_check h) hes
    | error cs => rfl

/-- A category that brings blanks for the number of litters, and a table without a row of use. -/
def sampleLoose : Fields :=
  [(.text "name", .text "Halfling"),
    (.text "siblingFormula", .map [(.text "numberOfLitters", .text " "),
      (.text "litterSize", .int 2)]),
    (.text "parentFormula", .map [(.text "table", .list [.text "both"])])]

/-- A race with an integer that is too long to be written among the rules in its metadata, under a
name that nothing reads. -/
def sampleOverlong : Fields :=
  [(.text "name", .text "Halfling"),
    (.text "metadata", .map [(.text "siblingFormula", .map [(.text "note", .int overlong)])])]

/-- The category is read, and its rules can be used; the race is refused. -/
theorem loose_customs_sample :
    Customs.Writable sampleLoose ∧ ¬ Customs.Writable (Race.metadataEntries sampleOverlong) ∧
    (RaceCategory.check (.map sampleLoose)).outcome =
      (RaceCategory.check (.map (withoutCustoms sampleLoose))).outcome.map
        (·.withCustoms (.ofEntries sampleLoose)) ∧
    (Race.check (.map sampleOverlong)).outcome.isOk = false ∧
    Usable (chosenParents none (some sampleLoose)) (rulesOf none (some sampleLoose)) := by
  have hloose : Customs.Writable sampleLoose := by
    constructor
    · rintro ps ⟨⟩
      unfold SiblingRules.Writable
      decide
    · rintro ps ⟨⟩
      unfold ParentRules.Writable
      decide
  have hoverlong : ¬ Customs.Writable (Race.metadataEntries sampleOverlong) := fun h =>
    not_short_overlong (of_decide_eq_true
      (h.siblings _ rfl (.text "note", .int overlong) List.mem_cons_self))
  exact ⟨hloose, hoverlong, (loose_customs sampleLoose none none).1 hloose,
    (loose_customs sampleOverlong none none).2.2.2.1 hoverlong,
    (loose_customs sampleLoose none (some sampleLoose)).2.2.2.2 nofun
      fun cs hcs => Option.some.inj hcs ▸ hloose⟩

/-- Metadata in which the formula for the parents' status is made of blanks. -/
def sampleBlankMetadata : Fields := [(.text "parentFormula", .map [(.text "formula", .text "  ")])]

/-- Such a formula is in force. -/
theorem rulesOf_sampleBlankMetadata :
    isBlankString (rulesOf (some sampleBlankMetadata) none).parents.formula = true := by
  decide

end Kindred
