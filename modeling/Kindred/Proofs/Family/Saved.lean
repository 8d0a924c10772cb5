import Kindred.Proofs.Json.RoundTrip
import Kindred.Proofs.Roll

/-!
# Saved families

A family that is saved and loaded again is the family that it was, apart from the doubles in what
was rolled for the numbers of litters: these are what their texts stand for. A family that cannot be
loaded leaves everything as it is.

- `Sibling.check_toData`, `StatusRoll.check_toData`, `ParentAge.check_toData`,
  `RerollBudget.check_toData`: the parts without doubles.
- `Family.reread`: what a family is loaded as.
- `Family.eq_reread_of_load`: a family that was saved is loaded as that.
- `reload_ok`, `reload_failsafe`: loading in a session.
-/

namespace Kindred

open Kindred.Record Kindred.Json Kindred.Number

/-! ### Parts without doubles -/

theorem echo_intsData (ns : List Int) : echo (intsData ns) = intsData ns := by
  unfold intsData
  rw [echo, echoElements_eq_map, List.map_map]
  rfl

theorem listOf_intsData (ns : List Int) : listOf Record.int (intsData ns) = .ok ns :=
  @listOf_map _ _ .int (fun _ => rfl) ns

namespace Sibling

theorem echo_toData (s : Sibling) : echo s.toData = s.toData := rfl

/-- A sibling is accepted as itself. -/
theorem check_toData (s : Sibling) : check s.toData = .ok s := by
  simp only [check, toData, record_record, build]
  simp [required_entries, withDefault_entries, Record.int, Record.text, Record.bool]

end Sibling

namespace OpenEnded

theorem echo_toData (r : OpenEnded) : echo r.toData = r.toData := by
  unfold toData
  rw [echo_record]
  simp only [List.map_cons, List.map_nil, echo_intsData]
  rfl

/-- An open-ended roll is accepted as itself. -/
theorem check_toData (r : OpenEnded) : check r.toData = .ok r := by
  simp only [check, toData, record_record, build]
  simp [required_entries, withDefault_entries, listOf_intsData, Record.int, Record.bool]

theorem toData_ne_null (r : OpenEnded) : r.toData ≠ .null := nofun

end OpenEnded

namespace StatusRoll

theorem echo_toData (r : StatusRoll) : echo r.toData = r.toData := rfl

/-- A roll for the status is accepted as itself. -/
theorem check_toData (r : StatusRoll) : check r.toData = .ok r := by
  simp only [check, toData, record_record, build]
  simp [required_entries, Record.int, Record.text]

end StatusRoll

namespace ParentAge

theorem echo_toData (a : ParentAge) : echo a.toData = a.toData := by
  unfold toData
  rw [echo_record]
  simp only [List.map_cons, List.map_nil, echo_ofOption, OpenEnded.echo_toData]
  rfl

/-- The age of a parent is accepted as itself. -/
theorem check_toData (a : ParentAge) : check a.toData = .ok a := by
  have hroll := orNull_ofOption OpenEnded.check_toData OpenEnded.toData_ne_null
  simp only [check, toData, record_record, build]
  simp [required_entries, optional_entries, hroll, Record.int, Record.text]

end ParentAge

namespace RerollBudget

theorem echo_toData (b : RerollBudget) : echo b.toData = b.toData := rfl

/-- A budget is accepted as itself. -/
theorem check_toData (b : RerollBudget) : check b.toData = .ok b := by
  simp only [check, toData, record_record, build]
  simp [withDefault_entries, Record.bool]

end RerollBudget

/-! ### Rolls for numbers of litters -/

namespace LitterRoll

theorem checkKind_name (k : LitterDice) : checkKind (.text k.name) = .ok k := by cases k <;> rfl

/-- What a saved roll for a number of litters is read as. -/
def reread (r : LitterRoll) : LitterRoll :=
  { r with modifierValue := .float (echoFloat r.modifierValue.toFloat),
           result := echoFloat r.result }

/-- A double is accepted as what its text stands for, if at all. -/
theorem real_echo_yields (x : Float) : (real true (echo (.float x))).Yields (echoFloat x) := by
  change (real true (.scalar (echoScalar (.float x)))).Yields (echoFloat x)
  unfold echoScalar
  dsimp only
  split
  · exact .ok _
  · exact .complain .notNumber _

/-- A saved roll is accepted as what it is read as, if at all. -/
theorem check_saved_yields (r : LitterRoll) :
    (check true (echo r.saved.toData)).Yields r.reread := by
  have hroll := orNull_ofOption OpenEnded.check_toData OpenEnded.toData_ne_null r.roll
  have hrolls := orNull_ofOption listOf_intsData (fun _ => nofun) r.rolls
  have hreal := fun x => (real_echo_yields x).map Number.float
  -- only the two doubles are changed by reading
  have hdata : echo r.saved.toData = .record [("type", .text r.kind.name),
      ("dice_count", .int r.diceCount), ("roll", .ofOption OpenEnded.toData r.roll),
      ("rolls", .ofOption intsData r.rolls), ("base_result", .int r.base),
      ("modifier", .ofOption .text r.modifier),
      ("modifier_value", echo (.float r.modifierValue.toFloat)),
      ("final_result", echo (.float r.result)), ("formula", .text r.formula)] := by
    unfold toData saved
    rw [echo_record]
    simp only [List.map_cons, List.map_nil, echo_ofOption, OpenEnded.echo_toData, echo_intsData]
    rfl
  rw [hdata, check, record_record, build]
  simp [required_entries, withDefault_entries, optional_entries, checkKind_name, hroll, hrolls,
    orNull_text, Record.int, Record.text]
  exact (((Checked.Yields.ok _).seq ((hreal _).under _)).seq ((real_echo_yields _).under _)).seq
    (.ok _)

end LitterRoll

/-! ### Families -/

namespace Family

/-- What a saved family is read as. -/
def reread (f : Family) : Family :=
  { f with olderRoll := f.olderRoll.map (·.reread), youngerRoll := f.youngerRoll.map (·.reread) }

/-- A saved family is accepted as what it is read as, if at all. -/
theorem check_saved_yields (f : Family) : (check true (echo f.saved.toData)).Yields f.reread := by
  have hsiblings := listOf_map Sibling.check_toData f.siblings
  have hrolls := orNull_yields LitterRoll.check_saved_yields (fun _ => nofun)
  have hstatus := orNull_ofOption StatusRoll.check_toData nofun f.statusRoll
  have hages := orNull_ofOption ParentAge.check_toData nofun
  have hoption : ∀ o : Option LitterRoll, echo (.ofOption LitterRoll.toData (o.map (·.saved))) =
      .ofOption (fun r => echo r.saved.toData) o := by
    intro o
    cases o <;> rfl
  have hdata : echo f.saved.toData = .record [("character_age", .ofOption .int f.characterAge),
      ("siblings", .list (f.siblings.map Sibling.toData)),
      ("older_litters", .int f.olderLitters), ("younger_litters", .int f.youngerLitters),
      ("older_roll", .ofOption (fun r => echo r.saved.toData) f.olderRoll),
      ("younger_roll", .ofOption (fun r => echo r.saved.toData) f.youngerRoll),
      ("parent_roll", .ofOption StatusRoll.toData f.statusRoll),
      ("mother_age", .ofOption ParentAge.toData f.motherAge),
      ("father_age", .ofOption ParentAge.toData f.fatherAge), ("budget", f.budget.toData)] := by
    unfold toData saved
    rw [echo_record]
    simp only [List.map_cons, List.map_nil, hoption, echo_list_map Sibling.echo_toData]
    simp only [echo_ofOption, StatusRoll.echo_toData, ParentAge.echo_toData,
      RerollBudget.echo_toData]
    rfl
  rw [hdata, check, record_record, build]
  simp [withDefault_entries, optional_entries, orNull_int, hsiblings, hstatus, hages,
    RerollBudget.check_toData, Record.int]
  -- the parts in front of the two rolls are accepted as they are, and so are those behind
  have hmk := Checked.Yields.ok (mk f.characterAge f.siblings f.olderLitters f.youngerLitters)
  exact ((((((hmk.seq ((hrolls _).under _)).seq ((hrolls _).under _)).seq (.ok _)).seq
    (.ok _)).seq (.ok _)).seq (.ok _))

/-- A saved family is loaded as what it is read as, if at all. -/
theorem eq_reread_of_load {f g : Family} (h : load f.save = .ok g) : g = f.reread := by
  unfold load save ofSaved at h
  cases hread : Json.read .record (compact f.saved.toData) with
  | error flaw => rw [hread] at h; cases h
  | ok d =>
    rw [hread, read_compact rfl hread] at h
    refine f.check_saved_yields g ?_
    change ((check true (echo f.saved.toData)).outcome.mapError _).mapError _ = .ok g at h
    cases hcheck : (check true (echo f.saved.toData)).outcome with
    | error cs => rw [hcheck] at h; cases h
    | ok g' =>
      rw [hcheck] at h
      cases h
      rfl

end Family

/-! ### In a session -/

variable {σ : Type} {src : Source σ} {ws ws' : World σ × Session}

/-- A family that is put in the place of itself is what it is read as. -/
theorem reload_ok {text : String} (h : reload src ws = .ok text ws') :
    ws'.2 = { ws.2 with family := ws.2.family.reread } := by
  unfold reload at h
  simp only [bind_ok_iff, pure_ok_iff, Play.family_eq, Play.changeFamily_eq, Play.roll_ok_iff,
    Roll.ofExcept_ok_iff] at h
  obtain ⟨_, _, hf, g, ws₁, ⟨⟨hload, -⟩, hs⟩, _, _, hchange, rfl, rfl⟩ := h
  cases hf
  cases hchange
  rw [hs, Family.eq_reread_of_load hload]

/-- A family that cannot be loaded stays. -/
theorem reload_failsafe : (reload : Play σ String).Failsafe :=
  .bind .family fun _ => .bind (.roll _) fun _ => .changeFamily _ _

end Kindred
