import Kindred.Proofs.Family.Legible
import Kindred.Proofs.Record.Saved
import Kindred.Settings

/-!
# Saving loses nothing

The only doubles in a family belong to the rolls for numbers of litters. Every roll that is made
records finite doubles there, which are read back from their texts. So a family that moves have made
of a new one is loaded as it was saved, and to load it anywhere in between changes nothing that
comes after.

- `LitterRoll.IsExact`, `Family.IsExact`: rolls and families with finite doubles.
- `Family.load_save`, `Settings.load_save`: what a saved family, and saved settings, are loaded as.
- `litterCount_exact`, `Change.isExact`: one roll, and one change.
- `outcome_reload`, `next_reload`: loading changes nothing.
- `lossless`: every run.
-/

namespace Kindred

open Kindred.Record Kindred.Json Kindred.Number Kindred.Text

/-! ### Records with doubles -/

namespace LitterRoll

/-- Whether a roll has a finite double for what stands behind its dice, and a finite result. -/
def IsExact (r : LitterRoll) : Prop :=
  ∃ x, r.modifierValue = .float x ∧ isFinite x = true ∧ isFinite r.result = true

variable {r : LitterRoll} (h : r.IsExact)

include h

theorem saved_eq : r.saved = r := by
  obtain ⟨x, hx, -, -⟩ := h
  unfold saved
  rw [hx]
  show { r with modifierValue := .float x } = r
  rw [← hx]

theorem reread_eq : r.reread = r := by
  obtain ⟨x, hx, hfinite, hresult⟩ := h
  unfold reread
  rw [hx]
  show { r with modifierValue := .float (echoFloat x), result := echoFloat r.result } = r
  rw [echoFloat_eq hfinite, echoFloat_eq hresult, ← hx]

theorem echo_toData : echo r.toData = r.toData := by
  obtain ⟨x, hx, hfinite, hresult⟩ := h
  have hfloat : ∀ {y : Float}, isFinite y = true → echo (.float y) = .float y := by
    intro y hy
    show Data.scalar (echoScalar (.float y)) = _
    rw [echoScalar, if_pos hy, echoFloat_eq hy]
    rfl
  have hmodifier : echo (.ofNumber r.modifierValue) = .ofNumber r.modifierValue := by
    rw [hx]
    exact hfloat hfinite
  unfold toData
  rw [echo_record]
  simp only [List.map_cons, List.map_nil, echo_ofOption, OpenEnded.echo_toData, echo_intsData,
    hmodifier, hfloat hresult]
  rfl

/-- A roll is accepted as itself. -/
theorem check_toData : check true r.toData = .ok r := by
  obtain ⟨x, hx, -, -⟩ := h
  have hroll := orNull_ofOption OpenEnded.check_toData OpenEnded.toData_ne_null r.roll
  have hrolls := orNull_ofOption listOf_intsData (fun _ => nofun) r.rolls
  have hvalue : Number.float <$> real true (.ofNumber r.modifierValue) = .ok r.modifierValue := by
    rw [hx]
    rfl
  have hresult : real true (.float r.result) = .ok r.result := rfl
  simp only [check, toData, record_record, build]
  simp [required_entries, withDefault_entries, optional_entries, checkKind_name, hroll, hrolls,
    orNull_text, hvalue, hresult, Record.int, Record.text]

end LitterRoll

namespace Family

/-- Whether the rolls for numbers of litters have finite doubles. -/
def IsExact (f : Family) : Prop :=
  (∀ r ∈ f.olderRoll, r.IsExact) ∧ ∀ r ∈ f.youngerRoll, r.IsExact

/-- A new family has no rolls yet. -/
theorem isExact_new (age : Option Int) (budget : RerollBudget) :
    IsExact { characterAge := age, budget := budget } := by
  constructor <;> intro r h <;> cases h

/-- No part of a family lies deeper than the dice of its rolls. -/
theorem depth_toData (f : Family) : depth f.toData ≤ 4 := by
  have hints : ∀ ns, depth (intsData ns) ≤ 1 := depth_list_map_le fun n => (depth_int n).le
  have hopen : ∀ r : OpenEnded, depth r.toData ≤ 2 := fun r => depth_record_le (by simp [hints])
  have hsibling : ∀ s : Sibling, depth s.toData ≤ 1 := fun s => depth_record_le (by simp)
  have hstatus : ∀ r : StatusRoll, depth r.toData ≤ 3 := fun r => depth_record_le (by simp)
  have hbudget : depth f.budget.toData ≤ 3 := depth_record_le (by simp)
  have hlitters : ∀ r : LitterRoll, depth r.toData ≤ 3 := by
    intro r
    have hrolls := depth_ofOption_le (fun ns => (hints ns).trans one_le_two) r.rolls
    have hmodifier :=
      depth_ofOption_le (fun s => (depth_text s).le.trans (Nat.zero_le 2)) r.modifier
    exact depth_record_le (by simp [depth_ofOption_le hopen, hrolls, hmodifier])
  have hage : ∀ a : ParentAge, depth a.toData ≤ 3 := fun a =>
    depth_record_le (by simp [depth_ofOption_le hopen])
  have hcharacter := depth_ofOption_le (fun n => (depth_int n).le.trans (Nat.zero_le 3))
    f.characterAge
  have hsiblings := (depth_list_map_le hsibling f.siblings).trans (Nat.le_succ 2)
  exact depth_record_le (by simp [hcharacter, hsiblings, depth_ofOption_le hlitters,
    depth_ofOption_le hstatus, depth_ofOption_le hage, hbudget])

variable {f : Family} (h : f.IsExact)

include h

theorem saved_eq : f.saved = f := by
  unfold saved
  rw [Option.map_congr fun r hr => LitterRoll.saved_eq (h.1 r hr),
    Option.map_congr fun r hr => LitterRoll.saved_eq (h.2 r hr), Option.map_id', Option.map_id']

theorem reread_eq : f.reread = f := by
  unfold reread
  rw [Option.map_congr fun r hr => LitterRoll.reread_eq (h.1 r hr),
    Option.map_congr fun r hr => LitterRoll.reread_eq (h.2 r hr), Option.map_id', Option.map_id']

theorem echo_toData : echo f.toData = f.toData := by
  have hlitters : ∀ o : Option LitterRoll, (∀ r ∈ o, r.IsExact) →
      echo (.ofOption LitterRoll.toData o) = .ofOption LitterRoll.toData o := by
    intro o ho
    cases o with
    | none => rfl
    | some r => exact LitterRoll.echo_toData (ho r rfl)
  unfold toData
  rw [echo_record]
  simp only [List.map_cons, List.map_nil, hlitters _ h.1, hlitters _ h.2,
    echo_list_map Sibling.echo_toData]
  simp only [echo_ofOption, StatusRoll.echo_toData, ParentAge.echo_toData,
    RerollBudget.echo_toData]
  rfl

/-- A family is accepted as itself. -/
theorem check_toData : check true f.toData = .ok f := by
  have hsiblings := listOf_map Sibling.check_toData f.siblings
  have hlitters : ∀ o : Option LitterRoll, (∀ r ∈ o, r.IsExact) →
      orNull (LitterRoll.check true) (.ofOption LitterRoll.toData o) = .ok o := by
    intro o ho
    cases o with
    | none => rfl
    | some r =>
      rw [Data.ofOption, orNull_of_ne_null (fun h => by cases h),
        LitterRoll.check_toData (ho r rfl)]
      rfl
  have hstatus := orNull_ofOption StatusRoll.check_toData (fun _ h => by cases h) f.statusRoll
  have hages := orNull_ofOption ParentAge.check_toData fun _ h => by cases h
  simp only [check, toData, record_record, build]
  simp [withDefault_entries, optional_entries, orNull_int, hsiblings, hlitters _ h.1,
    hlitters _ h.2, hstatus, hages, RerollBudget.check_toData, Record.int]

/-- A saved family is loaded as it is, if its integers are short. -/
theorem load_save : load f.save =
    if f.IsLegible then .ok f else .error (.rejected (unreadable "FamilyState")) := by
  unfold load save
  rw [saved_eq h]
  exact ofSaved_compact (echo_toData h) (check_toData h) (f.depth_toData.trans (by decide))
    Fault.rejected

/-- Families that can be read from one text are the same. -/
theorem eq_of_save_eq {g : Family} (hg : g.IsExact) (hf : f.IsLegible) (hg' : g.IsLegible)
    (hsave : f.save = g.save) : f = g := by
  have hload := load_save h
  rw [if_pos hf, hsave, load_save hg, if_pos hg'] at hload
  exact (Except.ok.inj hload).symm

end Family

/-! ### Settings -/

namespace Settings

/-- Whether the integers of settings are so short that their text can be read. -/
def IsLegible (s : Settings) : Prop := ∀ n ∈ integers s.toData, Short n

instance (s : Settings) : Decidable s.IsLegible := List.decidableBAll _ _

theorem echo_toData (s : Settings) : echo s.toData = s.toData := by
  unfold toData
  rw [echo_record]
  simp only [List.map_cons, List.map_nil, echo_ofOption]
  rfl

/-- Settings are accepted as themselves. -/
theorem check_toData (s : Settings) : check s.toData = .ok s := by
  have hmode : checkMode (.text s.seedMode.name) = .ok s.seedMode := by cases s.seedMode <;> rfl
  simp only [check, toData, record_record, build]
  simp [withDefault_entries, optional_entries, hmode, orNull_int, orNull_text, Record.text]

theorem depth_toData (s : Settings) : depth s.toData ≤ 1 := by
  have hseed := depth_ofOption_le (fun n => (depth_int n).le) s.seed
  have hfolder := depth_ofOption_le (fun t => (depth_text t).le) s.contentDir
  exact depth_record_le (by simp_all)

/-- Saved settings are loaded as they are, if their integers are short. -/
theorem load_save (s : Settings) : load s.save =
    if s.IsLegible then .ok s else .error (.rejected (unreadable "Settings")) := by
  exact ofSaved_indented s.echo_toData s.check_toData (s.depth_toData.trans (by decide))
    Fault.rejected

end Settings

/-! ### Rolls are exact -/

section Rolls

variable {σ : Type} {src : Source σ} {w w' : World σ} {bs : Formula.Bindings} {formula : String}

theorem modifierValue_finite {modifier : List Char} {n : Number}
    (h : modifierValue bs modifier src w = .ok n w') : n.IsFinite := by
  unfold modifierValue at h
  split at h
  · cases (pure_ok_iff.mp h).1
    exact Number.isFinite_zero
  · obtain ⟨e, he, rfl⟩ := bind_pure_ok_iff.mp h
    exact Formula.evaluateFormula_finite he

/-- A number that a count can be taken from is finite if it is a double. -/
theorem isFinite_of_floorNonNegative {x : Float} {k : Nat}
    (h : floorNonNegative (.float x) = .ok k) : isFinite x = true := by
  change (floatToInt Binary.floor x).map Int.toNat = .ok k at h
  unfold floatToInt at h
  unfold isFinite
  cases hx : Binary.ofFloat? x with
  | none => rw [hx] at h; cases h
  | some b => rfl

/-- What is recorded for an integer, or for a finite double, is finite. -/
theorem isFinite_of_recordedTotal {n : Number} {x : Float}
    (hn : ∀ y, n = .float y → isFinite y = true) (h : recordedTotal n = .ok x) :
    isFinite x = true := by
  unfold recordedTotal at h
  cases hx : n.toFloat? with
  | none => rw [hx] at h; cases h
  | some y =>
    rw [hx] at h
    cases h
    cases n with
    | int m => exact Formula.isFinite_of_finiteOfInt? hx
    | float z => cases hx; exact hn x rfl

theorem atLeastZero_float {n : Number} {y : Float} (h : atLeastZero n = .float y) :
    n = .float y := by
  unfold atLeastZero at h
  split at h
  · exact h
  · cases h

/-- What is recorded for a number of litters is exact. -/
theorem leadingCount_exact {lead : LeadingDice} {c : LitterCount}
    (h : leadingCount formula bs lead src w = .ok c w') : ∀ r ∈ c.roll, r.IsExact := by
  obtain ⟨n, m, sum, x, w₁, -, hm, hcount, hdice⟩ := leadingCount_ok h
  have hmodifier : isFinite m.toFloat = true := (modifierValue_finite hm).isFinite_toFloat
  -- a count was taken from the sum, so it is no infinite double
  have hsum : ∀ y, sum = .float y → isFinite y = true := by
    rintro y rfl
    exact isFinite_of_floorNonNegative hcount
  rcases hdice with ⟨roll, -, -, hx, hrecord⟩ | ⟨rolls, -, -, hx, hrecord⟩
  · rw [hrecord]
    rintro r ⟨⟩
    have hlow : ∀ y, atLeastZero sum = .float y → isFinite y = true := fun y hy =>
      hsum y (atLeastZero_float hy)
    exact ⟨m.toFloat, rfl, hmodifier, isFinite_of_recordedTotal hlow hx⟩
  · rw [hrecord]
    rintro r ⟨⟩
    exact ⟨m.toFloat, rfl, hmodifier, isFinite_of_recordedTotal hsum hx⟩

theorem litterCount_exact {c : LitterCount} (h : litterCount formula bs src w = .ok c w') :
    ∀ r ∈ c.roll, r.IsExact := by
  rcases litterCount_ok h with ⟨lead, -, hlead⟩ | ⟨-, hnone, -⟩
  · exact leadingCount_exact hlead
  · rw [hnone]
    intro r hr
    cases hr

/-- What is recorded for a side is exact. -/
theorem rollSide_exact {side : Side} {rules : SiblingRules} {age : Int} {m : Option AgeMapping}
    {start : Int} {r : SideRoll} (h : rollSide side rules age m start src w = .ok r w') :
    ∀ l ∈ r.roll, l.IsExact := by
  obtain ⟨c, w₁, hc, -, hroll⟩ := rollSide_count h
  rw [hroll]
  exact litterCount_exact hc

end Rolls

/-! ### Runs -/

section Runs

variable {σ : Type} {src : Source σ} {s s' : Session}

theorem Family.IsExact.withSide {f : Family} (h : f.IsExact) {r : SideRoll}
    (hr : ∀ l ∈ r.roll, l.IsExact) : (f.withSide r).IsExact := by
  unfold Family.withSide
  split
  · exact ⟨hr, h.2⟩
  · exact ⟨h.1, hr⟩

/-- Every act leaves finite doubles. -/
theorem Act.isExact (h : Act src s s') (hs : s.family.IsExact) : s'.family.IsExact := by
  cases h with
  | side haged hrules hage hroll => exact hs.withSide (rollSide_exact hroll)
  | clear haged => exact hs
  | @status rules age w w' r haged hrules hage hroll =>
    obtain ⟨mother, father, hstatus⟩ := s.family.exists_withStatus rules r
    show (s.family.withStatus rules r).IsExact
    rw [hstatus]
    exact hs
  | @parentAge p status rules age w w' r haged hstatus hrules heligible hage hroll =>
    obtain ⟨mother, father, hparent⟩ := s.family.exists_withParentAge p (some r)
    show (s.family.withParentAge p (some r)).IsExact
    rw [hparent]
    exact hs
  | charge f haged => exact hs
  | reread =>
    show s.family.reread.IsExact
    rw [Family.reread_eq hs]
    exact hs

/-- Every change leaves finite doubles. -/
theorem Change.isExact (h : Change src s s') (hs : s.family.IsExact) : s'.family.IsExact := by
  cases h with
  | act h => exact h.isExact hs
  | aged age => exact hs
  | rules hfamily => rw [hfamily]; exact hs

/-- Every run leaves finite doubles. -/
theorem isExact_playAll {ws : World σ × Session} (hs : ws.2.family.IsExact) (ms : List Move) :
    (playAll src ws ms).2.family.IsExact :=
  (playAll_changes src ws ms).preserves (fun _ _ => Change.isExact) hs

/-- To load a family with finite doubles, whether that works or not, changes nothing. -/
theorem outcome_reload {w : World σ} (hs : s.family.IsExact) :
    Move.reload.play.outcome src w s =
      (if s.family.IsLegible then .ok (.text s.family.save)
        else .error (.rejected (unreadable "FamilyState")), w, s) := by
  have hload := Family.load_save hs
  unfold Move.play Kindred.reload Play.outcome
  simp only [run_bind, Play.family_eq, Play.changeFamily_eq, Play.run_roll]
  unfold Roll.ofExcept
  by_cases hlegible : s.family.IsLegible
  · rw [if_pos hlegible] at hload
    rw [if_pos hlegible, hload]
    rfl
  · rw [if_neg hlegible] at hload
    rw [if_neg hlegible, hload]

theorem next_reload {ws : World σ × Session} (hs : ws.2.family.IsExact) :
    Move.reload.next src ws = ws :=
  congrArg Prod.snd (outcome_reload (w := ws.1) hs)

/-- What a run has made of a family with finite doubles, such as a new one, is loaded as it was
saved, and to load it there changes nothing that comes after: neither the session nor the draws, nor
what any later move answers. Settings are loaded as they were saved, too.

Integers of more than 4300 digits, which no reader of numerals takes, are the one exception: a text
with such an integer is rejected. A family has none of them if the session was given none, unless it
lists more dice than anybody could ever roll. -/
theorem lossless {ws : World σ × Session} (hs : ws.2.family.IsExact) (ms : List Move) :
    (Family.load (playAll src ws ms).2.family.save =
      if (playAll src ws ms).2.family.IsLegible then .ok (playAll src ws ms).2.family
      else .error (.rejected (unreadable "FamilyState"))) ∧
    (src.InRange → ws.2.IsTame → (∀ m ∈ ms, m.IsShort) →
      (integers (playAll src ws ms).2.family.toData).length < manyIntegers →
      (playAll src ws ms).2.family.IsLegible) ∧
    (∀ ms', playAll src ws (ms ++ .reload :: ms') = playAll src ws (ms ++ ms') ∧ ∀ m : Move,
      m.play.outcome src (playAll src ws (ms ++ .reload :: ms')).1
        (playAll src ws (ms ++ .reload :: ms')).2 =
      m.play.outcome src (playAll src ws (ms ++ ms')).1 (playAll src ws (ms ++ ms')).2) ∧
    ∀ settings : Settings, Settings.load settings.save =
      if settings.IsLegible then .ok settings
      else .error (.rejected (unreadable "Settings")) := by
  have hexact : (playAll src ws ms).2.family.IsExact := isExact_playAll hs ms
  have hsame : ∀ ms', playAll src ws (ms ++ .reload :: ms') = playAll src ws (ms ++ ms') := by
    intro ms'
    rw [playAll_append, playAll_append, playAll_cons, next_reload hexact]
  refine ⟨Family.load_save hexact, fun hsrc htame => isLegible_playAll hsrc htame, fun ms' => ?_,
    Settings.load_save⟩
  rw [hsame]
  exact ⟨rfl, fun m => rfl⟩

/-- A family for which everything was rolled. -/
def sampleSaved : Family :=
  (playAll (Source.constant 3 0) (World.start (), { family := { characterAge := some 20 } })
    [.rollAll, .rollParents, .rollAge .mother]).2.family

/-- Settings with a seed. -/
def sampleSettings : Settings := { seedMode := .fixed, seed := some (-7), contentDir := some "x" }

/-- They are loaded as they were saved. -/
theorem lossless_sample :
    Family.load sampleSaved.save = .ok sampleSaved ∧
      Settings.load sampleSettings.save = .ok sampleSettings := by
  have hnew : ({ family := { characterAge := some 20 } } : Session).IsTame := by
    constructor
    · rintro t ⟨⟩
    · refine Family.isTame_new ?_ short_zero
      rintro n ⟨⟩
      decide
  have hmoves : ∀ m ∈ [Move.rollAll, .rollParents, .rollAge .mother], m.IsShort := by
    simp only [List.forall_mem_cons]
    exact ⟨trivial, trivial, trivial, List.forall_mem_nil _⟩
  obtain ⟨hload, hlegible, -, hsettings⟩ := @lossless Unit (Source.constant 3 0)
    (World.start (), { family := { characterAge := some 20 } }) (Family.isExact_new _ _)
    [.rollAll, .rollParents, .rollAge .mother]
  have hsize : (integers sampleSaved.toData).length < manyIntegers := by decide +kernel
  have hshort : sampleSettings.IsLegible := by decide
  unfold sampleSaved at hsize ⊢
  rw [hload, if_pos (hlegible (Source.inRange_constant 3 0) hnew hmoves hsize), hsettings,
    if_pos hshort]
  exact ⟨rfl, rfl⟩

/-- A family of which the character was given an age that no numeral writes. -/
def overlongFamily : Family :=
  (playAll (Source.constant 3 0) (World.start (), { family := {} })
    [.setAge (some overlong)]).2.family

/-- It is not loaded, and neither are settings with such a number for their seed. -/
theorem not_lossless_overlong :
    Family.load overlongFamily.save = .error (.rejected (unreadable "FamilyState")) ∧
      Settings.load (Settings.save { seed := some overlong }) =
        .error (.rejected (unreadable "Settings")) := by
  have hexact : overlongFamily.IsExact := isExact_playAll (Family.isExact_new _ _) _
  have hfamily : ¬ overlongFamily.IsLegible := fun h =>
    not_short_overlong (h overlong List.mem_cons_self)
  have hsettings : ¬ Settings.IsLegible { seed := some overlong } := fun h =>
    not_short_overlong (h overlong List.mem_cons_self)
  exact ⟨(Family.load_save hexact).trans (if_neg hfamily),
    (Settings.load_save _).trans (if_neg hsettings)⟩

end Runs

end Kindred
