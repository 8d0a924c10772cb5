import Kindred.Proofs.Age.Apparent
import Kindred.Proofs.Family.Order
import Kindred.Proofs.Family.ParentStatus
import Kindred.Proofs.Stepwise

/-!
# No negative age, and no empty range

Formulas and tables may say what they like: wherever an age goes into a family, or a roll is based
on one, what is below zero is taken as zero. And no draw asks for a range without numbers, as
brackets of ages that are turned around or lie below zero are repaired before one is drawn from.

- `actualToApparent_nonneg`, `oldestApparent_nonneg`: how old someone looks.
- `Family.NonNegative`: the invariant of a family, and that every change keeps it.
- `Play.Sound`, `Move.sound`: no move asks for an empty range.
- `nonNegative_playFresh`: what holds after every run, and of every next move.
-/

namespace Kindred

variable {σ α β : Type} {src : Source σ} {w w' : World σ} {ws ws' : World σ × Session}

/-! ### Looks -/

theorem clampAge_nonneg {n : Number} {k : Int} (h : clampAge n = .ok k) : 0 ≤ k := by
  obtain ⟨r, -, rfl⟩ := clampAge_ok h
  exact Int.le_max_left 0 r

/-- Nobody looks younger than nothing. -/
theorem actualToApparent_nonneg {m : Option AgeMapping} {age k : Int}
    (h : actualToApparent m age src w = .ok k w') : 0 ≤ k := by
  rcases actualToApparent_origin h with ⟨n, hn⟩ | ⟨t, -, b, -, rfl⟩
  · exact clampAge_nonneg hn
  · exact Int.le_max_left 0 _

theorem characterApparentAge_nonneg {age : Int}
    (h : characterApparentAge src ws = .ok age ws') : 0 ≤ age := by
  obtain ⟨_, hlooks⟩ := actualToApparent_of_ok h
  exact actualToApparent_nonneg hlooks

theorem oldestApparent_nonneg {siblings : List Sibling} {age k : Int} {m : Option AgeMapping}
    (hage : 0 ≤ age) (h : oldestApparent siblings age m src w = .ok k w') : 0 ≤ k := by
  rcases oldestApparent_origin h with ⟨-, rfl⟩ | ⟨b, -, -, w₁, hlooks⟩
  · exact hage
  · exact actualToApparent_nonneg hlooks

/-! ### What is rolled -/

/-- Whether the age of a sibling is not negative, with a number and a position from one on. -/
structure Sibling.NonNegative (b : Sibling) : Prop where
  age : 0 ≤ b.age
  litter : 1 ≤ b.litter
  position : 1 ≤ b.position

/-- Whether none of the ages in a roll for a parent is negative. -/
structure ParentAge.NonNegative (a : ParentAge) : Prop where
  base : 0 ≤ a.baseAge
  apparent : 0 ≤ a.apparentAge
  actual : 0 ≤ a.actualAge

theorem rollSide_nonNegative {side : Side} {rules : SiblingRules} {age start : Int}
    {m : Option AgeMapping} {r : SideRoll} (hstart : 1 ≤ start)
    (h : rollSide side rules age m start src w = .ok r w') : ∀ b ∈ r.siblings, b.NonNegative := by
  obtain ⟨-, ls, w₁, hls, hsiblings⟩ := rollSide_ok h
  have hmembers := forall_mem_litters (p := fun b => 0 ≤ b.age ∧ 1 ≤ b.position)
    (fun n w l w' hl b hb => by
      obtain ⟨a, genders, ha, rfl⟩ := rollLitter_ok hl
      obtain ⟨⟨gender, i⟩, -, rfl⟩ := List.mem_map.mp hb
      exact ⟨ha, Int.le_add_of_nonneg_left (Int.natCast_nonneg i)⟩) hls
  intro b hb
  rw [hsiblings] at hb
  obtain ⟨hage, hposition⟩ := hmembers b hb
  have hlitter := ((litters_ok hls).1.litter_mem hb).1
  exact ⟨hage, Int.le_trans hstart hlitter, hposition⟩

theorem rollStatus_apparentAge {rules : ParentRules} {age : Int} {r : StatusRoll}
    (h : rollStatus rules age src w = .ok r w') : r.apparentAge = age := by
  obtain ⟨_, _, _, -, -, rfl⟩ := rollStatus_parts h
  rfl

theorem rollParentAge_nonNegative {formula : String} {siblings : List Sibling} {age : Int}
    {m : Option AgeMapping} {r : ParentAge} (hage : 0 ≤ age)
    (h : rollParentAge formula siblings age m src w = .ok r w') : r.NonNegative := by
  obtain ⟨base, _, _, _, apparent, actual, _, hbase, -, -, -, rfl⟩ := rollParentAge_parts h
  exact ⟨oldestApparent_nonneg hage hbase, Int.natCast_nonneg apparent, Int.le_max_left 0 actual⟩

/-! ### Families -/

/-- Whether nothing that was rolled for a family is negative. -/
structure Family.NonNegative (f : Family) : Prop where
  siblings : ∀ b ∈ f.siblings, b.NonNegative
  olderLitters : 0 ≤ f.olderLitters
  youngerLitters : 0 ≤ f.youngerLitters
  status : ∀ r ∈ f.statusRoll, 0 ≤ r.apparentAge
  parentAge : ∀ p, ∀ a ∈ f.parentAge p, a.NonNegative

namespace Family.NonNegative

variable {f : Family}

/-- A new family has nothing that was rolled. -/
theorem fresh (age : Option Int) (budget : RerollBudget) :
    (Family.fresh age budget).NonNegative where
  siblings _ h := by cases h
  olderLitters := Int.le_refl 0
  youngerLitters := Int.le_refl 0
  status _ h := by cases h
  parentAge p _ h := by cases p <;> cases h

/-- The litters of a side are numbered from one or more. -/
theorem one_le_firstLitter (h : f.NonNegative) (side : Side) : 1 ≤ f.firstLitter side := by
  cases side with
  | older => exact Int.le_refl 1
  | younger =>
    show 1 ≤ maxLitter f.older + 1
    rcases maxLitter_cases f.older with hnone | ⟨b, hb, hmax⟩
    · omega
    · have hb := (h.siblings b (List.mem_filter.mp hb).1).litter
      omega

theorem withSide (h : f.NonNegative) {r : SideRoll} (hr : ∀ b ∈ r.siblings, b.NonNegative) :
    (f.withSide r).NonNegative := by
  have hall : ∀ b ∈ (f.withSide r).siblings, b.NonNegative := fun b hb =>
    (mem_or_mem_of_mem_withSide hb).elim (hr b) (h.siblings b)
  have hlitters : (0 : Int) ≤ r.litters := Int.natCast_nonneg _
  unfold Family.withSide at hall ⊢
  cases hside : r.side with
  | older =>
    rw [hside] at hall
    exact { h with siblings := hall, olderLitters := hlitters }
  | younger =>
    rw [hside] at hall
    exact { h with siblings := hall, youngerLitters := hlitters }

theorem withStatus (h : f.NonNegative) (haged : f.hasAge = true) {rules : ParentRules}
    {r : StatusRoll} (hr : 0 ≤ r.apparentAge) : (f.withStatus rules r).NonNegative := by
  have hstatus : ∀ r' ∈ some r, 0 ≤ r'.apparentAge := by
    rintro r' ⟨⟩
    exact hr
  have hparent := f.forall_parentAge_withStatus rules h.parentAge r haged
  obtain ⟨mother, father, heq⟩ := f.exists_withStatus rules r
  rw [heq] at hparent ⊢
  exact { h with status := hstatus, parentAge := hparent }

theorem withParentAge (h : f.NonNegative) (p : Parent) {r : ParentAge} (hr : r.NonNegative) :
    (f.withParentAge p (some r)).NonNegative := by
  have hparent := f.forall_parentAge_withParentAge p h.parentAge hr
  obtain ⟨mother, father, heq⟩ := f.exists_withParentAge p (some r)
  rw [heq] at hparent ⊢
  exact { h with parentAge := hparent }

/-- Every change keeps a family from having anything negative. -/
theorem of_change {s s' : Session} (hchange : Change src s s') (h : s.family.NonNegative) :
    s'.family.NonNegative := by
  cases hchange with
  | act hact =>
    cases hact with
    | side haged hrules hage hroll =>
      exact h.withSide (rollSide_nonNegative (h.one_le_firstLitter _) hroll)
    | clear haged => exact { h with siblings := List.forall_mem_nil _ }
    | status haged hrules hage hroll =>
      obtain ⟨w₁, s₁, hage⟩ := hage
      refine h.withStatus haged ?_
      rw [rollStatus_apparentAge hroll]
      exact characterApparentAge_nonneg hage
    | parentAge haged hstatus hrules heligible hage hroll =>
      obtain ⟨w₁, s₁, hage⟩ := hage
      exact h.withParentAge _ (rollParentAge_nonNegative (characterApparentAge_nonneg hage) hroll)
    | charge f haged => exact { h with }
    | reread => exact { h with }
  | aged age => exact { h with }
  | rules hfamily => exact hfamily ▸ h

end Family.NonNegative

/-! ### What moves ask for -/

namespace Play

/-- Whether a play asks for no empty range. -/
def Sound (x : Play σ α) : Prop :=
  ∀ src ws, SoundEnd (fun ws ws' : World σ × Session => ws.1.Extends ws'.1) ws (x src ws)

namespace Sound

theorem bind {x : Play σ α} {f : α → Play σ β} (hx : x.Sound) (hf : ∀ a, (f a).Sound) :
    Sound (x >>= f) :=
  fun src ws => .bind (fun _ _ _ h h' => .trans h h') (hx src ws) fun a ws' => hf a src ws'

theorem pure (a : α) : Sound (pure a : Play σ α) := fun _ ws => .ok (.refl ws.1)

/-- A roll that is put together from steps asks for no empty range inside a play, either. -/
theorem roll {x : Roll σ α} (hx : x.Stepwise) : Sound (Play.roll x) := by
  rintro src ⟨w, s⟩
  have hx := hx.sound src w
  rw [run_roll]
  generalize x src w = result at hx
  cases hx with
  | ok state => exact .ok state
  | error state sound => exact .error state sound

theorem session : Sound (Play.session : Play σ Session) := fun _ ws => .ok (.refl ws.1)

theorem family : Sound (Play.family : Play σ Family) := fun _ ws => .ok (.refl ws.1)

theorem change (f : Session → Session) : Sound (Play.change f : Play σ Unit) :=
  fun _ ws => .ok (.refl ws.1)

theorem changeFamily (f : Family → Family) : Sound (Play.changeFamily f : Play σ Unit) := change _

theorem demand (part : String) (o : Option α) : Sound (Play.demand part o : Play σ α) := by
  cases o with
  | none => exact fun _ ws => .error (.refl ws.1) rfl
  | some a => exact .pure a

theorem ifAged {x : Play σ α} (hx : x.Sound) : Sound (Play.ifAged x) := by
  refine family.bind fun f => ?_
  split
  · exact hx.bind fun a => .pure _
  · exact .pure none

theorem outcome {x : Play σ α} (hx : x.Sound) (src : Source σ) (w : World σ) (s : Session) :
    w.Extends (x.outcome src w s).2.1 ∧ Rangeless (x.outcome src w s).1 := by
  have hx := hx src (w, s)
  unfold Play.outcome
  generalize x src (w, s) = result at hx
  cases hx with
  | ok state => exact ⟨state, .ok _⟩
  | error state sound => exact ⟨state, .error sound⟩

end Sound

end Play

theorem characterApparentAge_sound : (characterApparentAge : Play σ Int).Sound :=
  Play.Sound.session.bind fun _ => .roll (actualToApparent_stepwise _ _).quietly

theorem playSide_sound (side : Side) : (playSide side : Play σ SideRoll).Sound :=
  Play.Sound.family.bind fun _ => characterApparentAge_sound.bind fun _ =>
    Play.Sound.session.bind fun _ => (Play.Sound.demand _ _).bind fun _ =>
      (Play.Sound.roll (rollSide_stepwise _ _ _ _ _)).bind fun r =>
        (Play.Sound.changeFamily _).bind fun _ => .pure r

theorem playStatus_sound : (playStatus : Play σ StatusRoll).Sound :=
  characterApparentAge_sound.bind fun _ => Play.Sound.session.bind fun _ =>
    (Play.Sound.demand _ _).bind fun _ => (Play.Sound.roll (rollStatus_stepwise _ _)).bind fun r =>
      (Play.Sound.changeFamily _).bind fun _ => .pure r

theorem charge_sound (f : Facet) : (charge f : Play σ Unit).Sound := by
  refine Play.Sound.family.bind fun g => ?_
  have hpaid : ∀ b : RerollBudget, ∀ line, Rangeless line → (do
      Play.changeFamily fun g => { g with budget := b }
      Play.roll (Roll.tell "Reroll" line) : Play σ Unit).Sound := fun b line hline =>
    (Play.Sound.changeFamily _).bind fun _ => .roll (.tell _ hline)
  have hline : ∀ (n : Int) (text : String → String), Rangeless (do
      return text (← writeNumeral n)) := fun n _ => (Rangeless.writeNumeral n).bind fun _ => .ok _
  dsimp only
  split
  · exact (Play.Sound.roll (.remark _ _ _)).bind fun _ => hpaid _ _ (hline _ _)
  · exact hpaid _ _ (hline _ _)

theorem canRollAge_sound (p : Parent) : (canRollAge p : Play σ Bool).Sound := by
  refine Play.Sound.session.bind fun s => ?_
  split
  · exact (Play.Sound.demand _ _).bind fun rules => .pure _
  · exact .pure false

theorem rollAge_sound (p : Parent) : (rollAge p : Play σ (Option ParentAge)).Sound := by
  refine (canRollAge_sound p).bind fun can => ?_
  split
  · exact characterApparentAge_sound.bind fun _ => Play.Sound.session.bind fun _ =>
      (Play.Sound.roll (rollParentAge_stepwise _ _ _ _)).bind fun r =>
        (Play.Sound.changeFamily _).bind fun _ => .pure (some r)
  · exact Play.Sound.family.bind fun _ => (Play.Sound.roll (.note _ _)).bind fun _ => .pure none

/-- A family that cannot be read is rejected, for no other reason than that. -/
theorem reload_sound : (reload : Play σ String).Sound := by
  refine Play.Sound.family.bind fun f => (Play.Sound.roll (.ofExcept ?_)).bind fun g =>
    (Play.Sound.changeFamily _).bind fun _ => .pure _
  intro e h
  unfold Family.load at h
  cases hread : (Record.ofSaved "FamilyState" (Family.check true) f.save).2 with
  | ok g => rw [hread] at h; cases h
  | error why => rw [hread] at h; cases h; rfl

/-- No move asks for an empty range. -/
theorem Move.sound (m : Move) : (m.play : Play σ Answer).Sound := by
  have hreroll : ∀ {f : Facet} {x : Play σ SideRoll}, x.Sound →
      (Play.ifAged do charge f; x).Sound := fun hx => .ifAged ((charge_sound _).bind fun _ => hx)
  cases m with
  | rollOlder => exact (Play.Sound.ifAged (playSide_sound _)).bind fun r => .pure _
  | rollYounger => exact (Play.Sound.ifAged (playSide_sound _)).bind fun r => .pure _
  | rollAll =>
    refine (Play.Sound.ifAged ?_).bind fun r => .pure _
    exact (Play.Sound.changeFamily _).bind fun _ => (playSide_sound .older).bind fun older =>
      (playSide_sound .younger).bind fun younger => .pure _
  | rerollOlder => exact (hreroll (playSide_sound _)).bind fun r => .pure _
  | rerollYounger => exact (hreroll (playSide_sound _)).bind fun r => .pure _
  | rollParents => exact (Play.Sound.ifAged playStatus_sound).bind fun r => .pure _
  | rerollParents =>
    exact (Play.Sound.ifAged ((charge_sound _).bind fun _ => playStatus_sound)).bind fun r =>
      .pure _
  | rollAge p => exact (rollAge_sound p).bind fun a => .pure _
  | canRollAge p => exact (canRollAge_sound p).bind fun b => .pure _
  | characterApparentAge => exact characterApparentAge_sound.bind fun n => .pure _
  | setAge age => exact (Play.Sound.changeFamily _).bind fun _ => .pure _
  | setMapping m => exact (Play.Sound.change _).bind fun _ => .pure _
  | setSiblingRules r => exact (Play.Sound.change _).bind fun _ => .pure _
  | setParentRules r => exact (Play.Sound.change _).bind fun _ => .pure _
  | setParentAge formula => exact (Play.Sound.change _).bind fun _ => .pure _
  | reload => exact reload_sound.bind fun text => .pure _

/-! ### Runs -/

/-- A run asks for no empty range. -/
theorem extends_playAll (src : Source σ) (ws : World σ × Session) (ms : List Move) :
    ws.1.Extends (playAll src ws ms).1 := by
  induction ms generalizing ws with
  | nil => exact .refl ws.1
  | cons m ms ih => exact .trans (m.sound.outcome src ws.1 ws.2).1 (ih (m.next src ws))

/-- The world and the session after some moves, from a family before anything is rolled. -/
def playFresh (src : Source σ) (w : World σ) (s : Session) (age : Option Int)
    (budget : RerollBudget) (ms : List Move) : World σ × Session :=
  playAll src (w, { s with family := .fresh age budget }) ms

theorem Family.NonNegative.playFresh (src : Source σ) (w : World σ) (s : Session)
    (age : Option Int) (budget : RerollBudget) (ms : List Move) :
    (playFresh src w s age budget ms).2.family.NonNegative :=
  (playAll_changes src _ ms).preserves (P := fun s => s.family.NonNegative) (fun _ _ => .of_change)
    (.fresh age budget)

/-- Whatever formulas and mappings are in force and are brought into force, and whatever is drawn:
after every run that starts with a fresh family no age in the family is negative, and no number of a
litter, no position and no number of litters is too small. Every draw of the run asked for a range
that holds numbers, and no move that comes next ends because another range was refused. -/
theorem nonNegative_playFresh (src : Source σ) (w : World σ) (s : Session) (age : Option Int)
    (budget : RerollBudget) (ms : List Move) :
    (playFresh src w s age budget ms).2.family.NonNegative ∧
    w.Extends (playFresh src w s age budget ms).1 ∧
    ∀ (m : Move) (low high : Int),
      (m.play.outcome src (playFresh src w s age budget ms).1
        (playFresh src w s age budget ms).2).1 ≠ .error (.emptyRange low high) := by
  refine ⟨.playFresh src w s age budget ms, extends_playAll src _ ms, fun m low high h => ?_⟩
  exact Bool.noConfusion ((m.sound.outcome src _ _).2 _ h)

end Kindred
