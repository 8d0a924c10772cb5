import Kindred.Proofs.Family.Order

/-!
# Ages of living parents

An age is rolled only for a parent who is alive under the status, and a new status takes away the
ages of those who are not alive under it. So the recorded ages fit the status, as long as the table
of statuses stays the same. Another table may say something else about the status that was rolled;
the next roll for the status then puts this right.

- `Session.AgesFit`: every parent with a recorded age is alive under the status.
- `Family.parentAge_withStatus`: which ages a new status leaves.
- `Session.AgesFit.of_act`, `Session.AgesFit.playAll`: one act, and a run.
- `Move.status_ok`: the moves that answer with a status.
- `recordedAges_fit_status`: the ages after every run, and after every roll for the status.
-/

namespace Kindred

variable {σ : Type} {src : Source σ} {ws ws' : World σ × Session}

/-! ### What a new status leaves -/

namespace Family

variable (f : Family) (p q : Parent) (rules : ParentRules)

theorem parentAge_withParentAge (age : Option ParentAge) :
    (f.withParentAge q age).parentAge p = if p = q then age else f.parentAge p := by
  cases p <;> cases q <;> rfl

theorem statusRoll_withParentAge (age : Option ParentAge) :
    (f.withParentAge q age).statusRoll = f.statusRoll := by
  cases q <;> rfl

/-- With an age and a status, a parent's age is dropped exactly if the parent is dead. -/
theorem dropAge_eq {status : StatusRoll} (haged : f.hasAge = true)
    (hstatus : f.statusRoll = some status) :
    dropAge q rules f = if rules.isEligible q status.status then f else f.withParentAge q none := by
  have hs : f.status = some status.status := by rw [Family.status, hstatus]; rfl
  simp only [dropAge, hs, haged, Bool.true_and]

/-- A new status leaves the ages of the parents who are alive under it. -/
theorem parentAge_withStatus (status : StatusRoll) (haged : f.hasAge = true) :
    (f.withStatus rules status).parentAge p =
      if rules.isEligible p status.status then f.parentAge p else none := by
  have hmother := dropAge_eq { f with statusRoll := some status } .mother rules haged rfl
  have hfather := @dropAge_eq (dropAge .mother rules { f with statusRoll := some status }) .father
    rules status (by rw [hmother]; split <;> exact haged) (by rw [hmother]; split <;> rfl)
  rw [withStatus, hfather, hmother]
  cases p with
  | mother => cases rules.isEligible .mother _ <;> cases rules.isEligible .father _ <;> rfl
  | father => cases rules.isEligible .mother _ <;> cases rules.isEligible .father _ <;> rfl

/-- What holds of the recorded ages holds of those that a new status leaves. -/
theorem forall_parentAge_withStatus {P : ParentAge → Prop} (h : ∀ p, ∀ a ∈ f.parentAge p, P a)
    (status : StatusRoll) (haged : f.hasAge = true) :
    ∀ p, ∀ a ∈ (f.withStatus rules status).parentAge p, P a := by
  intro p a ha
  rw [f.parentAge_withStatus p rules status haged] at ha
  split at ha
  · exact h p a ha
  · cases ha

/-- What holds of the recorded ages and of another age holds after that is recorded. -/
theorem forall_parentAge_withParentAge {P : ParentAge → Prop} (h : ∀ p, ∀ a ∈ f.parentAge p, P a)
    {age : ParentAge} (hage : P age) :
    ∀ p, ∀ a ∈ (f.withParentAge q (some age)).parentAge p, P a := by
  intro p a ha
  rw [parentAge_withParentAge] at ha
  split at ha
  · cases ha
    exact hage
  · exact h p a ha

theorem statusRoll_withStatus (status : StatusRoll) :
    (f.withStatus rules status).statusRoll = some status := by
  obtain ⟨mother, father, hstatus⟩ := f.exists_withStatus rules status
  rw [hstatus]

end Family

/-! ### The invariant -/

/-- Whether every parent with a recorded age is alive under the status that was rolled. -/
def Session.AgesFit (s : Session) : Prop :=
  ∀ p, (s.family.parentAge p).isSome = true → ∃ status rules, s.family.status = some status ∧
    s.parentRules = some rules ∧ rules.isEligible p status = true

namespace Session.AgesFit

variable {s s' : Session}

/-- The invariant concerns nothing but the parents and their rules. -/
theorem congr (h : s.AgesFit) (hages : ∀ p, s'.family.parentAge p = s.family.parentAge p)
    (hstatus : s'.family.statusRoll = s.family.statusRoll)
    (hrules : s'.parentRules = s.parentRules) : s'.AgesFit := by
  intro p hp
  rw [hages] at hp
  obtain ⟨status, rules, hs, hr, heligible⟩ := h p hp
  refine ⟨status, rules, ?_, hrules.trans hr, heligible⟩
  rw [Family.status, hstatus]
  exact hs

/-- A new status makes the invariant hold, whatever was recorded before. -/
theorem withStatus {rules : ParentRules} (r : StatusRoll) (haged : s.family.hasAge = true)
    (hrules : s.parentRules = some rules) :
    AgesFit { s with family := s.family.withStatus rules r } := by
  intro p hp
  rw [Family.parentAge_withStatus _ _ _ _ haged] at hp
  refine ⟨r.status, rules, ?_, hrules, ?_⟩
  · rw [Family.status, Family.statusRoll_withStatus]
    rfl
  · split at hp
    · next heligible => exact heligible
    · cases hp

/-- An age that is rolled for a parent who is alive keeps the invariant. -/
theorem withParentAge (h : s.AgesFit) {p : Parent} {status : String} {rules : ParentRules}
    (age : ParentAge) (hstatus : s.family.status = some status)
    (hrules : s.parentRules = some rules) (heligible : rules.isEligible p status = true) :
    AgesFit { s with family := s.family.withParentAge p (some age) } := by
  have hsame : (s.family.withParentAge p (some age)).status = s.family.status := by
    rw [Family.status, Family.statusRoll_withParentAge]
    rfl
  intro q hq
  by_cases hqp : q = p
  · subst hqp
    exact ⟨status, rules, hsame.trans hstatus, hrules, heligible⟩
  · rw [Family.parentAge_withParentAge, if_neg hqp] at hq
    obtain ⟨status', rules', hs, hr, he⟩ := h q hq
    exact ⟨status', rules', hsame.trans hs, hr, he⟩

/-- Every act keeps the invariant. -/
theorem of_act (hact : Act src s s') (h : s.AgesFit) : s'.AgesFit := by
  cases hact with
  | @side side rules age w w' r haged hrules hage hroll =>
    exact h.congr (fun p => s.family.parentAge_withSide r p) (s.family.statusRoll_withSide r) rfl
  | clear haged => exact h.congr (fun p => by cases p <;> rfl) rfl rfl
  | @status rules age w w' r haged hrules hage hroll => exact .withStatus r haged hrules
  | @parentAge p status rules age w w' r haged hstatus hrules heligible hage hroll =>
    exact h.withParentAge r hstatus hrules heligible
  | charge f haged => exact h.congr (fun p => by cases p <;> rfl) rfl rfl
  | reread => exact h.congr (fun p => by cases p <;> rfl) rfl rfl

/-- Every move but one that brings another table keeps the invariant. -/
theorem next (h : ws.2.AgesFit) {m : Move} (hm : ∀ r, m ≠ .setParentRules r) :
    (m.next src ws).2.AgesFit := by
  rw [Move.next_snd]
  cases hset : m.isSetting with
  | false => exact (m.acts hset src ws).preserves (fun _ _ => of_act) h
  | true =>
    cases m with
    | setAge age => exact h.congr (fun p => by cases p <;> rfl) rfl rfl
    | setMapping m => exact h
    | setSiblingRules r => exact h
    | setParentRules r => exact absurd rfl (hm r)
    | setParentAge formula => exact h
    | _ => cases hset

/-- Every run in which the table stays the same keeps the invariant. -/
theorem playAll (h : ws.2.AgesFit) {ms : List Move} (hms : ∀ r, .setParentRules r ∉ ms) :
    (playAll src ws ms).2.AgesFit :=
  playAll_preserves (q := fun m => ∀ r, m ≠ .setParentRules r) (fun _ _ hm h => h.next hm)
    (fun _ hm r heq => hms r (heq ▸ hm)) h

end Session.AgesFit

/-! ### Rolls for the status -/

/-- A roll for the status that succeeds records it, and leaves the ages of those who are alive. -/
theorem playStatus_fits {r : StatusRoll} (h : playStatus src ws = .ok r ws')
    (haged : ws.2.family.hasAge = true) :
    ws'.2.AgesFit ∧ ws'.2.family.statusRoll = some r ∧
      ∀ p rules, ws.2.parentRules = some rules → rules.isEligible p r.status = true →
        ws'.2.family.parentAge p = ws.2.family.parentAge p := by
  obtain ⟨rules, age, w, hrules, -, -, hs⟩ := playStatus_ok h
  rw [hs]
  refine ⟨.withStatus r haged hrules, Family.statusRoll_withStatus _ _ r, ?_⟩
  intro p rules' hrules' heligible
  obtain rfl : rules' = rules := Option.some.inj (hrules'.symm.trans hrules)
  rw [Family.parentAge_withStatus _ _ _ _ haged, if_pos heligible]

/-- A move that answers with a status has rolled it, with the budget of the character charged or
not. -/
theorem Move.status_ok {m : Move} {r : StatusRoll} (hm : m = .rollParents ∨ m = .rerollParents)
    (h : m.play src ws = .ok (.status r) ws') :
    ws.2.family.hasAge = true ∧ ∃ w b,
      playStatus src (w, { ws.2 with family := { ws.2.family with budget := b } }) = .ok r ws' := by
  rcases hm with rfl | rfl
  · obtain ⟨_, ⟨⟩, hplay⟩ := answer_ok h nofun
    obtain ⟨haged, hplay⟩ := Play.ifAged_some_iff.mp hplay
    exact ⟨haged, ws.1, ws.2.family.budget, hplay⟩
  · obtain ⟨_, ⟨⟩, hplay⟩ := answer_ok h nofun
    obtain ⟨haged, w, hplay⟩ := reroll_ok hplay
    exact ⟨haged, w, _, hplay⟩

/-! ### Runs -/

/-- The recorded ages fit the status. This holds after every run that starts with a fresh family and
in which the table of statuses stays the same, whatever else is done; and it holds after every roll
or reroll of the status that gives one, wherever it is made, and the ages of the parents who are
alive under the new status stay as they are. -/
theorem recordedAges_fit_status (src : Source σ) (w : World σ) (s : Session) :
    (∀ age budget ms, (∀ r, .setParentRules r ∉ ms) →
      (playAll src (w, { s with family := .fresh age budget }) ms).2.AgesFit) ∧
    (∀ (m : Move) r w' s', m = .rollParents ∨ m = .rerollParents →
      m.play.outcome src w s = (.ok (.status r), w', s') →
      s'.AgesFit ∧ s'.family.statusRoll = some r ∧
        ∀ p rules, s.parentRules = some rules → rules.isEligible p r.status = true →
          s'.family.parentAge p = s.family.parentAge p) := by
  constructor
  · intro age budget ms hms
    refine Session.AgesFit.playAll (fun p hp => ?_) hms
    -- a fresh family has no recorded ages
    cases p <;> cases hp
  · intro m r w' s' hm h
    obtain ⟨haged, w₁, b, hplay⟩ := Move.status_ok hm (Play.outcome_ok h)
    obtain ⟨hfit, hstatus, hages⟩ := playStatus_fits hplay haged
    refine ⟨hfit, hstatus, fun p rules hrules heligible => ?_⟩
    rw [hages p rules hrules heligible]
    cases p <;> rfl

/-- A session in which the ages of both parents were rolled while the character was young. -/
def sampleParents : Session where
  family := {
    characterAge := some 70
    statusRoll := some ⟨"1T100 + characterApparentAge", 20, 23, Status.bothAlive⟩
    motherAge := some ⟨defaultParentAge, 20, 40, 40, none⟩
    fatherAge := some ⟨defaultParentAge, 20, 45, 45, none⟩ }

/-- The status that a move answers with, if it does. -/
def statusAfter (src : Source σ) (m : Move) (ws : World σ × Session) : Option StatusRoll :=
  match (m.play.outcome src ws.1 ws.2).1 with
  | .ok (.status r) => some r
  | .ok _ => none
  | .error _ => none

theorem exists_outcome_of_statusAfter {m : Move} {r : StatusRoll}
    (h : statusAfter src m ws = some r) :
    ∃ w' s', m.play.outcome src ws.1 ws.2 = (.ok (.status r), w', s') := by
  unfold statusAfter at h
  split at h
  · next r' heq =>
    cases h
    exact ⟨_, _, Prod.ext heq rfl⟩
  · cases h
  · cases h

/-- In a run the age of the mother is rolled and fits the status. In that session another roll for
the status takes away the age of the mother, who is dead now, and leaves the one of the father. -/
theorem recordedAges_fit_sample :
    (∃ s', (playAll (Source.constant 3 0) (World.start (), { family := .fresh (some 20) {} })
        [.rollParents, .rollAge .mother, .setAge (some 30), .rollYounger]).2 = s' ∧
      s'.family.motherAge.isSome = true ∧ s'.AgesFit) ∧
    ∃ r w' s', Move.rerollParents.play.outcome (Source.constant 3 0) (World.start ())
        sampleParents = (.ok (.status r), w', s') ∧
      r.status = Status.fatherAlive ∧ s'.family.motherAge = none ∧
      s'.family.parentAge .father = sampleParents.family.parentAge .father ∧ s'.AgesFit := by
  constructor
  · have hmother : (playAll (Source.constant 3 0) (World.start (),
        { family := .fresh (some 20) {} }) [.rollParents, .rollAge .mother, .setAge (some 30),
        .rollYounger]).2.family.motherAge.isSome = true := by decide +kernel
    refine ⟨_, rfl, hmother, (recordedAges_fit_status _ _ {}).1 _ _ _ fun r hr => ?_⟩
    simp at hr
  · obtain ⟨r, hr, hstatus⟩ := Option.map_eq_some_iff.mp (show
      (statusAfter (Source.constant 3 0) .rerollParents (World.start (), sampleParents)).map
        (·.status) = some Status.fatherAlive by decide +kernel)
    obtain ⟨w', s', h⟩ := exists_outcome_of_statusAfter hr
    have hmother : (Move.rerollParents.next (Source.constant 3 0)
        (World.start (), sampleParents)).2.family.motherAge.isNone = true := by decide +kernel
    rw [Move.next_of_outcome h] at hmother
    have halive : ({} : ParentRules).isEligible .father Status.fatherAlive = true := by
      decide +kernel
    obtain ⟨hfit, -, hkept⟩ := (recordedAges_fit_status _ _ _).2 _ r w' s' (.inr rfl) h
    refine ⟨r, w', s', h, hstatus, Option.isNone_iff_eq_none.mp hmother, hkept .father {} rfl ?_,
      hfit⟩
    rw [hstatus]
    exact halive

end Kindred
