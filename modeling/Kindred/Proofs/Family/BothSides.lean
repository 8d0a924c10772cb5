import Kindred.Proofs.Fixed
import Kindred.Proofs.Family.Step
import Kindred.Proofs.Sibling.Litters

/-!
# Both sides at once

Both sides of siblings can be rolled by themselves, from rules and an apparent age, or in a session,
where they pass through the family: it is emptied, each side is looked up and recorded, and how old
the character looks is found once for each side. Both ways come to the same, and ask the source the
same.

- `Mirrors`: a run of a play that ended as a run of a roll did.
- `playSide_mirrors`: one side in a session.
- `rollAll_eq_rollBothSides`: both sides.
-/

namespace Kindred

variable {σ α β : Type} {src : Source σ}

/-! ### Rolls inside a session -/

/-- Whether a run of a play ended as a run of a roll did, with the same draws; and if both gave a
value, with a session that was made of it. -/
inductive Mirrors (f : α → Session) :
    EStateM.Result Fault (World σ) α → EStateM.Result Fault (World σ × Session) α → Prop where
  | ok {a : α} {w v : World σ} (alike : w.Alike v) : Mirrors f (.ok a v) (.ok a (w, f a))
  | error {e : Fault} {w v : World σ} {s : Session} (alike : w.Alike v) :
      Mirrors f (.error e v) (.error e (w, s))

namespace Mirrors

variable {f : α → Session} {g : β → Session} {w v : World σ} {s : Session}

/-- A play mirrors a roll if its parts mirror the parts of the roll. -/
theorem bind {x : Roll σ α} {y : Play σ α} {k : α → Roll σ β} {l : α → Play σ β}
    (hx : Mirrors f (x src v) (y src (w, s)))
    (hk : ∀ a v' w', x src v = .ok a v' → w'.Alike v' →
      Mirrors g (k a src v') (l a src (w', f a))) :
    Mirrors g ((x >>= k) src v) ((y >>= l) src (w, s)) := by
  rw [run_bind, run_bind]
  cases hrun : x src v with
  | ok a v' =>
    rw [hrun] at hx
    generalize y src (w, s) = run at hx
    cases hx with
    | ok alike => exact hk a v' _ hrun alike
  | error e v' =>
    rw [hrun] at hx
    generalize y src (w, s) = run at hx
    cases hx with
    | error alike => exact .error alike

/-- A roll that does not look at its notes is mirrored by itself, inside a session. -/
theorem roll (src : Source σ) {x : Roll σ α} (hx : x.Blind) (h : w.Alike v) :
    Mirrors (fun _ => s) (x src v) (Play.roll x src (w, s)) := by
  have hx := hx src w v h
  rw [Play.run_roll]
  generalize x src w = left at hx
  generalize x src v = right at hx
  cases hx with
  | ok value state => cases value; exact .ok state
  | error state => exact .error state

end Mirrors

/-! ### One side -/

/-- Finds how old the character looks, without a line in the trace. -/
def Session.looks (s : Session) : Roll σ Int :=
  Roll.quietly (actualToApparent s.mapping (s.family.characterAge.getD 0))

theorem characterApparentAge_eq (src : Source σ) (w : World σ) (s : Session) :
    characterApparentAge src (w, s) = Play.roll s.looks src (w, s) := rfl

/-- The session with newly rolled siblings on one side. -/
def Session.withSide (s : Session) (r : SideRoll) : Session :=
  { s with family := s.family.withSide r }

/-- Newly rolled siblings do not change how old the character looks. -/
theorem Session.looks_withSide (s : Session) (r : SideRoll) :
    (s.withSide r).looks = (s.looks : Roll σ Int) := by
  unfold looks withSide
  rw [Family.characterAge_withSide]

/-- A side that is rolled in a session is rolled as it is by itself, for how old the character
looks, and with its litters numbered on from what is there. -/
theorem playSide_mirrors (src : Source σ) {s : Session} {rules : SiblingRules} {age : Int}
    {w v : World σ}
    (hrules : s.siblingRules = some rules)
    (hlooks : ∀ src (w : World σ), EndsAs w (.ok age) (s.looks src w)) (side : Side)
    (h : w.Alike v) :
    Mirrors s.withSide
      (rollSide side rules age s.mapping (s.family.firstLitter side) src v)
      (playSide side src (w, s)) := by
  obtain ⟨w₁, hage, halike⟩ : ∃ w₁, characterApparentAge src (w, s) = .ok age (w₁, s) ∧
      w₁.Alike w := by
    have hlooks := hlooks src w
    rw [characterApparentAge_eq, Play.run_roll]
    generalize s.looks src w = run at hlooks
    cases hlooks with
    | ok alike => exact ⟨_, rfl, alike⟩
  unfold playSide
  rw [run_bind, Play.family_eq]
  dsimp only
  rw [run_bind, hage]
  dsimp only
  rw [run_bind, Play.session_eq]
  dsimp only
  have hdemand : Play.demand side.firstRule s.siblingRules =
      (pure rules : Play σ SiblingRules) := by
    rw [hrules]
    rfl
  rw [hdemand, run_bind]
  show Mirrors _ _ ((Play.roll (rollSide side rules age s.mapping (s.family.firstLitter side)) >>=
    fun r => (do Play.changeFamily (·.withSide r); return r)) src (w₁, s))
  have hroll := Mirrors.roll src (s := s)
    (rollSide_stepwise side rules age s.mapping (s.family.firstLitter side)).blind
    (halike.trans h)
  rw [run_bind]
  generalize rollSide side rules age s.mapping (s.family.firstLitter side) src v = left at hroll
  generalize Play.roll _ src (w₁, s) = right at hroll
  cases hroll with
  | ok alike => exact .ok alike
  | error alike => exact .error alike

/-! ### Both sides -/

/-- A side that was rolled is that side, and its siblings say so. -/
theorem isOlder_of_rollSide {side : Side} {rules : SiblingRules} {age start : Int}
    {m : Option AgeMapping} {w w' : World σ} {r : SideRoll}
    (h : rollSide side rules age m start src w = .ok r w') :
    r.side = side ∧ ∀ b ∈ r.siblings, b.isOlder = (r.side == .older) := by
  obtain ⟨rfl, ls, w₁, hls, hsiblings⟩ := rollSide_ok h
  exact ⟨rfl, fun b hb => (litters_ok hls).1.isOlder_eq (hsiblings ▸ hb)⟩

/-- Both sides that are rolled in a session are rolled as they are by themselves. -/
theorem rollSides_mirrors (src : Source σ) (w : World σ) {s : Session} {rules : SiblingRules}
    {age : Int} (hrules : s.siblingRules = some rules)
    (hlooks : ∀ src (w : World σ), EndsAs w (.ok age) (s.looks src w)) :
    Mirrors (fun p => (s.cleared.withSide p.1).withSide p.2)
      (rollBothSides rules age s.mapping src w)
      ((do
        Play.changeFamily fun f => { f with siblings := [] }
        let older ← playSide .older
        let younger ← playSide .younger
        return (older, younger) : Play σ (SideRoll × SideRoll)) src (w, s)) := by
  rw [run_bind, Play.changeFamily_eq]
  have hold := playSide_mirrors src (s := s.cleared) hrules hlooks .older (.refl w)
  refine Mirrors.bind hold fun older v w' hrun halike => ?_
  obtain ⟨hside, hmembers⟩ := isOlder_of_rollSide hrun
  -- the character looks as before, and the younger litters are numbered on from those just rolled
  have hfirst : (s.cleared.withSide older).family.firstLitter .younger =
      maxLitter older.siblings + 1 := by
    have hon := Family.on_withSide (f := s.cleared.family) hmembers
    rw [hside] at hon
    exact congrArg (maxLitter · + 1) hon
  have hyoung := playSide_mirrors src (s := s.cleared.withSide older) hrules
    (by rw [Session.looks_withSide]; exact hlooks) .younger halike
  rw [hfirst] at hyoung
  exact hyoung.bind fun younger v w' hrun halike => .ok halike

/-- The session after both sides were rolled. -/
theorem withSide_withSide {s : Session} {rules : SiblingRules} {age : Int} {m : Option AgeMapping}
    {w : World σ} {p : SideRoll × SideRoll}
    (h : ((rollBothSides rules age m).outcome src w).1 = .ok p) :
    (s.cleared.withSide p.1).withSide p.2 = { s with family := { s.family with
      siblings := p.1.siblings ++ p.2.siblings
      olderLitters := p.1.litters
      youngerLitters := p.2.litters
      olderRoll := p.1.roll
      youngerRoll := p.2.roll } } := by
  obtain ⟨w', h⟩ := Roll.exists_of_outcome_ok h
  obtain ⟨older, w₁, hold, h⟩ := bind_ok_iff.mp h
  obtain ⟨younger, hyoung, rfl⟩ := bind_pure_ok_iff.mp h
  obtain ⟨hside, hmembers⟩ := isOlder_of_rollSide hold
  obtain ⟨hside', -⟩ := isOlder_of_rollSide hyoung
  rw [hside] at hmembers
  have hfilter : older.siblings.filter (·.isOlder) = older.siblings :=
    List.filter_eq_self.mpr hmembers
  unfold Session.withSide Session.cleared Family.withSide Family.older Family.younger
  simp only [hside, hside', List.filter_nil, List.append_nil, hfilter]

/-- What an outcome shows of a play that mirrors a roll. -/
theorem Mirrors.outcome {f : α → Session} {x : Roll σ α} {y : Play σ α} {w v : World σ}
    {s : Session} (h : Mirrors f (x src v) (y src (w, s))) :
    (y.outcome src w s).1 = (x.outcome src v).1 ∧
      (y.outcome src w s).2.1.Alike (x.outcome src v).2 ∧
      ∀ a, (x.outcome src v).1 = .ok a → (y.outcome src w s).2.2 = f a := by
  unfold Play.outcome Roll.outcome
  generalize x src v = left at h
  generalize y src (w, s) = right at h
  cases h with
  | ok alike =>
    refine ⟨rfl, alike, ?_⟩
    rintro _ ⟨⟩
    rfl
  | error alike => exact ⟨rfl, alike, fun a h => by cases h⟩

/-- With an age, a play that needs one ends as it would by itself. -/
theorem Play.outcome_ifAged {x : Play σ α} {w : World σ} {s : Session}
    (haged : s.family.hasAge = true) : (Play.ifAged x).outcome src w s =
      ((x.outcome src w s).1.map some, (x.outcome src w s).2) := by
  unfold Play.outcome
  rw [Play.ifAged_of_hasAge haged, map_eq_pure_bind, run_bind]
  cases x src (w, s) <;> rfl

/-- Where it cannot be found how old the character looks, no side is rolled. -/
theorem playSide_of_looks_error (src : Source σ) (side : Side) (w : World σ) {s : Session}
    {e : Fault} (hlooks : ∀ src (w : World σ), EndsAs w (.error e) (s.looks src w)) :
    ∃ w', w'.Alike w ∧ playSide side src (w, s) = .error e (w', s) := by
  have hage : ∃ w', w'.Alike w ∧ characterApparentAge src (w, s) = .error e (w', s) := by
    have hlooks := hlooks src w
    rw [characterApparentAge_eq, Play.run_roll]
    generalize s.looks src w = run at hlooks
    cases hlooks with
    | error alike => exact ⟨_, alike, rfl⟩
  obtain ⟨w', halike, hage⟩ := hage
  refine ⟨w', halike, ?_⟩
  unfold playSide
  rw [run_bind, Play.family_eq]
  dsimp only
  rw [run_bind, hage]

/-- A character with an age and with rules for siblings rolls both sides in a session as they are
rolled by themselves for how old the character looks: with the same siblings or the same fault, and
with the same draws, whatever was there before. Afterwards the siblings are the older ones followed
by the younger ones, with the numbers of litters and what was rolled for these. If it cannot be
found how old the character looks, nothing is rolled. -/
theorem rollAll_eq_rollBothSides (src : Source σ) (w : World σ) {s : Session} {rules : SiblingRules}
    (haged : s.family.hasAge = true) (hrules : s.siblingRules = some rules) :
    (characterApparentAge.outcome src w s).2.1.Alike w ∧
    (∀ e, (characterApparentAge.outcome src w s).1 = .error e →
      (rollAll.outcome src w s).1 = .error e ∧ (rollAll.outcome src w s).2.1.Alike w) ∧
    ∀ age, (characterApparentAge.outcome src w s).1 = .ok age →
      (rollAll.outcome src w s).1 =
        ((rollBothSides rules age s.mapping).outcome src w).1.map some ∧
      (rollAll.outcome src w s).2.1.Alike ((rollBothSides rules age s.mapping).outcome src w).2 ∧
      ∀ older younger,
        ((rollBothSides rules age s.mapping).outcome src w).1 = .ok (older, younger) →
        (rollAll.outcome src w s).2.2 = { s with family := { s.family with
          siblings := older.siblings ++ younger.siblings
          olderLitters := older.litters
          youngerLitters := younger.litters
          olderRoll := older.roll
          youngerRoll := younger.roll } } := by
  obtain ⟨result, hlooks⟩ : (s.looks : Roll σ Int).Fixed :=
    ⟨_, (actualToApparent_comesTo _ _).quietly⟩
  have hage : (characterApparentAge.outcome src w s).1 = result ∧
      (characterApparentAge.outcome src w s).2.1.Alike w := by
    have hlooks := hlooks src w
    unfold Play.outcome
    rw [characterApparentAge_eq, Play.run_roll]
    generalize s.looks src w = run at hlooks
    cases hlooks with
    | ok alike => exact ⟨rfl, alike⟩
    | error alike => exact ⟨rfl, alike⟩
  obtain ⟨hresult, halike⟩ := hage
  refine ⟨halike, fun e he => ?_, fun age hage => ?_⟩
  · obtain rfl : result = .error e := hresult.symm.trans he
    obtain ⟨w', halike, hside⟩ :=
      playSide_of_looks_error src .older w (s := s.cleared) hlooks
    unfold rollAll
    rw [Play.outcome_ifAged haged]
    unfold Play.outcome
    rw [run_bind, Play.changeFamily_eq]
    dsimp only
    rw [run_bind]
    have hside : playSide .older src (w, { s with family := { s.family with siblings := [] } }) =
      .error e (w', s.cleared) := hside
    rw [hside]
    exact ⟨rfl, halike⟩
  · obtain rfl : result = .ok age := hresult.symm.trans hage
    obtain ⟨hvalue, hdraws, hsession⟩ := (rollSides_mirrors src w hrules hlooks).outcome
    unfold rollAll
    rw [Play.outcome_ifAged haged]
    refine ⟨congrArg (Except.map some) hvalue, hdraws, fun older younger hboth => ?_⟩
    rw [hsession _ hboth]
    exact withSide_withSide hboth

/-- A session with a mapping, in which an older sibling is recorded. -/
def sampleMapped : Session where
  mapping := some { table := [⟨40, 49, 20⟩, ⟨50, 59, 23⟩] }
  family := {
    characterAge := some 45
    siblings := [⟨7, 1, 90, "female", true, "90", Side.older.relationship⟩]
    olderLitters := 7 }

/-- In that session the character looks 20 years old, and each side has one litter: the older one
looks 23, the younger one 17. -/
theorem rollAll_eq_rollBothSides_sample :
    (rollAll.outcome (Source.constant 3 0) (World.start ()) sampleMapped).1 =
      ((rollBothSides {} 20 sampleMapped.mapping).outcome (Source.constant 3 0)
        (World.start ())).1.map some ∧
    (rollAll.outcome (Source.constant 3 0) (World.start ()) sampleMapped).2.1.Alike
      ((rollBothSides {} 20 sampleMapped.mapping).outcome (Source.constant 3 0)
        (World.start ())).2 ∧
    (rollAll.outcome (Source.constant 3 0) (World.start ())
      sampleMapped).2.2.family.siblings.map (·.age) = [50, 17] := by
  obtain ⟨-, -, hrolled⟩ := rollAll_eq_rollBothSides (Source.constant 3 0) (World.start ())
    (s := sampleMapped) (by decide) (rfl : sampleMapped.siblingRules = some {})
  obtain ⟨hvalue, hdraws, -⟩ := hrolled 20 rfl
  exact ⟨hvalue, hdraws, by decide +kernel⟩

end Kindred
