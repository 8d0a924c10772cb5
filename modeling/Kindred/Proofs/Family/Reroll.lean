import Kindred.Proofs.Family.Step
import Kindred.Proofs.Sibling.Litters

/-!
# Rolling one side again

A side that is rolled, for the first time or again, is recorded as it was rolled, and everything on
the other side and about the parents stays. Younger litters are numbered on from the older ones that
are there at that time.

- `Family.Replaced`: what rolling one side changes, and what it leaves alone.
- `Session.NumberedOn`: the numbers of the younger litters right after they were rolled.
- `Move.side_ok`, `Move.sides_ok`: the moves that roll one side, or both.
- `play_rolled_siblings`: what holds after each of them.
-/

namespace Kindred

variable {σ : Type} {src : Source σ} {ws ws' : World σ × Session}

/-! ### What holds after a roll -/

/-- Whether a family differs from another one by nothing but newly rolled siblings on one side (and
the budget). -/
structure Family.Replaced (f : Family) (r : SideRoll) (g : Family) : Prop where
  on_side : g.on r.side = r.siblings
  litters_side : g.litters r.side = r.litters
  litterRoll_side : g.litterRoll r.side = r.roll
  on_other : g.on r.side.other = f.on r.side.other
  litters_other : g.litters r.side.other = f.litters r.side.other
  litterRoll_other : g.litterRoll r.side.other = f.litterRoll r.side.other
  statusRoll_eq : g.statusRoll = f.statusRoll
  parentAge_eq : ∀ p, g.parentAge p = f.parentAge p

/-- Whether the younger litters of a session, which the source has just rolled, are numbered on from
the older ones. -/
structure Session.NumberedOn (src : Source σ) (s : Session) (w' : World σ) : Prop where
  /-- Their numbers lie in a window behind the older ones. -/
  window : ∀ b ∈ s.family.younger, maxLitter s.family.older + 1 ≤ b.litter ∧
    b.litter ≤ maxLitter s.family.older + s.family.youngerLitters
  /-- If none of the litters that were rolled is empty, every number of the window is there. -/
  numbers : ∃ rules age w ls n, s.siblingRules = some rules ∧ s.family.youngerLitters = (n : Nat) ∧
    litters .younger rules age s.mapping n (maxLitter s.family.older + 1) src w = .ok ls w' ∧
    s.family.younger = ls.flatten ∧
    ((∀ l ∈ ls, l ≠ []) → ∀ k, (∃ b ∈ s.family.younger, b.litter = k) ↔
      maxLitter s.family.older + 1 ≤ k ∧ k ≤ maxLitter s.family.older + s.family.youngerLitters)

/-- A side that was rolled is recorded, and nothing else changes. -/
theorem playSide_replaced {side : Side} {r : SideRoll} (h : playSide side src ws = .ok r ws') :
    r.side = side ∧ ws.2.family.Replaced r ws'.2.family := by
  obtain ⟨hs, rules, age, w, -, -, hroll⟩ := playSide_ok h
  obtain ⟨hside, ls, w₁, hls, hsiblings⟩ := rollSide_ok hroll
  have hmem : ∀ b ∈ r.siblings, b.isOlder = (r.side == .older) := by
    intro b hb
    rw [hside]
    exact (litters_ok hls).1.isOlder_eq (hsiblings ▸ hb)
  refine ⟨hside, ?_⟩
  rw [hs]
  exact {
    on_side := Family.on_withSide hmem
    litters_side := ws.2.family.litters_withSide r
    litterRoll_side := ws.2.family.litterRoll_withSide r
    on_other := Family.on_withSide_other hmem
    litters_other := ws.2.family.litters_withSide_other r
    litterRoll_other := ws.2.family.litterRoll_withSide_other r
    statusRoll_eq := ws.2.family.statusRoll_withSide r
    parentAge_eq := ws.2.family.parentAge_withSide r }

/-- Younger siblings that were rolled are numbered on from the older ones. -/
theorem playSide_numberedOn {r : SideRoll} (h : playSide .younger src ws = .ok r ws') :
    ws'.2.NumberedOn src ws'.1 := by
  obtain ⟨hside, hreplaced⟩ := playSide_replaced h
  obtain ⟨hs, rules, age, w, hrules, -, hroll⟩ := playSide_ok h
  obtain ⟨-, ls, w₁, hls, hsiblings⟩ := rollSide_ok hroll
  obtain ⟨hlitters, hlength⟩ := litters_ok hls
  have hyoung := hreplaced.on_side
  have hcount := hreplaced.litters_side
  have hold := hreplaced.on_other
  rw [hside] at hyoung hcount hold
  have hyoung : ws'.2.family.younger = ls.flatten := hyoung.trans hsiblings
  have hcount : ws'.2.family.youngerLitters = r.litters := hcount
  have hold : ws'.2.family.older = ws.2.family.older := hold
  -- the older siblings were not rolled, so their greatest number is the one counted on from
  have hfirst : ws.2.family.firstLitter .younger = maxLitter ws'.2.family.older + 1 := by
    rw [hold]
    rfl
  rw [hfirst] at hls hlitters
  have hmapping : ws'.2.mapping = ws.2.mapping := by rw [hs]
  have hrules' : ws'.2.siblingRules = some rules := by rw [hs]; exact hrules
  have hwindow : ∀ b ∈ ws'.2.family.younger, maxLitter ws'.2.family.older + 1 ≤ b.litter ∧
      b.litter ≤ maxLitter ws'.2.family.older + ws'.2.family.youngerLitters := by
    intro b hb
    have hb := hlitters.litter_mem (hyoung ▸ hb)
    omega
  refine ⟨hwindow, rules, age, w₁, ls, r.litters, hrules', hcount, ?_, hyoung, fun hne k => ?_⟩
  · rw [hmapping]
    exact hls
  constructor
  · rintro ⟨b, hb, rfl⟩
    exact hwindow b hb
  · rintro ⟨hlow, hhigh⟩
    rw [hyoung]
    exact hlitters.exists_litter hne hlow (by omega)

/-! ### The moves that roll siblings -/

namespace Move

/-- The side that a move rolls. -/
def side? : Move → Option Side
  | rollOlder => some .older
  | rerollOlder => some .older
  | rollYounger => some .younger
  | rerollYounger => some .younger
  | _ => none

/-- A move that answers with a side has rolled it, with the budget of the character charged or
not. -/
theorem side_ok {m : Move} {r : SideRoll} (h : m.play src ws = .ok (.side r) ws') :
    ∃ side w b, m.side? = some side ∧
      playSide side src (w, { ws.2 with family := { ws.2.family with budget := b } }) =
        .ok r ws' := by
  cases m with
  | rollOlder | rollYounger =>
    obtain ⟨_, ⟨⟩, hplay⟩ := answer_ok h nofun
    exact ⟨_, ws.1, ws.2.family.budget, rfl, (Play.ifAged_some_iff.mp hplay).2⟩
  | rerollOlder | rerollYounger =>
    obtain ⟨_, ⟨⟩, hplay⟩ := answer_ok h nofun
    obtain ⟨-, w, hplay⟩ := reroll_ok hplay
    exact ⟨_, w, _, rfl, hplay⟩
  -- the other moves answer with something else
  | rollAll => obtain ⟨⟨_, _⟩, ⟨⟩, _⟩ := answer_ok h nofun
  | rollParents | rerollParents | rollAge p => obtain ⟨_, ⟨⟩, _⟩ := answer_ok h nofun
  | _ => obtain ⟨_, _, ⟨⟩⟩ := bind_pure_ok_iff.mp h

/-- The move that answers with both sides has rolled the older one first, and then the younger
one. -/
theorem sides_ok {older younger : SideRoll}
    (h : Move.rollAll.play src ws = .ok (.sides older younger) ws') :
    ∃ ws₁, playSide .older src (ws.1, { ws.2 with family := { ws.2.family with siblings := [] } }) =
      .ok older ws₁ ∧ playSide .younger src ws₁ = .ok younger ws' := by
  obtain ⟨⟨_, _⟩, ⟨⟩, hplay⟩ := answer_ok h nofun
  obtain ⟨_, _, ⟨⟩, hplay⟩ := bind_ok_iff.mp (Play.ifAged_some_iff.mp hplay).2
  obtain ⟨_, ws₁, hold, hplay⟩ := bind_ok_iff.mp hplay
  obtain ⟨_, hyoung, ⟨⟩⟩ := bind_pure_ok_iff.mp hplay
  exact ⟨ws₁, hold, hyoung⟩

/-- With an age, a move that rolls one side answers with it. -/
theorem answer_side {m : Move} {side : Side} {answer : Answer} (hm : m.side? = some side)
    (haged : ws.2.family.hasAge = true) (h : m.play src ws = .ok answer ws') :
    ∃ r, answer = .side r := by
  cases m with
  | rollOlder | rollYounger | rerollOlder | rerollYounger =>
    obtain ⟨r, rfl, _⟩ := answer_ifAged_ok haged h
    exact ⟨r, rfl⟩
  | _ => cases hm

theorem answer_sides {answer : Answer} (haged : ws.2.family.hasAge = true)
    (h : Move.rollAll.play src ws = .ok answer ws') :
    ∃ older younger, answer = .sides older younger := by
  obtain ⟨⟨older, younger⟩, rfl, _⟩ := answer_ifAged_ok haged h
  exact ⟨older, younger, rfl⟩

end Move

/-- What holds after the siblings of a character with an age were rolled, for the first time or
again. Where one side was rolled, it is what the move answered with, and the other side and the
parents are as they were. Where younger siblings were rolled, their litters are numbered on from the
older ones. -/
theorem play_rolled_siblings {m : Move} {w w' : World σ} {s s' : Session} {answer : Answer}
    (haged : s.family.hasAge = true) (h : m.play.outcome src w s = (.ok answer, w', s')) :
    (∀ side, m.side? = some side → ∃ r, answer = .side r ∧ r.side = side ∧
      s.family.Replaced r s'.family ∧ (side = .younger → s'.NumberedOn src w')) ∧
    (m = .rollAll → s'.NumberedOn src w') := by
  have hplay := Play.outcome_ok h
  constructor
  · intro side hm
    obtain ⟨r, rfl⟩ := Move.answer_side hm haged hplay
    obtain ⟨side', w₁, b, hm', hside⟩ := Move.side_ok hplay
    obtain rfl : side' = side := Option.some.inj (hm'.symm.trans hm)
    obtain ⟨hr, hreplaced⟩ := playSide_replaced hside
    -- the budget is no part of what is compared
    refine ⟨r, rfl, hr, ⟨hreplaced.on_side, hreplaced.litters_side, hreplaced.litterRoll_side,
      hreplaced.on_other, hreplaced.litters_other, hreplaced.litterRoll_other,
      hreplaced.statusRoll_eq, hreplaced.parentAge_eq⟩, ?_⟩
    rintro rfl
    exact playSide_numberedOn hside
  · rintro rfl
    obtain ⟨older, younger, rfl⟩ := Move.answer_sides haged hplay
    obtain ⟨ws₁, -, hyoung⟩ := Move.sides_ok hplay
    exact playSide_numberedOn hyoung

/-- A session in which two litters of older siblings were rolled, of which the first is empty. -/
def sampleSession : Session where
  siblingRules := some {
    litters := "1T6"
    litterSize := "2"
    youngerAge := ""
    gender := "1T6:1-6=kvinna" }
  family := {
    characterAge := some 20
    siblings := [⟨2, 1, 22, "kvinna", true, "22", Side.older.relationship⟩]
    olderLitters := 2 }

/-- In that session three litters of younger siblings come third to fifth. -/
theorem sampleSession_rerollYounger : ∃ r w' s',
    Move.rerollYounger.play.outcome (Source.constant 3 0) (World.start ()) sampleSession =
      (.ok (.side r), w', s') ∧
    s'.family.younger.map (·.litter) = [3, 3, 4, 4, 5, 5] ∧
    sampleSession.family.Replaced r s'.family ∧ s'.NumberedOn (Source.constant 3 0) w' := by
  have hok : (Move.rerollYounger.play.outcome (Source.constant 3 0) (World.start ())
      sampleSession).1.isOk = true := by decide +kernel
  have hlitters : (Move.rerollYounger.play.outcome (Source.constant 3 0) (World.start ())
      sampleSession).2.2.family.younger.map (·.litter) = [3, 3, 4, 4, 5, 5] := by decide +kernel
  cases h : Move.rerollYounger.play.outcome (Source.constant 3 0) (World.start ())
      sampleSession with
  | mk result after =>
    obtain ⟨w', s'⟩ := after
    rw [h] at hok hlitters
    cases result with
    | error e => cases hok
    | ok answer =>
      obtain ⟨r, rfl, -, hreplaced, hnumbered⟩ :=
        (play_rolled_siblings (by decide) h).1 .younger rfl
      exact ⟨r, w', s', rfl, hlitters, hreplaced, hnumbered rfl⟩

end Kindred
