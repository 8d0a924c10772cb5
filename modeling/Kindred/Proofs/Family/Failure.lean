import Kindred.Proofs.Family.Order
import Kindred.Proofs.Family.Tokens

/-!
# What a failed move leaves

Whatever a move has done before a fault stays done. Most moves record what they rolled at their very
end, so that they leave the session as it was. Two kinds of moves do something before: a reroll is
accounted for first, and before both sides are rolled all siblings are taken away.

- `Move.charged`: a session in which the reroll that a move asks for is accounted for.
- `reroll_error`, `rollAll_error`: the moves that do something first.
- `failed_play`: what each move leaves where it fails.
-/

namespace Kindred

variable {σ α : Type} {src : Source σ} {ws ws' : World σ × Session} {e : Fault}

/-- The session in which the reroll that a move asks for is accounted for. -/
def Move.charged (m : Move) (s : Session) : Session :=
  match m.facet? with
  | some f => { s with family := { s.family with budget := s.family.budget.charge f } }
  | none => s

/-! ### Moves that do something first -/

/-- A reroll that fails has been accounted for, and has done nothing else. -/
theorem reroll_error {f : Facet} {x : Play σ α} (hx : x.Failsafe)
    (h : Play.ifAged (do charge f; x) src ws = .error e ws') :
    ws'.2 = ws.2.charged f := by
  rcases bind_error_iff.mp (Play.ifAged_error_iff.mp h).2 with hcharge | ⟨_, ws₁, hcharge, hfail⟩
  · exact charge_error hcharge
  · rw [hx hfail, charge_ok hcharge]

/-- A roll of both sides that fails has taken away all siblings; where it was the younger side that
failed, the older one is there, with what was rolled for it. -/
theorem rollAll_error (h : rollAll src ws = .error e ws') :
    ws'.2 = ws.2.cleared ∨ ∃ r w, playSide .older src (ws.1, ws.2.cleared) = .ok r (w, ws'.2) ∧
      ws'.2 = { ws.2 with family := { ws.2.family with
        siblings := r.siblings, olderLitters := r.litters, olderRoll := r.roll } } := by
  have hplay := (Play.ifAged_error_iff.mp h).2
  rw [bind_error_iff] at hplay
  obtain hclear | ⟨_, _, hclear, hplay⟩ := hplay
  · cases hclear
  cases hclear
  rcases bind_error_iff.mp hplay with holder | ⟨r, ws₂, holder, hplay⟩
  · exact .inl (playSide_failsafe .older holder)
  · -- the older side was recorded before the younger one failed
    have hyounger : ws'.2 = ws₂.2 :=
      playSide_failsafe .younger (bind_pure_error_iff.mp hplay)
    refine .inr ⟨r, ws₂.1, hyounger ▸ holder, ?_⟩
    obtain ⟨hs, rules, age, w, -, -, hroll⟩ := playSide_ok holder
    rw [hyounger, hs, Family.withSide, (rollSide_ok hroll).1]
    show { ws.2 with family := { ws.2.family with
      siblings := r.siblings ++ [], olderLitters := r.litters, olderRoll := r.roll } } = _
    rw [List.append_nil]

/-! ### All moves -/

/-- What a move that fails leaves. A reroll has been accounted for. A roll of both sides has taken
away all siblings, and may have rolled the older ones anew. Everything else is as it was before. -/
theorem failed_play {m : Move} {w w' : World σ} {s s' : Session}
    (h : m.play.outcome src w s = (.error e, w', s')) :
    (m ≠ .rollAll → s' = m.charged s) ∧
    (m = .rollAll → s' = s.cleared ∨
      ∃ r w₁, playSide .older src (w, s.cleared) = .ok r (w₁, s') ∧
        s' = { s with family := { s.family with
          siblings := r.siblings, olderLitters := r.litters, olderRoll := r.roll } }) := by
  have hplay := Play.outcome_error h
  have hroll : ∀ {α : Type} {x : Play σ α} {g : Option α → Answer}, x.Failsafe →
      (do return g (← Play.ifAged x) : Play σ Answer) src (w, s) = .error e (w', s') → s' = s :=
    fun hx hfail => hx (Play.ifAged_error_iff.mp (bind_pure_error_iff.mp hfail)).2
  have hplain : ∀ {α : Type} {x : Play σ α} {g : α → Answer}, x.Failsafe →
      (do return g (← x) : Play σ Answer) src (w, s) = .error e (w', s') → s' = s :=
    fun hx hfail => hx (bind_pure_error_iff.mp hfail)
  constructor
  · intro hm
    cases m with
    | rollOlder => exact hroll (playSide_failsafe _) hplay
    | rollYounger => exact hroll (playSide_failsafe _) hplay
    | rollAll => exact absurd rfl hm
    | rerollOlder => exact reroll_error (playSide_failsafe _) (bind_pure_error_iff.mp hplay)
    | rerollYounger => exact reroll_error (playSide_failsafe _) (bind_pure_error_iff.mp hplay)
    | rollParents => exact hroll playStatus_failsafe hplay
    | rerollParents => exact reroll_error playStatus_failsafe (bind_pure_error_iff.mp hplay)
    | rollAge p => exact hplain (rollAge_failsafe p) hplay
    | canRollAge p => exact hplain (canRollAge_keeps p).failsafe hplay
    | characterApparentAge => exact hplain characterApparentAge_keeps.failsafe hplay
    | reload => exact hplain reload_failsafe hplay
    | setAge _ => cases hplay
    | setMapping _ => cases hplay
    | setSiblingRules _ => cases hplay
    | setParentRules _ => cases hplay
    | setParentAge _ => cases hplay
  · rintro rfl
    exact rollAll_error (bind_pure_error_iff.mp hplay)

/-- A mapping by which somebody of 1024 years looks too old for a double. -/
def boundlessLooks : AgeMapping := { apparentFormula := some "2^actualAge" }

/-- A session with one token, for a character who looks too old. -/
def sampleBoundless : Session :=
  { mapping := some boundlessLooks, family := .fresh (some 1024) { remaining := 1 } }

/-- In that session a reroll fails, and its token is gone. -/
theorem failed_rerollOlder : ∃ w' s', Move.rerollOlder.play.outcome (Source.constant 3 0)
    (World.start ()) sampleBoundless = (.error .tooLarge, w', s') ∧
    s' = Move.rerollOlder.charged sampleBoundless ∧ s'.family.budget.remaining = 0 := by
  obtain ⟨w', s', h⟩ := Play.exists_outcome_error (show faultOf? (Move.rerollOlder.play
    (Source.constant 3 0) (World.start (), sampleBoundless)) = some .tooLarge by decide +kernel)
  have hcharged := (failed_play h).1 nofun
  refine ⟨w', s', h, hcharged, ?_⟩
  rw [hcharged]
  rfl

/-- A run that rolls both sides of siblings for somebody who will look too old from then on. -/
def sampleRolled : World Unit × Session :=
  playAll (Source.constant 3 0) (World.start (), { family := .fresh (some 1024) {} })
    [.rollAll, .setMapping (some boundlessLooks)]

/-- A move that fails need not leave the family as it was. In a fresh session a reroll fails and has
taken the only token; and after both sides were rolled, rolling them again fails and has taken away
the siblings. -/
theorem failed_play_leaves_changes :
    (∃ e w' s', Move.rerollOlder.play.outcome (Source.constant 3 0) (World.start ())
        sampleBoundless = (.error e, w', s') ∧
      s'.family.budget ≠ sampleBoundless.family.budget) ∧
    ∃ e w' s', Move.rollAll.play.outcome (Source.constant 3 0) sampleRolled.1 sampleRolled.2 =
        (.error e, w', s') ∧
      sampleRolled.2.family.siblings.length = 2 ∧ s'.family.siblings.length = 0 := by
  constructor
  · obtain ⟨w', s', h⟩ := Play.exists_outcome_error (show faultOf? (Move.rerollOlder.play
      (Source.constant 3 0) (World.start (), sampleBoundless)) = some .tooLarge by decide +kernel)
    have hbudget : (Move.rerollOlder.next (Source.constant 3 0)
        (World.start (), sampleBoundless)).2.family.budget.remaining = 0 := by decide +kernel
    rw [Move.next_of_outcome h] at hbudget
    refine ⟨_, w', s', h, fun hsame => ?_⟩
    rw [hsame] at hbudget
    cases hbudget
  · obtain ⟨w', s', h⟩ := Play.exists_outcome_error (show faultOf? (Move.rollAll.play
      (Source.constant 3 0) (sampleRolled.1, sampleRolled.2)) = some .tooLarge by decide +kernel)
    have hsiblings : (Move.rollAll.next (Source.constant 3 0)
        (sampleRolled.1, sampleRolled.2)).2.family.siblings.length = 0 := by decide +kernel
    rw [Move.next_of_outcome h] at hsiblings
    exact ⟨_, w', s', h, by decide +kernel, hsiblings⟩

end Kindred
