import Mathlib.Logic.Relation
import Kindred.Proofs.Family.Saved
import Kindred.Proofs.Family.View

/-!
# What a move can do to a session

Every move comes down to a few changes of the session, each of which happens only under certain
conditions. What all changes preserve, every run preserves.

- `playSide_ok`, `playStatus_ok`, `rollAge_ok_some`, `charge_eq`, `answer_ok`: the single steps of
  moves.
- `Act`: what is done to a session under the rules in force; `Acts`: several of these.
- `Change`: an act, another age or other rules; `Changes`: several of these.
- `Move.acts`, `Move.changes`: what a move comes down to, however it ends.
- `playAll`: a run of moves, where a fault ends a move but not the run.
- `playAll_preserves`, `playAll_changes`: what a run preserves, and what it comes down to.
-/

namespace Kindred

open Relation Kindred.Text

variable {σ α β : Type} {src : Source σ} {ws ws' : World σ × Session}

/-! ### Single steps -/

/-- The session without siblings. -/
def Session.cleared (s : Session) : Session :=
  { s with family := { s.family with siblings := [] } }

/-- The session in which a reroll is accounted for. -/
def Session.charged (s : Session) (f : Facet) : Session :=
  { s with family := { s.family with budget := s.family.budget.charge f } }

/-- Looking up the apparent age leaves the session as it is. -/
theorem characterApparentAge_keeps {γ : Type} {view : Session → γ} :
    (characterApparentAge : Play σ Int).Keeps view :=
  Play.Keeps.session.bind fun _ => .roll _

/-- A side that was rolled is recorded, with its litters numbered on from what was there. -/
theorem playSide_ok {side : Side} {r : SideRoll} (h : playSide side src ws = .ok r ws') :
    ws'.2 = { ws.2 with family := ws.2.family.withSide r } ∧
      ∃ rules age w, ws.2.siblingRules = some rules ∧
        (∃ s, characterApparentAge src ws = .ok age (w, s)) ∧
        rollSide side rules age ws.2.mapping (ws.2.family.firstLitter side) src w =
          .ok r ws'.1 := by
  unfold playSide at h
  simp only [bind_ok_iff, pure_ok_iff, Play.family_eq, Play.session_eq, Play.changeFamily_eq,
    Play.roll_ok_iff, Play.demand_ok_iff] at h
  obtain ⟨_, _, hf, age, wa, hage, _, _, hs, rules, _, ⟨hrules, rfl⟩, _, ⟨w₁, s₁⟩, ⟨hroll, hsame⟩,
    _, _, hchange, rfl, rfl⟩ := h
  cases hf
  cases hs
  cases hchange
  -- looking up the age and rolling left the session as it was
  have hage' : wa.2 = ws.2 := characterApparentAge_keeps.eq_of_ok hage
  rw [hage'] at hsame hrules hroll
  subst hsame
  exact ⟨rfl, rules, age, wa.1, hrules, ⟨wa.2, hage⟩, hroll⟩

/-- A side that was not rolled leaves the session as it is. -/
theorem playSide_failsafe (side : Side) : (playSide side : Play σ SideRoll).Failsafe :=
  .bind .family fun _ => .bind characterApparentAge_keeps fun _ => .bind .session fun _ =>
    .bind (.demand _) fun _ => .bind (.roll _) fun _ => .changeFamily _ _

/-- A status that was rolled is recorded, and the ages of parents who are dead are dropped. -/
theorem playStatus_ok {r : StatusRoll} (h : playStatus src ws = .ok r ws') :
    ∃ rules age w, ws.2.parentRules = some rules ∧
      (∃ s, characterApparentAge src ws = .ok age (w, s)) ∧
      rollStatus rules age src w = .ok r ws'.1 ∧
      ws'.2 = { ws.2 with family := ws.2.family.withStatus rules r } := by
  unfold playStatus at h
  simp only [bind_ok_iff, pure_ok_iff, Play.session_eq, Play.changeFamily_eq, Play.roll_ok_iff,
    Play.demand_ok_iff] at h
  obtain ⟨age, wa, hage, _, _, hs, rules, _, ⟨hrules, rfl⟩, _, ⟨w₁, s₁⟩, ⟨hroll, hsame⟩, _, _,
    hchange, rfl, rfl⟩ := h
  cases hs
  cases hchange
  have hage' : wa.2 = ws.2 := characterApparentAge_keeps.eq_of_ok hage
  rw [hage'] at hsame hrules
  subst hsame
  exact ⟨rules, age, wa.1, hrules, ⟨wa.2, hage⟩, hroll, rfl⟩

theorem playStatus_failsafe : (playStatus : Play σ StatusRoll).Failsafe :=
  .bind characterApparentAge_keeps fun _ => .bind .session fun _ => .bind (.demand _) fun _ =>
    .bind (.roll _) fun _ => .changeFamily _ _

theorem canRollAge_keeps {γ : Type} {view : Session → γ} (p : Parent) :
    (canRollAge p : Play σ Bool).Keeps view := by
  refine Play.Keeps.session.bind fun s => ?_
  cases s.family.hasAge with
  | false => exact .pure false
  | true =>
    cases s.family.status with
    | none => exact .pure false
    | some status => exact (Play.Keeps.demand _).bind fun rules => .pure _

/-- The age of a parent can be rolled only with an age, and if the parent is alive. -/
theorem canRollAge_ok {p : Parent} (h : canRollAge p src ws = .ok true ws') :
    ws.2.family.hasAge = true ∧ ∃ status rules, ws.2.family.status = some status ∧
      ws.2.parentRules = some rules ∧ rules.isEligible p status = true := by
  unfold canRollAge at h
  rw [bind_ok_iff] at h
  obtain ⟨_, _, hs, h⟩ := h
  cases hs
  cases haged : ws.2.family.hasAge with
  | false =>
    rw [haged] at h
    cases (pure_ok_iff.mp h).1
  | true =>
    cases hstatus : ws.2.family.status with
    | none =>
      rw [haged, hstatus] at h
      cases (pure_ok_iff.mp h).1
    | some status =>
      simp only [haged, hstatus, bind_ok_iff, pure_ok_iff, Play.demand_ok_iff] at h
      obtain ⟨rules, _, ⟨hrules, -⟩, heligible, -⟩ := h
      exact ⟨rfl, status, rules, rfl, hrules, heligible⟩

/-- An age that was rolled is recorded. -/
theorem rollAge_ok_some {p : Parent} {r : ParentAge} (h : rollAge p src ws = .ok (some r) ws') :
    ws'.2 = { ws.2 with family := ws.2.family.withParentAge p (some r) } ∧
      (∃ w, canRollAge p src ws = .ok true w) ∧
      ∃ age w, (∃ w₁ s, characterApparentAge src (w₁, ws.2) = .ok age (w, s)) ∧
        rollParentAge ws.2.parentAge ws.2.family.siblings age ws.2.mapping src w = .ok r ws'.1 := by
  unfold rollAge at h
  rw [bind_ok_iff] at h
  obtain ⟨can, wc, hcan, h⟩ := h
  have hcan' : wc.2 = ws.2 := (canRollAge_keeps p).eq_of_ok hcan
  cases can with
  | false =>
    rw [if_neg Bool.false_ne_true] at h
    simp only [bind_ok_iff, pure_ok_iff] at h
    obtain ⟨_, _, _, _, _, _, hne, _⟩ := h
    cases hne
  | true =>
    rw [if_pos rfl] at h
    simp only [bind_ok_iff, pure_ok_iff, Play.session_eq, Play.changeFamily_eq,
      Play.roll_ok_iff] at h
    obtain ⟨age, wa, hage, _, _, hs, r', ⟨w₁, s₁⟩, ⟨hroll, hsame⟩, _, _, hchange, hr, rfl⟩ := h
    cases hs
    cases hchange
    cases hr
    have hage' : wa.2 = wc.2 := characterApparentAge_keeps.eq_of_ok hage
    rw [hage', hcan'] at hsame hroll
    subst hsame
    exact ⟨rfl, ⟨wc, hcan⟩, age, wa.1, ⟨wc.1, wa.2, by rw [← hcan']; exact hage⟩, hroll⟩

/-- Without an age that was rolled the session is as it was. -/
theorem rollAge_ok_none {p : Parent} (h : rollAge p src ws = .ok none ws') : ws'.2 = ws.2 := by
  unfold rollAge at h
  rw [bind_ok_iff] at h
  obtain ⟨can, wc, hcan, h⟩ := h
  have hcan' : wc.2 = ws.2 := (canRollAge_keeps p).eq_of_ok hcan
  cases can with
  | false =>
    rw [if_neg Bool.false_ne_true] at h
    -- the note that nothing is rolled goes to the trace only
    have hkeep : (do
        let status := (← Play.family).status
        Play.roll (Roll.note "Fam" ("no " ++ p.name ++ " age to roll (status " ++
          statusText status ++ ")"))
        return none : Play σ (Option ParentAge)).Keeps id :=
      Play.Keeps.family.bind fun _ => (Play.Keeps.roll _).bind fun _ => .pure none
    exact (hkeep.eq_of_ok h).trans hcan'
  | true =>
    rw [if_pos rfl] at h
    obtain ⟨age, w₁, -, h⟩ := bind_ok_iff.mp h
    obtain ⟨s, w₂, -, h⟩ := bind_ok_iff.mp h
    obtain ⟨r, w₃, -, h⟩ := bind_ok_iff.mp h
    obtain ⟨_, w₄, -, h⟩ := bind_ok_iff.mp h
    cases (pure_ok_iff.mp h).1

theorem rollAge_failsafe (p : Parent) : (rollAge p : Play σ (Option ParentAge)).Failsafe := by
  refine .bind (canRollAge_keeps p) fun can => ?_
  cases can with
  | false =>
    rw [if_neg Bool.false_ne_true]
    exact (Play.Keeps.family.bind fun _ => (Play.Keeps.roll _).bind fun _ => .pure none).failsafe
  | true =>
    rw [if_pos rfl]
    exact .bind characterApparentAge_keeps fun _ => .bind .session fun _ => .bind (.roll _)
      fun _ => .changeFamily _ _

/-- Tokens that can be written into a line can be after a reroll, too. -/
theorem RerollBudget.short_charge {b : RerollBudget} (h : Short b.remaining) (f : Facet) :
    Short (b.charge f).remaining := by
  have hle : (b.charge f).remaining ≤ b.remaining := by
    unfold charge
    split
    · rw [remaining_markUsed]
      exact Nat.sub_le _ 1
    · exact Nat.le_refl _
  exact short_of_natAbs_le h (by omega)

/-- Accounting for a reroll changes nothing but the budget. It fails at the end if the tokens that
are left have too many digits to be written into its line. -/
theorem charge_eq (f : Facet) (src : Source σ) (ws : World σ × Session) :
    ∃ w : World σ, (w.chance = ws.1.chance ∧ w.draws = ws.1.draws) ∧ charge f src ws =
      if Short (ws.2.family.budget.charge f).remaining then .ok () (w, ws.2.charged f)
      else .error .integerTooLong (w, ws.2.charged f) := by
  -- the remark that there is no token left goes to the log only
  have hrest : ∀ v : World σ, (v.chance = ws.1.chance ∧ v.draws = ws.1.draws) → ∃ w : World σ,
      (w.chance = ws.1.chance ∧ w.draws = ws.1.draws) ∧ (do
        Play.changeFamily fun fam => { fam with budget := ws.2.family.budget.charge f }
        Play.roll (Roll.tell "Reroll" do
          return f.name ++ ": " ++ (if ws.2.family.budget.pays f then "1 token" else "free") ++
            ", " ++ (← writeNumeral (ws.2.family.budget.charge f).remaining) ++ " left") :
          Play σ Unit) src (v, ws.2) =
        if Short (ws.2.family.budget.charge f).remaining then .ok () (w, ws.2.charged f)
        else .error .integerTooLong (w, ws.2.charged f) := by
    intro v hv
    by_cases hshort : Short (ws.2.family.budget.charge f).remaining
    · simp only [if_pos hshort, writeNumeral_of_short hshort]
      exact ⟨{ v with trace := v.trace.note "Reroll" _ }, hv, rfl⟩
    · simp only [if_neg hshort, writeNumeral]
      exact ⟨v, hv, rfl⟩
  unfold charge
  rw [run_bind, Play.family_eq]
  dsimp only
  split
  · exact hrest { ws.1 with log := _ :: ws.1.log } ⟨rfl, rfl⟩
  · exact hrest ws.1 ⟨rfl, rfl⟩

theorem charge_after (f : Facet) (src : Source σ) (ws : World σ × Session) :
    (charge f : Play σ Unit).after src ws = ws.2.charged f := by
  obtain ⟨w, -, hcharge⟩ := charge_eq f src ws
  unfold Play.after
  rw [hcharge]
  split_ifs <;> rfl

theorem charge_ok {f : Facet} (h : charge f src ws = .ok () ws') : ws'.2 = ws.2.charged f := by
  rw [← charge_after f src ws, Play.after_of_ok h]

theorem charge_error {f : Facet} {e : Fault} (h : charge f src ws = .error e ws') :
    ws'.2 = ws.2.charged f := by
  rw [← charge_after f src ws, Play.after_of_error h]

/-- A reroll that gave something was accounted for first, which changed the budget only. -/
theorem reroll_ok {f : Facet} {x : Play σ α} {a : α}
    (h : Play.ifAged (do charge f; x) src ws = .ok (some a) ws') :
    ws.2.family.hasAge = true ∧ ∃ w, x src (w, ws.2.charged f) = .ok a ws' := by
  obtain ⟨haged, hplay⟩ := Play.ifAged_some_iff.mp h
  obtain ⟨_, ws₁, hcharge, hplay⟩ := bind_ok_iff.mp hplay
  rw [← charge_ok hcharge]
  exact ⟨haged, ws₁.1, hplay⟩

/-- An answer other than nothing is made of what the play of the move gave. -/
theorem answer_ok {x : Play σ (Option α)} {f : α → Answer} {answer : Answer}
    (h : (do return Answer.ofOption f (← x) : Play σ Answer) src ws = .ok answer ws')
    (hne : answer ≠ .nothing) :
    ∃ a, f a = answer ∧ x src ws = .ok (some a) ws' := by
  obtain ⟨o, ho, hanswer⟩ := bind_pure_ok_iff.mp h
  cases o with
  | none => exact absurd hanswer.symm hne
  | some a => exact ⟨a, hanswer, ho⟩

/-- With an age the answer is made of what the play gave that needs one. -/
theorem answer_ifAged_ok {x : Play σ α} {f : α → Answer} {answer : Answer}
    (haged : ws.2.family.hasAge = true)
    (h : (do return Answer.ofOption f (← Play.ifAged x) : Play σ Answer) src ws = .ok answer ws') :
    ∃ a, f a = answer ∧ x src ws = .ok a ws' := by
  obtain ⟨o, ho, hanswer⟩ := bind_pure_ok_iff.mp h
  rw [Play.ifAged_of_hasAge haged] at ho
  obtain ⟨a, hx, rfl⟩ := map_ok_iff.mp ho
  exact ⟨a, hanswer, hx⟩

/-! ### Changes -/

/-- One thing that a move does to a session, under rules and at an age that stay as they are. -/
inductive Act (src : Source σ) (s : Session) : Session → Prop where
  /-- One side is rolled anew, and its litters are numbered on from what is there. -/
  | side {side : Side} {rules : SiblingRules} {age : Int} {w w' : World σ} {r : SideRoll}
      (haged : s.family.hasAge = true) (hrules : s.siblingRules = some rules)
      (hage : ∃ w₁ s₁, characterApparentAge src (w₁, s) = .ok age (w, s₁))
      (hroll : rollSide side rules age s.mapping (s.family.firstLitter side) src w = .ok r w') :
      Act src s { s with family := s.family.withSide r }
  /-- All siblings are taken away, before both sides are rolled. -/
  | clear (haged : s.family.hasAge = true) :
      Act src s { s with family := { s.family with siblings := [] } }
  /-- The status of the parents is rolled anew. -/
  | status {rules : ParentRules} {age : Int} {w w' : World σ} {r : StatusRoll}
      (haged : s.family.hasAge = true) (hrules : s.parentRules = some rules)
      (hage : ∃ w₁ s₁, characterApparentAge src (w₁, s) = .ok age (w, s₁))
      (hroll : rollStatus rules age src w = .ok r w') :
      Act src s { s with family := s.family.withStatus rules r }
  /-- The age of a parent who is alive is rolled. -/
  | parentAge {p : Parent} {status : String} {rules : ParentRules} {age : Int} {w w' : World σ}
      {r : ParentAge} (haged : s.family.hasAge = true) (hstatus : s.family.status = some status)
      (hrules : s.parentRules = some rules) (heligible : rules.isEligible p status = true)
      (hage : ∃ w₁ s₁, characterApparentAge src (w₁, s) = .ok age (w, s₁))
      (hroll : rollParentAge s.parentAge s.family.siblings age s.mapping src w = .ok r w') :
      Act src s { s with family := s.family.withParentAge p (some r) }
  /-- A reroll is accounted for. -/
  | charge (f : Facet) (haged : s.family.hasAge = true) :
      Act src s (s.charged f)
  /-- The family is saved and loaded. -/
  | reread : Act src s { s with family := s.family.reread }

/-- One change that a move makes to a session. -/
inductive Change (src : Source σ) (s : Session) : Session → Prop where
  /-- Something is done under the rules in force. -/
  | act {s' : Session} (h : Act src s s') : Change src s s'
  /-- The character is given another age. -/
  | aged (age : Option Int) :
      Change src s { s with family := { s.family with characterAge := age } }
  /-- Other rules come into force. -/
  | rules {s' : Session} (hfamily : s'.family = s.family) : Change src s s'

/-- Several acts, one after the other. -/
abbrev Acts (src : Source σ) : Session → Session → Prop := ReflTransGen (Act src)

/-- Several changes, one after the other. -/
abbrev Changes (src : Source σ) : Session → Session → Prop := ReflTransGen (Change src)

/-- What a session goes by: the rules in force, and the age of the character. -/
def Session.givens (s : Session) : Session :=
  { s with family := { characterAge := s.family.characterAge } }

/-- An act leaves what the session goes by as it is. -/
theorem Act.givens_eq {s s' : Session} (h : Act src s s') : s'.givens = s.givens := by
  cases h with
  | side haged hrules hage hroll =>
    unfold Session.givens
    rw [Family.characterAge_withSide]
  | @status rules age w w' r haged hrules hage hroll =>
    obtain ⟨mother, father, hstatus⟩ := s.family.exists_withStatus rules r
    unfold Session.givens
    rw [hstatus]
  | @parentAge p status rules age w w' r haged hstatus hrules heligible hage hroll =>
    obtain ⟨mother, father, hparent⟩ := s.family.exists_withParentAge p (some r)
    unfold Session.givens
    rw [hparent]
  | clear haged => rfl
  | charge f haged => rfl
  | reread => rfl

/-- What every step of a chain preserves, the chain preserves. -/
theorem preserved_of_chain {R : Session → Session → Prop} {P : Session → Prop}
    (h : ∀ s s', R s s' → P s → P s') {s s' : Session} (hs : ReflTransGen R s s') (hp : P s) :
    P s' := by
  induction hs with
  | refl => exact hp
  | tail _ hstep ih => exact h _ _ hstep ih

/-- What every change preserves, several changes preserve. -/
theorem Changes.preserves {P : Session → Prop} (h : ∀ s s', Change src s s' → P s → P s')
    {s s' : Session} (hs : Changes src s s') (hp : P s) : P s' := preserved_of_chain h hs hp

namespace Acts

variable {s s' : Session}

/-- Acts are changes. -/
theorem changes (h : Acts src s s') : Changes src s s' :=
  ReflTransGen.mono (fun _ _ => Change.act) s s' h

/-- What every act preserves, several acts preserve. -/
theorem preserves {P : Session → Prop} (h : ∀ s s', Act src s s' → P s → P s')
    (hs : Acts src s s') (hp : P s) : P s' := preserved_of_chain h hs hp

/-- Acts leave what the session goes by as it is. -/
theorem givens_eq (h : Acts src s s') : s'.givens = s.givens :=
  h.preserves (P := fun t => t.givens = s.givens) (fun _ _ hact ih => hact.givens_eq.trans ih) rfl

/-- The acts of a block are those of its parts. -/
theorem bind {x : Play σ α} {f : α → Play σ β} (hx : Acts src ws.2 (x.after src ws))
    (hf : ∀ a ws', x src ws = .ok a ws' → Acts src ws'.2 ((f a).after src ws')) :
    Acts src ws.2 ((x >>= f).after src ws) := by
  rw [Play.after_bind]
  split
  · next a ws' h =>
    rw [Play.after_of_ok h] at hx
    exact hx.trans (hf a ws' h)
  · next e ws' h => rwa [Play.after_of_error h] at hx

theorem answer {x : Play σ α} {g : α → β} (hx : Acts src s (x.after src ws)) :
    Acts src s ((do return g (← x) : Play σ β).after src ws) := by
  rwa [Play.after_bind_pure]

/-- A play that needs an age does something only with one. -/
theorem ifAged {x : Play σ α}
    (h : ws.2.family.hasAge = true → Acts src ws.2 (x.after src ws)) :
    Acts src ws.2 ((Play.ifAged x).after src ws) := by
  cases haged : ws.2.family.hasAge with
  | false => rw [Play.after_ifAged_of_not_hasAge haged]
  | true => rw [Play.after_ifAged_of_hasAge haged]; exact h haged

theorem of_keeps {x : Play σ α} (h : x.Keeps id) : Acts src ws.2 (x.after src ws) := by
  have hkeep : x.after src ws = ws.2 := h src ws
  rw [hkeep]

/-- A play that does one thing, or nothing where it fails. -/
theorem of_failsafe {x : Play σ α} (h : x.Failsafe)
    (hok : ∀ a ws', x src ws = .ok a ws' → Acts src ws.2 ws'.2) :
    Acts src ws.2 (x.after src ws) := by
  cases hx : x src ws with
  | ok a ws' => rw [Play.after_of_ok hx]; exact hok a ws' hx
  | error e ws' => rw [Play.after_of_error hx, h hx]

end Acts

/-! ### What moves do -/

/-- Rolling a side is one change. -/
theorem playSide_acts (side : Side) (haged : ws.2.family.hasAge = true) :
    Acts src ws.2 ((playSide side).after src ws) := by
  refine .of_failsafe (playSide_failsafe side) fun r ws' h => ?_
  obtain ⟨hs, rules, age, w, hrules, ⟨s, hage⟩, hroll⟩ := playSide_ok h
  rw [hs]
  exact .single (.side haged hrules ⟨ws.1, s, hage⟩ hroll)

theorem playStatus_acts (haged : ws.2.family.hasAge = true) :
    Acts src ws.2 (playStatus.after src ws) := by
  refine .of_failsafe playStatus_failsafe fun r ws' h => ?_
  obtain ⟨rules, age, w, hrules, ⟨s, hage⟩, hroll, hs⟩ := playStatus_ok h
  rw [hs]
  exact .single (.status haged hrules ⟨ws.1, s, hage⟩ hroll)

/-- A reroll is one change more than a roll. -/
theorem charge_acts (f : Facet) {x : Play σ α} (haged : ws.2.family.hasAge = true)
    (hx : ∀ ws' : World σ × Session, ws'.2.family.hasAge = true →
      Acts src ws'.2 (x.after src ws')) :
    Acts src ws.2 ((do charge f; x : Play σ α).after src ws) := by
  refine .bind ?_ fun _ ws' h => ?_
  · rw [charge_after]
    exact .single (.charge f haged)
  · refine hx ws' ?_
    rw [charge_ok h]
    exact haged

/-- Rolling one side after the other is one change for each. -/
theorem playSides_acts (haged : ws.2.family.hasAge = true) :
    Acts src ws.2 ((do
      let older ← playSide .older
      let younger ← playSide .younger
      return (older, younger) : Play σ (SideRoll × SideRoll)).after src ws) := by
  refine .bind (playSide_acts .older haged) fun r ws₁ h₁ => ?_
  -- the character still has an age when the other side is rolled
  have haged₁ : ws₁.2.family.hasAge = true := by
    rw [(playSide_ok h₁).1]
    exact (Family.hasAge_withSide _ _).trans haged
  rw [Play.after_bind_pure]
  exact playSide_acts .younger haged₁

/-- Rolling both sides is a change for each, once all siblings are taken away. -/
theorem rollAll_acts_cleared (haged : ws.2.family.hasAge = true) :
    Acts src ws.2.cleared ((do
      Play.changeFamily fun f => { f with siblings := [] }
      let older ← playSide .older
      let younger ← playSide .younger
      return (older, younger) : Play σ (SideRoll × SideRoll)).after src ws) := by
  have haged' : (ws.1, ws.2.cleared).2.family.hasAge = true := haged
  exact playSides_acts haged'

/-- Rolling both sides is three changes. -/
theorem rollAll_acts (haged : ws.2.family.hasAge = true) :
    Acts src ws.2 ((do
      Play.changeFamily fun f => { f with siblings := [] }
      let older ← playSide .older
      let younger ← playSide .younger
      return (older, younger) : Play σ (SideRoll × SideRoll)).after src ws) :=
  (ReflTransGen.single (.clear haged)).trans (rollAll_acts_cleared haged)

/-- Rolling the age of a parent is one change, if it can be rolled. -/
theorem rollAge_acts (p : Parent) : Acts src ws.2 ((rollAge p).after src ws) := by
  refine .of_failsafe (rollAge_failsafe p) fun a ws' h => ?_
  cases a with
  | none => rw [rollAge_ok_none h]
  | some r =>
    obtain ⟨hs, ⟨w, hcan⟩, age, w', ⟨w₁, s₁, hage⟩, hroll⟩ := rollAge_ok_some h
    obtain ⟨haged, status, rules, hstatus, hrules, heligible⟩ := canRollAge_ok hcan
    rw [hs]
    exact .single (.parentAge haged hstatus hrules heligible ⟨w₁, s₁, hage⟩ hroll)

theorem reload_acts : Acts src ws.2 (reload.after src ws) := by
  refine .of_failsafe reload_failsafe fun a ws' h => ?_
  rw [reload_ok h]
  exact .single .reread

/-- Whether a move sets what the session goes by. -/
def Move.isSetting : Move → Bool
  | setAge _ => true
  | setMapping _ => true
  | setSiblingRules _ => true
  | setParentRules _ => true
  | setParentAge _ => true
  | _ => false

/-- Every other move comes down to some acts, however it ends. -/
theorem Move.acts {m : Move} (hm : m.isSetting = false) (src : Source σ)
    (ws : World σ × Session) : Acts src ws.2 (m.play.after src ws) := by
  have hreroll : ∀ {f : Facet} {side : Side} (haged : ws.2.family.hasAge = true),
      Acts src ws.2 ((do charge f; playSide side : Play σ SideRoll).after src ws) :=
    fun haged => charge_acts _ haged fun _ => playSide_acts _
  cases m with
  | rollOlder => exact .answer (.ifAged (playSide_acts .older))
  | rollYounger => exact .answer (.ifAged (playSide_acts .younger))
  | rollAll => exact .answer (.ifAged rollAll_acts)
  | rerollOlder => exact .answer (.ifAged hreroll)
  | rerollYounger => exact .answer (.ifAged hreroll)
  | rollParents => exact .answer (.ifAged playStatus_acts)
  | rerollParents =>
    exact .answer (.ifAged fun haged => charge_acts .parent haged fun _ => playStatus_acts)
  | rollAge p => exact .answer (rollAge_acts p)
  | canRollAge p => exact .answer (.of_keeps (canRollAge_keeps p))
  | characterApparentAge => exact .answer (.of_keeps characterApparentAge_keeps)
  | reload => exact .answer reload_acts
  | setAge _ => cases hm
  | setMapping _ => cases hm
  | setSiblingRules _ => cases hm
  | setParentRules _ => cases hm
  | setParentAge _ => cases hm

/-- Every move makes some changes, however it ends. -/
theorem Move.changes (m : Move) (src : Source σ) (ws : World σ × Session) :
    Changes src ws.2 (m.play.after src ws) := by
  cases hm : m.isSetting with
  | false => exact (m.acts hm src ws).changes
  | true =>
    cases m with
    | setAge age => exact .single (.aged age)
    | setMapping m => exact .single (.rules rfl)
    | setSiblingRules r => exact .single (.rules rfl)
    | setParentRules r => exact .single (.rules rfl)
    | setParentAge formula => exact .single (.rules rfl)
    | _ => cases hm

/-! ### Runs -/

/-- The session and the world after a move. A fault ends the move, but not the session. -/
def Move.next (src : Source σ) (ws : World σ × Session) (m : Move) : World σ × Session :=
  (m.play.outcome src ws.1 ws.2).2

theorem Move.next_of_outcome {m : Move} {w w' : World σ} {s s' : Session} {r : Except Fault Answer}
    (h : m.play.outcome src w s = (r, w', s')) : m.next src (w, s) = (w', s') :=
  congrArg Prod.snd h

/-- The session and the world after some moves. -/
def playAll (src : Source σ) (ws : World σ × Session) (ms : List Move) : World σ × Session :=
  ms.foldl (Move.next src) ws

@[simp] theorem playAll_cons (src : Source σ) (ws : World σ × Session) (m : Move)
    (ms : List Move) : playAll src ws (m :: ms) = playAll src (m.next src ws) ms := rfl

theorem playAll_append (src : Source σ) (ws : World σ × Session) (ms ms' : List Move) :
    playAll src ws (ms ++ ms') = playAll src (playAll src ws ms) ms' := List.foldl_append

theorem Move.next_snd (src : Source σ) (ws : World σ × Session) (m : Move) :
    (m.next src ws).2 = m.play.after src ws := Play.outcome_session m.play src ws.1 ws.2

/-- What every move of a kind preserves, a run of such moves preserves. -/
theorem playAll_preserves {P : Session → Prop} {q : Move → Prop}
    (h : ∀ ws m, q m → P ws.2 → P (m.next src ws).2) {ms : List Move} (hms : ∀ m ∈ ms, q m)
    (hp : P ws.2) : P (playAll src ws ms).2 := by
  induction ms generalizing ws with
  | nil => exact hp
  | cons m ms ih =>
    obtain ⟨hm, hms⟩ := List.forall_mem_cons.mp hms
    exact ih hms (h ws m hm hp)

/-- A run makes the changes of its moves. -/
theorem playAll_changes (src : Source σ) (ws : World σ × Session) (ms : List Move) :
    Changes src ws.2 (playAll src ws ms).2 := by
  induction ms generalizing ws with
  | nil => exact .refl
  | cons m ms ih =>
    rw [playAll_cons]
    refine .trans ?_ (ih (m.next src ws))
    rw [Move.next_snd]
    exact m.changes src ws

end Kindred
