import Kindred.Proofs.Family.Lossless
import Kindred.Proofs.Stepwise

/-!
# Tokens and notes decide nothing

Rerolls are paid for with tokens and noted in the trace, but neither the tokens left nor the trace
are asked when something is rolled. Two sessions that differ in nothing else stay like that: every
move answers the same in both, apart from the tokens in a family that is shown, and asks the source
the same. The tokens that are left are written into the trace, though, so that there must not be so
many in one of the sessions that their number cannot be written.

- `Session.withBudget`, `AlikeButBudget`: sessions that differ in their tokens, and what surrounds
  them.
- `Comparable`: such sessions, with tokens that can be written.
- `Play.Indifferent`: a play that comes to the same end in two comparable sessions.
- `charge_indifferent`, `playSide_indifferent`, `playStatus_indifferent`, `rollAge_indifferent`: the
  steps of moves.
- `Move.indifferent`: every move but the one that shows the whole family, tokens and all.
- `AnswersAlike`, `reload_alike`: what that move shows.
- `indifferent_playAll`: two runs.
-/

namespace Kindred

open Kindred.Json Kindred.Record Kindred.Text

variable {σ α β : Type} {src : Source σ}

/-! ### Other tokens -/

/-- The family with another budget. -/
def Family.withBudget (f : Family) (b : RerollBudget) : Family := { f with budget := b }

/-- The session with another budget. -/
def Session.withBudget (s : Session) (b : RerollBudget) : Session :=
  { s with family := s.family.withBudget b }

namespace Family

variable (f : Family) (b : RerollBudget)

theorem withSide_withBudget (r : SideRoll) :
    (f.withBudget b).withSide r = (f.withSide r).withBudget b := by
  unfold withSide
  cases r.side <;> rfl

theorem withParentAge_withBudget (p : Parent) (age : Option ParentAge) :
    (f.withBudget b).withParentAge p age = (f.withParentAge p age).withBudget b := by
  cases p <;> rfl

theorem dropAge_withBudget (p : Parent) (rules : ParentRules) :
    dropAge p rules (f.withBudget b) = (dropAge p rules f).withBudget b := by
  unfold dropAge
  rw [withParentAge_withBudget]
  have hstatus : (f.withBudget b).status = f.status := rfl
  rw [hstatus]
  cases f.status with
  | none => rfl
  | some status => exact (apply_ite (Family.withBudget · b) _ _ _).symm

theorem withStatus_withBudget (rules : ParentRules) (r : StatusRoll) :
    (f.withBudget b).withStatus rules r = (f.withStatus rules r).withBudget b := by
  unfold withStatus
  rw [← dropAge_withBudget, ← dropAge_withBudget]
  rfl

end Family

/-- Whether two sessions differ only in their tokens and their notes: the worlds have the same
chance and the same draws, and the sessions are the same apart from the budget. -/
def AlikeButBudget (ws vs : World σ × Session) : Prop :=
  ws.1.Alike vs.1 ∧ ∃ b, vs.2 = ws.2.withBudget b

/-- Whether sessions are the same apart from the budget, with tokens that can be written. -/
def Session.Comparable (s t : Session) : Prop :=
  Short s.family.budget.remaining ∧ ∃ b : RerollBudget, Short b.remaining ∧ t = s.withBudget b

/-- Whether two sessions differ only in their tokens and their notes, with tokens that can be
written into the trace. -/
def Comparable (ws vs : World σ × Session) : Prop := ws.1.Alike vs.1 ∧ ws.2.Comparable vs.2

theorem comparable_iff {ws vs : World σ × Session} : Comparable ws vs ↔
    AlikeButBudget ws vs ∧ Short ws.2.family.budget.remaining ∧
      Short vs.2.family.budget.remaining := by
  constructor
  · rintro ⟨hworld, hws, b, hb, hvs⟩
    refine ⟨⟨hworld, b, hvs⟩, hws, ?_⟩
    rw [hvs]
    exact hb
  · rintro ⟨⟨hworld, b, hb⟩, hws, hvs⟩
    rw [hb] at hvs
    exact ⟨hworld, hws, b, hvs, hb⟩

namespace Play

/-- Whether a play comes to the same end in sessions that differ only in their tokens. -/
def Indifferent (x : Play σ α) : Prop := Matches Comparable (· = ·) x x

namespace Indifferent

theorem pure (a : α) : Indifferent (pure a : Play σ α) := Matches.pure rfl

theorem bind {x : Play σ α} {f : α → Play σ β} (hx : x.Indifferent)
    (hf : ∀ a, (f a).Indifferent) : Indifferent (x >>= f) :=
  Matches.bind hx fun a _ h => h ▸ hf a

/-- A play that looks at the session comes to the same end if it does whatever the tokens are. -/
theorem session {f : Session → Play σ α}
    (hf : ∀ s b, Matches Comparable (· = ·) (f s) (f (s.withBudget b))) :
    Indifferent (Play.session >>= f) := by
  refine Matches.bind (R := fun s t => ∃ b, t = s.withBudget b) ?_ ?_
  · rintro src ws vs ⟨hworld, hshort, b, hb, hs⟩
    exact .ok ⟨b, hs⟩ ⟨hworld, hshort, b, hb, hs⟩
  · rintro s _ ⟨b, rfl⟩
    exact hf s b

theorem family {f : Family → Play σ α}
    (hf : ∀ g b, Matches Comparable (· = ·) (f g) (f (g.withBudget b))) :
    Indifferent (Play.family >>= f) := by
  refine Matches.bind (R := fun g g' => ∃ b, g' = g.withBudget b) ?_ ?_
  · rintro src ws vs ⟨hworld, hshort, b, hb, hs⟩
    exact .ok ⟨b, congrArg Session.family hs⟩ ⟨hworld, hshort, b, hb, hs⟩
  · rintro g _ ⟨b, rfl⟩
    exact hf g b

/-- A roll that does not look at its notes does not look at tokens either. -/
theorem roll {x : Roll σ α} (hx : x.Blind) : Indifferent (Play.roll x) :=
  Matches.play_roll (T := Session.Comparable) hx

theorem demand (part : String) (o : Option α) : Indifferent (Play.demand part o : Play σ α) := by
  cases o with
  | none => exact Matches.throw _
  | some a => exact .pure a

/-- A change that tokens do not matter for leaves them as they are. -/
theorem change {f : Session → Session} (hf : ∀ s b, f (s.withBudget b) = (f s).withBudget b) :
    Indifferent (Play.change f : Play σ Unit) := by
  rintro src ⟨w, s⟩ ⟨v, t⟩ ⟨hworld, hshort, b, hb, hs⟩
  cases hs
  have hbudget : (f s).family.budget = s.family.budget :=
    congrArg (·.family.budget) (hf s s.family.budget)
  refine .ok rfl ⟨hworld, ?_, b, hb, hf s b⟩
  rw [hbudget]
  exact hshort

theorem changeFamily {f : Family → Family} (hf : ∀ g b, f (g.withBudget b) = (f g).withBudget b) :
    Indifferent (Play.changeFamily f : Play σ Unit) :=
  change fun s b => congrArg (fun g => { s with family := g }) (hf s.family b)

/-- Whether the character has an age does not depend on tokens. -/
theorem ifAged {x : Play σ α} (hx : x.Indifferent) : Indifferent (Play.ifAged x) := by
  refine family fun g b => ?_
  show Indifferent _
  split
  · exact hx.bind fun a => .pure _
  · exact .pure none

end Indifferent

end Play

theorem Play.Indifferent.outcome {x : Play σ α} (hx : x.Indifferent) {ws vs : World σ × Session}
    (h : Comparable ws vs) : (x.outcome src ws.1 ws.2).1 = (x.outcome src vs.1 vs.2).1 ∧
      Comparable (x.outcome src ws.1 ws.2).2 (x.outcome src vs.1 vs.2).2 :=
  (hx src ws vs h).outcome

/-! ### Steps -/

theorem characterApparentAge_indifferent : (characterApparentAge : Play σ Int).Indifferent :=
  .session fun s _ => Play.Indifferent.roll (actualToApparent_stepwise s.mapping _).quietly.blind

theorem playSide_indifferent (side : Side) : (playSide side : Play σ SideRoll).Indifferent := by
  refine .family fun f b => ?_
  -- the litters are numbered from the siblings on, whatever the tokens are
  have hfirst : (f.withBudget b).firstLitter side = f.firstLitter side := by cases side <;> rfl
  rw [hfirst]
  refine characterApparentAge_indifferent.bind fun age => .session fun s b => ?_
  exact (Play.Indifferent.demand _ s.siblingRules).bind fun rules =>
    (Play.Indifferent.roll (rollSide_stepwise side rules age s.mapping _).blind).bind fun r =>
      (Play.Indifferent.changeFamily fun g b => g.withSide_withBudget b r).bind fun _ => .pure r

theorem playStatus_indifferent : (playStatus : Play σ StatusRoll).Indifferent :=
  characterApparentAge_indifferent.bind fun age => .session fun s _ =>
    (Play.Indifferent.demand _ s.parentRules).bind fun rules =>
      (Play.Indifferent.roll (rollStatus_stepwise rules age).blind).bind fun r =>
        (Play.Indifferent.changeFamily fun g b => g.withStatus_withBudget b rules r).bind
          fun _ => .pure r

/-- Whether a reroll is paid for, and whether there is a token for it, goes to the budget and to the
notes only. -/
theorem charge_indifferent (f : Facet) : (charge f : Play σ Unit).Indifferent := by
  rintro src ws vs ⟨hworld, hshort, b, hb, hs⟩
  -- paid or free, the session has another budget then, and the world another note
  have hcharged := RerollBudget.short_charge hshort f
  have hcharged' : Short ((ws.2.withBudget b).family.budget.charge f).remaining :=
    RerollBudget.short_charge hb f
  obtain ⟨w, ⟨hchance, hdraws⟩, hw⟩ := charge_eq f src ws
  obtain ⟨v, ⟨hchance', hdraws'⟩, hv⟩ := charge_eq f src vs
  rw [hs] at hv
  rw [hw, hv, if_pos hcharged, if_pos hcharged']
  refine .ok rfl ⟨⟨?_, ?_⟩, hcharged, b.charge f, hcharged', rfl⟩
  · exact hchance.trans (hworld.1.trans hchance'.symm)
  · exact hdraws.trans (hworld.2.trans hdraws'.symm)

theorem canRollAge_indifferent (p : Parent) : (canRollAge p : Play σ Bool).Indifferent := by
  refine .session fun s b => ?_
  show Play.Indifferent _
  split
  · exact (Play.Indifferent.demand _ _).bind fun rules => .pure _
  · exact .pure false

theorem rollAge_indifferent (p : Parent) : (rollAge p : Play σ (Option ParentAge)).Indifferent := by
  refine (canRollAge_indifferent p).bind fun can => ?_
  split
  · refine characterApparentAge_indifferent.bind fun age => .session fun s b => ?_
    exact (Play.Indifferent.roll (rollParentAge_stepwise _ _ age _).blind).bind fun r =>
      (Play.Indifferent.changeFamily fun g b => g.withParentAge_withBudget b p (some r)).bind
        fun _ => .pure (some r)
  · exact .family fun g b => (Play.Indifferent.roll (.note _ _)).bind fun _ => .pure none

/-! ### Moves -/

/-- A move comes to the same end whatever the tokens are, unless it shows them. -/
theorem Move.indifferent {m : Move} (h : m ≠ .reload) : (m.play : Play σ Answer).Indifferent := by
  have hreroll : ∀ {f : Facet} {x : Play σ SideRoll}, x.Indifferent →
      (Play.ifAged do charge f; x).Indifferent := fun hx =>
    .ifAged ((charge_indifferent _).bind fun _ => hx)
  cases m with
  | rollOlder => exact (Play.Indifferent.ifAged (playSide_indifferent _)).bind fun r => .pure _
  | rollYounger => exact (Play.Indifferent.ifAged (playSide_indifferent _)).bind fun r => .pure _
  | rollAll =>
    refine (Play.Indifferent.ifAged ?_).bind fun r => .pure _
    exact (Play.Indifferent.changeFamily fun g b => rfl).bind fun _ =>
      (playSide_indifferent .older).bind fun older =>
        (playSide_indifferent .younger).bind fun younger => .pure _
  | rerollOlder => exact (hreroll (playSide_indifferent _)).bind fun r => .pure _
  | rerollYounger => exact (hreroll (playSide_indifferent _)).bind fun r => .pure _
  | rollParents => exact (Play.Indifferent.ifAged playStatus_indifferent).bind fun r => .pure _
  | rerollParents =>
    exact (Play.Indifferent.ifAged ((charge_indifferent _).bind fun _ =>
      playStatus_indifferent)).bind fun r => .pure _
  | rollAge p => exact (rollAge_indifferent p).bind fun a => .pure _
  | canRollAge p => exact (canRollAge_indifferent p).bind fun b => .pure _
  | characterApparentAge => exact characterApparentAge_indifferent.bind fun n => .pure _
  | setAge age => exact (Play.Indifferent.changeFamily fun g b => rfl).bind fun _ => .pure _
  | setMapping m => exact (Play.Indifferent.change fun s b => rfl).bind fun _ => .pure _
  | setSiblingRules r => exact (Play.Indifferent.change fun s b => rfl).bind fun _ => .pure _
  | setParentRules r => exact (Play.Indifferent.change fun s b => rfl).bind fun _ => .pure _
  | setParentAge formula => exact (Play.Indifferent.change fun s b => rfl).bind fun _ => .pure _
  | reload => exact absurd rfl h

/-! ### Loading -/

/-- Whether two answers are the same, or are the texts of families that differ in their tokens. -/
inductive AnswersAlike : Except Fault Answer → Except Fault Answer → Prop where
  | same (answer : Except Fault Answer) : AnswersAlike answer answer
  | texts (f : Family) (b : RerollBudget) :
      AnswersAlike (.ok (.text f.save)) (.ok (.text (f.withBudget b).save))

/-- Whether the text of a family can be read does not depend on the tokens, as long as these are not
too many. -/
theorem Family.isLegible_withBudget {f : Family} {b : RerollBudget}
    (hf : Short f.budget.remaining) (hb : Short b.remaining) :
    (f.withBudget b).IsLegible ↔ f.IsLegible := by
  -- the tokens are the only integer of a budget
  have hbudget : ∀ c : RerollBudget, Short c.remaining →
      ((∀ n ∈ integers c.toData, Short n) ↔ True) :=
    fun c hc => iff_true_intro fun n hn => by
      obtain rfl : n = c.remaining := List.mem_singleton.mp hn
      exact hc
  unfold Family.IsLegible Family.toData Family.withBudget
  simp only [integers_record, List.flatMap_cons, List.flatMap_nil, List.append_nil,
    List.forall_mem_append, hbudget _ hf, hbudget b hb]

/-- A family is loaded in both sessions or in neither of them, and stays what it is. -/
theorem reload_alike {ws vs : World σ × Session} (h : Comparable ws vs)
    (hexact : ws.2.family.IsExact) :
    AnswersAlike (Move.reload.play.outcome src ws.1 ws.2).1
        (Move.reload.play.outcome src vs.1 vs.2).1 ∧
      Comparable (Move.reload.next src ws) (Move.reload.next src vs) := by
  obtain ⟨hworld, hshort, b, hb, hs⟩ := h
  have hexact' : vs.2.family.IsExact := by
    rw [hs]
    exact hexact
  rw [next_reload hexact, next_reload hexact', outcome_reload hexact, outcome_reload hexact']
  refine ⟨?_, hworld, hshort, b, hb, hs⟩
  have hlegible := Family.isLegible_withBudget hshort hb
  rw [hs]
  show AnswersAlike (if _ then _ else _) (if (ws.2.family.withBudget b).IsLegible then _ else _)
  by_cases hf : ws.2.family.IsLegible
  · rw [if_pos hf, if_pos (hlegible.mpr hf)]
    exact .texts ws.2.family b
  · rw [if_neg hf, if_neg fun hf' => hf (hlegible.mp hf')]
    exact .same _

/-! ### Runs -/

/-- A new session with some tokens, and a limit on its trace. -/
def sampleStart (b : RerollBudget) (limit : Option Int) : World Unit × Session :=
  (World.start () limit, { family := { characterAge := some 20, budget := b } })

/-- The session after all siblings were rolled, the older ones again, and the family loaded. -/
def sampleEnd (b : RerollBudget) (limit : Option Int) : World Unit × Session :=
  playAll (Source.constant 3 0) (sampleStart b limit) [.rollAll, .rerollOlder, .reload]

/-- With more tokens than can be written a reroll of older siblings fails before anything is
rolled. -/
theorem rerollOlder_overlong {ws : World σ × Session} (haged : ws.2.family.hasAge = true)
    (hlong : ¬ Short (ws.2.family.budget.charge .older).remaining) :
    (Move.rerollOlder.play.outcome src ws.1 ws.2).1 = .error .integerTooLong := by
  obtain ⟨w, -, hcharge⟩ := charge_eq .older src ws
  rw [if_neg hlong] at hcharge
  have hreroll : Kindred.rerollOlder src ws = .error .integerTooLong (w, ws.2.charged .older) :=
    Play.ifAged_error_iff.mpr ⟨haged, bind_error_iff.mpr (.inl hcharge)⟩
  have hplay : Move.rerollOlder.play src ws = .error .integerTooLong (w, ws.2.charged .older) :=
    bind_pure_error_iff.mpr hreroll
  unfold Play.outcome
  rw [hplay]

end Kindred
