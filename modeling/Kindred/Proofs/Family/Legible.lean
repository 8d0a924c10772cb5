import Kindred.Proofs.Family.Bounds
import Kindred.Proofs.Family.ParentStatus

/-!
# When the text of a family can be read

Moves put nothing into a family but what was rolled. So the integers of a family are short if what
the session was given is short, unless the family lists more dice than anybody could ever roll.

- `Family.IsLegible`: families with short integers.
- `Family.IsTame`, `Session.IsTame`: what moves preserve.
- `Family.IsTame.isLegible`: what that means for the family.
- `Act.isTame`, `Move.isTame`: one act, and one move.
- `isLegible_playAll`: every run.
-/

namespace Kindred

open Kindred.Record Kindred.Json Kindred.Number Kindred.Text

/-! ### Families -/

namespace Family

/-- Whether the integers of a family are so short that its text can be read. -/
def IsLegible (f : Family) : Prop := ∀ n ∈ integers f.toData, Short n

instance (f : Family) : Decidable f.IsLegible := List.decidableBAll _ _

/-- Whether what a family was given is short, and what was rolled for it is tame. -/
structure IsTame (f : Family) : Prop where
  age : ∀ n ∈ f.characterAge, Short n
  siblings : ∀ b ∈ f.siblings, b.IsTame
  olderLitters : Short f.olderLitters
  youngerLitters : Short f.youngerLitters
  olderRoll : ∀ r ∈ f.olderRoll, r.IsTame
  youngerRoll : ∀ r ∈ f.youngerRoll, r.IsTame
  status : ∀ r ∈ f.statusRoll, Tame r.toData
  parentAge : ∀ p, ∀ a ∈ f.parentAge p, Tame a.toData
  budget : Short f.budget.remaining

variable {f : Family}

/-- A new family is tame if its age and its tokens are short. -/
theorem isTame_new {age : Option Int} {budget : RerollBudget} (hage : ∀ n ∈ age, Short n)
    (hbudget : Short budget.remaining) : IsTame { characterAge := age, budget := budget } where
  age := hage
  siblings _ h := by cases h
  olderLitters := short_zero
  youngerLitters := short_zero
  olderRoll _ h := by cases h
  youngerRoll _ h := by cases h
  status _ h := by cases h
  parentAge p _ h := by cases p <;> cases h
  budget := hbudget

/-- A tame family is legible unless it lists too many integers. -/
theorem IsTame.isLegible (h : f.IsTame) (hsize : (integers f.toData).length < manyIntegers) :
    f.IsLegible := by
  have hage : ∀ n ∈ f.characterAge, Tame (.int n) := fun n hn => tame_int (h.age n hn)
  have hsiblings := tame_list_map fun b hb => (h.siblings b hb).tame
  have hbudget : Tame f.budget.toData := tame_record (by simp [tame_int h.budget])
  refine tame_record ?_ hsize
  simp [tame_int h.olderLitters, tame_int h.youngerLitters, hsiblings, hbudget]
  exact ⟨hage, fun r hr => (h.olderRoll r hr).tame, fun r hr => (h.youngerRoll r hr).tame, h.status,
    h.parentAge .mother, h.parentAge .father⟩

namespace IsTame

/-- The younger litters are numbered from a number that is not far above the bound. -/
theorem firstLitter_mem (h : f.IsTame) (side : Side) : 1 ≤ f.firstLitter side ∧
    f.firstLitter side ≤ if side = .older then 1 else finiteBound + 1 := by
  cases side with
  | older => exact ⟨le_refl 1, le_refl 1⟩
  | younger =>
    show 1 ≤ maxLitter f.older + 1 ∧ maxLitter f.older + 1 ≤ finiteBound + 1
    rcases maxLitter_cases f.older with hnone | ⟨b, hb, hmax⟩
    · omega
    · obtain ⟨hb, holder⟩ := List.mem_filter.mp hb
      have hpos := (h.siblings b hb).litter_pos
      have hle := (h.siblings b hb).litter_le
      -- only older siblings are counted on from, and their litters are not above the bound
      rw [if_pos holder] at hle
      omega

/-- Newly rolled siblings that are tame keep a family tame. -/
theorem withSide (h : f.IsTame) {r : SideRoll} (hsiblings : ∀ b ∈ r.siblings, b.IsTame)
    (hlitters : r.litters ≤ finiteBound) (hroll : ∀ l ∈ r.roll, l.IsTame) :
    (f.withSide r).IsTame := by
  have hshort : Short (r.litters : Int) := short_of_le_bound (by omega)
  have hall : ∀ b ∈ (f.withSide r).siblings, b.IsTame := fun b hb =>
    (mem_or_mem_of_mem_withSide hb).elim (hsiblings b) (h.siblings b)
  unfold Family.withSide at hall ⊢
  cases hside : r.side with
  | older =>
    rw [hside] at hall
    exact { h with siblings := hall, olderLitters := hshort, olderRoll := hroll }
  | younger =>
    rw [hside] at hall
    exact { h with siblings := hall, youngerLitters := hshort, youngerRoll := hroll }

/-- A newly rolled status that is tame keeps a family tame. -/
theorem withStatus (h : f.IsTame) (haged : f.hasAge = true) {rules : ParentRules} {r : StatusRoll}
    (hr : Tame r.toData) : (f.withStatus rules r).IsTame := by
  have hstatus : ∀ r' ∈ some r, Tame r'.toData := by
    rintro r' ⟨⟩
    exact hr
  have hparent := f.forall_parentAge_withStatus rules h.parentAge r haged
  obtain ⟨mother, father, heq⟩ := f.exists_withStatus rules r
  rw [heq] at hparent ⊢
  exact { h with status := hstatus, parentAge := hparent }

/-- A newly rolled age of a parent that is tame keeps a family tame. -/
theorem withParentAge (h : f.IsTame) (p : Parent) {r : ParentAge} (hr : Tame r.toData) :
    (f.withParentAge p (some r)).IsTame := by
  have hparent := f.forall_parentAge_withParentAge p h.parentAge hr
  obtain ⟨mother, father, heq⟩ := f.exists_withParentAge p (some r)
  rw [heq] at hparent ⊢
  exact { h with parentAge := hparent }

/-- What a family is read as is tame, too. -/
theorem reread (h : f.IsTame) : f.reread.IsTame := by
  have hmap : ∀ o : Option LitterRoll, (∀ r ∈ o, r.IsTame) →
      ∀ r ∈ o.map (·.reread), r.IsTame := by
    rintro o ho _ hread
    obtain ⟨r, hr, rfl⟩ := Option.map_eq_some_iff.mp hread
    exact (ho r hr).reread
  exact { h with olderRoll := hmap _ h.olderRoll, youngerRoll := hmap _ h.youngerRoll }

/-- Tokens that are paid stay short. -/
theorem charge (h : f.IsTame) (facet : Facet) :
    IsTame { f with budget := f.budget.charge facet } := by
  have hshort : Short (f.budget.charge facet).remaining := RerollBudget.short_charge h.budget facet
  exact { h with budget := hshort }

end IsTame

end Family

/-! ### Runs -/

section Runs

variable {σ : Type} {src : Source σ} {s s' : Session} {ws : World σ × Session}

/-- Whether the mapping of a session is short, and its family tame. -/
structure Session.IsTame (s : Session) : Prop where
  mapping : ∀ t ∈ s.mapping, t.IsShort
  family : s.family.IsTame

/-- Whether the integers that a move brings in are short. -/
def Move.IsShort : Move → Prop
  | .setAge age => ∀ n ∈ age, Short n
  | .setMapping m => ∀ t ∈ m, t.IsShort
  | _ => True

/-- How old the character looks is short. -/
theorem characterApparentAge_short (hs : s.IsTame) {w : World σ} {ws' : World σ × Session}
    {age : Int} (h : characterApparentAge src (w, s) = .ok age ws') : Short age := by
  obtain ⟨_, hlooks⟩ := actualToApparent_of_ok h
  exact actualToApparent_short hs.mapping hlooks

/-- Every act keeps a session tame. -/
theorem Act.isTame (hsrc : src.InRange) (h : Act src s s') (hs : s.IsTame) : s'.IsTame := by
  -- no act changes what the session was given
  have hmapping : s'.mapping = s.mapping := by
    show s'.givens.mapping = s.givens.mapping
    rw [h.givens_eq]
  refine ⟨hmapping ▸ hs.mapping, ?_⟩
  cases h with
  | side haged hrules hage hroll =>
    obtain ⟨hstart, hstart'⟩ := hs.family.firstLitter_mem _
    obtain ⟨hsiblings, hlitters, hrecord⟩ := rollSide_tame hs.mapping hsrc hstart hstart' hroll
    exact hs.family.withSide hsiblings hlitters hrecord
  | clear haged =>
    have hnone : ∀ b ∈ ([] : List Sibling), b.IsTame := List.forall_mem_nil _
    exact { hs.family with siblings := hnone }
  | status haged hrules hage hroll =>
    obtain ⟨w₁, s₁, hage⟩ := hage
    obtain ⟨hlooks, hresult⟩ := rollStatus_short (characterApparentAge_short hs hage) hroll
    exact hs.family.withStatus haged (StatusRoll.tame hlooks hresult)
  | @parentAge p status rules age w w' r haged hstatus hrules heligible hage hroll =>
    obtain ⟨w₁, s₁, hage⟩ := hage
    have hlooks := characterApparentAge_short hs hage
    exact hs.family.withParentAge p (rollParentAge_tame hsrc hs.mapping hlooks hroll)
  | charge f haged => exact hs.family.charge f
  | reread => exact hs.family.reread

/-- Every move that brings in short integers keeps a session tame. -/
theorem Move.isTame (hsrc : src.InRange) {m : Move} (hm : m.IsShort) (hs : ws.2.IsTame) :
    (m.next src ws).2.IsTame := by
  cases hsetting : m.isSetting with
  | false =>
    rw [Move.next_snd]
    exact (Move.acts hsetting src ws).preserves (fun _ _ => Act.isTame hsrc) hs
  | true =>
    cases m with
    | setAge age => exact ⟨hs.mapping, { hs.family with age := hm }⟩
    | setMapping t => exact ⟨hm, hs.family⟩
    | setSiblingRules r => exact ⟨hs.mapping, hs.family⟩
    | setParentRules r => exact ⟨hs.mapping, hs.family⟩
    | setParentAge formula => exact ⟨hs.mapping, hs.family⟩
    | _ => cases hsetting

/-- The text of a family can be read after every run in which no integer that is brought in is too
long, unless the family lists more integers than anybody could. -/
theorem isLegible_playAll (hsrc : src.InRange) (hs : ws.2.IsTame) {ms : List Move}
    (hms : ∀ m ∈ ms, m.IsShort)
    (hsize : (integers (playAll src ws ms).2.family.toData).length < manyIntegers) :
    (playAll src ws ms).2.family.IsLegible := by
  have htame : (playAll src ws ms).2.IsTame :=
    playAll_preserves (fun _ _ => Move.isTame hsrc) hms hs
  exact htame.family.isLegible hsize

end Runs

end Kindred
