import Kindred.Family.Session

/-!
# Parts of a family that a change leaves alone

Each change of a family concerns a few of its parts. What the others are afterwards is what they
were.

- `Family.withSide`: the siblings of one side, their litters, and what was rolled for these.
- `Family.withParentAge`, `dropAge`, `Family.withStatus`: the parents.
-/

namespace Kindred

/-- The other side. -/
def Side.other : Side → Side
  | older => younger
  | younger => older

namespace Family

/-- A character whose age is known has one unless it is zero or less. -/
theorem hasAge_iff {f : Family} {a : Int} (h : f.characterAge = some a) :
    f.hasAge = true ↔ 0 < a := by
  unfold hasAge
  rw [h]
  exact decide_eq_true_iff

variable (f : Family) (r : SideRoll) (p : Parent) (age : Option ParentAge) (rules : ParentRules)
  (status : StatusRoll)

/-! ### Newly rolled siblings -/

@[simp] theorem characterAge_withSide : (f.withSide r).characterAge = f.characterAge := by
  unfold withSide
  cases r.side <;> rfl

@[simp] theorem hasAge_withSide : (f.withSide r).hasAge = f.hasAge := by
  rw [hasAge, characterAge_withSide, hasAge]

@[simp] theorem budget_withSide : (f.withSide r).budget = f.budget := by
  unfold withSide
  cases r.side <;> rfl

@[simp] theorem statusRoll_withSide : (f.withSide r).statusRoll = f.statusRoll := by
  unfold withSide
  cases r.side <;> rfl

@[simp] theorem parentAge_withSide : (f.withSide r).parentAge p = f.parentAge p := by
  unfold withSide parentAge
  cases r.side <;> rfl

/-! ### One side -/

/-- The siblings on a side. -/
def on (f : Family) : Side → List Sibling
  | .older => f.older
  | .younger => f.younger

/-- The number of litters on a side. -/
def litters (f : Family) : Side → Int
  | .older => f.olderLitters
  | .younger => f.youngerLitters

/-- What was rolled for the number of litters on a side. -/
def litterRoll (f : Family) : Side → Option LitterRoll
  | .older => f.olderRoll
  | .younger => f.youngerRoll

/-- The siblings on a side are those that say so. -/
theorem on_eq_filter (side : Side) :
    f.on side = f.siblings.filter fun b => b.isOlder == (side == .older) := by
  cases side with
  | older => exact List.filter_congr fun b _ => by cases b.isOlder <;> rfl
  | younger => exact List.filter_congr fun b _ => by cases b.isOlder <;> rfl

theorem isOlder_of_mem_on (side : Side) {b : Sibling} (h : b ∈ f.on side) :
    b.isOlder = (side == .older) := by
  rw [on_eq_filter] at h
  exact eq_of_beq (List.mem_filter.mp h).2

@[simp] theorem litters_withSide : (f.withSide r).litters r.side = r.litters := by
  unfold withSide litters
  cases r.side <;> rfl

@[simp] theorem litterRoll_withSide : (f.withSide r).litterRoll r.side = r.roll := by
  unfold withSide litterRoll
  cases r.side <;> rfl

@[simp] theorem litters_withSide_other :
    (f.withSide r).litters r.side.other = f.litters r.side.other := by
  unfold withSide litters
  cases r.side <;> rfl

@[simp] theorem litterRoll_withSide_other :
    (f.withSide r).litterRoll r.side.other = f.litterRoll r.side.other := by
  unfold withSide litterRoll
  cases r.side <;> rfl

section Siblings

variable {f r}

/-- Newly rolled siblings on one side stand in their place beside those on the other one. -/
theorem siblings_withSide : (f.withSide r).siblings = match r.side with
    | .older => r.siblings ++ f.on .younger
    | .younger => f.on .older ++ r.siblings := by
  unfold withSide
  cases r.side <;> rfl

theorem mem_or_mem_of_mem_withSide {b : Sibling} (h : b ∈ (f.withSide r).siblings) :
    b ∈ r.siblings ∨ b ∈ f.siblings := by
  rw [siblings_withSide] at h
  cases hside : r.side with
  | older =>
    rw [hside] at h
    exact (List.mem_append.mp h).imp_right fun h => (List.mem_filter.mp h).1
  | younger =>
    rw [hside] at h
    exact (List.mem_append.mp h).symm.imp_right fun h => (List.mem_filter.mp h).1

theorem filter_of_isOlder {l : List Sibling} (side : Side)
    (h : ∀ b ∈ l, b.isOlder = (side == .older)) :
    l.filter (fun b => b.isOlder == (side == .older)) = l :=
  List.filter_eq_self.mpr fun b hb => beq_iff_eq.mpr (h b hb)

theorem filter_other_of_isOlder {l : List Sibling} (side : Side)
    (h : ∀ b ∈ l, b.isOlder = (side == .older)) :
    l.filter (fun b => b.isOlder == (side.other == .older)) = [] := by
  refine List.filter_eq_nil_iff.mpr fun b hb => ?_
  rw [h b hb]
  cases side <;> decide

variable (h : ∀ b ∈ r.siblings, b.isOlder = (r.side == .older))

include h

/-- The newly rolled siblings are those on their side. -/
theorem on_withSide : (f.withSide r).on r.side = r.siblings := by
  rw [on_eq_filter, siblings_withSide]
  cases hside : r.side with
  | older =>
    rw [hside] at h
    have hother := filter_other_of_isOlder .younger fun b => f.isOlder_of_mem_on .younger
    simp only [List.filter_append, filter_of_isOlder _ h]
    rw [show (Side.older == Side.older) = (Side.younger.other == .older) from rfl, hother,
      List.append_nil]
  | younger =>
    rw [hside] at h
    have hother := filter_other_of_isOlder .older fun b => f.isOlder_of_mem_on .older
    simp only [List.filter_append, filter_of_isOlder _ h]
    rw [show (Side.younger == Side.older) = (Side.older.other == .older) from rfl, hother,
      List.nil_append]

/-- The siblings on the other side are who they were, in the same order. -/
theorem on_withSide_other : (f.withSide r).on r.side.other = f.on r.side.other := by
  rw [on_eq_filter, siblings_withSide]
  -- what was rolled is on the other side of the filter
  have hnone := filter_other_of_isOlder _ h
  cases hside : r.side with
  | older =>
    rw [hside] at hnone
    simp only [List.filter_append, hnone, List.nil_append]
    exact filter_of_isOlder .younger fun b => f.isOlder_of_mem_on .younger
  | younger =>
    rw [hside] at hnone
    simp only [List.filter_append, hnone, List.append_nil]
    exact filter_of_isOlder .older fun b => f.isOlder_of_mem_on .older

end Siblings

/-! ### The parents -/

/-- Another age of a parent is all that is new. -/
theorem exists_withParentAge : ∃ mother father,
    f.withParentAge p age = { f with motherAge := mother, fatherAge := father } := by
  cases p with
  | mother => exact ⟨age, f.fatherAge, rfl⟩
  | father => exact ⟨f.motherAge, age, rfl⟩

/-- The ages of the parents are all that may be dropped. -/
theorem exists_dropAge : ∃ mother father,
    dropAge p rules f = { f with motherAge := mother, fatherAge := father } := by
  unfold dropAge
  split
  · split
    · exact ⟨f.motherAge, f.fatherAge, rfl⟩
    · exact f.exists_withParentAge p none
  · exact f.exists_withParentAge p none

/-- The family with a newly rolled status, without the ages of parents who are not alive. -/
def withStatus : Family :=
  dropAge .father rules (dropAge .mother rules { f with statusRoll := some status })

/-- The status and the ages of the parents are all that is new. -/
theorem exists_withStatus : ∃ mother father, f.withStatus rules status =
    { f with statusRoll := some status, motherAge := mother, fatherAge := father } := by
  obtain ⟨m, fa, hmother⟩ :=
    exists_dropAge { f with statusRoll := some status } .mother rules
  obtain ⟨m', fa', hfather⟩ := exists_dropAge (dropAge .mother rules
    { f with statusRoll := some status }) .father rules
  refine ⟨m', fa', ?_⟩
  rw [withStatus, hfather, hmother]

end Family

end Kindred
