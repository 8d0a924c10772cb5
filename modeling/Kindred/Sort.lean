/-!
# Stable sorting

Sorting by insertion: each element is put in front of the first one that it may stand before. Of two
elements that may stand in either order, the one that came first stays in front.

- `insertBy`: puts one element in its place.
- `sortBy`: puts all elements in their places, from the last one to the first one.
-/

namespace Kindred

variable {α : Type} (le : α → α → Bool)

/-- Puts an element in front of the first one that it may stand before. -/
def insertBy (a : α) : List α → List α
  | [] => [a]
  | b :: bs => if le a b then a :: b :: bs else b :: insertBy a bs

/-- The elements in order; those that may stand in either order stay as they were. -/
def sortBy (l : List α) : List α := l.foldr (insertBy le) []

theorem insertBy_perm (a : α) (l : List α) : (insertBy le a l).Perm (a :: l) := by
  induction l with
  | nil => exact .refl [a]
  | cons b l ih =>
    unfold insertBy
    split
    · exact .refl _
    · exact (ih.cons b).trans (.swap a b l)

/-- The elements are the same as before. -/
theorem sortBy_perm (l : List α) : (sortBy le l).Perm l := by
  induction l with
  | nil => exact .refl []
  | cons a l ih => exact (insertBy_perm le a _).trans (ih.cons a)

variable {le}

theorem pairwise_insertBy (htotal : ∀ a b, le a b = true ∨ le b a = true)
    (htrans : ∀ a b c, le a b = true → le b c = true → le a c = true) (a : α) {l : List α}
    (h : l.Pairwise fun b c => le b c = true) :
    (insertBy le a l).Pairwise fun b c => le b c = true := by
  induction l with
  | nil => exact List.pairwise_singleton _ a
  | cons b l ih =>
    obtain ⟨hb, hl⟩ := List.pairwise_cons.mp h
    unfold insertBy
    split
    · next hab =>
      exact .cons (List.forall_mem_cons.mpr ⟨hab, fun c hc => htrans a b c hab (hb c hc)⟩) h
    · next hab =>
      have hba : le b a = true := (htotal a b).resolve_left hab
      refine .cons (fun c hc => ?_) (ih hl)
      rcases List.mem_cons.mp ((insertBy_perm le a l).mem_iff.mp hc) with rfl | hc
      · exact hba
      · exact hb c hc

/-- No element stands behind one that it would have to stand before. -/
theorem pairwise_sortBy (htotal : ∀ a b, le a b = true ∨ le b a = true)
    (htrans : ∀ a b c, le a b = true → le b c = true → le a c = true) (l : List α) :
    (sortBy le l).Pairwise fun b c => le b c = true := by
  induction l with
  | nil => exact .nil
  | cons a l ih => exact pairwise_insertBy htotal htrans a ih

variable {p : α → Bool}

theorem filter_insertBy {a : α} {l : List α}
    (h : p a = true → ∀ b ∈ l, p b = true → le a b = true) :
    (insertBy le a l).filter p = (a :: l).filter p := by
  induction l with
  | nil => rfl
  | cons b l ih =>
    have ih := ih fun ha c hc => h ha c (List.mem_cons_of_mem b hc)
    unfold insertBy
    split
    · rfl
    · next hab =>
      have hnot : p a = false ∨ p b = false := by
        cases ha : p a with
        | false => exact .inl rfl
        | true => exact .inr (Bool.eq_false_iff.mpr fun hb => hab (h ha b List.mem_cons_self hb))
      rw [List.filter_cons, ih]
      rcases hnot with ha | hb
      · simp [List.filter_cons, ha]
      · simp [List.filter_cons, hb]

/-- Elements that may stand in either order stay in the order in which they came. -/
theorem filter_sortBy {l : List α}
    (h : ∀ a ∈ l, ∀ b ∈ l, p a = true → p b = true → le a b = true) :
    (sortBy le l).filter p = l.filter p := by
  induction l with
  | nil => rfl
  | cons a l ih =>
    have ih : (sortBy le l).filter p = l.filter p := ih fun b hb c hc =>
      h b (List.mem_cons_of_mem a hb) c (List.mem_cons_of_mem a hc)
    have hinsert : ∀ b ∈ sortBy le l, p a = true → p b = true → le a b = true := fun b hb =>
      h a List.mem_cons_self b (List.mem_cons_of_mem a ((sortBy_perm le l).mem_iff.mp hb))
    calc (sortBy le (a :: l)).filter p
        = (a :: sortBy le l).filter p := filter_insertBy fun ha b hb => hinsert b hb ha
      _ = (a :: l).filter p := by simp only [List.filter_cons, ih]

end Kindred
