import Kindred.Proofs.Parent.Eligibility
import Mathlib.Data.List.Pairwise

/-!
# The row of a status table that a number selects

The rows of a table may overlap, lie inside each other, or be empty because their bounds stand the
wrong way round. They are tried with the greatest upper bound first, and sorting by it is stable.
So among the rows that span a number one with the greatest upper bound is taken, and of several
such rows the first of the table. A number that no row spans goes to the last row.

The order of the rows is heard in two places only: where rows that span the number share their
upper bound, and where no row spans it.

- `StatusRow.Spans`: the numbers of a row.
- `Selected`: the row of a table that a number selects.
- `selected_of_find?`: the row that is tried first is that one.
- `determineStatus_eq_of_perm`: the order of the rows, where the rows that could be taken agree.
- `determineStatus_spec`: the status that a number leads to.
-/

namespace Kindred

/-- Whether a number lies between the bounds of a row. No number does if they stand the wrong way
round. -/
def StatusRow.Spans (r : StatusRow) (n : Int) : Prop := r.min ≤ n ∧ n ≤ r.max

instance (r : StatusRow) (n : Int) : Decidable (r.Spans n) :=
  inferInstanceAs (Decidable (r.min ≤ n ∧ n ≤ r.max))

theorem StatusRow.contains_eq_true_iff {r : StatusRow} {n : Int} :
    r.contains n = true ↔ r.Spans n := by
  rw [contains_eq, Bool.and_eq_true, decide_eq_true_iff, decide_eq_true_iff]
  rfl

/-- A row at a place of a table such that it spans the number, each row in front of it that spans
the number has a smaller upper bound, and none behind it that spans the number has a greater
one. -/
def Selected (table : List StatusRow) (n : Int) (r : StatusRow) : Prop :=
  r.Spans n ∧ ∃ before after, table = before ++ r :: after ∧
    (∀ q ∈ before, q.Spans n → q.max < r.max) ∧ (∀ q ∈ after, q.Spans n → q.max ≤ r.max)

variable {table table' : List StatusRow} {n : Int} {r r' : StatusRow}

namespace Selected

theorem mem (h : Selected table n r) : r ∈ table := by
  obtain ⟨-, before, after, rfl, -, -⟩ := h
  exact List.mem_append_right before List.mem_cons_self

theorem max_le (h : Selected table n r) : ∀ q ∈ table, q.Spans n → q.max ≤ r.max := by
  obtain ⟨-, before, after, rfl, hbefore, hafter⟩ := h
  intro q hq hspans
  rcases List.mem_append.mp hq with hq | hq
  · exact Int.le_of_lt (hbefore q hq hspans)
  · rcases List.mem_cons.mp hq with rfl | hq
    · exact Int.le_refl _
    · exact hafter q hq hspans

/-- In whatever orders the rows stand, the rows that are selected have the same upper bound. -/
theorem max_eq_of_perm (h : Selected table n r) (h' : Selected table' n r')
    (hperm : table'.Perm table) : r'.max = r.max :=
  Int.le_antisymm (h.max_le r' (hperm.mem_iff.mp h'.mem) h'.1)
    (h'.max_le r (hperm.mem_iff.mpr h.mem) h.1)

theorem find?_eq_some (h : Selected table n r) :
    table.find? (fun q => q.contains n && q.max == r.max) = some r := by
  obtain ⟨hspans, before, after, rfl, hbefore, -⟩ := h
  have hholds : r.contains n = true := StatusRow.contains_eq_true_iff.mpr hspans
  refine List.find?_eq_some_iff_append.mpr ⟨by simp [hholds], before, after, rfl, ?_⟩
  intro q hq
  cases hq' : q.contains n with
  | false => rfl
  | true =>
    have hlt := hbefore q hq (StatusRow.contains_eq_true_iff.mp hq')
    simpa using Int.ne_of_lt hlt

/-- A number selects one row only. -/
theorem unique (h : Selected table n r) (h' : Selected table n r') : r' = r := by
  have hfind := h'.find?_eq_some
  rw [h.max_eq_of_perm h' (.refl table), h.find?_eq_some] at hfind
  exact (Option.some.inj hfind).symm

end Selected

/-! ### The row that is tried first -/

/-- Rows that share their upper bound are tried in the order of the table. -/
theorem filter_greatestFirst {p : StatusRow → Bool} {bound : Int}
    (h : ∀ q, p q = true → q.max = bound) (table : List StatusRow) :
    (greatestFirst table).filter p = table.filter p :=
  filter_sortBy fun a _ b _ ha hb => decide_eq_true (Int.le_of_eq ((h b hb).trans (h a ha).symm))

/-- The row that is tried first among those that span a number is also the first of the table that
spans it and has its upper bound. -/
theorem find?_of_greatestFirst (h : (greatestFirst table).find? (·.contains n) = some r) :
    table.find? (fun q => q.contains n && q.max == r.max) = some r := by
  have hsorted :
      (greatestFirst table).find? (fun q => q.contains n && q.max == r.max) = some r := by
    obtain ⟨hholds, before, after, hsplit, hbefore⟩ := List.find?_eq_some_iff_append.mp h
    refine List.find?_eq_some_iff_append.mpr ⟨by simp [hholds], before, after, hsplit, ?_⟩
    intro q hq
    have hnot : q.contains n = false := by simpa using hbefore q hq
    simp [hnot]
  have hbound : ∀ q : StatusRow, (q.contains n && q.max == r.max) = true → q.max = r.max := by
    intro q hq
    exact eq_of_beq (Bool.and_eq_true_iff.mp hq).2
  rw [← List.head?_filter, ← filter_greatestFirst hbound, List.head?_filter]
  exact hsorted

theorem selected_of_find? (h : (greatestFirst table).find? (·.contains n) = some r) :
    Selected table n r := by
  have hmax : ∀ q ∈ table, q.Spans n → q.max ≤ r.max := fun q hq hspans =>
    max_le_of_find? (pairwise_greatestFirst table) h q (mem_greatestFirst.mpr hq)
      (StatusRow.contains_eq_true_iff.mpr hspans)
  have hholds : r.contains n = true := (List.find?_eq_some_iff_append.mp h).1
  obtain ⟨-, before, after, rfl, hbefore⟩ :=
    List.find?_eq_some_iff_append.mp (find?_of_greatestFirst h)
  refine ⟨StatusRow.contains_eq_true_iff.mp hholds, before, after, rfl, ?_, ?_⟩
  · intro q hq hspans
    have hne : q.max ≠ r.max := by
      simpa [StatusRow.contains_eq_true_iff.mpr hspans] using hbefore q hq
    exact Int.lt_iff_le_and_ne.mpr ⟨hmax q (List.mem_append_left _ hq) hspans, hne⟩
  · intro q hq hspans
    exact hmax q (List.mem_append_right before (List.mem_cons_of_mem r hq)) hspans

/-! ### The status -/

/-- A number that a row spans selects a row, and gets its status. -/
theorem exists_selected (h : ∃ q ∈ table, q.Spans n) :
    ∃ r, Selected table n r ∧ determineStatus table n = r.result := by
  unfold determineStatus selectRow?
  cases hfind : (greatestFirst table).find? (·.contains n) with
  | some r => exact ⟨r, selected_of_find? hfind, rfl⟩
  | none =>
    obtain ⟨q, hq, hspans⟩ := h
    have hnot := List.find?_eq_none.mp hfind q (mem_greatestFirst.mpr hq)
    exact absurd (StatusRow.contains_eq_true_iff.mpr hspans) hnot

/-- A number that no row spans gets the status of the last row. -/
theorem determineStatus_of_outside (htable : table ≠ []) (h : ∀ q ∈ table, ¬ q.Spans n) :
    determineStatus table n = (table.getLast htable).result := by
  have hnone : (greatestFirst table).find? (·.contains n) = none :=
    List.find?_eq_none.mpr fun q hq hholds =>
      h q (mem_greatestFirst.mp hq) (StatusRow.contains_eq_true_iff.mp hholds)
  unfold determineStatus selectRow?
  rw [hnone, List.getLast?_eq_some_getLast htable]
  rfl

/-- The order of the rows does not matter to a number that some row spans, as long as the rows that
span it and share their upper bound bring the same status. -/
theorem determineStatus_eq_of_perm (hperm : table'.Perm table) (h : ∃ q ∈ table, q.Spans n)
    (hagree : ∀ q ∈ table, ∀ q' ∈ table, q.Spans n → q'.Spans n → q.max = q'.max →
      q.result = q'.result) :
    determineStatus table' n = determineStatus table n := by
  obtain ⟨q, hq, hspans⟩ := h
  obtain ⟨r, hr, hstatus⟩ := exists_selected ⟨q, hq, hspans⟩
  obtain ⟨r', hr', hstatus'⟩ := exists_selected ⟨q, hperm.mem_iff.mpr hq, hspans⟩
  have hresult : r'.result = r.result :=
    hagree r' (hperm.mem_iff.mp hr'.mem) r hr.mem hr'.1 hr.1 (hr.max_eq_of_perm hr' hperm)
  rw [hstatus', hstatus, hresult]

/-- Whether two rows that span a number have different upper bounds. -/
def Apart (n : Int) (a b : StatusRow) : Prop := a.Spans n → b.Spans n → a.max ≠ b.max

instance (n : Int) (a b : StatusRow) : Decidable (Apart n a b) :=
  inferInstanceAs (Decidable (a.Spans n → b.Spans n → a.max ≠ b.max))

instance (n : Int) : Std.Symm (Apart n) := ⟨fun _ _ h hb ha => (h ha hb).symm⟩

/-- In a table whose rows are apart, two rows that share their upper bound are one row. -/
theorem result_eq_of_apart (h : table.Pairwise (Apart n)) :
    ∀ q ∈ table, ∀ q' ∈ table, q.Spans n → q'.Spans n → q.max = q'.max →
      q.result = q'.result := by
  intro q hq q' hq' hspans hspans' hmax
  by_cases heq : q = q'
  · rw [heq]
  · exact absurd hmax (h.forall hq hq' heq hspans hspans')

/-- **What a number leads to.** In a table with rows, a number that some row spans selects one row
and gets its status: the row spans the number, none that spans it has a greater upper bound, and
none in front of it that spans it has the same. Such a number gets the same status in whatever
order the rows stand, provided that no two rows that span it share their upper bound. A number that
no row spans gets the status of the last row. -/
theorem determineStatus_spec (htable : table ≠ []) (n : Int) :
    ((∃ q ∈ table, q.Spans n) →
      (∃ r, Selected table n r ∧ (∀ q, Selected table n q → q = r) ∧
        determineStatus table n = r.result) ∧
      (table.Pairwise (Apart n) → ∀ table', table'.Perm table →
        determineStatus table' n = determineStatus table n)) ∧
    ((∀ q ∈ table, ¬ q.Spans n) →
      determineStatus table n = (table.getLast htable).result) := by
  refine ⟨fun hspans => ⟨?_, ?_⟩, determineStatus_of_outside htable⟩
  · obtain ⟨r, hr, hstatus⟩ := exists_selected hspans
    exact ⟨r, hr, fun q hq => hr.unique hq, hstatus⟩
  · intro happart table' hperm
    exact determineStatus_eq_of_perm hperm hspans (result_eq_of_apart happart)

/-- A table with rows that lie inside each other, one whose bounds stand the wrong way round, and
two that share their upper bound. -/
def nestedTable : List StatusRow :=
  [{ min := 10, max := 20, result := "inner" }, { min := 40, max := 30, result := "inverted" },
   { min := 1, max := 50, result := "outer" }, { min := 45, max := 50, result := "late" }]

/-- The number 15 leads to the third of these rows, also when they stand the other way round, and
the number 35 is spanned by that row alone. The number 60 leads to the last row. -/
theorem determineStatus_spec_nested :
    nestedTable ≠ [] ∧
    (∃ r, Selected nestedTable 15 r ∧ (∀ q, Selected nestedTable 15 q → q = r) ∧
      determineStatus nestedTable 15 = r.result) ∧
    determineStatus nestedTable.reverse 15 = determineStatus nestedTable 15 ∧
    determineStatus nestedTable 60 = "late" := by
  have hrows : nestedTable ≠ [] := by decide
  have hspans : ∃ q ∈ nestedTable, q.Spans 15 := by decide
  have happart : nestedTable.Pairwise (Apart 15) := by decide
  have houtside : ∀ q ∈ nestedTable, ¬ q.Spans 60 := by decide
  obtain ⟨hselected, hperm⟩ := (determineStatus_spec hrows 15).1 hspans
  exact ⟨hrows, hselected, hperm happart _ (List.reverse_perm _),
    (determineStatus_spec hrows 60).2 houtside⟩

end Kindred
