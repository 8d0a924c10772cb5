import Kindred.Proofs.Race.Loose

/-!
# Who is alive under the status that a number leads to

A number leads to a row of the table, and only the status of that row is kept. Who is alive under
it is looked up later, by the status alone: the first row of the table that bears the status
decides, whichever row was hit. So the row that was hit is heard as soon as all rows that bear its
status agree about the parents, and may be overheard where they do not.

- `Leads`: the row of a table that a number leads to.
- `leads_selectRow?`: each number leads to a row.
- `eligibility_eq_first`, `eligibility_eq_of_agree`: the row that decides about a status.
- `isEligible_determineStatus`: who is alive under the status that a number leads to.
-/

namespace Kindred

open Kindred.Record

/-! ### The row that is hit -/

/-- Whether a number leads to a row of a table: to one that holds it, and none that holds it has a
greater upper bound; or, if no row holds it, to the last one. -/
structure Leads (table : List StatusRow) (n : Int) (r : StatusRow) : Prop where
  mem : r ∈ table
  hit : (r.contains n = true ∧ ∀ q ∈ table, q.contains n = true → q.max ≤ r.max) ∨
    ((∀ q ∈ table, q.contains n = false) ∧ table.getLast? = some r)

theorem mem_greatestFirst {table : List StatusRow} {r : StatusRow} :
    r ∈ greatestFirst table ↔ r ∈ table := (sortBy_perm _ table).mem_iff

theorem pairwise_greatestFirst (table : List StatusRow) :
    (greatestFirst table).Pairwise fun a b => b.max ≤ a.max := by
  have htotal : ∀ a b : StatusRow,
      decide (b.max ≤ a.max) = true ∨ decide (a.max ≤ b.max) = true := by
    intro a b
    simpa using Int.le_total b.max a.max
  have htrans : ∀ a b c : StatusRow, decide (b.max ≤ a.max) = true →
      decide (c.max ≤ b.max) = true → decide (c.max ≤ a.max) = true := by
    intro a b c hab hbc
    exact decide_eq_true (Int.le_trans (of_decide_eq_true hbc) (of_decide_eq_true hab))
  exact (pairwise_sortBy htotal htrans table).imp of_decide_eq_true

/-- The row that is tried first among those that hold a number has the greatest upper bound. -/
theorem max_le_of_find? {rows : List StatusRow} {n : Int} {r : StatusRow}
    (hrows : rows.Pairwise fun a b => b.max ≤ a.max) (h : rows.find? (·.contains n) = some r) :
    ∀ q ∈ rows, q.contains n = true → q.max ≤ r.max := by
  obtain ⟨-, before, after, rfl, hbefore⟩ := List.find?_eq_some_iff_append.mp h
  intro q hq hholds
  rcases List.mem_append.mp hq with hq | hq
  · have hnot := hbefore q hq
    rw [hholds] at hnot
    cases hnot
  · rcases List.mem_cons.mp hq with rfl | hq
    · exact Int.le_refl _
    · exact List.rel_of_pairwise_cons (List.pairwise_append.mp hrows).2.1 hq

/-- Each number leads to a row of a table that has rows. -/
theorem leads_selectRow? {table : List StatusRow} (h : table ≠ []) (n : Int) :
    ∃ r, selectRow? table n = some r ∧ Leads table n r := by
  unfold selectRow?
  cases hfind : (greatestFirst table).find? (·.contains n) with
  | some r =>
    have hmem : r ∈ table := mem_greatestFirst.mp (List.mem_of_find?_eq_some hfind)
    have hmax := max_le_of_find? (pairwise_greatestFirst table) hfind
    have hholds : r.contains n = true := (List.find?_eq_some_iff_append.mp hfind).1
    exact ⟨r, rfl, hmem, .inl ⟨hholds, fun q hq => hmax q (mem_greatestFirst.mpr hq)⟩⟩
  | none =>
    have hnone : ∀ q ∈ table, q.contains n = false := fun q hq =>
      Bool.eq_false_iff.mpr (List.find?_eq_none.mp hfind q (mem_greatestFirst.mpr hq))
    have hlast : table.getLast? = some (table.getLast h) := List.getLast?_eq_some_getLast h
    exact ⟨_, hlast, List.getLast_mem h, .inr ⟨hnone, hlast⟩⟩

/-! ### The row that decides -/

namespace ParentRules

variable {rules : ParentRules}

/-- The first row that bears a status decides who is alive under it. -/
theorem eligibility_eq_first {status : String} {first : StatusRow}
    (h : rules.table.find? (·.result == status) = some first) :
    rules.eligibility status = first.eligibility := by
  unfold eligibility
  rw [h]

/-- There is a first row with the status of each row. -/
theorem exists_first {r : StatusRow} (h : r ∈ rules.table) :
    ∃ first, rules.table.find? (·.result == r.result) = some first ∧ first ∈ rules.table ∧
      first.result = r.result := by
  cases hfind : rules.table.find? (·.result == r.result) with
  | some first =>
    exact ⟨first, rfl, List.mem_of_find?_eq_some hfind, by simpa using List.find?_some hfind⟩
  | none => simpa using List.find?_eq_none.mp hfind r h

/-- A row is heard about its status where all rows that bear the status agree. -/
theorem eligibility_eq_of_agree {r : StatusRow} (h : r ∈ rules.table)
    (hagree : ∀ q ∈ rules.table, q.result = r.result → q.eligibility = r.eligibility) :
    rules.eligibility r.result = r.eligibility := by
  obtain ⟨first, hfirst, hmem, hresult⟩ := exists_first h
  rw [eligibility_eq_first hfirst]
  exact hagree first hmem hresult

/-- The table of rules that are read has rows. -/
theorem table_ne_nil_of_check {d : Data} (h : (check d).outcome = .ok rules) :
    rules.table ≠ [] := by
  cases d with
  | map es =>
    obtain ⟨r, hr, htable, -⟩ := build_ok (writable_of_build h)
    obtain rfl : r = rules := Except.ok.inj (hr.symm.trans h)
    rw [htable]
    exact tableOr_ne_nil _
  | _ => cases h

end ParentRules

/-- **The first row with the status decides.** Whatever rules were read, a number leads to a row of
their table, and the status is that of the row. Who is alive under it is what the first row that
bears the same status says: the row that was hit itself, if all rows that bear its status agree. -/
theorem isEligible_determineStatus {d : Data} {rules : ParentRules}
    (h : (ParentRules.check d).outcome = .ok rules) (n : Int) :
    ∃ r first, selectRow? rules.table n = some r ∧ Leads rules.table n r ∧
      determineStatus rules.table n = r.result ∧
      rules.table.find? (·.result == r.result) = some first ∧
      (∀ p, rules.isEligible p r.result = first.eligibility.has p) ∧
      ((∀ q ∈ rules.table, q.result = r.result → q.eligibility = r.eligibility) →
        ∀ p, rules.isEligible p r.result = r.eligibility.has p) := by
  obtain ⟨r, hr, hleads⟩ := leads_selectRow? (ParentRules.table_ne_nil_of_check h) n
  obtain ⟨first, hfirst, -, -⟩ := ParentRules.exists_first hleads.mem
  have hstatus : determineStatus rules.table n = r.result := by
    unfold determineStatus
    rw [hr]
    rfl
  refine ⟨r, first, hr, hleads, hstatus, hfirst, fun p => ?_, fun hagree p => ?_⟩
  · exact congrArg (·.has p) (ParentRules.eligibility_eq_first hfirst)
  · exact congrArg (·.has p) (ParentRules.eligibility_eq_of_agree hleads.mem hagree)

/-- Rules with a table in which two rows bear one status and do not agree about the mother. -/
def dividedRules : ParentRules where
  table :=
    [{ min := 1, max := 50, result := "x", motherAlive := some true },
     { min := 51, max := 100, result := "x", motherAlive := some false }]

/-- Such rules are read as they are written. -/
theorem check_dividedRules :
    (ParentRules.check dividedRules.toData).outcome = .ok dividedRules := by
  rfl

/-- The number 60 leads to a row of them, and the first row with its status is heard. -/
theorem isEligible_determineStatus_divided :
    (ParentRules.check dividedRules.toData).outcome = .ok dividedRules ∧
    ∃ r first, selectRow? dividedRules.table 60 = some r ∧
      dividedRules.table.find? (·.result == r.result) = some first ∧
      ∀ p, dividedRules.isEligible p r.result = first.eligibility.has p := by
  obtain ⟨r, first, hr, -, -, hfirst, hhas, -⟩ :=
    isEligible_determineStatus check_dividedRules 60
  exact ⟨check_dividedRules, r, first, hr, hfirst, hhas⟩

/-- The row that was hit is not heard there: 60 leads to the second row, which says that the mother
is dead, and she counts as alive. -/
theorem isEligible_ne_divided :
    (ParentRules.check dividedRules.toData).outcome = .ok dividedRules ∧
    ¬ ∀ n r, selectRow? dividedRules.table n = some r →
      ∀ p, dividedRules.isEligible p r.result = r.eligibility.has p := by
  refine ⟨check_dividedRules, fun hall => ?_⟩
  have hhit : selectRow? dividedRules.table 60 = some
      { min := 51, max := 100, result := "x", motherAlive := some false } := by decide
  have hmother := hall 60 _ hhit .mother
  revert hmother
  decide

end Kindred
