import Kindred.Record.Check

/-!
# Records read from their own parts

A record is written as a map with one entry for each of its parts, and built from such a map part by
part. Where every part is accepted as the value that it was written from, so is the record.

- `get_entries`: the part under a name.
- `listOf_map`, `orNull_ofOption`, `natural_ofNat`: the checks of written values.
- `Checked.Yields`: a check that gives a certain value if it gives one.
-/

namespace Kindred.Record

variable {α β γ : Type}

/-! ### Parts under their names -/

/-- The entries of a record with the given parts. -/
def entries (parts : List (String × Data)) : Fields := parts.map fun (name, d) => (.text name, d)

theorem record_eq_map (parts : List (String × Data)) : Data.record parts = .map (entries parts) :=
  rfl

theorem record_record (model : String) (build : Fields → Checked α)
    (parts : List (String × Data)) : record model build (.record parts) = build (entries parts) :=
  rfl

/-- Nothing is found under a name that no part has. -/
theorem field?_entries_of_not_mem {parts : List (String × Data)} {name : String}
    (h : name ∉ parts.map Prod.fst) : Data.field? name (entries parts) = none := by
  unfold Data.field? entries
  rw [Option.map_eq_none_iff, List.find?_eq_none]
  intro e he
  obtain ⟨⟨n, d⟩, hp, rfl⟩ := List.mem_map.mp (List.mem_reverse.mp he)
  have hne : n ≠ name := fun hn => h (hn ▸ List.mem_map_of_mem hp)
  simp [Data.isName, hne]

/-- A part is found under its name, if every name stands once. -/
theorem field?_entries {parts : List (String × Data)} {name : String} {d : Data}
    (hnodup : (parts.map Prod.fst).Nodup) (h : (name, d) ∈ parts) :
    Data.field? name (entries parts) = some d := by
  induction parts with
  | nil => cases h
  | cons p parts ih =>
    rw [List.map_cons, List.nodup_cons] at hnodup
    -- the last entry under a name counts, so the later parts are looked at first
    rcases List.mem_cons.mp h with rfl | h
    · have hnone := field?_entries_of_not_mem hnodup.1
      unfold Data.field? entries at hnone ⊢
      rw [Option.map_eq_none_iff] at hnone
      rw [List.map_cons, List.reverse_cons, List.find?_append, hnone]
      simp [Data.isName]
    · have hsome := ih hnodup.2 h
      unfold Data.field? entries at hsome ⊢
      rw [Option.map_eq_some_iff] at hsome
      obtain ⟨e, hfind, rfl⟩ := hsome
      rw [List.map_cons, List.reverse_cons, List.find?_append, hfind]
      rfl

/-- A part is checked as the value under its name. -/
theorem get_entries {parts : List (String × Data)} {name : String} {d : Data} {check : Check α}
    {otherwise : Checked α} (hnodup : (parts.map Prod.fst).Nodup) (h : (name, d) ∈ parts) :
    Fields.get [name] check otherwise (entries parts) = (check d).under (.name name) := by
  unfold Fields.get Fields.find?
  rw [List.findSome?_cons, field?_entries hnodup h]
  rfl

theorem required_entries {parts : List (String × Data)} {name : String} {d : Data}
    {check : Check α} (hnodup : (parts.map Prod.fst).Nodup) (h : (name, d) ∈ parts) :
    Fields.required [name] check (entries parts) = (check d).under (.name name) :=
  get_entries hnodup h

theorem withDefault_entries {parts : List (String × Data)} {name : String} {d : Data}
    {check : Check α} {default : α} (hnodup : (parts.map Prod.fst).Nodup) (h : (name, d) ∈ parts) :
    Fields.withDefault [name] check default (entries parts) = (check d).under (.name name) :=
  get_entries hnodup h

/-- A part that might not be there or be null, and is there. -/
theorem optional_entries {parts : List (String × Data)} {name : String} {d : Data}
    {check : Check α} (hnodup : (parts.map Prod.fst).Nodup) (h : (name, d) ∈ parts) :
    Fields.optional [name] check (entries parts) = (orNull check d).under (.name name) :=
  get_entries hnodup h

/-! ### Written values -/

@[simp] theorem natural_ofNat (n : Nat) : natural (.int n) = .ok n := by
  simp [natural, int, Checked.ok]

/-- The elements of a list are accepted as what they were written from. -/
theorem elements_map {check : Check α} {write : α → Data} (h : ∀ a, check (write a) = .ok a)
    (as : List α) (i : Nat) : elements check i (as.map write) = .ok as := by
  induction as generalizing i with
  | nil => rfl
  | cons a as ih =>
    rw [List.map_cons, elements, h a, ih (i + 1)]
    rfl

/-- A list is accepted as what it was written from. -/
theorem listOf_map {check : Check α} {write : α → Data} (h : ∀ a, check (write a) = .ok a)
    (as : List α) : listOf check (.list (as.map write)) = .ok as := elements_map h as 0

theorem orNull_of_ne_null {check : Check α} {d : Data} (h : d ≠ .null) :
    orNull check d = some <$> check d := by
  unfold orNull
  split
  · exact absurd rfl h
  · rfl

/-- A part that may be missing is accepted as what it was written from. -/
theorem orNull_ofOption {check : Check α} {write : α → Data} (h : ∀ a, check (write a) = .ok a)
    (hne : ∀ a, write a ≠ .null) (o : Option α) :
    orNull check (.ofOption write o) = .ok o := by
  cases o with
  | none => rfl
  | some a => rw [Data.ofOption, orNull_of_ne_null (hne a), h a, Checked.map_ok]

theorem orNull_int (o : Option Int) : orNull int (.ofOption .int o) = .ok o :=
  @orNull_ofOption _ _ .int (fun _ => rfl) nofun o

theorem orNull_text (o : Option String) : orNull text (.ofOption .text o) = .ok o :=
  @orNull_ofOption _ _ .text (fun _ => rfl) nofun o

/-! ### Values that a check may give -/

/-- Whether a check gives no other value. -/
def Checked.Yields (c : Checked α) (a : α) : Prop := ∀ b, c.outcome = .ok b → b = a

namespace Checked

theorem Yields.ok (a : α) : (Checked.ok a).Yields a := by
  intro b h
  cases h
  rfl

/-- A complaint yields whatever one wants. -/
theorem Yields.complain (cause : Cause) (a : α) : (Checked.complain cause : Checked α).Yields a :=
  nofun

theorem Yields.map {c : Checked α} {a : α} (h : c.Yields a) (f : α → β) :
    (f <$> c).Yields (f a) := by
  intro b hb
  change c.outcome.map f = .ok b at hb
  cases hc : c.outcome with
  | error cs => rw [hc] at hb; cases hb
  | ok a' =>
    rw [hc] at hb
    cases hb
    rw [h a' hc]

/-- Two values side by side. -/
theorem Yields.seq {cf : Checked (α → β)} {c : Checked α} {f : α → β} {a : α} (hf : cf.Yields f)
    (h : c.Yields a) : (cf <*> c).Yields (f a) := by
  intro b hb
  change (cf.both c).outcome = .ok b at hb
  unfold Checked.both at hb
  dsimp only at hb
  split at hb
  · next f' a' hcf hc =>
    cases hb
    rw [hf f' hcf, h a' hc]
  all_goals cases hb

/-- The same value, seen from further out. -/
theorem Yields.under {c : Checked α} {a : α} (h : c.Yields a) (step : Step) :
    (c.under step).Yields a := by
  intro b hb
  change c.outcome.mapError _ = .ok b at hb
  cases hc : c.outcome with
  | error cs => rw [hc] at hb; cases hb
  | ok a' =>
    rw [hc] at hb
    cases hb
    exact h _ hc

end Checked

/-- A part that may be missing. -/
theorem orNull_yields {check : Check α} {write : β → Data} {value : β → α}
    (h : ∀ b, (check (write b)).Yields (value b)) (hne : ∀ b, write b ≠ .null) (o : Option β) :
    (orNull check (.ofOption write o)).Yields (o.map value) := by
  cases o with
  | none => exact .ok none
  | some b =>
    rw [Data.ofOption, orNull_of_ne_null (hne b)]
    exact (h b).map some

end Kindred.Record
