import Kindred.Proofs.Json.Integers
import Kindred.Proofs.Record.Loose
import Kindred.Proofs.Record.Saved

/-!
# Values that are settled

A check may change what it reads: it turns numerals into numbers, leaves out rows, and puts defaults
in the place of blanks. What comes out of it is settled: written down again, it is accepted as it
is.

- `Settles`: a check whose values are settled, and hold no integers that cannot be read again.
- `int_settles`, `text_settles`, `bool_settles`, `orNull_settles`: the checks of single values.
- `Rebuilds`, `RebuildsFrom`: records that are built again from their parts, with `Rebuilds.map` and
  `Rebuilds.seq` to put them together.
- `Settles.required`, `Settles.withDefault`, `Settles.optional`, `SettlesUsable.withDefault`: parts.
- `usableRows_map`, `usableRows_short`, `Settles.mapOf`: tables with useless rows, and maps.
- `IsPlain`: values that are read back as they are written.
- `Normalises`, `Settles.normalises`: whole records, from loose data and from their own text.
-/

namespace Kindred.Record

open Kindred.Json Kindred.Text Kindred.Number

variable {α β : Type} {check : Check α} {write : α → Data}

/-- Whether what a check gives is settled: it is accepted as itself, without remarks, from what is
written for it, and that has short integers if the value that was read has. -/
structure Settles (check : Check α) (write : α → Data) : Prop where
  again {d : Data} {a : α} : (check d).outcome = .ok a → check (write a) = .ok a
  short {d : Data} {a : α} : (check d).outcome = .ok a → HasShortIntegers d →
    HasShortIntegers (write a)

/-! ### Single values -/

/-- The integer of a double is below the bound of 63 bits. -/
theorem short_of_intOfFloat {x : Float} {n : Int} (h : intOfFloat x = .ok n) : Short n := by
  have hbound : Short wordBound := by decide
  unfold intOfFloat at h
  split at h
  · cases h
  · split at h
    · cases h
    · split at h
      · next hlt =>
        cases h
        exact short_of_natAbs_le hbound (Nat.le_of_lt hlt)
      · cases h

theorem short_of_plainInt {s : List Char} {n : Int} (h : plainInt s = .ok n) : Short n := by
  unfold plainInt at h
  split at h
  next negative body _ =>
  generalize spanAsciiDigits body = digits at h
  obtain ⟨ds, rest⟩ := digits
  dsimp only at h
  split at h
  · cases h
  · split at h
    · cases h
    · next hlength =>
      split at h
      · cases h
      · cases h
        exact short_of_length_le (Nat.not_lt.mp hlength) negative

theorem short_of_intOfText {s : String} {n : Int} (h : intOfText s = .ok n) : Short n := by
  unfold intOfText at h
  split at h
  · exact short_of_plainInt h
  · exact short_of_plainInt h

theorem int_settles : Settles int .int where
  again _ := rfl
  short {d n} h hd := by
    refine hasShortIntegers_int_iff.mpr ?_
    unfold int at h
    split at h
    · cases h
      exact hasShortIntegers_int_iff.mp hd
    · next b =>
      cases h
      cases b <;> decide
    · exact short_of_intOfFloat (Checked.outcome_ofExcept_iff.mp h)
    · exact short_of_intOfText (Checked.outcome_ofExcept_iff.mp h)
    · obtain ⟨s, -, hs⟩ := except_bind_ok_iff.mp (Checked.outcome_ofExcept_iff.mp h)
      exact short_of_intOfText hs
    · cases h

/-- What is written as a text, a truth value or nothing has no integers. -/
theorem text_settles : Settles text .text := ⟨fun _ => rfl, fun _ _ => hasShortIntegers_of_nil rfl⟩

theorem bool_settles : Settles bool .bool := ⟨fun _ => rfl, fun _ _ => hasShortIntegers_of_nil rfl⟩

/-- A part that may be absent, where what is there is taken by another check. -/
theorem Settles.ofOption (h : Settles check write) {check' : Check (Option α)}
    (hvalue : ∀ {d a}, (check' d).outcome = .ok (some a) → (check d).outcome = .ok a)
    (hnull : check' .null = .ok none)
    (hsome : ∀ a, check (write a) = .ok a → check' (write a) = .ok (some a)) :
    Settles check' (.ofOption write) where
  again {d o} ho := by
    cases o with
    | none => exact hnull
    | some a => exact hsome a (h.again (hvalue ho))
  short {d o} ho hd := by
    cases o with
    | none => exact hasShortIntegers_of_nil rfl
    | some a => exact h.short (hvalue ho) hd

theorem orNull_settles (h : Settles check write) (hne : ∀ a, write a ≠ .null) :
    Settles (orNull check) (.ofOption write) := by
  refine h.ofOption (fun {d a} ho => ?_) rfl fun a ha => ?_
  · unfold orNull at ho
    split at ho
    · cases ho
    · obtain ⟨b, hb, heq⟩ := Checked.outcome_map_ok_iff.mp ho
      cases heq
      exact hb
  · rw [orNull_of_ne_null (hne a), ha, Checked.map_ok]

/-! ### Records that are built again -/

/-- Whether the parts of a record stand among some entries. -/
def Stand (parts : List (String × Data)) (es : Fields) : Prop :=
  ∀ p ∈ parts, Data.field? p.1 es = some p.2

theorem stand_entries {parts : List (String × Data)} (h : (parts.map Prod.fst).Nodup) :
    Stand parts (entries parts) := fun _ hp => field?_entries h hp

/-- Whether all that is built from some entries has parts of a kind from which it is built again,
without remarks and wherever they stand, and that have short integers if the entries have. -/
def Rebuilds (build : Fields → Checked α) (kind : α → List (String × Data) → Prop) : Prop :=
  ∀ ⦃es a⦄, (build es).outcome = .ok a → ∃ parts, kind a parts ∧
    (∀ es', Stand parts es' → build es' = .ok a) ∧
    (HasShortIntegers (.map es) → ∀ p ∈ parts, HasShortIntegers p.2)

/-- Whether all that is built from some entries is built again from its own fields. -/
abbrev RebuildsFrom (build : Fields → Checked α) (fields : α → List (String × Data)) : Prop :=
  Rebuilds build fun a parts => fields a = parts

namespace Rebuilds

variable {build : Fields → Checked α} {fields : α → List (String × Data)}
  {kind : β → List (String × Data) → Prop}

theorem again (h : RebuildsFrom build fields) {es es' : Fields} {a : α}
    (ha : (build es).outcome = .ok a) (hstand : Stand (fields a) es') : build es' = .ok a := by
  obtain ⟨parts, rfl, hagain, -⟩ := h ha
  exact hagain es' hstand

theorem short (h : RebuildsFrom build fields) {es : Fields} {a : α}
    (ha : (build es).outcome = .ok a) (hes : HasShortIntegers (.map es)) :
    ∀ p ∈ fields a, HasShortIntegers p.2 := by
  obtain ⟨parts, rfl, -, hshort⟩ := h ha
  exact hshort hes

/-- The first part of a record. -/
theorem map {f : α → β} (h : RebuildsFrom build fields) (hf : ∀ a, kind (f a) (fields a)) :
    Rebuilds (fun es => f <$> build es) kind := by
  intro es b hb
  obtain ⟨a, ha, rfl⟩ := Checked.outcome_map_ok_iff.mp hb
  refine ⟨fields a, hf a, fun es' hstand => ?_, h.short ha⟩
  show f <$> build es' = _
  rw [h.again ha hstand]
  rfl

/-- One more part of a record, so that parts are told from the last one on. -/
theorem seq {first : Fields → Checked (α → β)} (h : RebuildsFrom build fields)
    (hfirst : Rebuilds first fun f parts => ∀ a, kind (f a) (parts ++ fields a)) :
    Rebuilds (fun es => first es <*> build es) kind := by
  intro es b hb
  obtain ⟨f, a, hf, ha, rfl⟩ := Checked.outcome_seq_ok_iff.mp hb
  obtain ⟨parts, hkind, hagain, hshort⟩ := hfirst hf
  refine ⟨parts ++ fields a, hkind a, fun es' hstand => ?_, fun hes => ?_⟩
  · obtain ⟨hstand, hstand'⟩ := List.forall_mem_append.mp hstand
    show first es' <*> build es' = _
    rw [hagain es' hstand, h.again ha hstand']
    rfl
  · exact List.forall_mem_append.mpr ⟨hshort hes, h.short ha hes⟩

/-- A record that is built again from its fields is settled, if these have different names. -/
theorem settles (h : RebuildsFrom build fields) (hnodup : ∀ a, ((fields a).map Prod.fst).Nodup)
    (model : String) : Settles (record model build) fun a => .record (fields a) where
  again {d a} ha := by
    unfold record at ha
    split at ha
    · exact h.again ha (stand_entries (hnodup a))
    · cases ha
  short {d a} ha hd := by
    unfold record at ha
    split at ha
    · exact hasShortIntegers_record (h.short ha hd)
    · cases ha

end Rebuilds

/-! ### Parts of records -/

theorem hasShortIntegers_of_field? {name : String} {es : Fields} {d : Data}
    (h : Data.field? name es = some d) (hes : HasShortIntegers (.map es)) :
    HasShortIntegers d := by
  obtain ⟨e, hfind, rfl⟩ := Option.map_eq_some_iff.mp h
  exact hasShortIntegers_map_iff.mp hes e (List.mem_reverse.mp (List.mem_of_find?_eq_some hfind))

/-- A part that stands under the first of its names is read there. -/
theorem get_of_field? {name : String} {names : List String} {es : Fields} {otherwise : Checked α}
    {d : Data} {a : α} (hcheck : check d = .ok a) (h : Data.field? name es = some d) :
    Fields.get (name :: names) check otherwise es = .ok a := by
  unfold Fields.get Fields.find?
  rw [List.findSome?_cons, h]
  dsimp only [Option.map_some]
  rw [hcheck]
  rfl

/-- Whether what a check gives for values of use is settled, and of use itself. -/
structure SettlesUsable (p : Data → Bool) (check : Check α) (write : α → Data) : Prop where
  again {d : Data} {a : α} : p d = true → (check d).outcome = .ok a →
    p (write a) = true ∧ check (write a) = .ok a
  short {d : Data} {a : α} : (check d).outcome = .ok a → HasShortIntegers d →
    HasShortIntegers (write a)

section Parts

variable {name : String} {names : List String}

/-- A part that is looked for among entries of which the values of use are left. What is found is
settled, and so has to be what stands in its place. -/
theorem SettlesUsable.get {p : Data → Bool} (h : SettlesUsable p check write)
    {select : Fields → Fields}
    (hselect : ∀ name es, Data.field? name (select es) = (Data.field? name es).filter p)
    {otherwise : Checked α} (hother : ∀ a, otherwise.outcome = .ok a →
      (p (write a) = true ∧ check (write a) = .ok a) ∧ HasShortIntegers (write a)) :
    RebuildsFrom (fun es => Fields.get (name :: names) check otherwise (select es))
      fun a => [(name, write a)] := by
  intro es a ha
  have hsettled : (p (write a) = true ∧ check (write a) = .ok a) ∧
      (HasShortIntegers (.map es) → HasShortIntegers (write a)) := by
    unfold Fields.get at ha
    dsimp only at ha
    cases hfind : Fields.find? (name :: names) (select es) with
    | none =>
      rw [hfind] at ha
      exact (hother a ha).imp_right fun hshort _ => hshort
    | some found =>
      rw [hfind] at ha
      have hfield := field?_of_find? hfind
      rw [hselect, Option.filter_eq_some_iff] at hfield
      have hd := Checked.outcome_under_ok_iff.mp ha
      exact ⟨h.again hfield.2 hd, fun hes =>
        h.short hd (hasShortIntegers_of_field? hfield.1 hes)⟩
  refine ⟨_, rfl, fun es' hstand => ?_, fun hes => List.forall_mem_singleton.mpr (hsettled.2 hes)⟩
  refine get_of_field? hsettled.1.2 ?_
  rw [hselect, hstand _ List.mem_cons_self, Option.filter_some, if_pos hsettled.1.1]

theorem SettlesUsable.withDefault {p : Data → Bool} (h : SettlesUsable p check write) {default : α}
    (hdefault : p (write default) = true ∧ check (write default) = .ok default)
    (hshort : HasShortIntegers (write default)) :
    RebuildsFrom (fun es => (usable p es).withDefault (name :: names) check default)
      fun a => [(name, write a)] :=
  h.get (fun name es => field?_usable name p es) fun a ha => by
    cases ha
    exact ⟨hdefault, hshort⟩

namespace Settles

/-- A part that is looked for among all entries. -/
theorem get (h : Settles check write) {otherwise : Checked α}
    (hother : ∀ a, otherwise.outcome = .ok a →
      check (write a) = .ok a ∧ HasShortIntegers (write a)) :
    RebuildsFrom (Fields.get (name :: names) check otherwise) fun a => [(name, write a)] := by
  have hall : SettlesUsable (fun _ => true) check write := ⟨fun _ ha => ⟨rfl, h.again ha⟩, h.short⟩
  refine hall.get (fun name es => ?_) fun a ha => ?_
  · cases Data.field? name es <;> rfl
  · exact ⟨⟨rfl, (hother a ha).1⟩, (hother a ha).2⟩

theorem required (h : Settles check write) :
    RebuildsFrom (Fields.required (name :: names) check) fun a => [(name, write a)] :=
  h.get fun a hmissing => by cases hmissing

theorem withDefault (h : Settles check write) {default : α}
    (hdefault : check (write default) = .ok default) (hshort : HasShortIntegers (write default)) :
    RebuildsFrom (Fields.withDefault (name :: names) check default)
      fun a => [(name, write a)] :=
  h.get fun a ha => by
    cases ha
    exact ⟨hdefault, hshort⟩

/-- A part that is absent by default, and where it is null. -/
theorem orAbsent {check : Check (Option α)} (h : Settles check (.ofOption write))
    (hnull : check .null = .ok none) :
    RebuildsFrom (Fields.withDefault (name :: names) check none)
      fun o => [(name, .ofOption write o)] :=
  h.withDefault hnull (hasShortIntegers_of_nil rfl)

theorem optional (h : Settles check write) (hne : ∀ a, write a ≠ .null) :
    RebuildsFrom (Fields.optional (name :: names) check)
      fun o => [(name, .ofOption write o)] :=
  (orNull_settles h hne).orAbsent rfl

end Settles

theorem Rebuilds.textOr {default : String} :
    RebuildsFrom (Fields.withDefault (name :: names) text default) fun s => [(name, .text s)] :=
  text_settles.withDefault rfl (hasShortIntegers_of_nil rfl)

end Parts

/-! ### Tables -/

/-- All rows that are written are of use. -/
theorem usableRows_map {rows : List α} (h : ∀ a ∈ rows, check (write a) = .ok a) (table : String)
    (i : Nat) : usableRows table check i (rows.map write) = (rows, []) := by
  induction rows generalizing i with
  | nil => rfl
  | cons a rows ih =>
    obtain ⟨ha, h⟩ := List.forall_mem_cons.mp h
    rw [List.map_cons, usableRows, ih h (i + 1), ha]
    rfl

/-- The rows of a table that are of use have short integers if its rows have. -/
theorem usableRows_short (h : Settles check write) {table : String} {i : Nat} {ds : List Data}
    (hds : HasShortIntegers (.list ds)) :
    ∀ a ∈ (usableRows table check i ds).1, HasShortIntegers (write a) := by
  intro a ha
  rw [usableRows_fst] at ha
  obtain ⟨d, hd, hrow⟩ := List.mem_filterMap.mp ha
  refine h.short (d := d) ?_ (hasShortIntegers_list_iff.mp hds d hd)
  cases hcheck : (check d).outcome with
  | ok b =>
    rw [hcheck] at hrow
    cases hrow
    rfl
  | error cs =>
    rw [hcheck] at hrow
    cases hrow

/-! ### Maps -/

theorem entriesOf_ok {es : Fields} {ps : List (String × α)}
    (h : (entriesOf check es).outcome = .ok ps) :
    ∀ p ∈ ps, ∃ e ∈ es, (check e.2).outcome = .ok p.2 := by
  induction es generalizing ps with
  | nil =>
    cases h
    exact List.forall_mem_nil _
  | cons e es ih =>
    obtain ⟨f, rest, hf, hrest, rfl⟩ := Checked.outcome_seq_ok_iff.mp h
    obtain ⟨first, hfirst, rfl⟩ := Checked.outcome_map_ok_iff.mp hf
    obtain ⟨g, a, hg, ha, rfl⟩ := Checked.outcome_seq_ok_iff.mp hfirst
    obtain ⟨name, -, rfl⟩ := Checked.outcome_map_ok_iff.mp hg
    refine List.forall_mem_cons.mpr ⟨?_, fun p hp => ?_⟩
    · exact ⟨e, List.mem_cons_self, Checked.outcome_under_ok_iff.mp ha⟩
    · obtain ⟨e', he', hp⟩ := ih hrest p hp
      exact ⟨e', List.mem_cons_of_mem _ he', hp⟩

/-- Entries are accepted as what they were written from. -/
theorem entriesOf_entries {ps : List (String × α)} (h : ∀ p ∈ ps, check (write p.2) = .ok p.2) :
    entriesOf check (entries (ps.map fun p => (p.1, write p.2))) = .ok ps := by
  induction ps with
  | nil => rfl
  | cons p ps ih =>
    obtain ⟨hp, h⟩ := List.forall_mem_cons.mp h
    have hentry : entry check (.text p.1, write p.2) = .ok p := by
      unfold entry
      rw [hp]
      rfl
    unfold entries at ih ⊢
    rw [List.map_cons, List.map_cons, entriesOf, ih h, hentry]
    rfl

theorem mem_setNamed {name : String} {a : α} {known : List (String × α)} {p : String × α}
    (h : p ∈ setNamed name a known) : p.2 = a ∨ p ∈ known := by
  induction known with
  | nil => exact .inl (congrArg Prod.snd (List.mem_singleton.mp h))
  | cons first known ih =>
    unfold setNamed at h
    split at h
    · rcases List.mem_cons.mp h with rfl | h
      · exact .inl rfl
      · exact .inr (List.mem_cons_of_mem _ h)
    · rcases List.mem_cons.mp h with rfl | h
      · exact .inr List.mem_cons_self
      · exact (ih h).imp_right (List.mem_cons_of_mem _)

/-- A new name is added at the end, and a known one keeps its place. -/
theorem names_setNamed (name : String) (a : α) (known : List (String × α)) :
    (setNamed name a known).map Prod.fst =
      if name ∈ known.map Prod.fst then known.map Prod.fst else known.map Prod.fst ++ [name] := by
  induction known with
  | nil => rfl
  | cons first known ih =>
    unfold setNamed
    by_cases hname : first.1 = name
    · rw [if_pos (beq_iff_eq.mpr hname), List.map_cons, if_pos (hname ▸ List.mem_cons_self)]
      rfl
    · rw [if_neg (mt beq_iff_eq.mp hname), List.map_cons, ih, List.map_cons]
      have hmem : name ∈ first.1 :: known.map Prod.fst ↔ name ∈ known.map Prod.fst :=
        List.mem_cons.trans (or_iff_right fun h => hname h.symm)
      split
      · next h => rw [if_pos (hmem.mpr h)]
      · next h => rw [if_neg (mt hmem.mp h), List.cons_append]

theorem setNamed_of_not_mem {name : String} {known : List (String × α)}
    (h : name ∉ known.map Prod.fst) (a : α) : setNamed name a known = known ++ [(name, a)] := by
  induction known with
  | nil => rfl
  | cons first known ih =>
    rw [List.map_cons, List.mem_cons, not_or] at h
    unfold setNamed
    rw [if_neg (mt beq_iff_eq.mp (Ne.symm h.1)), ih h.2, List.cons_append]

/-- The values of some entries, of which the last one of a name counts. -/
def lastNamed (ps : List (String × α)) : List (String × α) :=
  ps.foldl (fun known p => setNamed p.1 p.2 known) []

theorem mapOf_map (check : Check α) (es : Fields) :
    mapOf check (.map es) = lastNamed <$> entriesOf check es := rfl

theorem mem_lastNamed {ps : List (String × α)} {p : String × α} (h : p ∈ lastNamed ps) :
    ∃ q ∈ ps, p.2 = q.2 := by
  have hfold : ∀ known : List (String × α),
      p ∈ ps.foldl (fun known p => setNamed p.1 p.2 known) known →
        (∃ q ∈ ps, p.2 = q.2) ∨ p ∈ known := by
    clear h
    induction ps with
    | nil => exact fun known h => .inr h
    | cons first ps ih =>
      intro known h
      rcases ih _ h with ⟨q, hq, heq⟩ | h
      · exact .inl ⟨q, List.mem_cons_of_mem _ hq, heq⟩
      · exact (mem_setNamed h).imp_left fun heq => ⟨first, List.mem_cons_self, heq⟩
  exact (hfold [] h).resolve_right List.not_mem_nil

theorem nodup_lastNamed (ps : List (String × α)) : ((lastNamed ps).map Prod.fst).Nodup := by
  have hfold : ∀ known : List (String × α), (known.map Prod.fst).Nodup →
      ((ps.foldl (fun known p => setNamed p.1 p.2 known) known).map Prod.fst).Nodup := by
    induction ps with
    | nil => exact fun known h => h
    | cons first ps ih =>
      intro known h
      refine ih _ ?_
      rw [names_setNamed]
      split
      · exact h
      · next hname =>
        rw [← List.concat_eq_append]
        exact h.concat hname
  exact hfold [] List.nodup_nil

/-- Names that stand once are all kept. -/
theorem lastNamed_of_nodup {ps : List (String × α)} (h : (ps.map Prod.fst).Nodup) :
    lastNamed ps = ps := by
  have hfold : ∀ known : List (String × α), ((known ++ ps).map Prod.fst).Nodup →
      ps.foldl (fun known p => setNamed p.1 p.2 known) known = known ++ ps := by
    clear h
    induction ps with
    | nil => exact fun known _ => (List.append_nil known).symm
    | cons first ps ih =>
      intro known h
      have hfirst : first.1 ∉ known.map Prod.fst := by
        rw [List.map_append, List.map_cons] at h
        exact fun hmem => (List.nodup_append.mp h).2.2 _ hmem _ List.mem_cons_self rfl
      rw [List.foldl_cons, setNamed_of_not_mem hfirst, ih _ (by rwa [List.append_assoc]),
        List.append_assoc]
      rfl
  exact hfold [] h

/-- A map of settled values is settled. -/
theorem Settles.mapOf (h : Settles check write) :
    Settles (mapOf check) fun ps => .record (ps.map fun p => (p.1, write p.2)) := by
  have hvalues : ∀ {d ps}, (Record.mapOf check d).outcome = .ok ps → (ps.map Prod.fst).Nodup ∧
      ∀ p ∈ ps, check (write p.2) = .ok p.2 ∧
        (HasShortIntegers d → HasShortIntegers (write p.2)) := by
    intro d ps hps
    unfold Record.mapOf at hps
    split at hps
    · next es =>
      obtain ⟨qs, hqs, rfl⟩ := Checked.outcome_map_ok_iff.mp hps
      refine ⟨nodup_lastNamed qs, fun p hp => ?_⟩
      obtain ⟨q, hq, heq⟩ := mem_lastNamed hp
      obtain ⟨e, he, houtcome⟩ := entriesOf_ok hqs q hq
      rw [heq]
      exact ⟨h.again houtcome, fun hes => h.short houtcome (hasShortIntegers_map_iff.mp hes e he)⟩
    · cases hps
  constructor
  case again =>
    intro d ps hps
    obtain ⟨hnodup, hps⟩ := hvalues hps
    rw [record_eq_map, mapOf_map, entriesOf_entries fun p hp => (hps p hp).1, Checked.map_ok,
      lastNamed_of_nodup hnodup]
  case short =>
    intro d ps hps hd
    exact hasShortIntegers_record (List.forall_mem_map.mpr fun p hp => ((hvalues hps).2 p hp).2 hd)

/-! ### Plain values -/

/-- Whether a value is read back as it is written: without doubles that change, and not deeper than
a bound. -/
def IsPlain (k : Nat) (d : Data) : Prop := echo d = d ∧ depth d ≤ k

section Plain

variable {k : Nat}

theorem IsPlain.mono {k' : Nat} {d : Data} (h : IsPlain k d) (hk : k ≤ k') : IsPlain k' d :=
  ⟨h.1, h.2.trans hk⟩

@[simp] theorem isPlain_int (n : Int) : IsPlain k (.int n) := ⟨rfl, Nat.zero_le k⟩

@[simp] theorem isPlain_bool (b : Bool) : IsPlain k (.bool b) := ⟨rfl, Nat.zero_le k⟩

@[simp] theorem isPlain_text (s : String) : IsPlain k (.text s) := ⟨rfl, Nat.zero_le k⟩

@[simp] theorem isPlain_ofOption (h : ∀ a, IsPlain k (write a)) (o : Option α) :
    IsPlain k (.ofOption write o) := by
  cases o with
  | none => exact ⟨rfl, Nat.zero_le k⟩
  | some a => exact h a

theorem isPlain_list_map (h : ∀ a, IsPlain k (write a)) (as : List α) :
    IsPlain (k + 1) (.list (as.map write)) :=
  ⟨echo_list_map (fun a => (h a).1) as, depth_list_map_le (fun a => (h a).2) as⟩

theorem isPlain_record (parts : List (String × Data)) (h : ∀ p ∈ parts, IsPlain k p.2) :
    IsPlain (k + 1) (.record parts) := by
  refine ⟨?_, depth_record_le fun p hp => (h p hp).2⟩
  have hparts : (parts.map fun p => (p.1, echo p.2)) = parts.map id :=
    List.map_congr_left fun p hp => Prod.ext rfl (h p hp).1
  rw [List.map_id] at hparts
  rw [echo_record]
  exact congrArg Data.record hparts

end Plain

/-! ### Whole records -/

/-- Whether a record of a model is what becomes of it: from every loose value that is accepted comes
a record that is accepted as it is, and without remarks, from its own loose data; and from its own
text, if the loose value was read from one. -/
structure Normalises (model : String) (check : Check α) (write : α → Data) : Prop where
  loose {fromText : Bool} {d : Data} {remarks : List String} {a : α} :
    validate model fromText check d = (remarks, .ok a) →
      validate model fromText check (write a) = ([], .ok a)
  saved {r : Rules} {text : String} {fromText : Bool} {d : Data} {remarks : List String} {a : α} :
    read r text = .ok d → validate model fromText check d = (remarks, .ok a) →
      ofSaved model check (compact (write a)) = ([], .ok a) ∧
        ofSaved model check (indented (write a)) = ([], .ok a)

theorem validate_ok_iff {model : String} {fromText : Bool} {d : Data} {remarks : List String}
    {a : α} : validate model fromText check d = (remarks, .ok a) ↔
      (check d).remarks = remarks ∧ (check d).outcome = .ok a := by
  unfold validate
  rw [Prod.mk.injEq]
  refine and_congr_right fun _ => ?_
  cases (check d).outcome with
  | ok b => exact ⟨(fun h => by cases h; rfl), (fun h => by cases h; rfl)⟩
  | error cs => exact ⟨(fun h => by cases h), (fun h => by cases h)⟩

theorem validate_of_ok {d : Data} {a : α} (h : check d = .ok a) (model : String) (fromText : Bool) :
    validate model fromText check d = ([], .ok a) := by
  unfold validate
  rw [h]
  rfl

/-- A check whose values are settled and written plainly normalises. -/
theorem Settles.normalises (h : Settles check write)
    (hplain : ∀ a, IsPlain Rules.record.depth (write a)) (model : String) :
    Normalises model check write where
  loose ha := validate_of_ok (h.again (validate_ok_iff.mp ha).2) _ _
  saved {r text fromText d remarks a} hread ha := by
    have ha := (validate_ok_iff.mp ha).2
    have hlegible : Legible Rules.record.depth (write a) :=
      ⟨h.short ha (hasShortIntegers_of_read hread), (hplain a).2⟩
    have hvalid := validate_of_ok (h.again ha) model true
    unfold ofSaved
    rw [read_compact_of_legible rfl hlegible, read_indented_of_legible rfl hlegible,
      (hplain a).1]
    exact ⟨hvalid, hvalid⟩

end Kindred.Record
