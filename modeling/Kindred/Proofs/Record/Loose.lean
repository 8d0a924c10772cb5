import Kindred.Proofs.Text.Character
import Kindred.Proofs.Text.Numeral
import Kindred.Record.Check

/-!
# Loose data that is taken as it comes

Where a record may be written loosely, entries that are of no use are left out before it is built,
and rows that are of no use before a table is. What is left is described here by what was there.

- `isBlankString_text`: a number written as a text is not blank.
- `named`, `field?_eq_getLast?`: the values under a name.
- `usable`, `field?_usable`: entries without repetitions and without those of no use.
- `usableRows_fst`: the rows that are left of a table.
- `mapUnder`: the map under the first of some names.
-/

namespace Kindred

open Kindred.Text

/-! ### Texts of numbers -/

namespace Number

theorem isBlank_of_isDigit {c : Char} (h : c.isDigit = true) : isBlank c = false := by
  cases hblank : isBlank c with
  | false => rfl
  | true =>
    have hword := isWordChar_of_isBlank hblank
    rw [isWordChar_of_isDigit h] at hword
    cases hword

theorem exists_mem_natText (n : Nat) : ∃ c ∈ natText n, isBlank c = false := by
  obtain ⟨c, s, hs⟩ := List.exists_cons_of_ne_nil (natText_ne_nil n)
  have hc : c ∈ natText n := hs ▸ List.mem_cons_self
  exact ⟨c, hc, isBlank_of_isDigit (isDigit_of_mem_natText hc)⟩

theorem exists_mem_intText (n : Int) : ∃ c ∈ intText n, isBlank c = false := by
  cases n with
  | ofNat n => exact exists_mem_natText n
  | negSucc n => exact ⟨'-', List.mem_cons_self, rfl⟩

/-- However a number is laid out, it has a point, a zero or the mark of an exponent. -/
theorem exists_mem_magnitudeText (l : Layout) (digits : Nat) (exponent : Int) :
    ∃ c ∈ l.magnitudeText digits exponent, isBlank c = false := by
  unfold Layout.magnitudeText
  dsimp only
  split
  · exact ⟨'0', List.mem_cons_self, rfl⟩
  · split
    · split
      · exact ⟨'.', List.mem_append_right _ List.mem_cons_self, rfl⟩
      · split
        · exact ⟨'.', List.mem_append_right _ List.mem_cons_self, rfl⟩
        · exact ⟨'0', List.mem_cons_self, rfl⟩
    · exact ⟨'e', List.mem_append_right _ List.mem_cons_self, rfl⟩

theorem exists_mem_valueText (x : Float) :
    ∃ c ∈ (valueLayout.text x).toList, isBlank c = false := by
  unfold Layout.text
  split
  · next b _ =>
    obtain ⟨c, hc, hblank⟩ := exists_mem_magnitudeText valueLayout (shortest b).1 (shortest b).2
    refine ⟨c, ?_, hblank⟩
    dsimp only
    rw [String.toList_ofList]
    split
    · exact List.mem_cons_of_mem _ hc
    · exact hc
  · split
    · exact ⟨'n', by decide, rfl⟩
    · split
      · exact ⟨'-', by decide, rfl⟩
      · exact ⟨'i', by decide, rfl⟩

/-- A number written as a text is not blank. -/
theorem isBlankString_text (n : Number) : isBlankString n.text = false := by
  have hchar : ∃ c ∈ n.text.toList, isBlank c = false := by
    cases n with
    | int n =>
      unfold Number.text
      rw [String.toList_ofList]
      exact exists_mem_intText n
    | float x => exact exists_mem_valueText x
  obtain ⟨c, hc, hblank⟩ := hchar
  refine List.all_eq_false.mpr ⟨c, hc, ?_⟩
  rw [hblank]
  exact Bool.false_ne_true

end Number

namespace Record

open Data

/-! ### Values under a name -/

/-- The values of all entries under a name, in the order of the entries. -/
def named (name : String) (es : Fields) : List Data :=
  (es.filter fun e => isName name e.1).map (·.2)

theorem named_cons (name : String) (e : Scalar × Data) (es : Fields) :
    named name (e :: es) = if isName name e.1 then e.2 :: named name es else named name es := by
  unfold named
  rw [List.filter_cons]
  split <;> rfl

/-- The last entry under a name counts. -/
theorem field?_eq_getLast? (name : String) (es : Fields) :
    field? name es = (named name es).getLast? := by
  unfold field? named
  rw [List.getLast?_map, ← List.head?_reverse, ← List.filter_reverse, List.head?_filter]

/-- A value that is found stands in an entry. -/
theorem exists_mem_of_field? {name : String} {es : Fields} {d : Data}
    (h : field? name es = some d) : ∃ e ∈ es, e.2 = d := by
  rw [field?_eq_getLast?] at h
  obtain ⟨e, he, hd⟩ := List.mem_map.mp (List.mem_of_getLast? h)
  exact ⟨e, (List.mem_filter.mp he).1, hd⟩

/-- Entries that are kept under a name are found as before. -/
theorem field?_filter {name : String} {p : Scalar × Data → Bool}
    (hp : ∀ e, isName name e.1 = true → p e = true) (es : Fields) :
    field? name (es.filter p) = field? name es := by
  rw [field?_eq_getLast?, field?_eq_getLast?]
  unfold named
  rw [List.filter_filter]
  refine congrArg (fun l => (List.map _ l).getLast?) (List.filter_congr fun e _ => ?_)
  cases hname : isName name e.1 with
  | false => rfl
  | true => rw [hp e hname]; rfl

/-! ### Entries without repetition -/

theorem same_text (name : String) (key : Scalar) :
    Scalar.same (.text name) key = isName name key := by
  cases key with
  | text s => exact Bool.beq_comm
  | _ => rfl

theorem same_text_right (name : String) (key : Scalar) :
    Scalar.same key (.text name) = isName name key := by
  cases key with
  | text s => rfl
  | bool b => rfl
  | int n => rfl
  | float x => rfl
  | _ => rfl

theorem eq_text_of_isName {name : String} {key : Scalar} (h : isName name key = true) :
    key = .text name := by
  cases key with
  | text s => exact congrArg Scalar.text (eq_of_beq h)
  | _ => cases h

/-- An entry takes the place of the first one with its key. -/
theorem named_insert (name : String) (key : Scalar) (d : Data) (es : Fields) :
    named name (Data.insert key d es) =
      if isName name key then d :: (named name es).tail else named name es := by
  induction es with
  | nil =>
    unfold Data.insert
    rw [named_cons]
    split <;> rfl
  | cons e es ih =>
    obtain ⟨k, old⟩ := e
    have hsame : isName name key = true → k.same key = isName name k := fun h => by
      rw [eq_text_of_isName h, same_text_right]
    have hsame' : isName name k = true → k.same key = isName name key := fun h => by
      rw [eq_text_of_isName h, same_text]
    unfold Data.insert
    cases hk : isName name k <;> cases hkey : isName name key
    · split
      · rw [named_cons, named_cons, hk]; rfl
      · rw [named_cons, named_cons, hk, ih, hkey]; rfl
    · rw [hsame hkey, hk, if_neg Bool.false_ne_true, named_cons, named_cons, hk, ih, hkey]
      rfl
    · rw [hsame' hk, hkey, if_neg Bool.false_ne_true, named_cons, named_cons, hk, ih, hkey]
      rfl
    · rw [hsame hkey, hk, if_pos rfl, named_cons, named_cons, hk]
      rfl

/-- Once repetitions are left out, at most the last value under a name is there. -/
theorem named_withoutRepeats (name : String) (es : Fields) :
    named name (withoutRepeats es) = (field? name es).toList := by
  have hfold : ∀ (o : Option Data) (known : Fields), named name known = o.toList →
      named name (es.foldl (fun es e => Data.insert e.1 e.2 es) known) =
        ((named name es).getLast?.or o).toList := by
    induction es with
    | nil => exact fun o known h => h
    | cons e es ih =>
      obtain ⟨k, d⟩ := e
      intro o known h
      rw [List.foldl_cons, named_cons]
      have hinsert := named_insert name k d known
      rw [h] at hinsert
      split at hinsert
      · next hk =>
        rw [if_pos hk, ih (some d) _ (by rw [hinsert]; cases o <;> rfl), List.getLast?_cons]
        cases (named name es).getLast? <;> rfl
      · next hk => rw [if_neg hk, ih o _ hinsert]
  rw [field?_eq_getLast?]
  have h := hfold none [] rfl
  rw [Option.or_none] at h
  exact h

/-- The entries that are left once repetitions are, and then all entries whose value is of no
use. -/
def usable (p : Data → Bool) (es : Fields) : Fields := (withoutRepeats es).filter fun e => p e.2

/-- The value under a name that is left is the value that was there, if it is of use. -/
theorem field?_usable (name : String) (p : Data → Bool) (es : Fields) :
    field? name (usable p es) = (field? name es).filter p := by
  have hnamed : named name (usable p es) = (field? name es).toList.filter p := by
    rw [← named_withoutRepeats]
    unfold named usable
    rw [List.filter_filter, List.filter_map, List.filter_filter]
    refine congrArg (List.map _) (List.filter_congr fun e _ => ?_)
    exact Bool.and_comm _ _
  rw [field?_eq_getLast?, hnamed]
  cases field? name es with
  | none => rfl
  | some d =>
    rw [Option.toList_some, Option.filter_some, List.filter_cons]
    cases p d <;> rfl

/-! ### Parts -/

/-- The map under the first of some names under which there is a value, if that is a map. -/
def mapUnder (names : List String) (es : Fields) : Option Fields :=
  match Fields.find? names es with
  | some (_, .map ps) => some ps
  | _ => none

/-- Names are looked up as before where the values under them are. -/
theorem find?_congr {names : List String} {es es' : Fields}
    (h : ∀ name ∈ names, field? name es = field? name es') :
    Fields.find? names es = Fields.find? names es' := by
  unfold Fields.find?
  induction names with
  | nil => rfl
  | cons name names ih =>
    rw [List.findSome?_cons, List.findSome?_cons, h name List.mem_cons_self,
      ih fun n hn => h n (List.mem_cons_of_mem _ hn)]

theorem find?_singleton (name : String) (es : Fields) :
    Fields.find? [name] es = (Data.field? name es).map (name, ·) := by
  unfold Fields.find?
  rw [List.findSome?_cons]
  cases Data.field? name es <;> rfl

/-- Where only the values under a name change, only they are found changed. -/
theorem field?_mapValues (name : String) (g : Scalar → Data → Data) (es : Fields) :
    field? name (es.map fun e => (e.1, g e.1 e.2)) = (field? name es).map (g (.text name)) := by
  have hnamed : named name (es.map fun e => (e.1, g e.1 e.2)) =
      (named name es).map (g (.text name)) := by
    unfold named
    rw [List.filter_map, List.map_map, List.map_map]
    refine List.map_congr_left fun e he => ?_
    rw [← eq_text_of_isName (List.mem_filter.mp he).2]
    rfl
  rw [field?_eq_getLast?, field?_eq_getLast?, hnamed, List.getLast?_map]

theorem get_congr {α : Type} {names : List String} {es es' : Fields}
    (h : ∀ name ∈ names, field? name es = field? name es') (check : Check α)
    (otherwise : Checked α) :
    Fields.get names check otherwise es = Fields.get names check otherwise es' := by
  unfold Fields.get
  rw [find?_congr h]

/-- What is found under one of some names stands under that name. -/
theorem field?_of_find? {names : List String} {es : Fields} {name : String} {d : Data}
    (h : Fields.find? names es = some (name, d)) : field? name es = some d := by
  obtain ⟨n, -, hn⟩ := List.exists_of_findSome?_eq_some h
  obtain ⟨d', hd', heq⟩ := Option.map_eq_some_iff.mp hn
  cases heq
  exact hd'

/-! ### Outcomes -/

namespace Checked

variable {α β : Type}

theorem outcome_map_of_ok {c : Checked α} {a : α} (h : c.outcome = .ok a) (f : α → β) :
    (f <$> c).outcome = .ok (f a) := by
  change c.outcome.map f = _
  rw [h]
  rfl

theorem outcome_ofExcept_iff {x : Except Cause α} {a : α} :
    (ofExcept x).outcome = .ok a ↔ x = .ok a := by
  cases x with
  | ok b => exact ⟨(fun h => by cases h; rfl), (fun h => by cases h; rfl)⟩
  | error cause => exact ⟨(fun h => by cases h), (fun h => by cases h)⟩

theorem outcome_map_ok_iff {c : Checked α} {f : α → β} {b : β} :
    (f <$> c).outcome = .ok b ↔ ∃ a, c.outcome = .ok a ∧ f a = b := by
  change c.outcome.map f = .ok b ↔ _
  constructor
  · intro h
    cases hc : c.outcome with
    | ok a => rw [hc] at h; exact ⟨a, rfl, Except.ok.inj h⟩
    | error cs => rw [hc] at h; cases h
  · rintro ⟨a, ha, rfl⟩
    rw [ha]
    rfl

/-- Two checks side by side give a value exactly if both do. -/
theorem outcome_seq_ok_iff {cf : Checked (α → β)} {c : Checked α} {b : β} :
    (cf <*> c).outcome = .ok b ↔ ∃ f a, cf.outcome = .ok f ∧ c.outcome = .ok a ∧ f a = b := by
  change (cf.both c).outcome = .ok b ↔ _
  unfold both
  dsimp only
  constructor
  · intro h
    split at h
    · next f a hf ha =>
      cases h
      exact ⟨f, a, hf, ha, rfl⟩
    all_goals cases h
  · rintro ⟨f, a, hf, ha, rfl⟩
    rw [hf, ha]

/-- A check that gives a value leaves the complaints of another one as they are. -/
theorem outcome_seq_of_ok {cf : Checked (α → β)} {c : Checked α} {a : α} (h : c.outcome = .ok a) :
    (cf <*> c).outcome = cf.outcome.map fun f => f a := by
  change (cf.both c).outcome = _
  unfold both
  dsimp only
  rw [h]
  cases cf.outcome <;> rfl

theorem outcome_under_of_ok {c : Checked α} {a : α} (h : c.outcome = .ok a) (step : Step) :
    (c.under step).outcome = .ok a := by
  unfold under
  rw [h]
  rfl

theorem outcome_under_ok_iff {c : Checked α} {a : α} {step : Step} :
    (c.under step).outcome = .ok a ↔ c.outcome = .ok a := by
  change c.outcome.mapError _ = .ok a ↔ _
  cases c.outcome with
  | ok b => exact Iff.rfl
  | error cs => exact ⟨(fun h => by cases h), (fun h => by cases h)⟩

/-- The value of a check, where there is one, is as described. -/
def Gives (P : α → Prop) (c : Checked α) : Prop := ∀ a, c.outcome = .ok a → P a

theorem gives_map {P : β → Prop} {f : α → β} (h : ∀ a, P (f a)) (c : Checked α) :
    Gives P (f <$> c) := by
  intro b hb
  change c.outcome.map f = .ok b at hb
  cases hc : c.outcome with
  | error cs => rw [hc] at hb; cases hb
  | ok a => rw [hc] at hb; cases hb; exact h a

theorem Gives.seq {P : β → Prop} {cf : Checked (α → β)} (h : Gives (fun f => ∀ a, P (f a)) cf)
    (c : Checked α) : Gives P (cf <*> c) := by
  intro b hb
  obtain ⟨f, a, hf, -, rfl⟩ := outcome_seq_ok_iff.mp hb
  exact h f hf a

/-- A change of the last of some parts is a change of the whole, if what is built from the parts
says so. -/
theorem outcome_seq_map {cf : Checked (α → β)} {c c' : Checked α} {g : α → α} {g' : β → β}
    (hc : c.outcome = c'.outcome.map g) (hcf : Gives (fun f => ∀ a, f (g a) = g' (f a)) cf) :
    (cf <*> c).outcome = (cf <*> c').outcome.map g' := by
  change (cf.both c).outcome = (cf.both c').outcome.map g'
  unfold both
  dsimp only
  rw [hc]
  cases hf : cf.outcome with
  | error cs => cases c'.outcome <;> rfl
  | ok f =>
    cases c'.outcome with
    | error cs => rfl
    | ok a => exact congrArg Except.ok (hcf f hf a)

/-- The value of a check, or another one where there is none. -/
def valueOr (c : Checked α) (otherwise : α) : α :=
  match c.outcome with
  | .ok a => a
  | .error _ => otherwise

theorem valueOr_of_ok {c : Checked α} {a : α} (h : c.outcome = .ok a) (otherwise : α) :
    c.valueOr otherwise = a := by
  unfold valueOr
  rw [h]

end Checked

/-- The rows that are left of a table are those that are accepted by themselves. -/
theorem usableRows_fst {α : Type} (table : String) (check : Check α) (i : Nat) (ds : List Data) :
    (usableRows table check i ds).1 = ds.filterMap fun d => (check d).outcome.toOption := by
  induction ds generalizing i with
  | nil => rfl
  | cons d ds ih =>
    unfold usableRows
    rw [List.filterMap_cons, ← ih (i + 1)]
    rcases check d with ⟨own, cs | row⟩ <;> rfl

end Record

end Kindred
