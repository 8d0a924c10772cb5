import Kindred.Proofs.Json.RoundTrip
import Kindred.Record.Saved

/-!
# Records that were saved

A record that is accepted from its own loose data is read back from its text, whether that is
written on one line or over several. The one condition is that the reader can follow the text: it
goes not too deep, which no record here does, and its integers are not too long.

- `depth_record_le`, `depth_list_map_le`, `depth_ofOption_le`: how deep records go.
- `ofSaved_compact`, `ofSaved_indented`: what a written text is read as.
-/

namespace Kindred.Record

open Kindred.Json Kindred.Text

variable {α ε : Type} {k : Nat}

/-! ### Depth -/

@[simp] theorem depth_int (n : Int) : depth (.int n) = 0 := rfl

@[simp] theorem depth_bool (b : Bool) : depth (.bool b) = 0 := rfl

@[simp] theorem depth_float (x : Float) : depth (.float x) = 0 := rfl

@[simp] theorem depth_text (s : String) : depth (.text s) = 0 := rfl

@[simp] theorem depth_ofNumber (n : Number) : depth (.ofNumber n) = 0 := by cases n <;> rfl

/-- A record goes one deeper than its parts. -/
theorem depth_record_le {parts : List (String × Data)} (h : ∀ p ∈ parts, depth p.2 ≤ k) :
    depth (.record parts) ≤ k + 1 := by
  rw [record_eq_map, depth]
  induction parts with
  | nil => exact Nat.zero_le _
  | cons p parts ih =>
    obtain ⟨hp, hparts⟩ := List.forall_mem_cons.mp h
    exact max_le (Nat.succ_le_succ hp) (ih hparts)

/-- A list goes one deeper than its elements. -/
theorem depth_list_map_le {write : α → Data} (h : ∀ a, depth (write a) ≤ k) (as : List α) :
    depth (.list (as.map write)) ≤ k + 1 := by
  rw [depth]
  induction as with
  | nil => exact Nat.zero_le _
  | cons a as ih => exact max_le (Nat.succ_le_succ (h a)) ih

theorem depth_ofOption_le {write : α → Data} (h : ∀ a, depth (write a) ≤ k) (o : Option α) :
    depth (.ofOption write o) ≤ k := by
  cases o with
  | none => exact Nat.zero_le _
  | some a => exact h a

/-! ### Whole records -/

/-- The complaint about a text that is no JSON. -/
def unreadable (model : String) : Rejection := ⟨model, true, [⟨[], .notJson⟩]⟩

section Whole

variable {model : String} {check : Check α} {d : Data} {a : α} (hecho : echo d = d)
  (hcheck : check d = .ok a) (hdepth : depth d ≤ Rules.record.depth) (fault : Rejection → ε)

include hecho hcheck hdepth

/-- A written record is read back if its integers are short, and is unreadable otherwise. -/
theorem ofSaved_print (p : Spacing) :
    (ofSaved model check (String.ofList (printFrom p 0 d []))).2.mapError fault =
      if ∀ n ∈ integers d, Short n then .ok a else .error (fault (unreadable model)) := by
  -- the text is read if it is legible, and as it goes not too deep only its integers decide
  obtain ⟨hok, herror⟩ := read_print (r := .record) rfl p d
  unfold ofSaved
  by_cases hshort : ∀ n ∈ integers d, Short n
  · rw [hok ⟨hshort, hdepth⟩, hecho, if_pos hshort]
    show ((check d).outcome.mapError _).mapError _ = _
    rw [hcheck]
    rfl
  · obtain ⟨flaw, hflaw⟩ := herror fun hlegible => hshort hlegible.1
    rw [hflaw, if_neg hshort]
    rfl

theorem ofSaved_compact : (ofSaved model check (compact d)).2.mapError fault =
    if ∀ n ∈ integers d, Short n then .ok a else .error (fault (unreadable model)) := by
  rw [compact_eq]
  exact ofSaved_print hecho hcheck hdepth fault .compact

theorem ofSaved_indented : (ofSaved model check (indented d)).2.mapError fault =
    if ∀ n ∈ integers d, Short n then .ok a else .error (fault (unreadable model)) := by
  rw [indented_eq]
  exact ofSaved_print hecho hcheck hdepth fault .indented

end Whole

end Kindred.Record
