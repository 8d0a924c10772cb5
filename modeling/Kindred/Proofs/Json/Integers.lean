import Kindred.Proofs.Record.Tame
import Kindred.Proofs.Roll

/-!
# Integers of values that were read

An integer of more than 4300 digits is refused where it stands in a text, so that a value that was
read holds none, however deep it lies.

- `HasShortIntegers`: values without longer integers, with the ways to put them together.
- `ReadsShort`, `reads_short`: what the readers of values, elements and entries give.
- `hasShortIntegers_of_read`: what is read from a whole text.
-/

namespace Kindred.Json

open Kindred.Text

/-- Whether all integers of a value are short. -/
def HasShortIntegers (d : Data) : Prop := ∀ n ∈ integers d, Short n

variable {r : Rules} {d : Data} {s rest : List Char}

/-! ### Values put together -/

theorem integersUnder_eq_flatMap (es : List (Scalar × Data)) :
    integersUnder es = es.flatMap fun e => integers e.2 := by
  induction es with
  | nil => rfl
  | cons e es ih => rw [integersUnder, ih, List.flatMap_cons]

theorem hasShortIntegers_of_nil (h : integers d = []) : HasShortIntegers d := by
  intro n hn
  rw [h] at hn
  cases hn

theorem hasShortIntegers_int_iff {n : Int} : HasShortIntegers (.int n) ↔ Short n :=
  List.forall_mem_singleton

theorem hasShortIntegers_list_iff {ds : List Data} :
    HasShortIntegers (.list ds) ↔ ∀ d ∈ ds, HasShortIntegers d := by
  unfold HasShortIntegers
  rw [integers, integersOf_eq_flatMap]
  exact List.forall_mem_flatMap

theorem hasShortIntegers_map_iff {es : List (Scalar × Data)} :
    HasShortIntegers (.map es) ↔ ∀ e ∈ es, HasShortIntegers e.2 := by
  unfold HasShortIntegers
  rw [integers, integersUnder_eq_flatMap]
  exact List.forall_mem_flatMap

theorem hasShortIntegers_record {parts : List (String × Data)}
    (h : ∀ p ∈ parts, HasShortIntegers p.2) : HasShortIntegers (.record parts) :=
  hasShortIntegers_map_iff.mpr (List.forall_mem_map.mpr h)

/-- An entry is put in the place of another one, or added. -/
theorem mem_insert {key : Scalar} {e : Scalar × Data} {es : List (Scalar × Data)}
    (h : e ∈ Data.insert key d es) : e.2 = d ∨ e ∈ es := by
  induction es with
  | nil => exact .inl (congrArg Prod.snd (List.mem_singleton.mp h))
  | cons first es ih =>
    unfold Data.insert at h
    split at h
    · rcases List.mem_cons.mp h with rfl | h
      · exact .inl rfl
      · exact .inr (List.mem_cons_of_mem _ h)
    · rcases List.mem_cons.mp h with rfl | h
      · exact .inr List.mem_cons_self
      · exact (ih h).imp_right (List.mem_cons_of_mem _)

/-- Leaving out repetitions brings no new values. -/
theorem hasShortIntegers_mapOf {es : List (Scalar × Data)}
    (h : ∀ e ∈ es, HasShortIntegers e.2) : HasShortIntegers (Data.mapOf es) := by
  have hfold : ∀ known : List (Scalar × Data), (∀ e ∈ known, HasShortIntegers e.2) →
      ∀ e ∈ es.foldl (fun es e => Data.insert e.1 e.2 es) known, HasShortIntegers e.2 := by
    induction es with
    | nil => exact fun known hknown => hknown
    | cons first es ih =>
      obtain ⟨hfirst, h⟩ := List.forall_mem_cons.mp h
      refine fun known hknown => ih h _ fun e he => ?_
      rcases mem_insert he with heq | he
      · rw [heq]
        exact hfirst
      · exact hknown e he
  exact hasShortIntegers_map_iff.mpr (hfold [] (List.forall_mem_nil _))

/-! ### Values that are read -/

theorem hasShortIntegers_of_word (h : word s = some (d, rest)) : HasShortIntegers d := by
  have hall : (words.all fun p => (integers p.2).isEmpty) = true := by decide
  obtain ⟨⟨w, d'⟩, hmem, hword⟩ := List.exists_of_findSome?_eq_some h
  obtain ⟨t, -, heq⟩ := Option.map_eq_some_iff.mp hword
  cases heq
  exact hasShortIntegers_of_nil (List.isEmpty_iff.mp (List.all_eq_true.mp hall _ hmem))

theorem short_of_length_le {ds : List Char} (h : ds.length ≤ longestNumeral) (negative : Bool) :
    Short (if negative then -(digitsValue ds : Int) else digitsValue ds) := by
  have habs : (if negative then -(digitsValue ds : Int) else digitsValue ds).natAbs =
      digitsValue ds := by
    cases negative
    · rfl
    · exact Int.natAbs_neg _
  rw [short_iff, habs]
  exact digitsValue_lt h

theorem hasShortIntegers_of_number (h : number r s = .ok (d, rest)) : HasShortIntegers d := by
  unfold number at h
  split at h
  next negative t _ =>
  split at h
  next whole rest₁ _ =>
  generalize fractionPart rest₁ = fraction at h
  obtain ⟨part, rest₂⟩ := fraction
  dsimp only at h
  generalize powerPart rest₂ = powerOfTen at h
  obtain ⟨power, rest₃⟩ := powerOfTen
  dsimp only at h
  by_cases hempty : whole.isEmpty = true
  · rw [if_pos hempty] at h
    cases h
  rw [if_neg hempty] at h
  split at h
  · cases h
  next hlength =>
  split at h
  · next hinteger =>
    cases h
    rw [hinteger, Bool.true_or, Bool.and_true, decide_eq_true_iff, Nat.not_lt] at hlength
    exact hasShortIntegers_int_iff.mpr (short_of_length_le hlength negative)
  · obtain ⟨x, -, hx⟩ := except_bind_ok_iff.mp h
    cases hx
    exact hasShortIntegers_of_nil rfl

/-! ### Readers -/

/-- Whether values, elements and entries are read without long integers, with some fuel. -/
structure ReadsShort (r : Rules) (fuel : Nat) : Prop where
  value : ∀ {room s d rest}, value r room fuel s = .ok (d, rest) → HasShortIntegers d
  elements : ∀ {room s ds rest}, elements r room fuel s = .ok (ds, rest) →
    ∀ d ∈ ds, HasShortIntegers d
  entries : ∀ {room s es rest}, entries r room fuel s = .ok (es, rest) →
    ∀ e ∈ es, HasShortIntegers e.2

namespace ReadsShort

variable {room fuel : Nat} (h : ReadsShort r fuel)

include h

theorem value_succ (hread : Json.value r room (fuel + 1) s = .ok (d, rest)) :
    HasShortIntegers d := by
  unfold Json.value at hread
  split at hread
  · obtain ⟨⟨body, rest⟩, -, hread⟩ := except_bind_ok_iff.mp hread
    cases hread
    exact hasShortIntegers_of_nil rfl
  · next hfuel =>
    cases hfuel
    split at hread
    · cases hread
      exact hasShortIntegers_of_nil rfl
    · cases hread
    · obtain ⟨⟨ds, rest⟩, hds, hread⟩ := except_bind_ok_iff.mp hread
      cases hread
      exact hasShortIntegers_list_iff.mpr (h.elements hds)
  · next hfuel =>
    cases hfuel
    split at hread
    · cases hread
      exact hasShortIntegers_of_nil rfl
    · cases hread
    · obtain ⟨⟨es, rest⟩, hes, hread⟩ := except_bind_ok_iff.mp hread
      cases hread
      split
      · exact hasShortIntegers_map_iff.mpr (h.entries hes)
      · exact hasShortIntegers_mapOf (h.entries hes)
  · split at hread
    · next found hword =>
      cases hread
      exact hasShortIntegers_of_word hword
    · exact hasShortIntegers_of_number hread
  · cases hread

theorem elements_succ {ds : List Data}
    (hread : Json.elements r room (fuel + 1) s = .ok (ds, rest)) :
    ∀ d ∈ ds, HasShortIntegers d := by
  unfold Json.elements at hread
  obtain ⟨⟨first, rest₁⟩, hfirst, hread⟩ := except_bind_ok_iff.mp hread
  dsimp only at hread
  split at hread
  · obtain ⟨⟨ds, rest₂⟩, hds, hread⟩ := except_bind_ok_iff.mp hread
    cases hread
    exact List.forall_mem_cons.mpr ⟨h.value hfirst, h.elements hds⟩
  · cases hread
    exact List.forall_mem_singleton.mpr (h.value hfirst)
  · cases hread

theorem entries_succ {es : List (Scalar × Data)}
    (hread : Json.entries r room (fuel + 1) s = .ok (es, rest)) :
    ∀ e ∈ es, HasShortIntegers e.2 := by
  unfold Json.entries at hread
  split at hread
  · next hfuel _ =>
    cases hfuel
    obtain ⟨⟨key, rest₁⟩, -, hread⟩ := except_bind_ok_iff.mp hread
    dsimp only at hread
    split at hread
    · obtain ⟨⟨first, rest₂⟩, hfirst, hread⟩ := except_bind_ok_iff.mp hread
      dsimp only at hread
      split at hread
      · obtain ⟨⟨es, rest₃⟩, hes, hread⟩ := except_bind_ok_iff.mp hread
        cases hread
        exact List.forall_mem_cons.mpr ⟨h.value hfirst, h.entries hes⟩
      · cases hread
        exact List.forall_mem_singleton.mpr (h.value hfirst)
      · cases hread
    · cases hread
  · cases hread

end ReadsShort

/-- Each reader hands less fuel to the other ones, so that the three are followed together. -/
theorem reads_short (r : Rules) (fuel : Nat) : ReadsShort r fuel := by
  induction fuel with
  | zero =>
    constructor
    case value =>
      intro room s d rest hread
      unfold value at hread
      cases hread
    case elements =>
      intro room s ds rest hread
      unfold elements at hread
      cases hread
    case entries =>
      intro room s es rest hread
      unfold entries at hread
      cases hread
  | succ fuel ih => exact ⟨ih.value_succ, ih.elements_succ, ih.entries_succ⟩

/-- A value that is read from a text has short integers. -/
theorem hasShortIntegers_of_read {text : String} (h : read r text = .ok d) :
    HasShortIntegers d := by
  unfold read at h
  obtain ⟨⟨d', rest⟩, hvalue, h⟩ := except_bind_ok_iff.mp h
  dsimp only at h
  split at h
  · cases h
    exact (reads_short r _).value hvalue
  · cases h

end Kindred.Json
