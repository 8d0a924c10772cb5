import Mathlib.Algebra.Group.Int.Defs
import Mathlib.Algebra.Group.Nat.Defs
import Kindred.Parent.Generation
import Kindred.Proofs.Formula.Meaning
import Kindred.Race.Rules
import Kindred.Sibling.Generation

/-!
# The usual formulas for ages

Where no rules say otherwise, a litter looks as old as the character and one open-ended die more, or
less, and a parent looks as old as the oldest sibling, or the character, and fourteen years and two
open-ended dice more. These formulas have their value unless a chain of sixes is given up or an
integer is too large.

- `openNotation_ok`: the total of an open-ended notation.
- `value_of_joined_openNotation`: what a formula comes to that ends with such a notation.
- `litterAge_value`: how old a litter looks.
- `parentAge_value`: how old a parent looks.
-/

namespace Kindred.Formula

open Kindred.Text

variable {σ : Type} {src : Source σ} {w w' : World σ} {env : String → Int}

/-! ### Open-ended notations -/

/-- A number of open-ended dice, written with one digit. -/
def openNotation (digit : Char) : DiceToken :=
  ⟨.openEnded, [digit], ['O', 'b', digit, 'T', '6']⟩

theorem allowed_openNotation {d : Dialect} (hd : .openEnded ∈ d.dice) {digit : Char}
    (h : isDecimal digit = true) : (Operand.dice (openNotation digit)).Allowed d :=
  ⟨hd, ⟨nofun, List.forall_mem_singleton.mpr h, ['O', 'b'], 'T', ⟨'O', 'b', rfl, rfl, rfl⟩, rfl,
    rfl⟩, (by decide : 1 ≤ longestNumeral)⟩

/-- An open-ended notation comes to at least one for each die of the throw. -/
theorem openNotation_ok (hsrc : src.InRange) {digit : Char} {count : Nat}
    (hcount : (openNotation digit).readCount = .ok count) {b : Settled}
    (h : settle env (.dice (openNotation digit)) src w = .ok b w') : (count : Int) ≤ b.value := by
  obtain ⟨⟨total, own⟩, htoken, rfl⟩ := bind_pure_ok_iff.mp h
  rcases rollToken_origin htoken with ⟨-, r, hr, rfl, -⟩ | ⟨hform, -⟩
  · rw [DiceToken.readCount_ok hcount]
    exact (openEnded_bounds hsrc hr).1
  · exact absurd rfl hform

/-- An expression without dice that open-ended dice are added to, or taken from, comes to the sum or
the difference. -/
theorem value_of_joined_openNotation {d : Dialect} (hd : d ∈ Dialect.builtin)
    (hfunctions : d.functions = false) {bs : Bindings} (hbs : Binds d bs env) (hsrc : src.InRange)
    {op : Operation} {a : Term Operand} {a' : Term Settled} {digit : Char} {s : String}
    (hs : Written d (.joined op a (.leaf (.dice (openNotation digit)))) s)
    (ha : a.roll (settle env) src w = .ok a' w) {count : Nat}
    (hcount : (openNotation digit).readCount = .ok count) {e : Evaluation}
    (h : evaluateFormula d bs s src w = .ok e w') :
    ∃ total : Int, count ≤ total ∧ e.value = .int (op.apply (a'.eval Settled.value) total) := by
  obtain ⟨rolled, w₁, hroll, hvalue⟩ := evaluateFormula_of_written hd hfunctions hbs hsrc hs h
  obtain ⟨_, w₂, hfirst, hroll⟩ := bind_ok_iff.mp hroll
  rw [ha] at hfirst
  cases hfirst
  obtain ⟨_, hleaf, rfl⟩ := bind_pure_ok_iff.mp hroll
  obtain ⟨b, hb, rfl⟩ := bind_pure_ok_iff.mp hleaf
  exact ⟨b.value, openNotation_ok hsrc hcount hb, hvalue⟩

/-! ### Litters -/

/-- What the age of a litter is to that of the character: the die is added on the older side, and
taken away on the younger one. -/
def litterOperation : Side → Operation
  | .older => .sum
  | .younger => .difference

/-- The expression `characterAge + Ob1T6`, or `characterAge - Ob1T6`. -/
def litterAgeTerm (side : Side) : Term Operand :=
  .joined (litterOperation side) (.leaf (.name "characterAge")) (.leaf (.dice (openNotation '1')))

theorem written_litterAge (side : Side) :
    Written .sibling (litterAgeTerm side) (({} : SiblingRules).ageFormula side) := by
  have hname : "characterAge" ∈ Dialect.sibling.parameters := by decide
  refine ⟨false, [.leaf (.name "characterAge"), .mark (.blank ' '),
    .mark (.sign (litterOperation side)), .mark (.blank ' '),
    .leaf (.dice (openNotation '1'))], ?_, ?_, ?_⟩
  · simp only [List.forall_mem_cons]
    exact ⟨hname, rfl, trivial, rfl, allowed_openNotation (by decide) rfl, nofun⟩
  · refine .added ?_ (.product (.operand (.leaf _))) (.operand (.leaf _))
    cases side <;> decide
  · cases side <;> decide

theorem binds_siblingBindings (age : Int) :
    Binds .sibling (siblingBindings age) fun _ => age := by
  intro x hx n
  have hnames : x = "characterApparentAge" ∨ x = "characterAge" := by
    simpa [Dialect.sibling] using hx
  rcases hnames with rfl | rfl <;> simp [siblingBindings]

/-- A litter looks older or younger than the character by the total of the die. -/
theorem litterAge_value (hsrc : src.InRange) {side : Side} {age : Int} {e : Evaluation}
    (h : evaluateFormula .sibling (siblingBindings age) (({} : SiblingRules).ageFormula side)
      src w = .ok e w') :
    ∃ total : Int, 1 ≤ total ∧ e.value = .int ((litterOperation side).apply age total) :=
  value_of_joined_openNotation (by decide) rfl (binds_siblingBindings age) hsrc
    (written_litterAge side) rfl rfl h

/-! ### Parents -/

/-- The expression `oldestSiblingOrCharacterApparentAge + 14 + Ob2T6`. -/
def parentAgeTerm : Term Operand :=
  .joined .sum
    (.joined .sum (.leaf (.name "oldestSiblingOrCharacterApparentAge"))
      (.leaf (.literal ['1', '4'])))
    (.leaf (.dice (openNotation '2')))

theorem written_parentAge : Written .parentAge parentAgeTerm defaultParentAge := by
  have hname : "oldestSiblingOrCharacterApparentAge" ∈ Dialect.parentAge.parameters := by decide
  have hliteral : IsLiteral ['1', '4'] := ⟨nofun, List.all_eq_true.mp rfl, by decide⟩
  refine ⟨false, [.leaf (.name "oldestSiblingOrCharacterApparentAge"), .mark (.blank ' '),
    .mark (.sign .sum), .mark (.blank ' '), .leaf (.literal ['1', '4']), .mark (.blank ' '),
    .mark (.sign .sum), .mark (.blank ' '), .leaf (.dice (openNotation '2'))], ?_, ?_, by decide⟩
  · simp only [List.forall_mem_cons]
    exact ⟨hname, rfl, trivial, rfl, hliteral, rfl, trivial, rfl,
      allowed_openNotation (by decide) rfl, nofun⟩
  · exact .added (by decide) (.added (by decide) (.product (.operand (.leaf _)))
      (.operand (.leaf _))) (.operand (.leaf _))

theorem binds_parentAge (base : Int) :
    Binds .parentAge [("oldestSiblingOrCharacterApparentAge", .int base)] fun _ => base := by
  intro x hx n
  obtain rfl : x = "oldestSiblingOrCharacterApparentAge" := by simpa [Dialect.parentAge] using hx
  simp

/-- A parent looks at least sixteen years older than the age that the roll is based on. -/
theorem parentAge_value (hsrc : src.InRange) {base : Int} {e : Evaluation}
    (h : evaluateFormula .parentAge [("oldestSiblingOrCharacterApparentAge", .int base)]
      defaultParentAge src w = .ok e w') : ∃ n : Int, e.value = .int n ∧ base + 16 ≤ n := by
  have hcount : (openNotation '2').readCount = .ok 2 := rfl
  obtain ⟨total, hlow, hvalue⟩ := value_of_joined_openNotation (by decide) rfl
    (binds_parentAge base) hsrc written_parentAge rfl hcount h
  refine ⟨base + 14 + total, hvalue, ?_⟩
  omega

end Kindred.Formula
