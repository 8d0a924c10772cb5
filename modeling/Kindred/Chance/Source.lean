/-!
# Sources of chance

Whatever answers the questions "which integer between these two?" and "which fraction below one?".

- `Source`: the two answers, over a state of any type.
- `Draw`: a question that was asked, with the integer that was drawn.
- `Source.constant`, `Source.scripted`: sources for tables and rehearsals.
- `Source.InRange`: every integer drawn lies between the two bounds that were asked for.
-/

namespace Kindred

/-- A source of chance with states of type `σ`. -/
structure Source (σ : Type) where
  /-- An integer between two bounds, both included. -/
  int : Int → Int → σ → Int × σ
  /-- A fraction from zero up to one. -/
  fraction : σ → Float × σ
  /-- Whether a range without integers is refused. -/
  refusesEmpty : Bool
  /-- How many dice of one chain of sixes are followed before the roll is given up. -/
  patience : Nat

/-- A question put to a source. -/
inductive Draw where
  | int (low high value : Int)
  | fraction
deriving DecidableEq, Repr

namespace Source

/-- Every integer drawn from a range that is not empty lies in it. -/
def InRange (src : Source σ) : Prop :=
  ∀ low high s, low ≤ high → low ≤ (src.int low high s).1 ∧ (src.int low high s).1 ≤ high

/-- The value nearest to `v` between two bounds. -/
def clamp (v low high : Int) : Int := min (max v low) high

/-- A clamped value lies between the bounds. -/
theorem clamp_mem (v low high : Int) (h : low ≤ high) :
    low ≤ clamp v low high ∧ clamp v low high ≤ high := by
  unfold clamp; omega

/-- How many dice of a chain of sixes the ready-made sources follow. -/
def ampleDice : Nat := 1000000

/-- Always draws the same integer, moved into the range asked for, and the same fraction. -/
def constant (n : Int) (chance : Float) : Source Unit where
  int low high _ := (clamp n low high, ())
  fraction _ := (chance, ())
  refusesEmpty := false
  patience := ampleDice

/-- Draws what two lists say, the integers moved into the range asked for. When the integers run
out the lower bound is drawn, when the fractions run out zero. -/
def scripted : Source (List Int × List Float) where
  int low high
    | ([], fs) => (clamp low low high, ([], fs))
    | (n :: ns, fs) => (clamp n low high, (ns, fs))
  fraction
    | (ns, []) => (0.0, (ns, []))
    | (ns, f :: fs) => (f, (ns, fs))
  refusesEmpty := false
  patience := ampleDice

/-- A constant source stays in range. -/
theorem inRange_constant (n : Int) (chance : Float) : (constant n chance).InRange :=
  fun low high _ h => clamp_mem n low high h

/-- A scripted source stays in range. -/
theorem inRange_scripted : scripted.InRange := by
  rintro low high ⟨_ | ⟨n, ns⟩, fs⟩ h
  · exact clamp_mem low low high h
  · exact clamp_mem n low high h

end Source

end Kindred
