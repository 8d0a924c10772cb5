import Kindred.Proofs.Roll

/-!
# Rolls that do not look at their notes

The trace, the log and the cache of formulas are written to, and only the cache is read, which gives
what it would give if it was empty. So two runs of one roll from worlds that differ in nothing else
draw the same and come to the same end.

- `Matches`: two blocks that come to the same end from states that are alike.
- `World.Alike`: worlds with the same chance and the same draws.
- `Roll.Blind`: a roll that matches itself from worlds that are alike.
- `EndAlike.outcome_eq_map`, `EndAlike.outcome`: what outcomes show of runs that end alike.
- `Matches.play_roll`: rolls that match, inside a session.
-/

namespace Kindred

/-! ### Two runs -/

section Matches

variable {ρ ε τ α β γ δ : Type} {S : τ → τ → Prop} {R : α → β → Prop} {Q : γ → δ → Prop}

/-- Whether two runs end alike: with values that are related, or with the same fault. -/
inductive EndAlike (S : τ → τ → Prop) (R : α → β → Prop) :
    EStateM.Result ε τ α → EStateM.Result ε τ β → Prop where
  | ok {a : α} {b : β} {w v : τ} (value : R a b) (state : S w v) :
      EndAlike S R (.ok a w) (.ok b v)
  | error {e : ε} {w v : τ} (state : S w v) : EndAlike S R (.error e w) (.error e v)

/-- Whether two blocks end alike whenever they start from states that are alike. -/
def Matches (S : τ → τ → Prop) (R : α → β → Prop) (x : ReaderT ρ (EStateM ε τ) α)
    (y : ReaderT ρ (EStateM ε τ) β) : Prop :=
  ∀ r w v, S w v → EndAlike S R (x r w) (y r v)

namespace Matches

theorem pure {a : α} {b : β} (h : R a b) :
    Matches S R (pure a : ReaderT ρ (EStateM ε τ) α) (pure b) := fun _ _ _ hs => .ok h hs

theorem throw (e : ε) :
    Matches S R (throw e : ReaderT ρ (EStateM ε τ) α) (throw e) := fun _ _ _ hs => .error hs

/-- Two blocks match if their parts do. -/
theorem bind {x : ReaderT ρ (EStateM ε τ) α} {y : ReaderT ρ (EStateM ε τ) β}
    {f : α → ReaderT ρ (EStateM ε τ) γ} {g : β → ReaderT ρ (EStateM ε τ) δ}
    (hx : Matches S R x y) (hf : ∀ a b, R a b → Matches S Q (f a) (g b)) :
    Matches S Q (x >>= f) (y >>= g) := by
  intro r w v hs
  have hx := hx r w v hs
  rw [run_bind, run_bind]
  -- both first parts go on with related values, or both end with the same fault
  generalize x r w = left at hx
  generalize y r v = right at hx
  cases hx with
  | ok value state => exact hf _ _ value r _ _ state
  | error state => exact .error state

end Matches

end Matches

variable {σ α β : Type}

/-- Whether two worlds have the same chance and the same draws. -/
def World.Alike (w v : World σ) : Prop := w.chance = v.chance ∧ w.draws = v.draws

namespace Roll

/-- Whether a roll comes to the same end in worlds that are alike. -/
def Blind (x : Roll σ α) : Prop := Matches World.Alike (· = ·) x x

namespace Blind

theorem bind {x : Roll σ α} {f : α → Roll σ β} (hx : x.Blind) (hf : ∀ a, (f a).Blind) :
    Blind (x >>= f) :=
  Matches.bind hx fun a _ h => h ▸ hf a

/-- A roll that does not look at its notes may stand in front of two rolls that match. -/
theorem bind_matches {γ : Type} {Q : β → γ → Prop} {x : Roll σ α} {f : α → Roll σ β}
    {g : α → Roll σ γ} (hx : x.Blind) (hf : ∀ a, Matches World.Alike Q (f a) (g a)) :
    Matches World.Alike Q (x >>= f) (x >>= g) :=
  Matches.bind hx fun a _ h => h ▸ hf a

theorem ofExcept (x : Except Fault α) : Blind (ofExcept x : Roll σ α) := by
  intro src w v h
  cases x with
  | ok a => exact .ok rfl h
  | error e => exact .error h

theorem drawInt (low high : Int) : Blind (drawInt low high : Roll σ Int) := by
  intro src w v h
  unfold Roll.drawInt
  split
  · exact .error h
  · rw [h.1]
    exact .ok rfl ⟨rfl, congrArg (_ :: ·) h.2⟩

theorem drawFraction : Blind (drawFraction : Roll σ Float) := by
  intro src w v h
  unfold Roll.drawFraction
  rw [h.1]
  exact .ok rfl ⟨rfl, congrArg (_ :: ·) h.2⟩

theorem patience : Blind (patience : Roll σ Nat) := fun _ _ _ h => .ok rfl h

theorem note (tag message : String) : Blind (note tag message : Roll σ Unit) :=
  fun _ _ _ h => .ok rfl h

theorem tell (tag : String) (line : Except Fault String) : Blind (tell tag line : Roll σ Unit) :=
  (ofExcept line).bind fun message => note tag message

theorem remark (level : Level) (origin : Origin) (message : String) :
    Blind (remark level origin message : Roll σ Unit) := fun _ _ _ h => .ok rfl h

theorem quietly {x : Roll σ α} (hx : x.Blind) : Blind (quietly x) := by
  intro src w v h
  have hx := hx src w v h
  unfold Roll.quietly
  generalize x src w = left at hx
  generalize x src v = right at hx
  cases hx with
  | ok value state => exact .ok value state
  | error state => exact .error state

theorem orElseFormula {x : Roll σ α} {recover : FormulaError → Roll σ α} (hx : x.Blind)
    (hrecover : ∀ why, (recover why).Blind) : Blind (orElseFormula x recover) := by
  intro src w v h
  have hx := hx src w v h
  unfold Roll.orElseFormula
  generalize x src w = left at hx
  generalize x src v = right at hx
  cases hx with
  | ok value state => exact .ok value state
  | @error e w v state =>
    -- only the fault of a formula is recovered from
    cases e with
    | formula why => exact hrecover why src w v state
    | _ => exact .error state

/-- The caches of the two worlds may differ, but not in what they give. -/
theorem evaluate (d : Dialect) (expr : String) : Blind (evaluate d expr : Roll σ Number) := by
  intro src w v h
  rw [evaluate_eq, evaluate_eq]
  cases Formula.evaluate d expr with
  | ok n => exact .ok rfl h
  | error e => cases e <;> exact .error h

end Blind

end Roll

/-- Runs that end alike up to a change of the value have outcomes with that change. -/
theorem EndAlike.outcome_eq_map {x : Roll σ α} {y : Roll σ β} {f : α → β} {src : Source σ}
    {w v : World σ} (h : EndAlike World.Alike (fun a b => b = f a) (x src w) (y src v)) :
    (y.outcome src v).1 = (x.outcome src w).1.map f ∧
      (x.outcome src w).2.Alike (y.outcome src v).2 := by
  unfold Roll.outcome
  generalize x src w = left at h
  generalize y src v = right at h
  cases h with
  | ok value state => exact ⟨congrArg Except.ok value, state⟩
  | error state => exact ⟨rfl, state⟩

/-! ### Two runs in sessions -/

variable {R : α → β → Prop}

/-- Rolls that match do so inside sessions, whatever these have to do with each other. -/
theorem Matches.play_roll {x : Roll σ α} {y : Roll σ β} {T : Session → Session → Prop}
    (h : Matches World.Alike R x y) :
    Matches (fun ws vs => ws.1.Alike vs.1 ∧ T ws.2 vs.2) R (Play.roll x) (Play.roll y) := by
  rintro src ⟨w, s⟩ ⟨v, t⟩ ⟨hworld, hs⟩
  have h := h src w v hworld
  rw [Play.run_roll, Play.run_roll]
  generalize x src w = left at h
  generalize y src v = right at h
  cases h with
  | ok value state => exact .ok value ⟨state, hs⟩
  | error state => exact .error ⟨state, hs⟩

/-- Runs of plays that end alike have the same outcome, in states that are related. -/
theorem EndAlike.outcome {S : World σ × Session → World σ × Session → Prop} {x y : Play σ α}
    {src : Source σ} {ws vs : World σ × Session} (h : EndAlike S (· = ·) (x src ws) (y src vs)) :
    (x.outcome src ws.1 ws.2).1 = (y.outcome src vs.1 vs.2).1 ∧
      S (x.outcome src ws.1 ws.2).2 (y.outcome src vs.1 vs.2).2 := by
  unfold Play.outcome
  generalize x src ws = left at h
  generalize y src vs = right at h
  cases h with
  | ok value state => exact ⟨congrArg Except.ok value, state⟩
  | error state => exact ⟨rfl, state⟩

end Kindred
