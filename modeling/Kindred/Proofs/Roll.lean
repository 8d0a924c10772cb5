import Kindred.Family.Session

/-!
# Runs of rolls and plays

A roll reads a source and changes a world; a play changes a world and a session. Both are blocks of
smaller steps. The lemmas here take such a block apart: a block that ended with a value had a run of
each of its steps, and a block that ended with a fault ended at the first step that failed.

- `except_bind_ok_iff`: computations that may fail.
- `bind_ok_iff`, `bind_error_iff`, `pure_ok_iff`: the blocks.
- `faultOf?`: the fault of a run that failed.
- `Play.roll_ok_iff`: a roll inside a play leaves the session alone.
- `Roll.FailsOnly`, `Roll.Ends`: how a roll may fail, and that it is not given up.
- `Roll.Silent`: a roll that leaves no lines.
- `Play.Keeps`: a play after which a view of the session is as it was before, however it ended.
-/

namespace Kindred

/-! ### Blocks -/

/-- A computation that may fail gives a value exactly if both of its parts do. -/
theorem except_bind_ok_iff {ε α β : Type} {x : Except ε α} {f : α → Except ε β} {b : β} :
    (x >>= f) = .ok b ↔ ∃ a, x = .ok a ∧ f a = .ok b := by
  cases x with
  | error e =>
    constructor
    · intro h
      cases h
    · rintro ⟨a, h, -⟩
      cases h
  | ok a =>
    constructor
    · intro h
      exact ⟨a, rfl, h⟩
    · rintro ⟨_, ⟨⟩, h⟩
      exact h

/-- What is told of a value that is there is told of it. -/
theorem exists_of_toOption {ε α β : Type} {x : Except ε α} {f : α → β} {b : β}
    (h : x.toOption.map f = some b) : ∃ a, x = .ok a ∧ f a = b := by
  cases x with
  | ok a => exact ⟨a, rfl, Option.some.inj h⟩
  | error e => cases h

section Block

variable {ρ ε τ α β : Type} {x : ReaderT ρ (EStateM ε τ) α} {f : α → ReaderT ρ (EStateM ε τ) β}
  {r : ρ} {w w' : τ}

/-- A block runs its first step, and goes on where that gave a value. -/
theorem run_bind : (x >>= f) r w = match x r w with
    | .ok a w₁ => f a r w₁
    | .error e w₁ => .error e w₁ := rfl

/-- A block gives a value exactly if both of its parts do. -/
theorem bind_ok_iff {b : β} : (x >>= f) r w = .ok b w' ↔
    ∃ a w₁, x r w = .ok a w₁ ∧ f a r w₁ = .ok b w' := by
  rw [run_bind]
  constructor
  · intro h
    cases hx : x r w with
    | ok a w₁ => rw [hx] at h; exact ⟨a, w₁, rfl, h⟩
    | error e w₁ => rw [hx] at h; cases h
  · rintro ⟨a, w₁, hx, hf⟩
    rw [hx]
    exact hf

/-- A block fails exactly if its first part does, or the other one after it. -/
theorem bind_error_iff {e : ε} : (x >>= f) r w = .error e w' ↔
    x r w = .error e w' ∨ ∃ a w₁, x r w = .ok a w₁ ∧ f a r w₁ = .error e w' := by
  rw [run_bind]
  constructor
  · intro h
    cases hx : x r w with
    | ok a w₁ => rw [hx] at h; exact Or.inr ⟨a, w₁, rfl, h⟩
    | error e₁ w₁ =>
      rw [hx] at h
      cases h
      exact Or.inl rfl
  · rintro (hx | ⟨a, w₁, hx, hf⟩)
    · rw [hx]
    · rw [hx]
      exact hf

/-- What is returned is the value, and nothing changes. -/
theorem pure_ok_iff {a b : α} : (pure a : ReaderT ρ (EStateM ε τ) α) r w = .ok b w' ↔
    a = b ∧ w = w' := by
  constructor
  · intro h
    cases h
    exact ⟨rfl, rfl⟩
  · rintro ⟨rfl, rfl⟩
    rfl

/-- A block whose value is changed at the end gives a value exactly if the block does. -/
theorem bind_pure_ok_iff {g : α → β} {b : β} : (x >>= fun a => pure (g a)) r w = .ok b w' ↔
    ∃ a, x r w = .ok a w' ∧ g a = b := by
  rw [bind_ok_iff]
  constructor
  · rintro ⟨a, w₁, hx, hp⟩
    obtain ⟨rfl, rfl⟩ := pure_ok_iff.mp hp
    exact ⟨a, hx, rfl⟩
  · rintro ⟨a, hx, rfl⟩
    exact ⟨a, w', hx, rfl⟩

/-- A block whose value is changed at the end fails exactly if the block does. -/
theorem bind_pure_error_iff {g : α → β} {e : ε} :
    (x >>= fun a => pure (g a)) r w = .error e w' ↔ x r w = .error e w' := by
  rw [bind_error_iff]
  constructor
  · rintro (hx | ⟨a, w₁, -, hp⟩)
    · exact hx
    · cases hp
  · exact Or.inl

theorem map_ok_iff {g : α → β} {b : β} : (g <$> x) r w = .ok b w' ↔
    ∃ a, x r w = .ok a w' ∧ g a = b := by
  rw [map_eq_pure_bind]
  exact bind_pure_ok_iff

theorem map_error_iff {g : α → β} {e : ε} :
    (g <$> x) r w = .error e w' ↔ x r w = .error e w' := by
  rw [map_eq_pure_bind]
  exact bind_pure_error_iff

/-- The fault that a result reports, if it reports one. -/
def faultOf? : EStateM.Result ε τ α → Option ε
  | .ok _ _ => none
  | .error e _ => some e

theorem exists_eq_error_of_faultOf? {result : EStateM.Result ε τ α} {e : ε}
    (h : faultOf? result = some e) : ∃ w, result = .error e w := by
  cases result with
  | ok a w => cases h
  | error e' w => cases h; exact ⟨w, rfl⟩

end Block

variable {σ α β : Type} {src : Source σ} {w : World σ} {s : Session} {ws ws' : World σ × Session}

/-! ### Steps of rolls -/

namespace Roll

variable {w' : World σ}

theorem outcome_of_ok {x : Roll σ α} {a : α} (h : x src w = .ok a w') :
    x.outcome src w = (.ok a, w') := by
  unfold outcome
  rw [h]

theorem outcome_of_error {x : Roll σ α} {e : Fault} (h : x src w = .error e w') :
    x.outcome src w = (.error e, w') := by
  unfold outcome
  rw [h]

theorem exists_of_outcome_ok {x : Roll σ α} {a : α} (h : (x.outcome src w).1 = .ok a) :
    ∃ w', x src w = .ok a w' := by
  unfold outcome at h
  cases hx : x src w with
  | ok b w' => rw [hx] at h; cases h; exact ⟨w', rfl⟩
  | error e w' => rw [hx] at h; cases h

/-- A value that is there is taken as it is. -/
theorem ofExcept_ok_iff {x : Except Fault α} {a : α} :
    ofExcept x src w = .ok a w' ↔ x = .ok a ∧ w = w' := by
  cases x with
  | error f => exact ⟨nofun, nofun⟩
  | ok b => simp only [ofExcept, EStateM.Result.ok.injEq, Except.ok.injEq]

theorem ofExcept_error_iff {x : Except Fault α} {e : Fault} :
    ofExcept x src w = .error e w' ↔ x = .error e ∧ w = w' := by
  cases x with
  | ok b => exact ⟨nofun, nofun⟩
  | error f => simp only [ofExcept, EStateM.Result.error.injEq, Except.error.injEq]

/-- A line is told once it is written. -/
theorem tell_ok {tag : String} {line : Except Fault String} {u : Unit}
    (h : tell tag line src w = .ok u w') : ∃ message, line = .ok message := by
  obtain ⟨message, w₁, hmessage, -⟩ := bind_ok_iff.mp h
  exact ⟨message, (ofExcept_ok_iff.mp hmessage).1⟩

/-- An expression is worked out as it is without the cache, and only the cache changes. -/
theorem evaluate_eq (d : Dialect) (expr : String) : evaluate d expr src w =
    match Formula.evaluate d expr with
    | .ok n => .ok n { w with cache := (w.cache.evaluate d expr).2 }
    | .error (.formula why) =>
      .error (.formula why) { w with cache := (w.cache.evaluate d expr).2 }
    | .error .tooLarge => .error .tooLarge { w with cache := (w.cache.evaluate d expr).2 } := by
  rw [← Formula.Cache.evaluate_fst w.cache]
  unfold evaluate
  rcases w.cache.evaluate d expr with ⟨(_ | _) | n, cache⟩ <;> rfl

theorem evaluate_of_ok {d : Dialect} {expr : String} {n : Number}
    (h : Formula.evaluate d expr = .ok n) :
    evaluate d expr src w = .ok n { w with cache := (w.cache.evaluate d expr).2 } := by
  rw [evaluate_eq, h]

theorem evaluate_ok_iff {d : Dialect} {expr : String} {n : Number} :
    evaluate d expr src w = .ok n w' ↔ Formula.evaluate d expr = .ok n ∧
      w' = { w with cache := (w.cache.evaluate d expr).2 } := by
  rw [evaluate_eq]
  constructor
  · intro h
    split at h
    · next hvalue =>
      cases h
      exact ⟨hvalue, rfl⟩
    · cases h
    · cases h
  · rintro ⟨hvalue, rfl⟩
    rw [hvalue]

theorem evaluate_of_formula {d : Dialect} {expr : String} {why : FormulaError}
    (h : Formula.evaluate d expr = .error (.formula why)) : evaluate d expr src w =
      .error (.formula why) { w with cache := (w.cache.evaluate d expr).2 } := by
  rw [evaluate_eq, h]

theorem evaluate_of_tooLarge {d : Dialect} {expr : String}
    (h : Formula.evaluate d expr = .error .tooLarge) : evaluate d expr src w =
      .error .tooLarge { w with cache := (w.cache.evaluate d expr).2 } := by
  rw [evaluate_eq, h]

section Recovery

variable {x : Roll σ α} {recover : FormulaError → Roll σ α}

theorem orElseFormula_of_ok {a : α} (h : x src w = .ok a w') :
    orElseFormula x recover src w = .ok a w' := by
  unfold orElseFormula
  rw [h]

/-- Where a formula failed, the recovery goes on from the world that was left. -/
theorem orElseFormula_of_formula {why : FormulaError} (h : x src w = .error (.formula why) w') :
    orElseFormula x recover src w = recover why src w' := by
  unfold orElseFormula
  rw [h]

/-- Other faults are not recovered from. -/
theorem orElseFormula_of_error {e : Fault} (h : x src w = .error e w')
    (he : ∀ why, e ≠ .formula why) : orElseFormula x recover src w = .error e w' := by
  unfold orElseFormula
  rw [h]
  cases e with
  | formula why => exact absurd rfl (he why)
  | _ => rfl

end Recovery

/-! ### How rolls fail -/

/-- Whether every fault that a roll may end with is of one kind. -/
def FailsOnly (p : Fault → Prop) (x : Roll σ α) : Prop :=
  ∀ ⦃src w e w'⦄, x src w = .error e w' → p e

/-- Whether a roll is not given up: its chains of sixes end. -/
def Ends (x : Roll σ α) (src : Source σ) (w : World σ) : Prop :=
  ∀ w', x src w ≠ .error .endless w'

section FailsOnly

variable {p : Fault → Prop}

/-- A block fails as its parts do. -/
theorem FailsOnly.bind {x : Roll σ α} {f : α → Roll σ β} (hx : x.FailsOnly p)
    (hf : ∀ a, (f a).FailsOnly p) : FailsOnly p (x >>= f) := by
  intro src w e w' h
  rcases bind_error_iff.mp h with h | ⟨a, w₁, -, h⟩
  · exact hx h
  · exact hf a h

theorem FailsOnly.pure (a : α) : FailsOnly p (pure a : Roll σ α) := by
  intro src w e w' hpure
  cases hpure

theorem FailsOnly.throw {e : Fault} (h : p e) : FailsOnly p (throw e : Roll σ α) := by
  intro src w e' w' hthrow
  cases hthrow
  exact h

theorem FailsOnly.ofExcept {x : Except Fault α} (h : ∀ e, x = .error e → p e) :
    (ofExcept x : Roll σ α).FailsOnly p := by
  intro src w e w' hx
  exact h e (ofExcept_error_iff.mp hx).1

theorem FailsOnly.drawInt {low high : Int} (h : low ≤ high) :
    (drawInt low high : Roll σ Int).FailsOnly p := by
  intro src w e w' hdraw
  unfold Roll.drawInt at hdraw
  rw [if_neg (by simp [h])] at hdraw
  cases hdraw

/-- A roll that fails in no other way gives a value once it is not given up. -/
theorem FailsOnly.exists_ok {x : Roll σ α} (hx : x.FailsOnly (· = .endless)) (h : x.Ends src w) :
    ∃ a w', x src w = .ok a w' := by
  cases hrun : x src w with
  | ok a w' => exact ⟨a, w', rfl⟩
  | error e w' =>
    obtain rfl := hx hrun
    exact absurd hrun (h w')

end FailsOnly

/-! ### What rolls note -/

/-- Whether a roll leaves no lines in the trace and no log records, however it ends. -/
def Silent (x : Roll σ α) : Prop :=
  ∀ src w, (x.outcome src w).2.trace = w.trace ∧ (x.outcome src w).2.log = w.log

namespace Silent

theorem of_ok {x : Roll σ α} (hx : x.Silent) {a : α} (h : x src w = .ok a w') :
    w'.trace = w.trace ∧ w'.log = w.log := by
  have hsilent := hx src w
  unfold outcome at hsilent
  rwa [h] at hsilent

theorem of_error {x : Roll σ α} (hx : x.Silent) {e : Fault} (h : x src w = .error e w') :
    w'.trace = w.trace ∧ w'.log = w.log := by
  have hsilent := hx src w
  unfold outcome at hsilent
  rwa [h] at hsilent

/-- A block leaves no lines if none of its parts does. -/
theorem bind {x : Roll σ α} {f : α → Roll σ β} (hx : x.Silent) (hf : ∀ a, (f a).Silent) :
    Silent (x >>= f) := by
  intro src w
  unfold outcome
  rw [run_bind]
  cases h : x src w with
  | ok a w₁ =>
    obtain ⟨htrace, hlog⟩ := hx.of_ok h
    obtain ⟨htrace', hlog'⟩ := hf a src w₁
    exact ⟨htrace'.trans htrace, hlog'.trans hlog⟩
  | error e w₁ => exact hx.of_error h

theorem pure (a : α) : Silent (pure a : Roll σ α) := fun _ _ => ⟨rfl, rfl⟩

theorem throw (e : Fault) : Silent (throw e : Roll σ α) := fun _ _ => ⟨rfl, rfl⟩

theorem ofExcept (x : Except Fault α) : Silent (ofExcept x : Roll σ α) := by
  intro src w
  cases x <;> exact ⟨rfl, rfl⟩

theorem drawInt (low high : Int) : Silent (drawInt low high : Roll σ Int) := by
  intro src w
  unfold outcome Roll.drawInt
  cases src.refusesEmpty && decide (high < low) <;> exact ⟨rfl, rfl⟩

/-- Only the cache changes where an expression is worked out. -/
theorem evaluate (d : Dialect) (expr : String) : Silent (evaluate d expr : Roll σ Number) := by
  intro src w
  unfold outcome
  rw [evaluate_eq]
  cases Formula.evaluate d expr with
  | ok n => exact ⟨rfl, rfl⟩
  | error e => cases e <;> exact ⟨rfl, rfl⟩

end Silent

/-- A roll of which nothing is noted gives what the roll gives. -/
theorem quietly_ok {x : Roll σ α} {a : α} (h : quietly x src w = .ok a w') :
    ∃ w₁, x src w = .ok a w₁ := by
  unfold quietly at h
  cases hx : x src w with
  | ok b w₁ => rw [hx] at h; cases h; exact ⟨w₁, rfl⟩
  | error e w₁ => rw [hx] at h; cases h

end Roll

/-! ### Steps of plays -/

namespace Play

/-- A roll inside a play runs by itself, beside the session. -/
theorem run_roll (x : Roll σ α) : roll x src (w, s) = match x src w with
    | .ok a w₁ => .ok a (w₁, s)
    | .error e w₁ => .error e (w₁, s) := rfl

/-- A roll inside a play gives a value exactly if it does by itself. -/
theorem roll_ok_iff {x : Roll σ α} {a : α} : roll x src ws = .ok a ws' ↔
    x src ws.1 = .ok a ws'.1 ∧ ws'.2 = ws.2 := by
  obtain ⟨w, s⟩ := ws
  obtain ⟨w', s'⟩ := ws'
  rw [run_roll]
  cases x src w with
  | ok b w₁ =>
    simp only [EStateM.Result.ok.injEq, Prod.mk.injEq, and_assoc, @eq_comm _ s' s]
  | error e w₁ => exact ⟨nofun, nofun⟩

theorem session_eq : session src ws = .ok ws.2 ws := rfl

theorem family_eq : family src ws = .ok ws.2.family ws := rfl

theorem changeFamily_eq (f : Family → Family) :
    changeFamily f src ws = .ok () (ws.1, { ws.2 with family := f ws.2.family }) := rfl

/-- A part that is demanded is there, and nothing changes. -/
theorem demand_ok_iff {part : String} {o : Option α} {a : α} :
    demand part o src ws = .ok a ws' ↔ o = some a ∧ ws = ws' := by
  cases o with
  | none => exact ⟨nofun, nofun⟩
  | some b => exact pure_ok_iff.trans (and_congr_left fun _ => Option.some_inj.symm)

/-- Without an age a play that needs one is not made. -/
theorem ifAged_of_not_hasAge {x : Play σ α} (h : ws.2.family.hasAge = false) :
    ifAged x src ws = .ok none ws := by
  unfold ifAged
  rw [run_bind, family_eq]
  simp only [h]
  rfl

theorem ifAged_of_hasAge {x : Play σ α} (h : ws.2.family.hasAge = true) :
    ifAged x src ws = (some <$> x) src ws := by
  unfold ifAged
  rw [run_bind, family_eq]
  simp only [h]
  rfl

/-- A play that needs an age gave something exactly if there is an age and the play gave it. -/
theorem ifAged_some_iff {x : Play σ α} {a : α} : ifAged x src ws = .ok (some a) ws' ↔
    ws.2.family.hasAge = true ∧ x src ws = .ok a ws' := by
  cases h : ws.2.family.hasAge with
  | false =>
    rw [ifAged_of_not_hasAge h]
    exact ⟨nofun, nofun⟩
  | true =>
    rw [ifAged_of_hasAge h, map_ok_iff]
    constructor
    · rintro ⟨b, hx, hb⟩
      cases hb
      exact ⟨rfl, hx⟩
    · rintro ⟨-, hx⟩
      exact ⟨a, hx, rfl⟩

/-- A play that needs an age failed exactly if there is an age and the play failed. -/
theorem ifAged_error_iff {x : Play σ α} {e : Fault} : ifAged x src ws = .error e ws' ↔
    ws.2.family.hasAge = true ∧ x src ws = .error e ws' := by
  cases h : ws.2.family.hasAge with
  | false =>
    rw [ifAged_of_not_hasAge h]
    exact ⟨nofun, nofun⟩
  | true =>
    rw [ifAged_of_hasAge h, map_error_iff]
    exact ⟨fun hx => ⟨rfl, hx⟩, fun hx => hx.2⟩

/-! ### What a play keeps -/

/-- The session after a play, however it ended. -/
def after (x : Play σ α) (src : Source σ) (ws : World σ × Session) : Session :=
  match x src ws with
  | .ok _ ws' => ws'.2
  | .error _ ws' => ws'.2

/-- The session after a play is the one that its outcome shows. -/
theorem outcome_session (x : Play σ α) (src : Source σ) (w : World σ) (s : Session) :
    (x.outcome src w s).2.2 = x.after src (w, s) := by
  unfold outcome after
  cases x src (w, s) with
  | ok a ws' => rfl
  | error e ws' => rfl

theorem outcome_ok {x : Play σ α} {w w' : World σ} {s s' : Session} {a : α}
    (h : x.outcome src w s = (.ok a, w', s')) : x src (w, s) = .ok a (w', s') := by
  unfold outcome at h
  cases hx : x src (w, s) with
  | ok b after => rw [hx] at h; cases h; rfl
  | error e after => rw [hx] at h; cases h

theorem outcome_error {x : Play σ α} {w w' : World σ} {s s' : Session} {e : Fault}
    (h : x.outcome src w s = (.error e, w', s')) : x src (w, s) = .error e (w', s') := by
  unfold outcome at h
  cases hx : x src (w, s) with
  | ok b after => rw [hx] at h; cases h
  | error e after => rw [hx] at h; cases h; rfl

/-- What shows of a play that failed. -/
theorem exists_outcome_error {x : Play σ α} {w : World σ} {s : Session} {e : Fault}
    (h : faultOf? (x src (w, s)) = some e) : ∃ w' s', x.outcome src w s = (.error e, w', s') := by
  obtain ⟨⟨w', s'⟩, hx⟩ := exists_eq_error_of_faultOf? h
  refine ⟨w', s', ?_⟩
  unfold outcome
  rw [hx]

/-- A block ends where its second part does, or where its first part failed. -/
theorem after_bind {x : Play σ α} {f : α → Play σ β} : (x >>= f).after src ws = match x src ws with
    | .ok a ws' => (f a).after src ws'
    | .error _ ws' => ws'.2 := by
  unfold after
  rw [run_bind]
  cases x src ws <;> rfl

theorem after_bind_pure {x : Play σ α} {g : α → β} :
    (x >>= fun a => Pure.pure (g a)).after src ws = x.after src ws := by
  rw [after_bind]
  unfold after
  cases x src ws <;> rfl

theorem after_of_ok {x : Play σ α} {a : α} (h : x src ws = .ok a ws') : x.after src ws = ws'.2 := by
  unfold after
  rw [h]

theorem after_of_error {x : Play σ α} {e : Fault} (h : x src ws = .error e ws') :
    x.after src ws = ws'.2 := by
  unfold after
  rw [h]

/-- Without an age a play that needs one leaves the session as it is. -/
theorem after_ifAged_of_not_hasAge {x : Play σ α} (h : ws.2.family.hasAge = false) :
    (ifAged x).after src ws = ws.2 := after_of_ok (ifAged_of_not_hasAge h)

theorem after_ifAged_of_hasAge {x : Play σ α} (h : ws.2.family.hasAge = true) :
    (ifAged x).after src ws = x.after src ws := by
  have hmap : ifAged x src ws = (x >>= fun a => Pure.pure (some a)) src ws := by
    rw [ifAged_of_hasAge h, map_eq_pure_bind]
  rw [← after_bind_pure (x := x) (g := some)]
  unfold after
  rw [hmap]

/-- Whether a view of the session is after a play what it was before. -/
def Keeps (view : Session → γ) (x : Play σ α) : Prop :=
  ∀ src ws, view (x.after src ws) = view ws.2

section Keeps

variable {γ : Type} {view : Session → γ}

/-- A block keeps what both of its parts keep. -/
theorem Keeps.bind {x : Play σ α} {f : α → Play σ β} (hx : x.Keeps view)
    (hf : ∀ a, (f a).Keeps view) : (x >>= f).Keeps view := by
  intro src ws
  have hx := hx src ws
  rw [after_bind]
  unfold after at hx
  split at hx
  · next a ws' h => rw [hf a src ws']; exact hx
  · next e ws' h => exact hx

theorem Keeps.pure (a : α) : (pure a : Play σ α).Keeps view := fun _ _ => rfl

/-- A roll keeps the session. -/
theorem Keeps.roll (x : Roll σ α) : (Play.roll x).Keeps view := by
  rintro src ⟨w, s⟩
  unfold after
  rw [run_roll]
  cases x src w <;> rfl

theorem Keeps.session : (Play.session : Play σ Session).Keeps view := fun _ _ => rfl

theorem Keeps.family : (Play.family : Play σ Family).Keeps view := fun _ _ => rfl

theorem Keeps.demand {part : String} (o : Option α) :
    (Play.demand part o : Play σ α).Keeps view := by
  cases o with
  | none => exact fun _ _ => rfl
  | some a => exact .pure a

/-- A change of the session keeps the views that it does not concern. -/
theorem Keeps.change {f : Session → Session} (h : ∀ s, view (f s) = view s) :
    (Play.change f : Play σ Unit).Keeps view := fun _ ws => h ws.2

/-- A change of the family keeps the views that it does not concern. -/
theorem Keeps.changeFamily {f : Family → Family}
    (h : ∀ s : Session, view { s with family := f s.family } = view s) :
    (Play.changeFamily f : Play σ Unit).Keeps view := .change h

/-- A play that needs an age keeps what it keeps with one. -/
theorem Keeps.ifAged {x : Play σ α} (hx : x.Keeps view) : (Play.ifAged x).Keeps view := by
  unfold Play.ifAged
  refine Keeps.family.bind fun f => ?_
  cases f.hasAge with
  | false => exact .pure none
  | true => exact hx.bind fun a => .pure (some a)

/-- What a play keeps is there after it gave a value. -/
theorem Keeps.of_ok {x : Play σ α} (hx : x.Keeps view) {a : α} (h : x src ws = .ok a ws') :
    view ws'.2 = view ws.2 := by
  have hkeep := hx src ws
  unfold after at hkeep
  rwa [h] at hkeep

/-- A play that keeps the session leaves it as it is. -/
theorem Keeps.eq_of_ok {x : Play σ α} (hx : x.Keeps id) {a : α} (h : x src ws = .ok a ws') :
    ws'.2 = ws.2 := hx.of_ok h

theorem Keeps.of_error {x : Play σ α} (hx : x.Keeps view) {e : Fault}
    (h : x src ws = .error e ws') : view ws'.2 = view ws.2 := by
  have hkeep := hx src ws
  unfold after at hkeep
  rwa [h] at hkeep

end Keeps

/-! ### Plays that do nothing where they fail -/

/-- Whether a play that fails leaves the session as it is. -/
def Failsafe (x : Play σ α) : Prop :=
  ∀ ⦃src ws e ws'⦄, x src ws = .error e ws' → ws'.2 = ws.2

/-- A play that always leaves the session as it is. -/
theorem Keeps.failsafe {x : Play σ α} (hx : x.Keeps id) : x.Failsafe := fun _ _ _ _ => hx.of_error

/-- What comes first may leave the session as it is. -/
theorem Failsafe.bind {x : Play σ α} {f : α → Play σ β} (hx : x.Keeps id)
    (hf : ∀ a, (f a).Failsafe) : (x >>= f).Failsafe := by
  intro src ws e ws' h
  -- the session is as it was when the second part starts
  rcases bind_error_iff.mp h with h | ⟨a, ws₁, hok, h⟩
  · exact hx.of_error h
  · exact (hf a h).trans (hx.eq_of_ok hok)

/-- A change of the family that comes last never fails. -/
theorem Failsafe.changeFamily (f : Family → Family) (a : α) :
    (do Play.changeFamily f; return a : Play σ α).Failsafe := by
  intro src ws e ws' h
  rcases bind_error_iff.mp h with h | ⟨_, _, _, h⟩ <;> cases h

end Play

end Kindred
