import Kindred.Formula.Evaluate
import Kindred.Proofs.Roll

/-!
# What dice come to

The results of dice that are drawn within their range, and the one way in which a throw may fail: a
chain of sixes that is given up.

- `times_ok`: what holds of one roll holds of each of several.
- `die_ok`, `percentile_ok`, `dice_ok`: the results.
- `openEnded_dice`: the dice of an open-ended roll.
- `chain_ok`, `openEnded_bounds`: the limits of chains of sixes and of open-ended rolls.
- `rollToken_ok`, `rollToken_le`, `rollToken_failsOnly`: the total of a notation.
- `rollToken_silent`: nothing is noted about it.
-/

namespace Kindred

variable {σ α : Type} {src : Source σ} {w w' : World σ}

/-! ### Results -/

/-- What holds of every result of a roll holds of each when it is made several times. -/
theorem times_ok {x : Roll σ α} {p : α → Prop} (hx : ∀ w a w', x src w = .ok a w' → p a) {n : Nat}
    {as : List α} (h : times x n src w = .ok as w') : as.length = n ∧ ∀ a ∈ as, p a := by
  induction n generalizing w as with
  | zero =>
    obtain ⟨rfl, -⟩ := pure_ok_iff.mp h
    exact ⟨rfl, nofun⟩
  | succ n ih =>
    obtain ⟨a, w₁, ha, h⟩ := bind_ok_iff.mp h
    obtain ⟨rest, hrest, rfl⟩ := bind_pure_ok_iff.mp h
    obtain ⟨hlength, hall⟩ := ih hrest
    exact ⟨congrArg Nat.succ hlength, List.forall_mem_cons.mpr ⟨hx w a w₁ ha, hall⟩⟩

theorem times_length {x : Roll σ α} {n : Nat} {as : List α}
    (h : times x n src w = .ok as w') : as.length = n :=
  (@times_ok _ _ _ _ _ _ (fun _ => True) (fun _ _ _ _ => trivial) _ _ h).1

/-- What is drawn from a range that is not empty lies in it. -/
theorem drawInt_ok (hsrc : src.InRange) {low high n : Int} (hle : low ≤ high)
    (h : Roll.drawInt low high src w = .ok n w') : low ≤ n ∧ n ≤ high := by
  unfold Roll.drawInt at h
  rw [if_neg (by simp [hle])] at h
  cases h
  exact hsrc low high w.chance hle

/-- A die shows one of its sides. -/
theorem die_ok (hsrc : src.InRange) {sides n : Int} (hsides : 1 ≤ sides)
    (h : die sides src w = .ok n w') : 1 ≤ n ∧ n ≤ sides :=
  drawInt_ok hsrc hsides h

theorem percentile_ok (hsrc : src.InRange) {p : Percentile} (h : percentile src w = .ok p w') :
    1 ≤ p.value ∧ p.value ≤ 100 := by
  obtain ⟨tens, w₁, htens, h⟩ := bind_ok_iff.mp h
  obtain ⟨ones, hones, rfl⟩ := bind_pure_ok_iff.mp h
  have htens := die_ok hsrc (by decide) htens
  have hones := die_ok hsrc (by decide) hones
  unfold Percentile.ofDigits
  simp only
  split <;> omega

/-- Every one of several dice shows one of its sides. -/
theorem dice_ok (hsrc : src.InRange) {count : Nat} {sides : Int} (hsides : 1 ≤ sides)
    {ns : List Int} (h : dice count sides src w = .ok ns w') :
    ns.length = count ∧ ∀ n ∈ ns, 1 ≤ n ∧ n ≤ sides := by
  unfold dice at h
  split at h
  -- a hundred-sided die is two dice with ten sides
  · next heq =>
    refine times_ok (fun w n w' hn => ?_) h
    obtain ⟨p, hp, rfl⟩ := bind_pure_ok_iff.mp hn
    rw [heq]
    exact percentile_ok hsrc hp
  · exact times_ok (fun w n w' hn => die_ok hsrc hsides hn) h

/-- A chain shows dice with six sides, and is not longer than it is followed. -/
theorem chain_ok (hsrc : src.InRange) {fuel : Nat} {ns : List Int}
    (h : chain fuel src w = .ok ns w') : ns.length ≤ fuel ∧ ∀ n ∈ ns, 1 ≤ n ∧ n ≤ 6 := by
  induction fuel generalizing w ns with
  | zero => cases h
  | succ fuel ih =>
    obtain ⟨r, w₁, hr, h⟩ := bind_ok_iff.mp h
    have hr := die_ok hsrc (by decide) hr
    split at h
    · obtain ⟨rest, hrest, rfl⟩ := bind_pure_ok_iff.mp h
      obtain ⟨hlength, hall⟩ := ih hrest
      exact ⟨Nat.succ_le_succ hlength, List.forall_mem_cons.mpr ⟨hr, hall⟩⟩
    · obtain ⟨rfl, -⟩ := pure_ok_iff.mp h
      exact ⟨Nat.succ_le_succ (Nat.zero_le fuel), List.forall_mem_cons.mpr ⟨hr, nofun⟩⟩

theorem chains_ok (hsrc : src.InRange) {fuel : Nat} {rs ns : List Int}
    (h : chains fuel rs src w = .ok ns w') :
    ns.length ≤ rs.length * fuel ∧ ∀ n ∈ ns, 1 ≤ n ∧ n ≤ 6 := by
  induction rs generalizing w ns with
  | nil =>
    obtain ⟨rfl, -⟩ := pure_ok_iff.mp h
    exact ⟨Nat.zero_le _, nofun⟩
  | cons r rs ih =>
    have hcount : (r :: rs).length * fuel = rs.length * fuel + fuel := by
      rw [List.length_cons, Nat.add_mul, Nat.one_mul]
    unfold chains at h
    split at h
    · obtain ⟨added, w₁, hadded, h⟩ := bind_ok_iff.mp h
      obtain ⟨rest, hrest, rfl⟩ := bind_pure_ok_iff.mp h
      obtain ⟨hlength, hall⟩ := chain_ok hsrc hadded
      obtain ⟨hlength', hall'⟩ := ih hrest
      refine ⟨?_, List.forall_mem_append.mpr ⟨hall, hall'⟩⟩
      rw [List.length_append]
      omega
    · obtain ⟨hlength, hall⟩ := ih h
      exact ⟨by omega, hall⟩

theorem length_le_totalOf {ns : List Int} (h : ∀ n ∈ ns, 1 ≤ n) :
    (ns.length : Int) ≤ totalOf ns := by
  induction ns with
  | nil => exact Int.le_refl 0
  | cons n ns ih =>
    obtain ⟨hn, hns⟩ := List.forall_mem_cons.mp h
    have htotal := ih hns
    rw [totalOf_cons, List.length_cons]
    omega

theorem totalOf_le {k : Int} {ns : List Int} (h : ∀ n ∈ ns, n ≤ k) :
    totalOf ns ≤ k * ns.length := by
  induction ns with
  | nil => exact Int.le_of_eq (Int.mul_zero k).symm
  | cons n ns ih =>
    obtain ⟨hn, hns⟩ := List.forall_mem_cons.mp h
    have htotal := ih hns
    rw [totalOf_cons, List.length_cons, Int.natCast_succ, Int.mul_add, Int.mul_one]
    omega

/-- An open-ended roll has as many dice in the throw as were asked for, and comes to the total of
all its dice. -/
theorem openEnded_dice {n : Nat} {roll : OpenEnded} (h : openEnded n src w = .ok roll w') :
    roll.initial.length = n ∧ totalOf (roll.initial ++ roll.extra) = roll.total := by
  obtain ⟨initial, w₁, hinitial, h⟩ := bind_ok_iff.mp h
  obtain ⟨fuel, w₂, -, h⟩ := bind_ok_iff.mp h
  obtain ⟨extra, -, rfl⟩ := bind_pure_ok_iff.mp h
  exact ⟨times_length hinitial, totalOf_append initial extra⟩

/-- An open-ended roll comes to at least as much as it has dice in the throw, and to at most six for
each die of the throw and of the chains. The chains are not longer than they are followed. -/
theorem openEnded_bounds (hsrc : src.InRange) {count : Nat} {r : OpenEnded}
    (h : openEnded count src w = .ok r w') :
    (count : Int) ≤ r.total ∧ r.total ≤ (6 * (count + r.extra.length) : Nat) ∧
      r.extra.length ≤ count * src.patience := by
  obtain ⟨initial, w₁, hinitial, h⟩ := bind_ok_iff.mp h
  obtain ⟨fuel, w₂, hfuel, h⟩ := bind_ok_iff.mp h
  obtain ⟨extra, hextra, rfl⟩ := bind_pure_ok_iff.mp h
  cases hfuel
  obtain ⟨hlength, hthrow⟩ := times_ok (fun w n w' hn => die_ok hsrc (by decide) hn) hinitial
  obtain ⟨hlength', hchains⟩ := chains_ok hsrc hextra
  have hlow := length_le_totalOf fun n hn => (hthrow n hn).1
  have hlow' := length_le_totalOf fun n hn => (hchains n hn).1
  have hhigh := totalOf_le fun n hn => (hthrow n hn).2
  have hhigh' := totalOf_le fun n hn => (hchains n hn).2
  rw [hlength] at hlow hhigh hlength'
  refine ⟨?_, ?_, hlength'⟩
  · show (count : Int) ≤ totalOf initial + totalOf extra
    omega
  · show totalOf initial + totalOf extra ≤ (6 * (count + extra.length) : Nat)
    omega

theorem DiceForm.one_le_sides (f : DiceForm) : 1 ≤ f.sides := by
  cases f <;> decide

/-- The total of an open-ended notation. -/
theorem rollToken_openEnded {t : DiceToken} (h : t.form = .openEnded) :
    (rollToken t : Roll σ (Int × Option OpenEnded)) = do
      let count ← Roll.ofExcept t.readCount
      let r ← openEnded count
      return (r.total, some r) := by
  unfold rollToken
  rw [h]

theorem rollToken_sided {t : DiceToken} (h : t.form ≠ .openEnded) :
    (rollToken t : Roll σ (Int × Option OpenEnded)) = do
      let count ← Roll.ofExcept t.readCount
      let results ← dice count t.form.sides
      return (totalOf results, none) := by
  unfold rollToken
  cases hform : t.form with
  | openEnded => exact absurd hform h
  | t100 => rfl
  | t10 => rfl
  | t6 => rfl

/-- A count that is read is the number that its digits write. -/
theorem DiceToken.readCount_ok {t : DiceToken} {n : Nat} (h : t.readCount = .ok n) :
    n = t.count := by
  unfold readCount readNumeral at h
  split at h
  · cases h
  · exact (Except.ok.inj h).symm

/-- What a notation comes to is the total of an open-ended roll, or of plain dice. -/
theorem rollToken_origin {t : DiceToken} {total : Int} {own : Option OpenEnded}
    (h : rollToken t src w = .ok (total, own) w') :
    (t.form = .openEnded ∧ ∃ r, openEnded t.count src w = .ok r w' ∧ total = r.total ∧
      own = some r) ∨
    (t.form ≠ .openEnded ∧ ∃ ns, dice t.count t.form.sides src w = .ok ns w' ∧
      total = totalOf ns ∧ own = none) := by
  by_cases hform : t.form = .openEnded
  · rw [rollToken_openEnded hform] at h
    obtain ⟨count, w₁, hcount, h⟩ := bind_ok_iff.mp h
    obtain ⟨hread, rfl⟩ := Roll.ofExcept_ok_iff.mp hcount
    obtain rfl := DiceToken.readCount_ok hread
    obtain ⟨r, hr, heq⟩ := bind_pure_ok_iff.mp h
    cases heq
    exact .inl ⟨hform, r, hr, rfl, rfl⟩
  · rw [rollToken_sided hform] at h
    obtain ⟨count, w₁, hcount, h⟩ := bind_ok_iff.mp h
    obtain ⟨hread, rfl⟩ := Roll.ofExcept_ok_iff.mp hcount
    obtain rfl := DiceToken.readCount_ok hread
    obtain ⟨ns, hns, heq⟩ := bind_pure_ok_iff.mp h
    cases heq
    exact .inr ⟨hform, ns, hns, rfl, rfl⟩

/-- Every notation comes to a total that is not negative. -/
theorem rollToken_ok (hsrc : src.InRange) {t : DiceToken} {total : Int} {own : Option OpenEnded}
    (h : rollToken t src w = .ok (total, own) w') : 0 ≤ total := by
  rcases rollToken_origin h with ⟨-, r, hr, rfl, -⟩ | ⟨-, ns, hns, rfl, -⟩
  · exact Int.le_trans (Int.natCast_nonneg t.count) (openEnded_bounds hsrc hr).1
  · exact Int.le_trans (Int.natCast_nonneg _)
      (length_le_totalOf fun n hn => ((dice_ok hsrc t.form.one_le_sides hns).2 n hn).1)

/-- How many dice sixes added to a roll. -/
def extraDice (own : Option OpenEnded) : Nat := own.elim 0 (·.extra.length)

/-- A notation comes to at most a hundred for each of its dice, those that sixes add included. -/
theorem rollToken_le_dice (hsrc : src.InRange) {t : DiceToken} {total : Int}
    {own : Option OpenEnded} (h : rollToken t src w = .ok (total, own) w') :
    total ≤ (100 * (t.count + extraDice own) : Nat) ∧ extraDice own ≤ t.count * src.patience := by
  rcases rollToken_origin h with ⟨-, r, hr, rfl, rfl⟩ | ⟨-, ns, hns, rfl, rfl⟩
  · obtain ⟨-, hle, hextra⟩ := openEnded_bounds hsrc hr
    refine ⟨?_, hextra⟩
    show r.total ≤ (100 * (t.count + r.extra.length) : Nat)
    omega
  · obtain ⟨hlength, hall⟩ := dice_ok hsrc t.form.one_le_sides hns
    have hsides : t.form.sides ≤ 100 := by cases t.form <;> decide
    have hle := totalOf_le fun n hn => Int.le_trans (hall n hn).2 hsides
    rw [hlength] at hle
    refine ⟨?_, Nat.zero_le _⟩
    show totalOf ns ≤ (100 * (t.count + 0) : Nat)
    omega

/-- The dice that sixes add are not more than they are followed. -/
theorem rollToken_le (hsrc : src.InRange) {t : DiceToken} {total : Int} {own : Option OpenEnded}
    (h : rollToken t src w = .ok (total, own) w') :
    total ≤ (100 * (t.count + t.count * src.patience) : Nat) := by
  obtain ⟨hle, hextra⟩ := rollToken_le_dice hsrc h
  omega

/-! ### Faults -/

variable {p : Fault → Prop}

/-- A roll made several times fails as it does once. -/
theorem times_failsOnly {x : Roll σ α} (hx : x.FailsOnly p) (n : Nat) :
    (times x n).FailsOnly p := by
  induction n with
  | zero => exact .pure []
  | succ n ih => exact hx.bind fun a => ih.bind fun rest => .pure (a :: rest)

theorem die_failsOnly {sides : Int} (h : 1 ≤ sides) : (die sides : Roll σ Int).FailsOnly p :=
  .drawInt h

theorem dice_failsOnly (count : Nat) {sides : Int} (h : 1 ≤ sides) :
    (dice count sides : Roll σ (List Int)).FailsOnly p := by
  unfold dice
  split
  · refine times_failsOnly ?_ count
    refine Roll.FailsOnly.bind ?_ fun r => .pure r.value
    exact (die_failsOnly (by decide)).bind fun tens =>
      (die_failsOnly (by decide)).bind fun ones => .pure _
  · exact times_failsOnly (die_failsOnly h) count

/-- A chain of sixes may be given up. -/
theorem chain_failsOnly (hp : p .endless) (fuel : Nat) :
    (chain fuel : Roll σ (List Int)).FailsOnly p := by
  induction fuel with
  | zero => exact .throw hp
  | succ fuel ih =>
    refine (die_failsOnly (by decide)).bind fun r => ?_
    split
    · exact ih.bind fun rest => .pure (r :: rest)
    · exact .pure [r]

theorem chains_failsOnly (hp : p .endless) (fuel : Nat) (rs : List Int) :
    (chains fuel rs : Roll σ (List Int)).FailsOnly p := by
  induction rs with
  | nil => exact .pure []
  | cons r rs ih =>
    unfold chains
    split
    · exact (chain_failsOnly hp fuel).bind fun added => ih.bind fun rest => .pure (added ++ rest)
    · exact ih

theorem openEnded_failsOnly (hp : p .endless) (count : Nat) :
    (openEnded count : Roll σ OpenEnded).FailsOnly p := by
  refine (times_failsOnly (die_failsOnly (by decide)) count).bind fun initial => ?_
  refine Roll.FailsOnly.bind (fun _ _ _ _ h => by cases h) fun fuel => ?_
  exact (chains_failsOnly hp fuel initial).bind fun extra => .pure _

/-- A notation fails in no other way, unless its count is too long to be read. -/
theorem rollToken_failsOnly_of_count (hp : p .endless) {t : DiceToken}
    (hlong : Text.longestNumeral < t.digits.length → p (.numeralTooLong t.digits.length)) :
    (rollToken t : Roll σ (Int × Option OpenEnded)).FailsOnly p := by
  have hcount : (Roll.ofExcept t.readCount : Roll σ Nat).FailsOnly p := by
    refine .ofExcept fun e h => ?_
    unfold DiceToken.readCount readNumeral at h
    split at h
    · next hlength =>
      cases h
      exact hlong hlength
    · cases h
  by_cases hform : t.form = .openEnded
  · rw [rollToken_openEnded hform]
    exact hcount.bind fun count => (openEnded_failsOnly hp count).bind fun r => .pure _
  · rw [rollToken_sided hform]
    exact hcount.bind fun count =>
      (dice_failsOnly count t.form.one_le_sides).bind fun ns => .pure _

/-- A notation whose count can be read fails in no other way. -/
theorem rollToken_failsOnly (hp : p .endless) {t : DiceToken}
    (hdigits : t.digits.length ≤ Text.longestNumeral) :
    (rollToken t : Roll σ (Int × Option OpenEnded)).FailsOnly p :=
  rollToken_failsOnly_of_count hp fun hlong => absurd hdigits (Nat.not_le.mpr hlong)

/-! ### What is noted -/

theorem times_silent {x : Roll σ α} (hx : x.Silent) (n : Nat) : (times x n).Silent := by
  induction n with
  | zero => exact .pure []
  | succ n ih => exact hx.bind fun a => ih.bind fun rest => .pure (a :: rest)

theorem die_silent (sides : Int) : (die sides : Roll σ Int).Silent := .drawInt 1 sides

theorem dice_silent (count : Nat) (sides : Int) :
    (dice count sides : Roll σ (List Int)).Silent := by
  unfold dice
  split
  · refine times_silent ?_ count
    refine Roll.Silent.bind ?_ fun r => .pure r.value
    exact (die_silent 10).bind fun tens => (die_silent 10).bind fun ones => .pure _
  · exact times_silent (die_silent sides) count

theorem chain_silent (fuel : Nat) : (chain fuel : Roll σ (List Int)).Silent := by
  induction fuel with
  | zero => exact .throw .endless
  | succ fuel ih =>
    refine (die_silent 6).bind fun r => ?_
    split
    · exact ih.bind fun rest => .pure (r :: rest)
    · exact .pure [r]

theorem chains_silent (fuel : Nat) (rs : List Int) :
    (chains fuel rs : Roll σ (List Int)).Silent := by
  induction rs with
  | nil => exact .pure []
  | cons r rs ih =>
    unfold chains
    split
    · exact (chain_silent fuel).bind fun added => ih.bind fun rest => .pure (added ++ rest)
    · exact ih

theorem openEnded_silent (count : Nat) : (openEnded count : Roll σ OpenEnded).Silent := by
  refine (times_silent (die_silent 6) count).bind fun initial => ?_
  refine Roll.Silent.bind (fun _ _ => ⟨rfl, rfl⟩) fun fuel => ?_
  exact (chains_silent fuel initial).bind fun extra => .pure _

/-- Rolling a notation leaves no lines. -/
theorem rollToken_silent (t : DiceToken) :
    (rollToken t : Roll σ (Int × Option OpenEnded)).Silent := by
  by_cases hform : t.form = .openEnded
  · rw [rollToken_openEnded hform]
    exact (Roll.Silent.ofExcept _).bind fun count =>
      (openEnded_silent count).bind fun r => .pure _
  · rw [rollToken_sided hform]
    exact (Roll.Silent.ofExcept _).bind fun count =>
      (dice_silent count _).bind fun ns => .pure _

end Kindred
