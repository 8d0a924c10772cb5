import Mathlib.Data.List.DropRight
import Kindred.Proofs.Formula.Containment
import Kindred.Proofs.Formula.Leading
import Kindred.Proofs.Formula.Pieces
import Kindred.Proofs.Sibling.Litters

/-!
# Dice in front of a number of litters

Dice in front of a number of litters are rolled by themselves, and what stands behind them is worked
out with a zero in their place and added to their total. Where only sums and differences take the
total, as their left operand, that is what the formula comes to as a whole.

- `LeadingDice.exists_notation`: the dice in front are a notation of the formula.
- `exists_rolled_of_leading`: how the formula is rolled.
- `modifierValue_of_leading`: what stands behind the dice, worked out by itself.
- `AddsToFront`, `litterCount_of_evaluateStrict`: the number of litters and the value of the
  formula.
-/

namespace Kindred

open Kindred.Text Kindred.Number Kindred.Formula

variable {σ : Type} {src : Source σ} {w w' : World σ} {formula : String} {bs : Bindings}

/-! ### Dice in front -/

/-- The form of the dice that a number of litters may start with. -/
def LitterDice.form : LitterDice → DiceForm
  | openEnded => .openEnded
  | plain => .t6

theorem LitterDice.sideDigits_form (kind : LitterDice) : kind.form.sideDigits = ['6'] := by
  cases kind <;> rfl

theorem LitterDice.form_mem (kind : LitterDice) : kind.form ∈ Dialect.sibling.dice := by
  cases kind <;> decide

namespace LeadingDice

variable {lead : LeadingDice}

theorem sixesAt?_some {kind : LitterDice} {s : List Char} (h : sixesAt? kind s = some lead) :
    lead.kind = kind ∧ lead.digits ≠ [] ∧ (∀ c ∈ lead.digits, isDecimal c = true) ∧
      ∃ letter, isLetter 'T' letter = true ∧
        s = lead.digits ++ letter :: '6' :: lead.modifier := by
  unfold sixesAt? at h
  split at h
  · cases h
  · next ds letter rest hne hspan =>
    split at h
    · next hletter =>
      obtain ⟨rfl, hds⟩ := append_of_span hspan
      cases h
      exact ⟨rfl, hne, hds, letter, hletter, rfl⟩
    · cases h
  · cases h

/-- The dice in front are a notation, and the modifier is what stands behind it. -/
theorem exists_notation (h : ofText? formula = some lead) :
    ∃ t : DiceToken, t.IsNotation ∧ t.form = lead.kind.form ∧ t.digits = lead.digits ∧
      dropBlanks formula.toList = t.text ++ lead.modifier := by
  unfold ofText? at h
  dsimp only at h
  generalize dropBlanks formula.toList = s at h ⊢
  split at h
  · next o b rest =>
    split at h
    · next hletters =>
      obtain ⟨ho, hb⟩ := Bool.and_eq_true_iff.mp hletters
      obtain ⟨hkind, hne, hdigits, letter, hletter, rfl⟩ := sixesAt?_some h
      refine ⟨⟨.openEnded, lead.digits, [o, b] ++ (lead.digits ++ [letter, '6'])⟩,
        ⟨hne, hdigits, [o, b], letter, ⟨o, b, rfl, ho, hb⟩, hletter, rfl⟩, ?_, rfl, ?_⟩
      · rw [hkind]
        rfl
      · simp
    · obtain ⟨hkind, hne, hdigits, letter, hletter, heq⟩ := sixesAt?_some h
      refine ⟨⟨.t6, lead.digits, lead.digits ++ [letter, '6']⟩,
        ⟨hne, hdigits, [], letter, rfl, hletter, rfl⟩, ?_, rfl, ?_⟩
      · rw [hkind]
        rfl
      · rw [heq]
        simp
  · cases h

/-- Blanks at the ends of a formula do not touch the dice in front. -/
theorem trim_formula {t : DiceToken} (ht : t.IsNotation)
    (h : dropBlanks formula.toList = t.text ++ lead.modifier) :
    trim formula.toList = t.text ++ dropBlanksRight lead.modifier := by
  have hdropped : trim formula.toList = trim (dropBlanks formula.toList) := by
    unfold trim dropBlanks
    rw [List.dropWhile_idempotent]
  rw [hdropped, h]
  exact trim_append ht.isWord [] lead.modifier

end LeadingDice

/-! ### The formula as a whole -/

/-- What a word of a formula for siblings makes place for. -/
def siblingValue (bs : Bindings) : List Char → List Char :=
  valueOf (longestFirst (bs.within Dialect.sibling.parameters))

/-- The text behind the dice in front, with its names replaced. -/
def behindDice (bs : Bindings) (lead : LeadingDice) : List Char :=
  mapWords (siblingValue bs) (dropBlanksRight lead.modifier)

theorem isGap_behindDice {lead : LeadingDice} (h : IsGap (dropBlanksRight lead.modifier)) :
    IsGap (behindDice bs lead) := isGap_mapWords h

/-- Dice that a digit follows are not rolled. -/
theorem rolled_kept {kind : LitterDice} {t : DiceToken} (ht : t.IsNotation)
    (hform : t.form = kind.form) {y s : List Char} (hword : IsWord (t.text ++ y))
    (hdigit : startsWithDigit y = true) (hs : IsGap s) {r : Rolled}
    (hr : rollPieces .sibling (pieces (t.text ++ (y ++ s))) src w = .ok r w') :
    ∃ rest, rollPieces .sibling (piecesFrom true 0 s) src w = .ok rest w' ∧
      r.text = t.text ++ y ++ rest.text := by
  have hnone : diceAt? (t.text ++ y) = none :=
    ht.diceAt?_eq_none (by rw [hform]; exact kind.sideDigits_form) hdigit
  rw [← List.append_assoc] at hr
  rcases piecesFrom_word hword hs false with ⟨t', -, -, ht', -⟩ | ⟨-, hpieces⟩
  · rw [hnone] at ht'
    cases ht'
  · rw [pieces, hpieces, rollPieces_chars] at hr
    obtain ⟨rest, hrest, rfl⟩ := map_ok_iff.mp hr
    exact ⟨rest, hrest, rfl⟩

/-- Dice that no digit follows are rolled first, and their total takes their place. -/
theorem rolled_dice (hsrc : src.InRange) {kind : LitterDice} {t : DiceToken} (ht : t.IsNotation)
    (hform : t.form = kind.form) {y s : List Char} (hy : ∀ c ∈ y, isWordChar c = true)
    (hdigit : startsWithDigit y = false) (hs : IsGap s) {r : Rolled}
    (hr : rollPieces .sibling (pieces (t.text ++ (y ++ s))) src w = .ok r w') :
    ∃ (total : Nat) (own : Option OpenEnded) (rest : Rolled) (w₁ : World σ),
      rollToken t src w = .ok (total, own) w₁ ∧
      rollPieces .sibling (piecesFrom true 0 s) src w₁ = .ok rest w' ∧
      r.text = natText total ++ (y ++ rest.text) := by
  have hstart : startsWithDigit (y ++ s) = false := by
    cases y with
    | nil => exact startsWithDigit_of_isGap hs
    | cons c y => exact hdigit
  rw [pieces, piecesFrom_append_notation ht hstart, piecesFrom_inside hy] at hr
  rcases rollPieces_notation_origin hr with
    ⟨-, total, own, w₁, rest, htoken, -, hrest, htext⟩ | ⟨hother, -⟩
  · obtain ⟨total, rfl⟩ := Int.eq_ofNat_of_zero_le (rollToken_ok hsrc htoken)
    exact ⟨total, own, rest, w₁, htoken, hrest, htext.trans (List.append_assoc _ _ _)⟩
  · exact absurd (hform ▸ kind.form_mem) hother

section Leading

variable {lead : LeadingDice} (hbs : ∀ x ∈ Dialect.sibling.parameters, ∀ n, (x, n) ∈ bs →
  ∃ k, n = .int k)

include hbs

/-- A formula with dice in front, with its names replaced. The word that the dice stand in is no
name. -/
theorem namedText_leading {t : DiceToken} (ht : t.IsNotation)
    (h : dropBlanks formula.toList = t.text ++ lead.modifier) :
    ∃ y v, dropBlanksRight lead.modifier = y ++ v ∧ (∀ c ∈ y, isWordChar c = true) ∧ IsGap v ∧
      namedText .sibling bs formula = t.text ++ (y ++ mapWords (siblingValue bs) v) := by
  have hd : Dialect.sibling ∈ Dialect.builtin := by decide
  obtain ⟨y, v, hsplit, hy, hv⟩ := exists_run isWordChar (dropBlanksRight lead.modifier)
  have hword : IsWord (t.text ++ y) := ht.isWord.append hy
  obtain ⟨c, hc, hdigit⟩ := ht.exists_isDigit
  refine ⟨y, v, hsplit, hy, hv, ?_⟩
  unfold siblingValue
  rw [namedText_eq_mapWords hd rfl hbs, LeadingDice.trim_formula ht h, hsplit,
    ← List.append_assoc, mapWords_append hword hv,
    valueOf_of_isDigit hd ⟨c, List.mem_append_left _ hc, hdigit⟩, List.append_assoc]

/-- A formula with dice in front that has a value, and a number as its first entry: the dice are
rolled first, and stand by themselves. -/
theorem exists_rolled_of_leading (hsrc : src.InRange)
    (hlead : LeadingDice.ofText? formula = some lead) {r : Rolled}
    (hr : rollPieces .sibling (pieces (namedText .sibling bs formula)) src w = .ok r w')
    (hvalue : ∀ why, evaluate .sibling (String.ofList r.text) ≠ .error (.formula why)) {first : Int}
    {items : List Item} (hitems : postfix? r.text = .ok (.number (.int first) :: items)) :
    ∃ (t : DiceToken) (total : Nat) (own : Option OpenEnded) (rest : Rolled) (w₁ : World σ),
      t.form = lead.kind.form ∧ t.digits = lead.digits ∧ IsGap (dropBlanksRight lead.modifier) ∧
      rollToken t src w = .ok (total, own) w₁ ∧
      rollPieces .sibling (piecesFrom true 0 (behindDice bs lead)) src w₁ = .ok rest w' ∧
      r.text = natText total ++ rest.text := by
  obtain ⟨t, ht, hform, hdigits, hfront⟩ := LeadingDice.exists_notation hlead
  obtain ⟨y, v, hsplit, hy, hv, hnames⟩ := namedText_leading hbs ht hfront
  have hgap : IsGap (mapWords (siblingValue bs) v) := isGap_mapWords hv
  -- a word in front of the expression that has digits in it has nothing else in it
  have hnumeral : ∀ {x u}, r.text = x ++ u → IsWord x → IsGap u → (∃ c ∈ x, c.isDigit = true) →
      ∀ c ∈ x, c.isDigit = true := by
    intro x u hx hword hu hdigit
    rw [hx] at hvalue hitems
    exact isDigit_of_front rfl hword hu hdigit hvalue hitems
  rw [hnames] at hr
  cases hdigit : startsWithDigit y with
  | true =>
    have hword : IsWord (t.text ++ y) := ht.isWord.append hy
    obtain ⟨rest, hrest, htext⟩ := rolled_kept ht hform hword hdigit hgap hr
    obtain ⟨c, hc, hfalse⟩ := ht.exists_not_isDigit
    obtain ⟨k, hk, hkdigit⟩ := ht.exists_isDigit
    have htrue := hnumeral htext hword (isGap_of_rolled hgap hrest)
      ⟨k, List.mem_append_left _ hk, hkdigit⟩ c (List.mem_append_left _ hc)
    rw [hfalse] at htrue
    cases htrue
  | false =>
    obtain ⟨total, own, rest, w₁, htoken, hrest, htext⟩ :=
      rolled_dice hsrc ht hform hy hdigit hgap hr
    have hnil : y = [] := by
      obtain ⟨k, hk⟩ := List.exists_mem_of_ne_nil _ (natText_ne_nil total)
      have hall := hnumeral (htext.trans (List.append_assoc _ _ _).symm)
        ((isWord_natText total).append hy) (isGap_of_rolled hgap hrest)
        ⟨k, List.mem_append_left _ hk, isDigit_of_mem_natText hk⟩
      cases y with
      | nil => rfl
      | cons c y =>
        have hc := isDecimal_of_isDigit (hall c (by simp))
        rw [show isDecimal c = false from hdigit] at hc
        cases hc
    subst hnil
    rw [List.nil_append] at hsplit htext
    refine ⟨t, total, own, rest, w₁, hform, hdigits, hsplit ▸ hv, htoken, ?_, htext⟩
    rw [behindDice, hsplit]
    exact hrest

/-- What stands behind the dice in front, with a zero in their place and its names replaced. -/
theorem namedText_modifier (hgap : IsGap (dropBlanksRight lead.modifier)) :
    namedText .sibling bs (String.ofList ('0' :: lead.modifier)) =
      ['0'] ++ behindDice bs lead := by
  have hd : Dialect.sibling ∈ Dialect.builtin := by decide
  have hzero : IsWord ['0'] := isWord_natText 0
  rw [namedText_eq_mapWords hd rfl hbs, String.toList_ofList]
  have htrim : trim ('0' :: lead.modifier) = ['0'] ++ dropBlanksRight lead.modifier :=
    trim_append hzero [] lead.modifier
  rw [htrim, mapWords_append hzero hgap,
    valueOf_of_isDigit hd ⟨'0', List.mem_cons_self, by decide⟩]
  rfl

/-- What stands behind the dice in front comes to what the formula adds to their total. -/
theorem modifierValue_of_leading (hwritable : Writable .sibling bs)
    (hgap : IsGap (dropBlanksRight lead.modifier)) {rest : Rolled}
    (hrest : rollPieces .sibling (piecesFrom true 0 (behindDice bs lead)) src w = .ok rest w')
    {total : Nat} {v : Int}
    (hvalue : evaluate .sibling (String.ofList (natText total ++ rest.text)) = .ok (.int v))
    {first : Int} {items : List Item}
    (hitems : postfix? (natText total ++ rest.text) = .ok (.number (.int first) :: items))
    (hsums : onlySums 0 items = true) (hsmall : (v - first).natAbs < ample) :
    ∃ cache, modifierValue bs lead.modifier src w =
      .ok (.int (v - total)) { w' with cache := cache } := by
  have hzero : IsLiteral ['0'] := ⟨List.cons_ne_nil _ _, by simp, by decide⟩
  have hnone : ∀ n : Int, n + digitsValue ['0'] = n := Int.add_zero
  have hfront := isGap_of_rolled (isGap_behindDice hgap) hrest
  obtain ⟨rfl, hvalue⟩ := @evaluate_digits .sibling rfl _ _ _ _ _ _ (isWord_natText total)
    (fun _ => isDigit_of_mem_natText) hzero hfront hitems hsums (by rwa [hnone]) hvalue
  rw [hnone, digitsValue_natText] at hvalue
  unfold modifierValue
  cases hblank : isBlankText lead.modifier with
  | true =>
    -- nothing is added, so the total is the value
    rw [behindDice, dropBlanksRight_of_isBlankText hblank] at hrest
    obtain ⟨rfl, rfl⟩ := pure_ok_iff.mp hrest
    have hzero : evaluate .sibling (String.ofList ['0']) = .ok (.int 0) := rfl
    have heq : v - total = 0 := Number.int.inj (Except.ok.inj (hvalue.symm.trans hzero))
    rw [heq, if_pos rfl]
    exact ⟨w.cache, rfl⟩
  | false =>
    have hsolid : isBlankString (String.ofList ('0' :: lead.modifier)) = false := by
      simp [isBlankString, isBlankText, show isBlank '0' = false by decide]
    have hpieces : rollPieces .sibling (pieces (namedText .sibling bs
        (String.ofList ('0' :: lead.modifier)))) src w =
          .ok { rest with text := '0' :: rest.text } w' := by
      rw [namedText_modifier hbs hgap, pieces, piecesFrom_append_digits hzero.ne_nil
        hzero.digits (isGap_behindDice hgap), rollPieces_chars]
      exact map_ok_iff.mpr ⟨rest, hrest, rfl⟩
    have hstrict := evaluateStrict_ok_iff.mpr
      ⟨hsolid, hwritable, _, _, _, hpieces, hvalue, rfl, rfl⟩
    rw [if_neg Bool.false_ne_true]
    exact ⟨_, bind_ok_iff.mpr ⟨_, _, evaluateFormula_of_ok hstrict, rfl⟩⟩

end Leading

/-! ### The two values -/

/-- Whether an expression has an integer as its value that something adds to the number in front of
it, and to nothing else: only sums and differences take that number, as their left operand. What
they add is in the range of doubles. -/
def AddsToFront (expr : List Char) (n : Number) : Prop :=
  ∃ (v first : Int) (items : List Item), n = .int v ∧
    postfix? expr = .ok (.number (.int first) :: items) ∧ onlySums 0 items = true ∧
    (v - first).natAbs < ample

/-- A finite number is recorded. -/
theorem recordedTotal_of_isFinite {n : Number} (h : n.IsFinite) : ∃ x, recordedTotal n = .ok x := by
  obtain ⟨x, hx, -⟩ := h
  unfold recordedTotal
  rw [hx]
  exact ⟨x, rfl⟩

theorem isFinite_atLeastZero {n : Number} (h : n.IsFinite) : (atLeastZero n).IsFinite := by
  unfold atLeastZero
  split
  · exact h
  · exact Number.isFinite_zero

/-- A finite number stands for a count. -/
theorem exists_floorNonNegative {n : Number} (h : n.IsFinite) :
    ∃ k, floorNonNegative n = .ok k := by
  cases n with
  | int v => exact ⟨v.toNat, rfl⟩
  | float x =>
    have hsome : (Binary.ofFloat? x).isSome = true := h.isFinite_toFloat
    obtain ⟨b, hb⟩ := Option.isSome_iff_exists.mp hsome
    have hfloor : floatToInt Binary.floor x = .ok b.floor := by
      unfold floatToInt
      rw [hb]
    refine ⟨b.floor.toNat, ?_⟩
    show (floatToInt Binary.floor x).map Int.toNat = _
    rw [hfloor]
    rfl

/-- The total of the dice in front, and what stands behind them, make the number of litters. -/
theorem leadingCount_of_rolled {lead : LeadingDice} {t : DiceToken} {w₁ : World σ}
    (hform : t.form = lead.kind.form) (hdigits : t.digits = lead.digits) {total : Int}
    {own : Option OpenEnded} (htoken : rollToken t src w = .ok (total, own) w₁) {m : Number}
    (hm : modifierValue bs lead.modifier src w₁ = .ok m w') {n : Number}
    (hn : withModifier total m = n) (hfinite : n.IsFinite) {k : Nat}
    (hk : floorNonNegative n = .ok k) :
    ∃ c, leadingCount formula bs lead src w = .ok c w' ∧ c.count = k := by
  obtain ⟨x, hx⟩ := recordedTotal_of_isFinite hfinite
  obtain ⟨y, hy⟩ := recordedTotal_of_isFinite (isFinite_atLeastZero hfinite)
  subst hn
  cases hkind : lead.kind with
  | openEnded =>
    rw [rollToken_openEnded (by rw [hform, hkind]; rfl), DiceToken.readCount, hdigits] at htoken
    simp only [bind_ok_iff, pure_ok_iff, Roll.ofExcept_ok_iff, Prod.mk.injEq] at htoken
    obtain ⟨n, _, ⟨hn, rfl⟩, roll, _, hroll, ⟨rfl, -⟩, rfl⟩ := htoken
    exact ⟨_, leadingCount_of_openEnded hkind hn hroll hm hy hk, rfl⟩
  | plain =>
    have hplain : t.form = .t6 := by rw [hform, hkind]; rfl
    rw [rollToken_sided (by rw [hplain]; exact DiceForm.noConfusion), hplain, DiceToken.readCount,
      hdigits] at htoken
    simp only [bind_ok_iff, pure_ok_iff, Roll.ofExcept_ok_iff, Prod.mk.injEq] at htoken
    obtain ⟨n, _, ⟨hn, rfl⟩, rolls, _, hrolls, ⟨rfl, -⟩, rfl⟩ := htoken
    exact ⟨_, leadingCount_of_plain hkind hn hrolls hm hx hk, rfl⟩

/-- A formula with dice in front, whose rest is only added to their total, gives as many litters as
it comes to. -/
theorem leadingCount_of_evaluateStrict (hsrc : src.InRange)
    (hbs : ∀ x ∈ Dialect.sibling.parameters, ∀ n, (x, n) ∈ bs → ∃ k, n = .int k)
    {lead : LeadingDice} (hlead : LeadingDice.ofText? formula = some lead) {e : Evaluation}
    (h : evaluateStrict .sibling bs formula src w = .ok e w')
    (hadds : AddsToFront e.expression.toList e.value) :
    ∃ c cache, leadingCount formula bs lead src w = .ok c { w' with cache := cache } ∧
      floorNonNegative e.value = .ok c.count := by
  have hfinite := (evaluateStrict_ok h).2
  obtain ⟨v, first, items, hvalue, hitems, hsums, hsmall⟩ := hadds
  rw [hvalue] at hfinite ⊢
  obtain ⟨-, hwritable, r, w₂, n, hr, hn, rfl, rfl⟩ := evaluateStrict_ok_iff.mp h
  obtain rfl : n = .int v := hvalue
  change postfix? (String.ofList r.text).toList = _ at hitems
  rw [String.toList_ofList] at hitems
  obtain ⟨t, total, own, rest, w₁, hform, hdigits, hgap, htoken, hrest, htext⟩ :=
    exists_rolled_of_leading hbs hsrc hlead hr (by rw [hn]; exact nofun) hitems
  rw [htext] at hn hitems
  obtain ⟨cache, hmodifier⟩ :=
    modifierValue_of_leading hbs hwritable hgap hrest hn hitems hsums hsmall
  have hsum : withModifier total (.int (v - total)) = .int v := by
    unfold withModifier
    dsimp only
    congr 1
    omega
  obtain ⟨c, hc, hcount⟩ := @leadingCount_of_rolled _ _ _ _ formula bs _ _ _ hform hdigits _ _
    htoken _ hmodifier _ hsum hfinite _ rfl
  exact ⟨c, cache, hc, by rw [hcount]; rfl⟩

/-- A formula that has a value gives that many litters, rounded down, or none where the value is
negative: always if it has no dice in front, and with dice in front if the rest is only added to
their total. The same draws are made, and no failure is noted. -/
theorem litterCount_of_evaluateStrict (hsrc : src.InRange)
    (hbs : ∀ x ∈ Dialect.sibling.parameters, ∀ n, (x, n) ∈ bs → ∃ k, n = .int k) {e : Evaluation}
    (h : evaluateStrict .sibling bs formula src w = .ok e w')
    (hfront : LeadingDice.ofText? formula = none ∨ AddsToFront e.expression.toList e.value) :
    ∃ c cache, litterCount formula bs src w = .ok c { w' with cache := cache } ∧
      floorNonNegative e.value = .ok c.count ∧ w'.trace = w.trace ∧ w'.log = w.log := by
  have hsilent := evaluateStrict_silent.of_ok h
  unfold litterCount
  cases hlead : LeadingDice.ofText? formula with
  | none =>
    obtain ⟨k, hk⟩ := exists_floorNonNegative (evaluateStrict_ok h).2
    refine ⟨{ count := k }, w'.cache, ?_, hk, hsilent⟩
    exact bind_ok_iff.mpr ⟨e, w', evaluateFormula_of_ok h,
      bind_ok_iff.mpr ⟨k, w', Roll.ofExcept_ok_iff.mpr ⟨hk, rfl⟩, rfl⟩⟩
  | some lead =>
    rw [hlead] at hfront
    obtain ⟨c, cache, hc, hcount⟩ :=
      leadingCount_of_evaluateStrict hsrc hbs hlead h (hfront.resolve_left nofun)
    exact ⟨c, cache, hc, hcount, hsilent⟩

/-! ### Samples -/

/-- What a formula comes to for someone of age thirty where all dice show a three: its value and
the expression that is left of it, if the value is an integer. -/
def sampleValue? (formula : String) : Option (Int × String) :=
  match evaluateStrict .sibling (siblingBindings 30) formula (Source.constant 3 0)
    (World.start ()) with
  | .ok e _ =>
    match e.value with
    | .int v => some (v, e.expression)
    | .float _ => none
  | .error _ _ => none

/-- The number of litters that a formula gives then. -/
def sampleCount? (formula : String) : Option Nat :=
  match litterCount formula (siblingBindings 30) (Source.constant 3 0) (World.start ()) with
  | .ok c _ => some c.count
  | .error _ _ => none

theorem exists_of_sampleValue? {v : Int} {expression : String}
    (h : sampleValue? formula = some (v, expression)) : ∃ e w',
      evaluateStrict .sibling (siblingBindings 30) formula (Source.constant 3 0) (World.start ()) =
        .ok e w' ∧ e.value = .int v ∧ e.expression = expression := by
  unfold sampleValue? at h
  split at h
  · next e w' hrun =>
    split at h
    · next hvalue =>
      cases h
      exact ⟨e, w', hrun, hvalue, rfl⟩
    · cases h
  · cases h

theorem exists_of_sampleCount? {k : Nat} (h : sampleCount? formula = some k) : ∃ c w',
    litterCount formula (siblingBindings 30) (Source.constant 3 0) (World.start ()) = .ok c w' ∧
      c.count = k := by
  unfold sampleCount? at h
  split at h
  · next hrun =>
    cases h
    exact ⟨_, _, hrun, rfl⟩
  · cases h

/-- Dice less two. -/
theorem litterCount_of_evaluateStrict_sample : ∃ e w' c cache,
    evaluateStrict .sibling (siblingBindings 30) "Ob1T6-2" (Source.constant 3 0) (World.start ()) =
      .ok e w' ∧ e.value = .int 1 ∧ AddsToFront e.expression.toList e.value ∧
    litterCount "Ob1T6-2" (siblingBindings 30) (Source.constant 3 0) (World.start ()) =
      .ok c { w' with cache := cache } ∧ floorNonNegative e.value = .ok c.count := by
  obtain ⟨e, w', hrun, hvalue, hexpression⟩ :=
    @exists_of_sampleValue? "Ob1T6-2" 1 "3-2" (by decide +kernel)
  have hadds : AddsToFront e.expression.toList e.value := by
    rw [hexpression, hvalue]
    exact ⟨1, 3, [.number (.int 2), .binary "-"], rfl, rfl, rfl, by decide +kernel⟩
  have hbound : ∀ x ∈ Dialect.sibling.parameters, ∀ n, (x, n) ∈ siblingBindings 30 →
      ∃ k, n = .int k := by
    intro x _ n hn
    have hall : ∀ b ∈ siblingBindings 30, b.2 = .int 30 := by simp [siblingBindings]
    exact ⟨30, hall _ hn⟩
  obtain ⟨c, cache, hcount, hfloor, -⟩ :=
    litterCount_of_evaluateStrict (Source.inRange_constant 3 0) hbound hrun (.inr hadds)
  exact ⟨e, w', c, cache, hrun, hvalue, hadds, hcount, hfloor⟩

/-- Twice the dice: the formula comes to six, but there are three litters. -/
theorem litterCount_of_product : (Source.constant 3 0).InRange ∧ ∃ e w' c w'',
    evaluateStrict .sibling (siblingBindings 30) "Ob1T6*2" (Source.constant 3 0) (World.start ()) =
      .ok e w' ∧ e.value = .int 6 ∧
    litterCount "Ob1T6*2" (siblingBindings 30) (Source.constant 3 0) (World.start ()) =
      .ok c w'' ∧ c.count = 3 ∧ floorNonNegative e.value ≠ .ok c.count := by
  obtain ⟨e, w', hrun, hvalue, -⟩ := @exists_of_sampleValue? "Ob1T6*2" 6 "3*2" (by decide +kernel)
  obtain ⟨c, w'', hlitters, hcount⟩ := @exists_of_sampleCount? "Ob1T6*2" 3 (by decide +kernel)
  refine ⟨Source.inRange_constant 3 0, e, w', c, w'', hrun, hvalue, hlitters, hcount, ?_⟩
  rw [hvalue, hcount]
  exact nofun

end Kindred
