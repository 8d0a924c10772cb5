import Kindred.Dice.Token
import Kindred.Proofs.Text.Words

/-!
# Notations in a text

How a dice notation may be written, and that it is found where it is written. The letters may be
capital or small, and the digits of the count may be those of any script.

- `DiceToken.IsNotation`: the ways to write a notation.
- `DiceToken.IsNotation.isWord`: a notation is one word.
- `DiceToken.IsNotation.diceAt?_append`: it is found at the front of a text.
- `isNotation_of_diceAt?`: what is found there is one.
- `diceAt?_eq_none_of_isGap`, `diceAt?_digits_eq_none`: where no notation starts.
- `diceAt?_append_of_isGap`: a notation ends where its word does.
-/

namespace Kindred

open Kindred.Text

/-! ### Letters -/

theorem isLetter_iff {capital c : Char} :
    isLetter capital c = true ↔ c = capital ∨ c = capital.toLower := by
  unfold isLetter
  rw [Bool.or_eq_true, beq_iff_eq, beq_iff_eq]

/-- The letters of a notation are word characters and no digits. -/
theorem isWordChar_of_isLetter {capital c : Char} (hcapital : capital ∈ ['O', 'B', 'T'])
    (h : isLetter capital c = true) : isWordChar c = true ∧ isDecimal c = false := by
  have hall : ∀ k ∈ ['O', 'B', 'T'], [k, k.toLower].all fun c => isWordChar c && !isDecimal c :=
    List.all_eq_true.mp (by decide)
  have hc : c ∈ [capital, capital.toLower] := by simpa using isLetter_iff.mp h
  simpa using List.all_eq_true.mp (hall capital hcapital) c hc

theorem isLetter_of_not_isWordChar {capital c : Char} (hcapital : capital ∈ ['O', 'B', 'T'])
    (h : isWordChar c = false) : isLetter capital c = false := by
  refine Bool.eq_false_iff.mpr fun hletter => ?_
  rw [(isWordChar_of_isLetter hcapital hletter).1] at h
  cases h

/-- No digit is the letter that an open-ended notation starts with. -/
theorem isLetter_O_of_isDecimal {c : Char} (h : isDecimal c = true) : isLetter 'O' c = false := by
  refine Bool.eq_false_iff.mpr fun hletter => ?_
  rw [(isWordChar_of_isLetter (by simp) hletter).2] at h
  cases h

/-! ### Notations -/

/-- The letters in front of the count: `Ob` for an open-ended roll, none for the others. -/
def DiceForm.IsLead (lead : List Char) : DiceForm → Prop
  | openEnded => ∃ o b, lead = [o, b] ∧ isLetter 'O' o = true ∧ isLetter 'B' b = true
  | _ => lead = []

/-- The digits behind the letter `T`. -/
def DiceForm.sideDigits : DiceForm → List Char
  | openEnded => ['6']
  | t100 => ['1', '0', '0']
  | t10 => ['1', '0']
  | t6 => ['6']

namespace DiceToken

/-- Whether a notation is written as its form and its count say. -/
structure IsNotation (t : DiceToken) : Prop where
  ne_nil : t.digits ≠ []
  digits : ∀ c ∈ t.digits, isDecimal c = true
  text : ∃ lead letter, t.form.IsLead lead ∧ isLetter 'T' letter = true ∧
    t.text = lead ++ (t.digits ++ letter :: t.form.sideDigits)

theorem eq_nil_of_isLead {f : DiceForm} (hf : f ≠ .openEnded) {lead : List Char}
    (h : f.IsLead lead) : lead = [] := by
  cases f with
  | openEnded => exact absurd rfl hf
  | t100 => exact h
  | t10 => exact h
  | t6 => exact h

/-- A notation is one word. -/
theorem IsNotation.isWord {t : DiceToken} (h : t.IsNotation) : IsWord t.text := by
  obtain ⟨lead, letter, hlead, hletter, htext⟩ := h.text
  have hsides : ∀ c ∈ t.form.sideDigits, isWordChar c = true := by
    refine List.all_eq_true.mp ?_
    cases t.form <;> decide
  have hfront : ∀ c ∈ lead, isWordChar c = true := by
    by_cases hform : t.form = .openEnded
    · rw [hform] at hlead
      obtain ⟨o, b, rfl, ho, hb⟩ := hlead
      rw [List.forall_mem_cons, List.forall_mem_singleton]
      exact ⟨(isWordChar_of_isLetter (by simp) ho).1, (isWordChar_of_isLetter (by simp) hb).1⟩
    · rw [eq_nil_of_isLead hform hlead]
      exact List.forall_mem_nil _
  rw [htext]
  constructor
  · simp
  · rw [List.forall_mem_append, List.forall_mem_append, List.forall_mem_cons]
    exact ⟨hfront, fun c hc => isWordChar_of_isDecimal (h.digits c hc),
      (isWordChar_of_isLetter (by simp) hletter).1, hsides⟩

theorem IsNotation.exists_isDigit {t : DiceToken} (h : t.IsNotation) :
    ∃ c ∈ t.text, c.isDigit = true := by
  obtain ⟨lead, letter, -, -, htext⟩ := h.text
  obtain ⟨c, hc, hdigit⟩ : ∃ c ∈ t.form.sideDigits, c.isDigit = true := by
    refine List.any_eq_true.mp ?_
    cases t.form <;> decide
  refine ⟨c, ?_, hdigit⟩
  rw [htext]
  simp [hc]

theorem IsNotation.exists_not_isDigit {t : DiceToken} (h : t.IsNotation) :
    ∃ c ∈ t.text, c.isDigit = false := by
  obtain ⟨lead, letter, -, hletter, htext⟩ := h.text
  refine ⟨letter, by simp [htext], Bool.eq_false_iff.mpr fun hdigit => ?_⟩
  have hother := (isWordChar_of_isLetter (by simp) hletter).2
  rw [isDecimal_of_isDigit hdigit] at hother
  cases hother

/-- A notation ends with a digit. -/
theorem IsNotation.exists_getLast? {t : DiceToken} (h : t.IsNotation) :
    ∃ c, t.text.getLast? = some c ∧ isDecimal c = true := by
  obtain ⟨lead, letter, -, -, htext⟩ := h.text
  obtain ⟨a, c, hsides, hc⟩ : ∃ a c, t.form.sideDigits = a ++ [c] ∧ isDecimal c = true := by
    cases t.form with
    | openEnded => exact ⟨[], '6', rfl, rfl⟩
    | t100 => exact ⟨['1', '0'], '0', rfl, rfl⟩
    | t10 => exact ⟨['1'], '0', rfl, rfl⟩
    | t6 => exact ⟨[], '6', rfl, rfl⟩
  refine ⟨c, List.getLast?_eq_some_iff.mpr ⟨lead ++ (t.digits ++ letter :: a), ?_⟩, hc⟩
  rw [htext, hsides, List.append_assoc, List.append_assoc, List.cons_append]

/-- The digits of the count end in front of the letter. -/
theorem IsNotation.spanDigits_append {t : DiceToken} (h : t.IsNotation) {letter : Char}
    (hletter : isLetter 'T' letter = true) (s : List Char) :
    spanDigits (t.digits ++ letter :: s) = (t.digits, letter :: s) := by
  refine span_append h.digits ?_
  intro c hc
  cases hc
  exact (isWordChar_of_isLetter (by simp) hletter).2

/-- The sides of a form are found where they are written and no digit follows. -/
theorem sidesAt?_append {f : DiceForm} (hf : f ≠ .openEnded) {s : List Char}
    (hs : startsWithDigit s = false) :
    sidesAt? (f.sideDigits ++ s) = some (f, f.sideDigits) := by
  -- `10` is not read as the front of `100`
  have hzero : ['0'].isPrefixOf s = false := by
    cases s with
    | nil => rfl
    | cons c s =>
      have hne : ('0' == c) = false :=
        beq_false_of_ne (@ne_of_apart isDecimal '0' c (by decide) hs)
      rw [List.isPrefixOf, hne, Bool.false_and]
  unfold sidesAt? sideSpellings
  cases f with
  | openEnded => exact absurd rfl hf
  | t100 => simp [DiceForm.sideDigits, hs]
  | t10 => simp [DiceForm.sideDigits, hs, hzero]
  | t6 => simp [DiceForm.sideDigits, hs]

/-- An open-ended notation is found where it is written and no digit follows. -/
theorem IsNotation.openEndedAt?_append {t : DiceToken} (h : t.IsNotation)
    (hform : t.form = .openEnded) {s : List Char} (hs : startsWithDigit s = false) :
    openEndedAt? (t.text ++ s) = some t := by
  obtain ⟨lead, letter, hlead, hletter, htext⟩ := h.text
  rw [hform] at hlead htext
  obtain ⟨o, b, rfl, ho, hb⟩ := hlead
  have hspan := h.spanDigits_append hletter ('6' :: s)
  obtain ⟨d, ds, hdigits⟩ := List.exists_cons_of_ne_nil h.ne_nil
  have hfront : t.text ++ s = o :: b :: (t.digits ++ letter :: '6' :: s) := by
    rw [htext]
    simp [DiceForm.sideDigits]
  rw [hfront, openEndedAt?, ho, hb, hspan, hdigits]
  simp only [hletter, hs, Bool.and_self, Bool.not_false, if_true]
  obtain ⟨form, digits, text⟩ := t
  simp_all [DiceForm.sideDigits]

theorem IsNotation.sidedAt?_append {t : DiceToken} (h : t.IsNotation)
    (hform : t.form ≠ .openEnded) {s : List Char} (hs : startsWithDigit s = false) :
    sidedAt? (t.text ++ s) = some t := by
  obtain ⟨lead, letter, hlead, hletter, htext⟩ := h.text
  obtain rfl := eq_nil_of_isLead hform hlead
  have hspan := h.spanDigits_append hletter (t.form.sideDigits ++ s)
  obtain ⟨d, ds, hdigits⟩ := List.exists_cons_of_ne_nil h.ne_nil
  have hfront : t.text ++ s = t.digits ++ letter :: (t.form.sideDigits ++ s) := by
    rw [htext]
    simp
  rw [hfront, sidedAt?, hspan, hdigits]
  simp only [hletter, if_true, sidesAt?_append hform hs, Option.map_some]
  obtain ⟨form, digits, text⟩ := t
  simp_all

end DiceToken

/-! ### What is found is a notation -/

theorem isNotation_of_openEndedAt? {s : List Char} {t : DiceToken} (h : openEndedAt? s = some t) :
    t.IsNotation ∧ ∃ rest, s = t.text ++ rest ∧ startsWithDigit rest = false := by
  unfold openEndedAt? at h
  split at h
  · next o b s =>
    split at h
    · next hletters =>
      obtain ⟨ho, hb⟩ := Bool.and_eq_true_iff.mp hletters
      split at h
      · cases h
      · next ds letter rest hne hspan =>
        split at h
        · next hend =>
          obtain ⟨hletter, hrest⟩ := Bool.and_eq_true_iff.mp hend
          obtain ⟨rfl, hds⟩ := append_of_span hspan
          cases h
          refine ⟨⟨hne, hds, [o, b], letter, ⟨o, b, rfl, ho, hb⟩, hletter, ?_⟩, rest, ?_, ?_⟩
          · simp [DiceForm.sideDigits]
          · simp
          · simpa using hrest
        · cases h
      · cases h
    · cases h
  · cases h

theorem isNotation_of_sidedAt? {s : List Char} {t : DiceToken} (h : sidedAt? s = some t) :
    t.IsNotation ∧ ∃ rest, s = t.text ++ rest ∧ startsWithDigit rest = false := by
  unfold sidedAt? at h
  split at h
  · cases h
  · next ds letter rest hne hspan =>
    split at h
    · next hletter =>
      obtain ⟨rfl, hds⟩ := append_of_span hspan
      obtain ⟨⟨form, sides⟩, hfind, rfl⟩ := Option.map_eq_some_iff.mp h
      have hspelled : form.IsLead [] ∧ sides = form.sideDigits := by
        have hall : ∀ e ∈ sideSpellings, e.1.IsLead [] ∧ e.2 = e.1.sideDigits := by
          simp [sideSpellings, DiceForm.IsLead, DiceForm.sideDigits]
        exact hall _ (List.mem_of_find?_eq_some hfind)
      obtain ⟨hlead, rfl⟩ := hspelled
      have hsides := List.find?_some hfind
      simp only [Bool.and_eq_true, List.isPrefixOf_iff_prefix, Bool.not_eq_true'] at hsides
      obtain ⟨⟨after, rfl⟩, hdigit⟩ := hsides
      rw [List.drop_left] at hdigit
      exact ⟨⟨hne, hds, [], letter, hlead, hletter, rfl⟩, after, by simp, hdigit⟩
    · cases h
  · cases h

/-- What is found at the front of a text is a notation, and no digit follows it. -/
theorem isNotation_of_diceAt? {s : List Char} {t : DiceToken} (h : diceAt? s = some t) :
    t.IsNotation ∧ ∃ rest, s = t.text ++ rest ∧ startsWithDigit rest = false := by
  unfold diceAt? at h
  cases hopen : openEndedAt? s with
  | some t' =>
    rw [hopen] at h
    cases h
    exact isNotation_of_openEndedAt? hopen
  | none =>
    rw [hopen] at h
    exact isNotation_of_sidedAt? h

/-! ### Where no notation starts -/

theorem openEndedAt?_eq_none {s : List Char} (h : ∀ c ∈ s.head?, isLetter 'O' c = false) :
    openEndedAt? s = none := by
  match s with
  | [] => rfl
  | [_] => rfl
  | o :: b :: s =>
    rw [openEndedAt?, h o rfl, Bool.false_and]
    rfl

/-- No notation starts with a character between words. -/
theorem diceAt?_eq_none_of_isGap {s : List Char} (hs : IsGap s) : diceAt? s = none := by
  have hdigits : spanDigits s = ([], s) :=
    span_of_head? fun c hc => isDecimal_of_not_isWordChar (hs c hc)
  unfold diceAt?
  rw [openEndedAt?_eq_none fun c hc => isLetter_of_not_isWordChar (by simp) (hs c hc), sidedAt?,
    hdigits]
  rfl

/-- No notation starts with digits behind which the word ends. -/
theorem diceAt?_digits_eq_none {ds s : List Char} (hds : ∀ c ∈ ds, isDecimal c = true)
    (hs : IsGap s) : diceAt? (ds ++ s) = none := by
  cases ds with
  | nil => exact diceAt?_eq_none_of_isGap hs
  | cons d ds =>
    have hopen : openEndedAt? (d :: ds ++ s) = none := by
      refine openEndedAt?_eq_none fun c hc => ?_
      cases hc
      exact isLetter_O_of_isDecimal (hds d List.mem_cons_self)
    have hdigits : spanDigits (d :: ds ++ s) = (d :: ds, s) :=
      span_append hds fun c hc => isDecimal_of_not_isWordChar (hs c hc)
    unfold diceAt?
    rw [hopen, sidedAt?, hdigits]
    cases s with
    | nil => rfl
    | cons c s =>
      have hletter : isLetter 'T' c = false :=
        isLetter_of_not_isWordChar (by simp) (isGap_cons.mp hs)
      simp only [hletter]
      rfl

/-- A notation is found where it is written and no digit follows. -/
theorem DiceToken.IsNotation.diceAt?_append {t : DiceToken} (h : t.IsNotation) {s : List Char}
    (hs : startsWithDigit s = false) : diceAt? (t.text ++ s) = some t := by
  unfold diceAt?
  by_cases hform : t.form = .openEnded
  · rw [h.openEndedAt?_append hform hs]
    rfl
  · -- the open-ended form is tried first, and the text starts with a digit
    have hnone : openEndedAt? (t.text ++ s) = none := by
      obtain ⟨lead, letter, hlead, -, htext⟩ := h.text
      obtain rfl := eq_nil_of_isLead hform hlead
      obtain ⟨d, ds, hdigits⟩ := List.exists_cons_of_ne_nil h.ne_nil
      refine openEndedAt?_eq_none fun c hc => isLetter_O_of_isDecimal (h.digits c ?_)
      rw [htext, hdigits] at hc
      rw [hdigits]
      cases hc
      exact List.mem_cons_self
    rw [hnone, h.sidedAt?_append hform hs]
    rfl

/-- In front of a digit a six does not end a notation. -/
theorem DiceToken.IsNotation.diceAt?_eq_none {t : DiceToken} (h : t.IsNotation)
    (hsix : t.form.sideDigits = ['6']) {s : List Char} (hs : startsWithDigit s = true) :
    diceAt? (t.text ++ s) = none := by
  obtain ⟨lead, letter, hlead, hletter, htext⟩ := h.text
  have hspan := h.spanDigits_append hletter ('6' :: s)
  have hsides : sidesAt? ('6' :: s) = none := by
    simp [sidesAt?, sideSpellings, hs]
  obtain ⟨d, ds, hdigits⟩ := List.exists_cons_of_ne_nil h.ne_nil
  have hfront : t.text ++ s = lead ++ (t.digits ++ letter :: '6' :: s) := by
    rw [htext, hsix]
    simp
  unfold diceAt?
  rw [hfront]
  by_cases hform : t.form = .openEnded
  · rw [hform] at hlead
    obtain ⟨o, b, rfl, ho, hb⟩ := hlead
    have hnone : spanDigits (o :: b :: (t.digits ++ letter :: '6' :: s)) = ([], _) :=
      span_of_head? fun c hc => by
        cases hc
        exact (isWordChar_of_isLetter (by simp) ho).2
    show (openEndedAt? (o :: b :: (t.digits ++ letter :: '6' :: s)) <|>
      sidedAt? (o :: b :: (t.digits ++ letter :: '6' :: s))) = none
    rw [openEndedAt?, sidedAt?, ho, hb, hspan, hnone, hdigits]
    simp [hs]
  · obtain rfl := eq_nil_of_isLead hform hlead
    have hopen : openEndedAt? (t.digits ++ letter :: '6' :: s) = none := by
      refine openEndedAt?_eq_none fun c hc => isLetter_O_of_isDecimal (h.digits c ?_)
      rw [hdigits] at hc ⊢
      cases hc
      exact List.mem_cons_self
    rw [List.nil_append, hopen, sidedAt?, hspan, hdigits]
    simp [hletter, hsides]

/-- What is found in front of the end of a word lies in the word. -/
theorem diceAt?_append_of_isGap {w s : List Char} (hs : IsGap s) :
    diceAt? (w ++ s) = diceAt? w := by
  have hdigit : ∀ a, startsWithDigit (a ++ s) = startsWithDigit a := by
    intro a
    cases a with
    | nil =>
      cases s with
      | nil => rfl
      | cons c s => exact isDecimal_of_not_isWordChar (isGap_cons.mp hs)
    | cons c a => rfl
  refine Option.ext fun t => ⟨fun h => ?_, fun h => ?_⟩
  · obtain ⟨ht, rest, heq, hrest⟩ := isNotation_of_diceAt? h
    rcases List.append_eq_append_iff.mp heq with ⟨a, htext, rfl⟩ | ⟨a, rfl, rfl⟩
    · -- a notation consists of word characters, so it does not go beyond the word
      have hnil : a = [] := by
        cases a with
        | nil => rfl
        | cons c a =>
          have hc := ht.isWord.all c (by rw [htext]; simp)
          rw [isGap_cons.mp hs] at hc
          cases hc
      subst hnil
      rw [List.append_nil] at htext
      have hself : diceAt? (t.text ++ []) = some t := ht.diceAt?_append rfl
      rwa [List.append_nil, htext] at hself
    · rw [hdigit] at hrest
      exact ht.diceAt?_append hrest
  · obtain ⟨ht, a, rfl, hrest⟩ := isNotation_of_diceAt? h
    rw [List.append_assoc]
    exact ht.diceAt?_append (by rw [hdigit, hrest])

end Kindred
