import Kindred.Content.Review
import Kindred.Proofs.Content.Reviewed
import Kindred.Proofs.Dice.Notation
import Kindred.Proofs.Text.Numeral

/-!
# Forms of gender rules

The rule for genders is read twice: by the roll of a gender, and by the review of content, which
warns where it knows no form of the text. The two readers go through a table of ranges in different
ways. The roll takes a table apart at its commas and looks for a range anywhere in a part; parts
without a range are passed over, and the sides may be written in any digits. The review wants every
part to be a range from its start on, and the sides to be written plainly, but lets labels go on
over the end of a line. Here each reader is told by the texts that it accepts, and so where they
differ.

- `GenderRange.text`, `rangeAt?_eq_some_iff`, `isSome_rangeIn?_iff`: ranges, and texts that hold
  one.
- `IsChanceText`, `IsShareText`, `IsTable`, `IsStrictTable`: the forms of rules.
- `decides_ofText?_iff`: the texts by which the roll decides.
- `isGenderForm_iff`: the texts that the review knows.
- `genderUnknown_iff`: where the review warns of a text that the roll reads, and where it does not
  warn of one that the roll does not read.
-/

namespace Kindred

open Kindred.Text Kindred.Number

/-! ### Rows of digits -/

theorem isDigits_iff {ds : List Char} :
    isDigits ds = true ↔ ds ≠ [] ∧ ∀ c ∈ ds, isDecimal c = true := by
  unfold isDigits
  rw [Bool.and_eq_true, Bool.not_eq_true', List.isEmpty_eq_false_iff, List.all_eq_true]

/-- What is no digit of any script ends a row of digits. -/
theorem spanDigits_cons {ds s : List Char} {c : Char} (hds : isDigits ds = true)
    (hc : isDecimal c = false) : spanDigits (ds ++ c :: s) = (ds, c :: s) :=
  span_append (isDigits_iff.mp hds).2 fun _ h => by cases h; exact hc

/-- A row of digits at the front of a text that is not empty is one. -/
theorem isDigits_of_span {s ds rest : List Char} (hne : ds ≠ []) (h : spanDigits s = (ds, rest)) :
    isDigits ds = true ∧ s = ds ++ rest := by
  obtain ⟨rfl, hds⟩ := append_of_span h
  exact ⟨isDigits_iff.mpr ⟨hne, hds⟩, rfl⟩

theorem newline_not_mem_of_isDigits {ds : List Char} (h : isDigits ds = true) : '\n' ∉ ds := by
  intro hmem
  have hdigit := (isDigits_iff.mp h).2 _ hmem
  revert hdigit
  decide

/-! ### Ranges -/

namespace GenderRange

/-- A range as it is written. -/
def text (r : GenderRange) : List Char := r.low ++ '-' :: (r.high ++ '=' :: r.label)

/-- Whether the bounds of a range are digits, and its label is there. -/
structure IsWritten (r : GenderRange) : Prop where
  low : isDigits r.low = true
  high : isDigits r.high = true
  label : r.label ≠ []

end GenderRange

/-- A range is read from a text exactly if it is written there. -/
theorem rangeAt?_eq_some_iff {s : List Char} {r : GenderRange} :
    rangeAt? s = some r ↔ r.IsWritten ∧ s = r.text := by
  constructor
  · intro h
    unfold rangeAt? at h
    split at h
    · cases h
    · next low s hlow hspan =>
      obtain ⟨hlow, rfl⟩ := isDigits_of_span hlow hspan
      split at h
      · cases h
      · next high c label hhigh hspan =>
        obtain ⟨hhigh, rfl⟩ := isDigits_of_span hhigh hspan
        cases h
        exact ⟨⟨hlow, hhigh, List.cons_ne_nil _ _⟩, rfl⟩
      · cases h
    · cases h
  · rintro ⟨⟨hlow, hhigh, hlabel⟩, rfl⟩
    obtain ⟨low, high, label⟩ := r
    obtain ⟨c, label, rfl⟩ := List.exists_cons_of_ne_nil hlabel
    obtain ⟨d, low, rfl⟩ := List.exists_cons_of_ne_nil (isDigits_iff.mp hlow).1
    obtain ⟨e, high, rfl⟩ := List.exists_cons_of_ne_nil (isDigits_iff.mp hhigh).1
    have hdash : isDecimal '-' = false := by decide
    have hequals : isDecimal '=' = false := by decide
    unfold rangeAt? GenderRange.text
    simp only [spanDigits_cons hlow hdash, spanDigits_cons hhigh hequals]

/-- A range is found in a text exactly if it stands somewhere in it and goes on to the end. -/
theorem isSome_rangeIn?_iff {s : List Char} :
    (rangeIn? s).isSome = true ↔ ∃ front r, r.IsWritten ∧ s = front ++ GenderRange.text r := by
  induction s with
  | nil =>
    refine ⟨nofun, ?_⟩
    rintro ⟨front, r, -, h⟩
    simp [GenderRange.text] at h
  | cons c s ih =>
    unfold rangeIn?
    rw [Option.orElse_eq_orElse, Option.orElse_eq_or, Option.isSome_or, Bool.or_eq_true, ih,
      Option.isSome_iff_exists]
    constructor
    · rintro (⟨r, hr⟩ | ⟨front, r, hr, rfl⟩)
      · obtain ⟨hr, hs⟩ := rangeAt?_eq_some_iff.mp hr
        exact ⟨[], r, hr, hs⟩
      · exact ⟨c :: front, r, hr, rfl⟩
    · rintro ⟨front, r, hr, hs⟩
      cases front with
      | nil => exact .inl ⟨r, rangeAt?_eq_some_iff.mpr ⟨hr, hs⟩⟩
      | cons d front =>
        obtain ⟨-, rfl⟩ := List.cons.inj hs
        exact .inr ⟨front, r, hr, rfl⟩

/-! ### Forms -/

/-- Whether a text is a decimal from zero to one, with digits behind the point if there is one. -/
def IsChanceText (s : List Char) : Prop :=
  (s = ['0'] ∨ s = ['1']) ∨ (∃ ds, isDigits ds = true ∧ s = '0' :: '.' :: ds) ∨
    ∃ k, s = '1' :: '.' :: List.replicate (k + 1) '0'

/-- Whether a text is two numbers with a dash between them. -/
def IsShareText (s : List Char) : Prop :=
  ∃ male female, isDigits male = true ∧ isDigits female = true ∧ s = male ++ '-' :: female

/-- Whether a text is a number of dice, a number of sides, and a colon with something behind it. -/
def IsDiceTable (count sides rest s : List Char) : Prop :=
  isDigits count = true ∧ isDigits sides = true ∧ rest ≠ [] ∧
    ∃ t, isLetter 'T' t = true ∧ s = count ++ t :: (sides ++ ':' :: rest)

/-- Whether a text on one line has dice with 6, 10 or 100 sides in front of parts between commas, of
which at least one has a range with a label in it. -/
def IsTable (s : List Char) : Prop :=
  ∃ count sides rest, IsDiceTable count sides rest s ∧ '\n' ∉ s ∧
    (digitsValue sides = 6 ∨ digitsValue sides = 10 ∨ digitsValue sides = 100) ∧
    ∃ part ∈ rest.splitOn ',', ∃ front r, r.IsWritten ∧ part = front ++ GenderRange.text r

/-- Whether a text has dice with sides that are written as 6, 10 or 100 in front of parts between
commas, each of which is a range with a label. -/
def IsStrictTable (s : List Char) : Prop :=
  ∃ count sides rest, IsDiceTable count sides rest s ∧
    (sides = ['6'] ∨ sides = ['1', '0'] ∨ sides = ['1', '0', '0']) ∧
    ∀ part ∈ rest.splitOn ',', ∃ r, r.IsWritten ∧ part = GenderRange.text r

theorem isChance_iff {s : List Char} : isChance s = true ↔ IsChanceText s := by
  unfold isChance IsChanceText
  split
  · next ds =>
    constructor
    · exact fun h => .inr (.inl ⟨ds, h, rfl⟩)
    · rintro ((h | h) | ⟨ds, hds, h⟩ | ⟨k, h⟩)
      · cases h
      · cases h
      · cases h
        exact hds
      · cases h
  · next ds =>
    rw [Bool.and_eq_true, Bool.not_eq_true', List.isEmpty_eq_false_iff, List.all_eq_true]
    constructor
    · rintro ⟨hne, hzeros⟩
      have hds := List.eq_replicate_of_mem fun c hc => beq_iff_eq.mp (hzeros c hc)
      refine .inr (.inr ⟨ds.length - 1, ?_⟩)
      have hpos := List.length_pos_of_ne_nil hne
      rw [show ds.length - 1 + 1 = ds.length by omega, ← hds]
    · rintro ((h | h) | ⟨ds, hds, h⟩ | ⟨k, h⟩)
      · cases h
      · cases h
      · cases h
      · cases h
        exact ⟨List.cons_ne_nil _ _, fun c hc => beq_iff_eq.mpr (List.eq_of_mem_replicate hc)⟩
  · next hzero hone =>
    rw [Bool.or_eq_true, beq_iff_eq, beq_iff_eq]
    refine ⟨.inl, ?_⟩
    rintro (h | ⟨ds, -, rfl⟩ | ⟨k, rfl⟩)
    · exact h
    · exact absurd rfl (hzero ds)
    · exact absurd rfl (hone _)

theorem shareOf?_eq_some_iff {s male : List Char} : shareOf? s = some male ↔
    isDigits male = true ∧ ∃ female, isDigits female = true ∧ s = male ++ '-' :: female := by
  constructor
  · intro h
    unfold shareOf? at h
    split at h
    · cases h
    · next male' female hne hspan =>
      obtain ⟨hmale, rfl⟩ := isDigits_of_span hne hspan
      split at h
      · next hfemale =>
        cases h
        exact ⟨hmale, female, hfemale, rfl⟩
      · cases h
    · cases h
  · rintro ⟨hmale, female, hfemale, rfl⟩
    obtain ⟨d, male, rfl⟩ := List.exists_cons_of_ne_nil (isDigits_iff.mp hmale).1
    unfold shareOf?
    simp only [spanDigits_cons hmale (show isDecimal '-' = false by decide), hfemale, if_true]

theorem isSome_shareOf?_iff {s : List Char} : (shareOf? s).isSome = true ↔ IsShareText s := by
  rw [Option.isSome_iff_exists]
  constructor
  · rintro ⟨male, h⟩
    obtain ⟨hmale, female, hfemale, hs⟩ := shareOf?_eq_some_iff.mp h
    exact ⟨male, female, hmale, hfemale, hs⟩
  · rintro ⟨male, female, hmale, hfemale, hs⟩
    exact ⟨male, shareOf?_eq_some_iff.mpr ⟨hmale, female, hfemale, hs⟩⟩

/-- The letter in front of the sides ends the count. -/
theorem isDecimal_of_isLetter_T {t : Char} (h : isLetter 'T' t = true) : isDecimal t = false :=
  (isWordChar_of_isLetter (by simp) h).2

theorem newline_mem_iff {count sides rest s : List Char} (h : IsDiceTable count sides rest s) :
    '\n' ∈ s ↔ '\n' ∈ rest := by
  obtain ⟨hcount, hsides, -, t, ht, rfl⟩ := h
  have ht : '\n' ≠ t := by
    rintro rfl
    revert ht
    decide
  simp [newline_not_mem_of_isDigits hcount, newline_not_mem_of_isDigits hsides, ht]

/-- Dice with a table are read from a text exactly if they are written there, on one line. -/
theorem tableOf?_eq_some_iff {s count sides rest : List Char} :
    tableOf? s = some (count, sides, rest) ↔ IsDiceTable count sides rest s ∧ '\n' ∉ s := by
  constructor
  · intro h
    unfold tableOf? at h
    split at h
    · cases h
    · next count' t s hcount hspan =>
      obtain ⟨hcount, rfl⟩ := isDigits_of_span hcount hspan
      split at h
      · cases h
      · next sides' c rest' hsides hspan =>
        obtain ⟨hsides, rfl⟩ := isDigits_of_span hsides hspan
        split at h
        · next hwritten =>
          obtain ⟨ht, hline⟩ := Bool.and_eq_true_iff.mp hwritten
          cases h
          have hdice : IsDiceTable count sides (c :: rest')
              (count ++ t :: (sides ++ ':' :: c :: rest')) :=
            ⟨hcount, hsides, List.cons_ne_nil _ _, t, ht, rfl⟩
          refine ⟨hdice, fun hmem => ?_⟩
          have hmem := (newline_mem_iff hdice).mp hmem
          simp [hmem] at hline
        · cases h
      · cases h
    · cases h
  · rintro ⟨hdice, hline⟩
    rw [newline_mem_iff hdice] at hline
    obtain ⟨hcount, hsides, hrest, t, ht, rfl⟩ := hdice
    obtain ⟨d, count, rfl⟩ := List.exists_cons_of_ne_nil (isDigits_iff.mp hcount).1
    obtain ⟨e, sides, rfl⟩ := List.exists_cons_of_ne_nil (isDigits_iff.mp hsides).1
    obtain ⟨c, rest, rfl⟩ := List.exists_cons_of_ne_nil hrest
    have hcolon : isDecimal ':' = false := by decide
    have hcontains : (c :: rest).contains '\n' = false := by simpa using hline
    unfold tableOf?
    simp only [spanDigits_cons hcount (isDecimal_of_isLetter_T ht), spanDigits_cons hsides hcolon,
      ht, hcontains, Bool.not_false, Bool.and_self, if_true]

/-! ### The review -/

theorem isLabelledRange_iff {s : List Char} :
    isLabelledRange s = true ↔ ∃ r, r.IsWritten ∧ s = GenderRange.text r := by
  unfold isLabelledRange
  simp only [Option.isSome_iff_exists, rangeAt?_eq_some_iff]

/-- The sides as the review wants them, with the colon behind them. -/
theorem any_plainSides_iff {p : List Char → Bool} {s : List Char} :
    (["6:", "10:", "100:"].any fun sides =>
      sides.toList.isPrefixOf s && p (s.drop sides.length)) = true ↔
    ∃ sides rest, (sides = ['6'] ∨ sides = ['1', '0'] ∨ sides = ['1', '0', '0']) ∧
      s = sides ++ ':' :: rest ∧ p rest = true := by
  have hsides : ∀ sides : List Char, (sides ++ [':']).isPrefixOf s = true ∧
      p (s.drop (sides.length + 1)) = true ↔ ∃ rest, s = sides ++ ':' :: rest ∧ p rest = true := by
    intro sides
    rw [List.isPrefixOf_iff_prefix]
    constructor
    · rintro ⟨⟨rest, rfl⟩, hp⟩
      refine ⟨rest, by simp, ?_⟩
      simpa using hp
    · rintro ⟨rest, rfl, hp⟩
      refine ⟨⟨rest, by simp⟩, ?_⟩
      simpa using hp
  simp only [List.any_cons, List.any_nil, Bool.or_false, Bool.or_eq_true, Bool.and_eq_true]
  constructor
  · rintro (h | h | h)
    · obtain ⟨rest, h⟩ := (hsides ['6']).mp h
      exact ⟨['6'], rest, .inl rfl, h⟩
    · obtain ⟨rest, h⟩ := (hsides ['1', '0']).mp h
      exact ⟨['1', '0'], rest, .inr (.inl rfl), h⟩
    · obtain ⟨rest, h⟩ := (hsides ['1', '0', '0']).mp h
      exact ⟨['1', '0', '0'], rest, .inr (.inr rfl), h⟩
  · rintro ⟨sides, rest, rfl | rfl | rfl, h⟩
    · exact .inl ((hsides ['6']).mpr ⟨rest, h⟩)
    · exact .inr (.inl ((hsides ['1', '0']).mpr ⟨rest, h⟩))
    · exact .inr (.inr ((hsides ['1', '0', '0']).mpr ⟨rest, h⟩))

theorem isRangeList_iff {s : List Char} : isRangeList s = true ↔ IsStrictTable s := by
  have hrest : ∀ {rest : List Char}, (∀ part ∈ rest.splitOn ',', ∃ r, r.IsWritten ∧
      part = GenderRange.text r) → rest ≠ [] := by
    rintro rest hparts rfl
    obtain ⟨r, -, hr⟩ := hparts [] (by simp)
    simp [GenderRange.text] at hr
  constructor
  · intro h
    unfold isRangeList at h
    split at h
    · cases h
    · next count t s hcount hspan =>
      obtain ⟨hcount, rfl⟩ := isDigits_of_span hcount hspan
      obtain ⟨ht, h⟩ := Bool.and_eq_true_iff.mp h
      obtain ⟨sides, rest, hsides, rfl, hparts⟩ :=
        (any_plainSides_iff (p := fun s => (s.splitOn ',').all isLabelledRange)).mp h
      have hparts := fun part hpart =>
        isLabelledRange_iff.mp (List.all_eq_true.mp hparts part hpart)
      have hdigits : isDigits sides = true := by
        rcases hsides with rfl | rfl | rfl <;> decide
      exact ⟨count, sides, rest, ⟨hcount, hdigits, hrest hparts, t, ht, rfl⟩, hsides, hparts⟩
    · cases h
  · rintro ⟨count, sides, rest, ⟨hcount, -, -, t, ht, rfl⟩, hsides, hparts⟩
    obtain ⟨d, count, rfl⟩ := List.exists_cons_of_ne_nil (isDigits_iff.mp hcount).1
    unfold isRangeList
    simp only [spanDigits_cons hcount (isDecimal_of_isLetter_T ht), ht, Bool.true_and]
    exact (any_plainSides_iff (p := fun s => (s.splitOn ',').all isLabelledRange)).mpr
      ⟨sides, rest, hsides, rfl, List.all_eq_true.mpr fun part hpart =>
        isLabelledRange_iff.mpr (hparts part hpart)⟩

/-- The review knows chances, shares and strict tables. -/
theorem isGenderForm_iff {formula : String} : isGenderForm formula = true ↔
    IsChanceText (trim formula.toList) ∨ IsShareText (trim formula.toList) ∨
      IsStrictTable (trim formula.toList) := by
  unfold isGenderForm
  simp only [Bool.or_eq_true, isChance_iff, isSome_shareOf?_iff, isRangeList_iff, or_assoc]

/-! ### The roll -/

/-- A numeral with a point and digits on both sides is read. -/
theorem isSome_ofText?_point {c : Char} (hc : c = '0' ∨ c = '1') {ds : List Char}
    (hds : isDigits ds = true) : (Decimal.ofText? (c :: '.' :: ds)).isSome = true := by
  have hsign : spanSign (c :: '.' :: ds) = (false, c :: '.' :: ds) := by
    rcases hc with rfl | rfl <;> rfl
  have hfront : isDigits [c] = true := by rcases hc with rfl | rfl <;> decide
  have hwhole : spanDigits (c :: '.' :: ds) = ([c], '.' :: ds) :=
    spanDigits_cons hfront (by decide)
  have hpart : spanDigits ds = (ds, []) := span_of_all (isDigits_iff.mp hds).2
  unfold Decimal.ofText?
  simp only [hsign, hwhole, hpart]
  rfl

/-- A chance is a numeral. -/
theorem isSome_floatOfText? {s : List Char} (h : IsChanceText s) :
    (floatOfText? s).isSome = true := by
  have hsome : (Decimal.ofText? s).isSome = true := by
    rcases h with (rfl | rfl) | ⟨ds, hds, rfl⟩ | ⟨k, rfl⟩
    · rfl
    · rfl
    · exact isSome_ofText?_point (.inl rfl) hds
    · exact isSome_ofText?_point (.inr rfl)
        (isDigits_of_isDigit (List.cons_ne_nil _ _) fun c hc => isDigit_of_mem_zeros hc)
  obtain ⟨d, hd⟩ := Option.isSome_iff_exists.mp hsome
  simp [floatOfText?, hd]

namespace GenderRule

/-- Whether a rule has a say about genders: it is a chance or a share, or it has ranges, and dice of
which the sides are known. -/
def Decides : GenderRule → Prop
  | chance _ => True
  | share _ => True
  | ranges _ sides table =>
    (digitsValue sides = 6 ∨ digitsValue sides = 10 ∨ digitsValue sides = 100) ∧ table ≠ []

end GenderRule

/-- Whether a gender is drawn by a text as it is written, blanks around it aside. -/
def IsGenderRule (formula : String) : Prop :=
  IsChanceText (trim formula.toList) ∨ IsShareText (trim formula.toList) ∨
    IsTable (trim formula.toList)

/-- The roll of a gender decides by chances, shares and tables. -/
theorem decides_ofText?_iff {formula : String} :
    (∃ rule, GenderRule.ofText? formula = some rule ∧ rule.Decides) ↔ IsGenderRule formula := by
  unfold GenderRule.ofText? IsGenderRule
  generalize trim formula.toList = s
  dsimp only
  rw [← isChance_iff, ← isSome_shareOf?_iff]
  cases hchance : isChance s with
  | true =>
    obtain ⟨male, hmale⟩ :=
      Option.isSome_iff_exists.mp (isSome_floatOfText? (isChance_iff.mp hchance))
    rw [if_pos rfl, hmale]
    exact ⟨fun _ => .inl rfl, fun _ => ⟨.chance male, rfl, trivial⟩⟩
  | false =>
    rw [if_neg Bool.false_ne_true]
    cases hshare : shareOf? s with
    | some male => exact ⟨fun _ => .inr (.inl rfl), fun _ => ⟨.share male, rfl, trivial⟩⟩
    | none =>
      -- a table of which no part holds a range is left without ranges
      have hranges : ∀ rest : List Char, (rest.splitOn ',').filterMap rangeIn? ≠ [] ↔
          ∃ part ∈ rest.splitOn ',', ∃ front r, r.IsWritten ∧
            part = front ++ GenderRange.text r := by
        intro rest
        simp only [ne_eq, List.filterMap_eq_nil_iff, not_forall, ← isSome_rangeIn?_iff,
          Option.ne_none_iff_isSome, exists_prop]
      constructor
      · rintro ⟨rule, hrule, hdecides⟩
        obtain ⟨⟨count, sides, rest⟩, htable, rfl⟩ := Option.map_eq_some_iff.mp hrule
        obtain ⟨hdice, hline⟩ := tableOf?_eq_some_iff.mp htable
        obtain ⟨hsides, hparts⟩ := hdecides
        exact .inr (.inr ⟨count, sides, rest, hdice, hline, hsides, (hranges rest).mp hparts⟩)
      · rintro (h | h | ⟨count, sides, rest, hdice, hline, hsides, hparts⟩)
        · cases h
        · cases h
        · have htable := tableOf?_eq_some_iff.mpr ⟨hdice, hline⟩
          rw [htable]
          exact ⟨_, rfl, hsides, (hranges rest).mpr hparts⟩

/-! ### Where they differ -/

theorem newline_not_mem_of_isGenderRule {formula : String} (h : IsGenderRule formula) :
    '\n' ∉ trim formula.toList := by
  rcases h with ((h | h) | ⟨ds, hds, h⟩ | ⟨k, h⟩) | ⟨male, female, hmale, hfemale, h⟩ |
    ⟨count, sides, rest, -, hline, -⟩
  · rw [h]; decide
  · rw [h]; decide
  · rw [h]
    simp [newline_not_mem_of_isDigits hds]
  · rw [h]
    simp
  · rw [h]
    simp [newline_not_mem_of_isDigits hmale, newline_not_mem_of_isDigits hfemale]
  · exact hline

/-- A strict table on one line is a table. -/
theorem IsStrictTable.isTable {s : List Char} (h : IsStrictTable s) (hline : '\n' ∉ s) :
    IsTable s := by
  obtain ⟨count, sides, rest, hdice, hsides, hparts⟩ := h
  refine ⟨count, sides, rest, hdice, hline, ?_, ?_⟩
  · rcases hsides with rfl | rfl | rfl <;> decide
  · obtain ⟨part, hpart⟩ := List.exists_mem_of_ne_nil _ (List.splitOn_ne_nil ',' rest)
    obtain ⟨r, hr, htext⟩ := hparts part hpart
    exact ⟨part, hpart, [], r, hr, htext⟩

/-- What the review knows and the roll does not read are strict tables of more than one line. -/
theorem isGenderForm_and_not_isGenderRule_iff {formula : String} :
    isGenderForm formula = true ∧ ¬ IsGenderRule formula ↔
      IsStrictTable (trim formula.toList) ∧ '\n' ∈ trim formula.toList := by
  rw [isGenderForm_iff]
  constructor
  · rintro ⟨h | h | h, hrule⟩
    · exact absurd (.inl h) hrule
    · exact absurd (.inr (.inl h)) hrule
    · refine ⟨h, Classical.byContradiction fun hline => hrule ?_⟩
      exact .inr (.inr (h.isTable hline))
  · rintro ⟨h, hline⟩
    exact ⟨.inr (.inr h), fun hrule => newline_not_mem_of_isGenderRule hrule hline⟩

theorem IsChanceText.of_mem {s : List Char} (h : IsChanceText s) {c : Char} (hc : c ∈ s) :
    isDecimal c = true ∨ c = '.' := by
  rcases h with (rfl | rfl) | ⟨ds, hds, rfl⟩ | ⟨k, rfl⟩
  · rw [List.mem_singleton.mp hc]
    decide
  · rw [List.mem_singleton.mp hc]
    decide
  · rcases List.mem_cons.mp hc with rfl | hc
    · decide
    · exact (List.mem_cons.mp hc).symm.imp_left ((isDigits_iff.mp hds).2 c)
  · rcases List.mem_cons.mp hc with rfl | hc
    · decide
    · refine (List.mem_cons.mp hc).symm.imp_left fun hc => ?_
      rw [List.eq_of_mem_replicate hc]
      decide

theorem IsShareText.of_mem {s : List Char} (h : IsShareText s) {c : Char} (hc : c ∈ s) :
    isDecimal c = true ∨ c = '-' := by
  obtain ⟨male, female, hmale, hfemale, rfl⟩ := h
  rcases List.mem_append.mp hc with hc | hc
  · exact .inl ((isDigits_iff.mp hmale).2 c hc)
  · exact (List.mem_cons.mp hc).symm.imp_left ((isDigits_iff.mp hfemale).2 c)

/-- The letter in front of the sides tells a table from the other forms. -/
theorem IsDiceTable.not_isChanceText {count sides rest s : List Char}
    (h : IsDiceTable count sides rest s) : ¬ IsChanceText s := by
  intro hchance
  obtain ⟨-, -, -, t, ht, rfl⟩ := h
  rcases hchance.of_mem (c := t) (by simp) with hdigit | rfl
  · rw [isDecimal_of_isLetter_T ht] at hdigit
    cases hdigit
  · revert ht
    decide

theorem IsDiceTable.not_isShareText {count sides rest s : List Char}
    (h : IsDiceTable count sides rest s) : ¬ IsShareText s := by
  intro hshare
  obtain ⟨-, -, -, t, ht, rfl⟩ := h
  rcases hshare.of_mem (c := t) (by simp) with hdigit | rfl
  · rw [isDecimal_of_isLetter_T ht] at hdigit
    cases hdigit
  · revert ht
    decide

/-- What the roll reads and the review does not know are tables that are not strict. -/
theorem not_isGenderForm_and_isGenderRule_iff {formula : String} :
    isGenderForm formula = false ∧ IsGenderRule formula ↔
      IsTable (trim formula.toList) ∧ ¬ IsStrictTable (trim formula.toList) := by
  rw [← Bool.not_eq_true, isGenderForm_iff]
  constructor
  · rintro ⟨hform, h | h | h⟩
    · exact absurd (.inl h) hform
    · exact absurd (.inr (.inl h)) hform
    · exact ⟨h, fun hstrict => hform (.inr (.inr hstrict))⟩
  · rintro ⟨h, hstrict⟩
    refine ⟨?_, .inr (.inr h)⟩
    obtain ⟨count, sides, rest, hdice, -⟩ := h
    rintro (hchance | hshare | hform)
    · exact hdice.not_isChanceText hchance
    · exact hdice.not_isShareText hshare
    · exact hstrict hform

/-! ### The warning -/

/-- Whether findings hold the warning that a text is no form of a gender rule. -/
def WarnsOfGender (formula : String) (found : List Finding) : Prop :=
  ∃ place, Finding.genderUnknown place formula ∈ found

/-- A formula that is tried leaves no finding about genders. -/
theorem genderUnknown_not_mem_formulaFindings {label formula text : String} {d : Dialect}
    {found : List Finding} (h : formulaFindings label d formula = .ok found) (place : String) :
    Finding.genderUnknown place text ∉ found := by
  obtain ⟨verdict, -, h⟩ := except_bind_ok_iff.mp h
  cases verdict with
  | none =>
    cases h
    exact List.not_mem_nil
  | some why =>
    cases h
    intro hmem
    cases List.mem_singleton.mp hmem

/-- The review warns of the texts of which it knows no form. -/
theorem warnsOfGender_iff {label : String} {rules : SiblingRules} {found : List Finding}
    (h : siblingFindings label rules = .ok found) :
    WarnsOfGender rules.gender found ↔ isGenderForm rules.gender = false := by
  obtain ⟨tried, rfl, htried⟩ := siblingFindings_ok h
  constructor
  · rintro ⟨place, hmem⟩
    rcases List.mem_append.mp hmem with hmem | hmem
    · obtain ⟨_, _, _, _, hfound, hmem⟩ := htried _ hmem
      exact absurd hmem (genderUnknown_not_mem_formulaFindings hfound place)
    · split at hmem
      · cases hmem
      · next hform => exact Bool.not_eq_true _ ▸ hform
  · intro hform
    refine ⟨label ++ ".genderFormula", List.mem_append_right _ ?_⟩
    rw [if_neg (by rw [hform]; exact Bool.false_ne_true)]
    exact List.mem_singleton_self _

/-- Where the warning and the roll disagree. The roll decides by chances, shares, and tables in
which a part holds a range. The review keeps silent about a text that the roll does not read exactly
for a strict table of more than one line, and it warns of a text that the roll reads exactly for a
table that is not strict. -/
theorem genderUnknown_iff {label : String} {rules : SiblingRules} {found : List Finding}
    (h : siblingFindings label rules = .ok found) :
    ((∃ rule, GenderRule.ofText? rules.gender = some rule ∧ rule.Decides) ↔
      IsGenderRule rules.gender) ∧
    (¬ WarnsOfGender rules.gender found ∧ ¬ IsGenderRule rules.gender ↔
      IsStrictTable (trim rules.gender.toList) ∧ '\n' ∈ trim rules.gender.toList) ∧
    (WarnsOfGender rules.gender found ∧ IsGenderRule rules.gender ↔
      IsTable (trim rules.gender.toList) ∧ ¬ IsStrictTable (trim rules.gender.toList)) := by
  refine ⟨decides_ofText?_iff, ?_, ?_⟩
  · rw [warnsOfGender_iff h, Bool.not_eq_false]
    exact isGenderForm_and_not_isGenderRule_iff
  · rw [warnsOfGender_iff h]
    exact not_isGenderForm_and_isGenderRule_iff

/-- Rules without dice for the number and the ages of siblings. -/
def plainRules (gender : String) : SiblingRules :=
  { litters := "1", olderAge := "characterAge", youngerAge := "characterAge", gender }

theorem genderUnknown_sample :
    siblingFindings "r" (plainRules "1T10:1-10=male,x") =
      .ok [.genderUnknown "r.genderFormula" "1T10:1-10=male,x"] ∧
    IsTable (trim "1T10:1-10=male,x".toList) ∧
    ¬ IsStrictTable (trim "1T10:1-10=male,x".toList) := by
  have h : siblingFindings "r" (plainRules "1T10:1-10=male,x") =
      .ok [.genderUnknown "r.genderFormula" "1T10:1-10=male,x"] := rfl
  obtain ⟨hreads, -, hdiffer⟩ := genderUnknown_iff h
  have hread : IsGenderRule "1T10:1-10=male,x" :=
    hreads.mp ⟨_, rfl, .inr (.inl rfl), List.cons_ne_nil _ _⟩
  exact ⟨h, hdiffer.mp ⟨⟨_, List.mem_singleton_self _⟩, hread⟩⟩

/-- The warning does not match the roll. A part without a range spoils a list for the review, but
not for the roll; a label of two lines spoils it for the roll, but not for the review. -/
theorem warnsOfGender_differs :
    ¬ (∀ label rules found, siblingFindings label rules = .ok found →
      (¬ WarnsOfGender rules.gender found → IsGenderRule rules.gender)) ∧
    ¬ (∀ label rules found, siblingFindings label rules = .ok found →
      (IsGenderRule rules.gender → ¬ WarnsOfGender rules.gender found)) := by
  constructor
  · intro hall
    have h : siblingFindings "r" (plainRules "1T6:1-6=a\nb") = .ok [] := rfl
    have hrule := hall _ _ _ h fun ⟨_, hmem⟩ => List.not_mem_nil hmem
    exact newline_not_mem_of_isGenderRule hrule (List.contains_iff_mem.mp rfl)
  · intro hall
    have h : siblingFindings "r" (plainRules "1T10:1-10=male,x") =
        .ok [.genderUnknown "r.genderFormula" "1T10:1-10=male,x"] := rfl
    have hrule : IsGenderRule "1T10:1-10=male,x" :=
      decides_ofText?_iff.mp ⟨_, rfl, .inr (.inl rfl), List.cons_ne_nil _ _⟩
    exact hall _ _ _ h hrule ⟨_, List.mem_singleton_self _⟩

end Kindred
