import Kindred.Proofs.Dice.Rolled
import Kindred.Proofs.Record.Tame
import Kindred.Proofs.Sibling.GenderForms

/-!
# Genders by ranges of totals

A table of labelled ranges, as somebody would write it down: dice, and entries with two bounds and a
label, between commas. What is written is read back entry by entry, although labels may hold digits,
dashes and equals signs of their own, and blanks behind the last label are lost with the blanks
around the text. So the dice decide as the entries say: the first entry that holds their total gives
the gender, and where no entry does, it is an even chance.

- `LabelledRange`, `tableText`: an entry, and dice with their entries as they are written.
- `ofText?_table`: the entries that are read back.
- `labelOf_of_first`, `labelOf_of_none`: the entry that decides.
- `drawGender_tableText`: the gender that the dice decide on.
-/

namespace Kindred

open Kindred.Text Kindred.Json

/-! ### Entries -/

/-- An entry of a table: the bounds of a range, and its label. -/
structure LabelledRange where
  low : Nat
  high : Nat
  label : String
deriving DecidableEq, Repr

namespace LabelledRange

/-- An entry with its bounds as digits. -/
def range (e : LabelledRange) : GenderRange := ⟨natText e.low, natText e.high, e.label.toList⟩

/-- Whether the label of an entry is more than blanks, and one line without commas. -/
structure IsPlain (e : LabelledRange) : Prop where
  label : isBlankString e.label = false
  comma : ',' ∉ e.label.toList
  line : '\n' ∉ e.label.toList

/-- Whether an entry holds a total. -/
def Holds (e : LabelledRange) (total : Int) : Prop := e.low ≤ total ∧ total ≤ e.high

instance (e : LabelledRange) (total : Int) : Decidable (e.Holds total) :=
  inferInstanceAs (Decidable (_ ∧ _))

/-- Whether the bounds that a total is compared with are not too long to be read. The upper one is
only looked at from the lower one on. -/
def IsReadable (e : LabelledRange) (total : Int) : Prop :=
  Short e.low ∧ (e.low ≤ total → Short e.high)

end LabelledRange

namespace GenderRange

/-- Whether a range stays one part of a list that is taken apart at its commas, and its label is
more than blanks. -/
structure IsEntry (r : GenderRange) : Prop where
  low : isDigits r.low = true
  high : isDigits r.high = true
  label : isBlankText r.label = false
  comma : ',' ∉ r.label
  line : '\n' ∉ r.label

/-- Ranges between commas. -/
def listText (rs : List GenderRange) : List Char := [','].intercalate (rs.map text)

end GenderRange

/-- Dice and labelled ranges as they are written. -/
def tableText (count sides : Nat) (entries : List LabelledRange) : String :=
  String.ofList (natText count ++ 'T' :: (natText sides ++
    ':' :: GenderRange.listText (entries.map LabelledRange.range)))

/-! ### Lists of ranges -/

namespace GenderRange

variable {r : GenderRange} {rs : List GenderRange}

theorem IsEntry.isWritten (h : r.IsEntry) : r.IsWritten := by
  refine ⟨h.low, h.high, fun hnil => ?_⟩
  have hlabel := h.label
  rw [hnil] at hlabel
  cases hlabel

theorem IsEntry.not_mem_text (h : r.IsEntry) {c : Char} (hdigit : isDecimal c = false)
    (hdash : c ≠ '-') (hequals : c ≠ '=') (hlabel : c ∉ r.label) : c ∉ r.text := by
  have hdigits : ∀ {ds : List Char}, isDigits ds = true → c ∉ ds := by
    intro ds hds hmem
    rw [(isDigits_iff.mp hds).2 c hmem] at hdigit
    cases hdigit
  simp [text, hdigits h.low, hdigits h.high, hdash, hequals, hlabel]

/-- A range at the front of a text is the first one in it. -/
theorem rangeIn?_text (h : r.IsWritten) : rangeIn? r.text = some r := by
  have hat : rangeAt? r.text = some r := rangeAt?_eq_some_iff.mpr ⟨h, rfl⟩
  obtain ⟨c, s, hs⟩ : ∃ c s, r.text = c :: s := by
    refine List.exists_cons_of_ne_nil fun hnil => ?_
    rw [hnil] at hat
    cases hat
  rw [hs] at hat ⊢
  unfold rangeIn?
  rw [hat]
  rfl

theorem filterMap_rangeIn? (h : ∀ r ∈ rs, r.IsWritten) : (rs.map text).filterMap rangeIn? = rs := by
  induction rs with
  | nil => rfl
  | cons r rs ih =>
    obtain ⟨hr, hrs⟩ := List.forall_mem_cons.mp h
    rw [List.map_cons, List.filterMap_cons, rangeIn?_text hr, ih hrs]

theorem listText_cons_cons (r s : GenderRange) (rs : List GenderRange) :
    listText (r :: s :: rs) = r.text ++ ',' :: listText (s :: rs) :=
  List.intercalate_cons_cons.trans (List.append_assoc _ _ _)

/-- Ranges between commas are found again. -/
theorem splitOn_listText (hne : rs ≠ []) (h : ∀ r ∈ rs, r.IsEntry) :
    (listText rs).splitOn ',' = rs.map text := by
  refine List.splitOn_intercalate ',' (fun s hs => ?_) (by simpa using hne)
  obtain ⟨r, hr, rfl⟩ := List.mem_map.mp hs
  exact (h r hr).not_mem_text (by decide) (by decide) (by decide) (h r hr).comma

theorem newline_not_mem_listText (h : ∀ r ∈ rs, r.IsEntry) : '\n' ∉ listText rs := by
  induction rs with
  | nil => exact List.not_mem_nil
  | cons r rs ih =>
    obtain ⟨hr, hrs⟩ := List.forall_mem_cons.mp h
    have hline := hr.not_mem_text (by decide) (by decide) (by decide) hr.line
    cases rs with
    | nil => simpa [listText] using hline
    | cons s rs =>
      rw [listText_cons_cons]
      simp [hline, ih hrs]

/-! ### The blanks behind the last label -/

/-- A range without the blanks behind its label. -/
def tidy (r : GenderRange) : GenderRange := { r with label := dropBlanksRight r.label }

/-- Ranges without the blanks behind the last label. -/
def tidyLast : List GenderRange → List GenderRange
  | [] => []
  | [r] => [r.tidy]
  | r :: s :: rs => r :: tidyLast (s :: rs)

theorem IsEntry.tidy (h : r.IsEntry) : r.tidy.IsEntry := by
  have hsub := (dropBlanksRight_isPrefix r.label).subset
  refine ⟨h.low, h.high, ?_, fun hmem => h.comma (hsub hmem), fun hmem => h.line (hsub hmem)⟩
  exact (isBlankText_dropBlanksRight _).trans h.label

theorem isEntry_tidyLast (h : ∀ r ∈ rs, r.IsEntry) : ∀ r ∈ tidyLast rs, r.IsEntry := by
  induction rs using tidyLast.induct with
  | case1 => exact h
  | case2 r => exact List.forall_mem_singleton.mpr (h r List.mem_cons_self).tidy
  | case3 r s rs ih =>
    obtain ⟨hr, hrs⟩ := List.forall_mem_cons.mp h
    exact List.forall_mem_cons.mpr ⟨hr, ih hrs⟩

theorem tidyLast_ne_nil (h : rs ≠ []) : tidyLast rs ≠ [] := by
  cases rs using tidyLast.induct with
  | case1 => exact absurd rfl h
  | case2 r => exact List.cons_ne_nil _ _
  | case3 r s rs ih => exact List.cons_ne_nil _ _

/-- Blanks at the end of a list of ranges are those behind its last label. -/
theorem dropBlanksRight_listText (hne : rs ≠ []) (h : ∀ r ∈ rs, r.IsEntry) (front : List Char) :
    dropBlanksRight (front ++ listText rs) = front ++ listText (tidyLast rs) := by
  induction rs using tidyLast.induct generalizing front with
  | case1 => exact absurd rfl hne
  | case2 r =>
    have htext : ∀ label : List Char, front ++ listText [{ r with label := label }] =
        front ++ (r.low ++ '-' :: (r.high ++ ['='])) ++ label := by
      intro label
      simp [listText, text]
    refine (congrArg dropBlanksRight (htext r.label)).trans ?_
    rw [dropBlanksRight_append (h r List.mem_cons_self).label]
    exact (htext _).symm
  | case3 r s rs ih =>
    obtain ⟨-, hrs⟩ := List.forall_mem_cons.mp h
    have htext : ∀ t : List Char,
        front ++ (r.text ++ ',' :: t) = front ++ (r.text ++ [',']) ++ t := by
      intro t
      simp
    rw [listText_cons_cons, htext, ih (List.cons_ne_nil _ _) hrs, ← htext]
    cases rs with
    | nil => exact congrArg _ (listText_cons_cons _ _ _).symm
    | cons t rs => exact congrArg _ (listText_cons_cons _ _ _).symm

/-- The blanks behind the last label do not matter, as labels are given without blanks. -/
theorem labelOf_tidyLast (total : Int) (rs : List GenderRange) :
    labelOf total (tidyLast rs) = labelOf total rs := by
  induction rs using tidyLast.induct with
  | case1 => rfl
  | case2 r =>
    unfold tidyLast labelOf
    show (r.holds total >>= fun held => if held = true then
      pure (some (String.ofList (trim (dropBlanksRight r.label)))) else _) = _
    rw [trim_dropBlanksRight]
  | case3 r s rs ih =>
    unfold tidyLast labelOf
    rw [ih]

end GenderRange

/-! ### Reading a table back -/

/-- Dice and entries are read back, up to the blanks behind the last label. -/
theorem ofText?_table {count sides : List Char} (hcount : isDigits count = true)
    (hsides : isDigits sides = true) {rs : List GenderRange} (hne : rs ≠ [])
    (h : ∀ r ∈ rs, r.IsEntry) :
    GenderRule.ofText? (String.ofList (count ++ 'T' :: (sides ++ ':' :: GenderRange.listText rs))) =
      some (.ranges count sides (GenderRange.tidyLast rs)) := by
  have htidy := GenderRange.isEntry_tidyLast h
  have hne' := GenderRange.tidyLast_ne_nil hne
  have hword : IsWord count := ⟨(isDigits_iff.mp hcount).1, fun c hc =>
    isWordChar_of_isDecimal ((isDigits_iff.mp hcount).2 c hc)⟩
  have htrim : trim (count ++ 'T' :: (sides ++ ':' :: GenderRange.listText rs)) =
      count ++ 'T' :: (sides ++ ':' :: GenderRange.listText (GenderRange.tidyLast rs)) := by
    have hfront : ∀ t : List Char, 'T' :: (sides ++ ':' :: t) = 'T' :: (sides ++ [':']) ++ t := by
      intro t
      simp
    refine (trim_append hword [] _).trans ?_
    rw [hfront, GenderRange.dropBlanksRight_listText hne h, ← hfront]
    rfl
  have hlist : GenderRange.listText (GenderRange.tidyLast rs) ≠ [] := by
    intro hnil
    have hsplit := GenderRange.splitOn_listText hne' htidy
    rw [hnil] at hsplit
    obtain ⟨r, rest, hrs⟩ := List.exists_cons_of_ne_nil hne'
    rw [hrs] at hsplit
    have htext : [] = r.text := (List.cons.inj hsplit).1
    simp [GenderRange.text] at htext
  have hdice : IsDiceTable count sides (GenderRange.listText (GenderRange.tidyLast rs))
      (count ++ 'T' :: (sides ++ ':' :: GenderRange.listText (GenderRange.tidyLast rs))) :=
    ⟨hcount, hsides, hlist, 'T', rfl, rfl⟩
  have hline : '\n' ∉ count ++
      'T' :: (sides ++ ':' :: GenderRange.listText (GenderRange.tidyLast rs)) :=
    fun hmem => GenderRange.newline_not_mem_listText htidy ((newline_mem_iff hdice).mp hmem)
  have hchance := mt isChance_iff.mp hdice.not_isChanceText
  have hshare := mt isSome_shareOf?_iff.mp hdice.not_isShareText
  unfold GenderRule.ofText?
  rw [String.toList_ofList, htrim]
  dsimp only
  rw [if_neg hchance, Option.not_isSome_iff_eq_none.mp hshare,
    tableOf?_eq_some_iff.mpr ⟨hdice, hline⟩]
  dsimp only [Option.map_some]
  rw [GenderRange.splitOn_listText hne' htidy,
    GenderRange.filterMap_rangeIn? fun r hr => (htidy r hr).isWritten]

/-! ### The entry that decides -/

theorem isDigits_natText (n : Nat) : isDigits (natText n) = true :=
  isDigits_of_isDigit (natText_ne_nil n) fun _ => isDigit_of_mem_natText

theorem readNumeral_natText {n : Nat} (h : Short n) : readNumeral (natText n) = .ok n := by
  have hlength : (natText n).length ≤ longestNumeral := h
  rw [readNumeral_of_length_le hlength, digitsValue_natText]

theorem readNumeral_natText_of_not_short {n : Nat} (h : ¬ Short n) :
    readNumeral (natText n) = .error (.numeralTooLong (natText n).length) :=
  if_pos (Nat.lt_of_not_le h)

namespace LabelledRange

variable {e : LabelledRange} {total : Int} {before after entries : List LabelledRange}

theorem IsPlain.isEntry_range (h : e.IsPlain) : e.range.IsEntry :=
  ⟨isDigits_natText _, isDigits_natText _, h.label, h.comma, h.line⟩

theorem holds_range (h : e.IsReadable total) :
    e.range.holds total = .ok (decide (e.Holds total)) := by
  unfold GenderRange.holds range
  rw [readNumeral_natText h.1]
  show (if (e.low : Int) ≤ total then _ else _) = _
  by_cases hlow : (e.low : Int) ≤ total
  · have hholds : decide (e.Holds total) = decide (total ≤ e.high) := by simp [Holds, hlow]
    rw [if_pos hlow, readNumeral_natText (h.2 hlow), hholds]
    rfl
  · rw [if_neg hlow, decide_eq_false fun hholds : e.Holds total => hlow hholds.1]
    rfl

/-- A bound that is too long ends the look-up. -/
theorem exists_holds_range_error (h : ¬ e.IsReadable total) :
    ∃ n, e.range.holds total = .error (.numeralTooLong n) := by
  unfold GenderRange.holds range
  by_cases hlow : Short e.low
  · have hle : (e.low : Int) ≤ total ∧ ¬ Short e.high := by
      simpa [IsReadable, hlow] using h
    rw [readNumeral_natText hlow, readNumeral_natText_of_not_short hle.2]
    refine ⟨(natText e.high).length, ?_⟩
    show (if (e.low : Int) ≤ total then _ else _) = _
    rw [if_pos hle.1]
    rfl
  · rw [readNumeral_natText_of_not_short hlow]
    exact ⟨_, rfl⟩

/-- Entries that do not hold a total are passed over. -/
theorem labelOf_append (h : ∀ b ∈ before, b.IsReadable total ∧ ¬ b.Holds total)
    (rs : List GenderRange) : labelOf total (before.map range ++ rs) = labelOf total rs := by
  induction before with
  | nil => rfl
  | cons b before ih =>
    obtain ⟨⟨hreadable, hnot⟩, h⟩ := List.forall_mem_cons.mp h
    rw [List.map_cons, List.cons_append, labelOf, holds_range hreadable, decide_eq_false hnot]
    exact ih h

theorem labelOf_of_first (h : ∀ b ∈ before, b.IsReadable total ∧ ¬ b.Holds total)
    (he : e.IsReadable total) (hholds : e.Holds total) :
    labelOf total ((before ++ e :: after).map range) = .ok (some (trimmed e.label)) := by
  rw [List.map_append, labelOf_append h, List.map_cons, labelOf, holds_range he,
    decide_eq_true hholds]
  rfl

theorem labelOf_of_none (h : ∀ e ∈ entries, e.IsReadable total ∧ ¬ e.Holds total) :
    labelOf total (entries.map range) = .ok none := by
  rw [← List.append_nil (entries.map range), labelOf_append h]
  rfl

theorem exists_labelOf_error (after : List LabelledRange)
    (h : ∀ b ∈ before, b.IsReadable total ∧ ¬ b.Holds total) (he : ¬ e.IsReadable total) :
    ∃ n, labelOf total ((before ++ e :: after).map range) = .error (.numeralTooLong n) := by
  obtain ⟨n, hn⟩ := exists_holds_range_error he
  refine ⟨n, ?_⟩
  rw [List.map_append, labelOf_append h, List.map_cons, labelOf, hn]
  rfl

end LabelledRange

/-! ### The roll -/

section Roll

variable {σ : Type} {src : Source σ} {w w₁ : World σ} {count sides : Nat}
  {table : List GenderRange} {rolls : List Int}

theorem byRanges_of_label (hsides : sides = 6 ∨ sides = 10 ∨ sides = 100)
    (hrolls : dice count sides src w = .ok rolls w₁) {label : String}
    (hlabel : labelOf (totalOf rolls) table = .ok (some label)) :
    byRanges count sides table src w = .ok label w₁ := by
  unfold byRanges
  rw [if_pos hsides]
  refine bind_ok_iff.mpr ⟨rolls, w₁, hrolls, ?_⟩
  exact bind_ok_iff.mpr ⟨_, w₁, Roll.ofExcept_ok_iff.mpr ⟨hlabel, rfl⟩, rfl⟩

/-- Where no label is found, the chance is even. -/
theorem byRanges_of_none (hsides : sides = 6 ∨ sides = 10 ∨ sides = 100)
    (hrolls : dice count sides src w = .ok rolls w₁)
    (hlabel : labelOf (totalOf rolls) table = .ok none) :
    byRanges count sides table src w = byChance 0.5 src w₁ := by
  unfold byRanges
  rw [if_pos hsides, run_bind, hrolls]
  dsimp only
  rw [run_bind, Roll.ofExcept_ok_iff.mpr ⟨hlabel, rfl⟩]

theorem byRanges_of_error (hsides : sides = 6 ∨ sides = 10 ∨ sides = 100)
    (hrolls : dice count sides src w = .ok rolls w₁) {e : Fault}
    (hlabel : labelOf (totalOf rolls) table = .error e) :
    byRanges count sides table src w = .error e w₁ := by
  unfold byRanges
  rw [if_pos hsides]
  refine bind_error_iff.mpr (.inr ⟨rolls, w₁, hrolls, ?_⟩)
  exact bind_error_iff.mpr (.inl (Roll.ofExcept_error_iff.mpr ⟨hlabel, rfl⟩))

theorem draw_ranges (hcount : Short count) (hsides : Short sides) (table : List GenderRange) :
    (GenderRule.draw (.ranges (natText count) (natText sides) table) : Roll σ String) =
      byRanges count sides table := by
  show (do
    let count ← Roll.ofExcept (readNumeral (natText count))
    let sides ← Roll.ofExcept (readNumeral (natText sides))
    byRanges count sides table : Roll σ String) = _
  rw [readNumeral_natText hcount, readNumeral_natText hsides]
  rfl

/-- A table is rolled as its entries say. -/
theorem drawGender_eq_byRanges (hcount : Short count)
    (hsides : sides = 6 ∨ sides = 10 ∨ sides = 100) {entries : List LabelledRange}
    (hne : entries ≠ []) (h : ∀ e ∈ entries, e.IsPlain) :
    (drawGender (tableText count sides entries) : Roll σ String) =
      byRanges count sides (GenderRange.tidyLast (entries.map LabelledRange.range)) := by
  have hentries : ∀ r ∈ entries.map LabelledRange.range, r.IsEntry := by
    intro r hr
    obtain ⟨e, he, rfl⟩ := List.mem_map.mp hr
    exact (h e he).isEntry_range
  have hrule := ofText?_table (isDigits_natText count) (isDigits_natText sides)
    (mt List.map_eq_nil_iff.mp hne) hentries
  have hshort : Short sides := by
    rcases hsides with rfl | rfl | rfl <;> decide
  unfold drawGender tableText
  rw [hrule]
  exact draw_ranges hcount hshort _

/-- Dice that decide on a gender. They are rolled in any case. The first entry that holds their
total gives the gender, and nothing else is drawn; where no entry does, one fraction is drawn for an
even chance. Only bounds that the total is compared with have to be short enough to be read. -/
theorem drawGender_tableText (hcount : Short count)
    (hsides : sides = 6 ∨ sides = 10 ∨ sides = 100) {entries : List LabelledRange}
    (hne : entries ≠ []) (h : ∀ e ∈ entries, e.IsPlain) (src : Source σ) (w : World σ) :
    ∃ rolls w₁, dice count sides src w = .ok rolls w₁ ∧
      (∀ before e after, entries = before ++ e :: after →
        (∀ b ∈ before, b.IsReadable (totalOf rolls) ∧ ¬ b.Holds (totalOf rolls)) →
        (e.IsReadable (totalOf rolls) → e.Holds (totalOf rolls) →
          drawGender (tableText count sides entries) src w = .ok (trimmed e.label) w₁) ∧
        (¬ e.IsReadable (totalOf rolls) → ∃ n,
          drawGender (tableText count sides entries) src w = .error (.numeralTooLong n) w₁)) ∧
      ((∀ e ∈ entries, e.IsReadable (totalOf rolls) ∧ ¬ e.Holds (totalOf rolls)) →
        ∃ chance w₂, Roll.drawFraction src w₁ = .ok chance w₂ ∧
          drawGender (tableText count sides entries) src w =
            .ok (if chance < 0.5 then "male" else "female") w₂) := by
  have hpos : 1 ≤ (sides : Int) := by omega
  obtain ⟨rolls, w₁, hrolls⟩ : ∃ rolls w₁, dice count sides src w = .ok rolls w₁ :=
    (dice_failsOnly count hpos).exists_ok
      fun w' hend => dice_failsOnly (p := fun _ => False) count hpos hend
  rw [drawGender_eq_byRanges hcount hsides hne h]
  refine ⟨rolls, w₁, hrolls,
    fun before e after hsplit hbefore => ⟨fun he hholds => ?_, fun he => ?_⟩, fun hnone => ?_⟩
  · refine byRanges_of_label hsides hrolls ?_
    rw [GenderRange.labelOf_tidyLast, hsplit]
    exact LabelledRange.labelOf_of_first hbefore he hholds
  · obtain ⟨n, hn⟩ := LabelledRange.exists_labelOf_error after hbefore he
    refine ⟨n, byRanges_of_error hsides hrolls ?_⟩
    rw [GenderRange.labelOf_tidyLast, hsplit]
    exact hn
  · refine ⟨_, _, rfl, ?_⟩
    rw [byRanges_of_none hsides hrolls]
    · rfl
    · rw [GenderRange.labelOf_tidyLast]
      exact LabelledRange.labelOf_of_none hnone

end Roll

/-- Two entries. The label of the second one looks like an entry itself. -/
def sampleEntries : List LabelledRange := [⟨1, 5, "dräng"⟩, ⟨6, 10, " flicka 2-3=x "⟩]

theorem drawGender_sampleEntries :
    tableText 1 10 sampleEntries = "1T10:1-5=dräng,6-10= flicka 2-3=x " ∧
    drawGender (tableText 1 10 sampleEntries) (Source.constant 7 0) (World.start ()) =
      .ok "flicka 2-3=x" { World.start () with draws := [.int 1 10 7] } := by
  have hplain : ∀ e ∈ sampleEntries, e.IsPlain := by
    refine List.forall_mem_cons.mpr ⟨?_, List.forall_mem_singleton.mpr ?_⟩
    · exact ⟨rfl, by decide, by decide⟩
    · exact ⟨rfl, by decide, by decide⟩
  obtain ⟨rolls, w₁, hrolls, hfirst, -⟩ := @drawGender_tableText Unit 1 10 (by decide)
    (.inr (.inl rfl)) sampleEntries (List.cons_ne_nil _ _) hplain (Source.constant 7 0)
    (World.start ())
  have hseven : dice 1 10 (Source.constant 7 0) (World.start ()) =
      .ok [7] { World.start () with draws := [.int 1 10 7] } := rfl
  cases hrolls.symm.trans hseven
  have hbefore : ∀ b ∈ [(⟨1, 5, "dräng"⟩ : LabelledRange)], b.IsReadable 7 ∧ ¬ b.Holds 7 :=
    List.forall_mem_singleton.mpr ⟨⟨by decide, fun _ => by decide⟩, by decide⟩
  obtain ⟨hheld, -⟩ := hfirst _ _ [] rfl hbefore
  exact ⟨rfl, hheld ⟨by decide, fun _ => by decide⟩ (by decide)⟩

/-- An entry up to a number of 4301 digits. -/
def longBound : LabelledRange := ⟨1, Nat.pow 10 (manyDigits + 1), "a"⟩

theorem not_short_longBound : ¬ Short longBound.high := by
  have hdigits : longestNumeral = manyDigits + 1 := by
    unfold manyDigits
    rfl
  rw [short_iff, Int.natAbs_natCast, hdigits]
  exact Nat.lt_irrefl _

theorem three_le_longBound : 3 ≤ longBound.high :=
  Nat.le_trans (by decide : 3 ≤ Nat.pow 10 1)
    (Nat.pow_le_pow_right (by decide) (Nat.succ_le_succ (Nat.zero_le _)))

/-- A bound that is too long to be read ends the roll, although the entry holds the total. -/
theorem drawGender_longBound : longBound.IsPlain ∧
    dice 1 6 (Source.constant 3 0) (World.start ()) =
      .ok [3] { World.start () with draws := [.int 1 6 3] } ∧
    longBound.Holds (totalOf [3]) ∧
    ∃ n, drawGender (tableText 1 6 [longBound]) (Source.constant 3 0) (World.start ()) =
      .error (.numeralTooLong n) { World.start () with draws := [.int 1 6 3] } := by
  have hplain : longBound.IsPlain := ⟨rfl, by decide, by decide⟩
  have hthree : dice 1 6 (Source.constant 3 0) (World.start ()) =
      .ok [3] { World.start () with draws := [.int 1 6 3] } := rfl
  have hholds : longBound.Holds (totalOf [3]) := ⟨by decide, Int.ofNat_le.mpr three_le_longBound⟩
  have hlong : ¬ longBound.IsReadable (totalOf [3]) :=
    fun hreadable => not_short_longBound (hreadable.2 hholds.1)
  obtain ⟨n, hn⟩ :=
    @LabelledRange.exists_labelOf_error longBound _ [] [] (List.forall_mem_nil _) hlong
  refine ⟨hplain, hthree, hholds, n, ?_⟩
  rw [drawGender_eq_byRanges (by decide) (.inl rfl) (List.cons_ne_nil _ _)
    (List.forall_mem_singleton.mpr hplain)]
  refine byRanges_of_error (.inl rfl) hthree ?_
  rw [GenderRange.labelOf_tidyLast]
  exact hn

end Kindred
