import Kindred.Proofs.Formula.Alike
import Kindred.Proofs.Formula.Meaning

/-!
# Texts put together from parts

A formula may be any row of digits, names, notations, signs, brackets and blanks, whether it makes
sense or not. Leaves that stand side by side run together into one word: digits join a notation, a
name swallows what follows it, and a notation takes digits away from its neighbour. Still, behind a
digit there is only what a numeral does not go on with, so numbers that come in for names and
notations stay numerals by themselves.

- `Operand.Fits`, `Composed`: the leaves, and the texts.
- `Regular`: what may follow what in such a text.
- `regular_textOf`: texts that are put together are regular.
- `alike_word`: a word that stays as it is keeps texts alike.
-/

namespace Kindred.Formula

open Kindred.Text

/-! ### Texts -/

/-- Whether a leaf may stand in a text of a dialect: digits of any script, a name of the dialect, or
a notation that it rolls. -/
def Operand.Fits (d : Dialect) : Operand → Prop
  | literal ds => ds ≠ [] ∧ ∀ c ∈ ds, isDecimal c = true
  | name x => x ∈ d.parameters
  | dice t => t.form ∈ d.dice ∧ t.IsNotation

/-- How many digits the numerals of a formula may have, and the numbers that come in. -/
def modestDigits : Nat := 300

/-- Whether no row of digits in a text is too long. -/
def HasShortNumerals (s : List Char) : Prop :=
  ∀ ds, ds <:+: s → (∀ c ∈ ds, isDecimal c = true) → ds.length ≤ modestDigits

/-- Whether a text is put together from leaves, signs, brackets and blanks in any order. -/
structure Composed (d : Dialect) (s : String) : Prop where
  parts : ∃ ps : List (Part Operand), (∀ p ∈ ps, p.Holds (Operand.Fits d)) ∧
    s.toList = textOf Operand.text ps
  short : HasShortNumerals s.toList

theorem HasShortNumerals.of_infix {u s : List Char} (h : HasShortNumerals s) (hu : u <:+: s) :
    HasShortNumerals u := fun ds hds => h ds (hds.trans hu)

theorem Operand.Fits.isWord {d : Dialect} (hd : d ∈ Dialect.builtin) {a : Operand}
    (ha : a.Fits d) : IsWord a.text := by
  cases a with
  | literal ds => exact ⟨ha.1, fun c hc => isWordChar_of_isDecimal (ha.2 c hc)⟩
  | name x => exact (isName_of_mem_parameters hd ha).1.toIsWord
  | dice t => exact ha.2.isWord

/-! ### What follows what -/

/-- Whether a character is a sign, a bracket or a blank. -/
def IsMark (c : Char) : Prop := ∃ m : Mark, m.IsPlain ∧ m.char = c

theorem IsMark.joins_eq {c : Char} (h : IsMark c) : joins c = false := by
  obtain ⟨m, hm, rfl⟩ := h
  exact m.joins_char hm

theorem IsMark.isWordChar_eq {c : Char} (h : IsMark c) : isWordChar c = false := by
  obtain ⟨m, hm, rfl⟩ := h
  exact m.isWordChar_char hm

/-- Neither a numeral nor a name goes on with a mark. -/
theorem IsMark.ends {c : Char} (h : IsMark c) : endsNumeral c = true ∧ goesOn c = false := by
  refine ⟨endsNumeral_of_not_joins h.joins_eq, ?_⟩
  obtain ⟨m, hm, rfl⟩ := h
  cases m with
  | sign op => cases op <;> decide
  | opening => decide
  | closing => decide
  | blank c =>
    have hc : isBlank c = true := hm
    have hword := isWordChar_of_isBlank hc
    have hnot := not_mem_of_apart (l := ['_', '.', '"']) hc (by decide)
    simp only [List.mem_cons, List.not_mem_nil, not_or, or_false] at hnot
    simp [goesOn, Mark.char, isCased_of_isBlank hc, isDigit_of_not_isWordChar hword, hnot]

/-- What may stand at the start of a text, and behind a digit or a mark. -/
def MayFollow (s : List Char) : Prop :=
  (∀ c ∈ s.head?, IsMark c ∨ isDecimal c = true) ∨ IsLed s

theorem mayFollow_nil : MayFollow [] := Or.inl nofun

theorem IsLed.append {s : List Char} (h : IsLed s) (u : List Char) : IsLed (s ++ u) := by
  obtain ⟨p, hp, r, rfl⟩ := h
  exact ⟨p, hp, r ++ u, rfl⟩

theorem MayFollow.append {s u : List Char} (hs : MayFollow s) (hu : MayFollow u) :
    MayFollow (s ++ u) := by
  cases s with
  | nil => exact hu
  | cons c s => exact hs.imp_right fun h => h.append u

/-- The characters that names and notations start with belong to words. -/
theorem isWordChar_of_mem_leads {p : Char × Char} (hp : p ∈ leads) :
    isWordChar p.1 = true ∧ isWordChar p.2 = true := by
  have hall : ∀ p ∈ leads, isWordChar p.1 = true ∧ isWordChar p.2 = true := by decide
  exact hall p hp

/-- What a word starts with is part of it. -/
theorem MayFollow.of_append {w s : List Char} (hs : IsGap s) (h : MayFollow (w ++ s)) :
    MayFollow w := by
  cases w with
  | nil => exact mayFollow_nil
  | cons c w =>
    refine h.imp_right ?_
    rintro ⟨p, hp, r, heq⟩
    have hword := isWordChar_of_mem_leads hp
    obtain ⟨rfl, hrest⟩ := List.cons.inj heq
    cases w with
    | nil =>
      obtain rfl : s = p.2 :: r := hrest
      rw [isGap_cons.mp hs] at hword
      cases hword.2
    | cons c' w =>
      obtain ⟨rfl, -⟩ := List.cons.inj hrest
      exact ⟨p, hp, w, rfl⟩

/-- The texts in which digits and marks are followed by what may follow them. -/
structure Regular (s : List Char) : Prop where
  chars : ∀ c ∈ s, IsMark c ∨ isDecimal c = true ∨ (isCased c = true ∧ isWordChar c = true)
  start : MayFollow s
  next : ∀ u c v, s = u ++ c :: v → IsMark c ∨ isDecimal c = true → MayFollow v

namespace Regular

theorem nil : Regular [] := ⟨List.forall_mem_nil _, mayFollow_nil, by simp⟩

theorem append {s t : List Char} (hs : Regular s) (ht : Regular t) : Regular (s ++ t) := by
  refine ⟨List.forall_mem_append.mpr ⟨hs.chars, ht.chars⟩, hs.start.append ht.start, ?_⟩
  intro u c v heq hc
  -- the character stands in one of the two, and what follows it may reach from one into the other
  rcases List.append_eq_append_iff.mp heq with ⟨a, rfl, rfl⟩ | ⟨a, rfl, hsplit⟩
  · exact ht.next a c v rfl hc
  · cases a with
    | nil => exact ht.next [] c v hsplit.symm hc
    | cons k a =>
      obtain ⟨rfl, rfl⟩ := List.cons.inj hsplit
      exact (hs.next u c a rfl hc).append ht.start

/-- The rest of a regular text, if it starts as it may. -/
theorem of_append {u v : List Char} (h : Regular (u ++ v)) (hv : MayFollow v) : Regular v := by
  refine ⟨fun c hc => h.chars c (List.mem_append_right u hc), hv, fun a c b heq hc => ?_⟩
  refine h.next (u ++ a) c b ?_ hc
  rw [heq, List.append_assoc]

theorem of_cons {c : Char} {s : List Char} (h : Regular (c :: s))
    (hc : IsMark c ∨ isDecimal c = true) : Regular s :=
  @of_append [c] s h (h.next [] c s rfl hc)

/-- The first word of a regular text. -/
theorem word {w s : List Char} (h : Regular (w ++ s)) (hs : IsGap s) : Regular w := by
  refine ⟨fun c hc => h.chars c (List.mem_append_left s hc), h.start.of_append hs, ?_⟩
  intro u c v heq hc
  refine MayFollow.of_append hs (h.next u c (v ++ s) ?_ hc)
  rw [heq, List.append_assoc, List.cons_append]

/-- What stands behind a digit. -/
theorem mayFollow {u v : List Char} (h : Regular (u ++ v)) {c : Char} (hlast : u.getLast? = some c)
    (hc : isDecimal c = true) : MayFollow v := by
  obtain ⟨a, rfl⟩ := List.getLast?_eq_some_iff.mp hlast
  exact h.next a c v (List.append_assoc a [c] v) (Or.inr hc)

/-- What stands between words is a mark. -/
theorem isMark {s : List Char} (h : Regular s) {c : Char} (hmem : c ∈ s)
    (hc : isWordChar c = false) : IsMark c := by
  rcases h.chars c hmem with hmark | hdecimal | ⟨-, hword⟩
  · exact hmark
  · rw [isWordChar_of_isDecimal hdecimal] at hc
    cases hc
  · rw [hword] at hc
    cases hc

/-- What follows the first word of a regular text. -/
theorem rest {w s : List Char} (h : Regular (w ++ s)) (hs : IsGap s) : Regular s :=
  h.of_append (Or.inl fun c hc =>
    Or.inl (h.isMark (List.mem_append_right w (List.mem_of_mem_head? hc)) (hs c hc)))

/-- Digits are followed by digits. -/
theorem of_isDecimal {ds : List Char} (h : ∀ c ∈ ds, isDecimal c = true) : Regular ds := by
  have hfollow : ∀ {u : List Char}, (∀ c ∈ u, isDecimal c = true) → MayFollow u :=
    fun hu => Or.inl fun c hc => Or.inr (hu c (List.mem_of_mem_head? hc))
  refine ⟨fun c hc => Or.inr (Or.inl (h c hc)), hfollow h, ?_⟩
  rintro u c v rfl -
  exact hfollow fun d hd => h d (List.mem_append_right u (List.mem_cons_of_mem c hd))

/-- A letter in front of a regular text, if names or notations start with the two. -/
theorem cons_letter {c : Char} {s : List Char} (hled : IsLed (c :: s)) (hcased : isCased c = true)
    (hword : isWordChar c = true) (hs : Regular s) : Regular (c :: s) := by
  refine ⟨List.forall_mem_cons.mpr ⟨Or.inr (Or.inr ⟨hcased, hword⟩), hs.chars⟩, Or.inr hled, ?_⟩
  intro u k v heq hk
  cases u with
  | nil =>
    obtain ⟨rfl, rfl⟩ := List.cons.inj heq
    exact hs.start
  | cons _ u => exact hs.next u k v (List.cons.inj heq).2 hk

/-- A row of letters that starts as names do. -/
theorem of_letters {s : List Char} (hled : IsLed s)
    (h : ∀ c ∈ s, isCased c = true ∧ isWordChar c = true) : Regular s := by
  refine ⟨fun c hc => Or.inr (Or.inr (h c hc)), Or.inr hled, ?_⟩
  rintro u c v rfl hc
  obtain ⟨hcased, hword⟩ := h c (by simp)
  -- a letter is neither a mark nor a digit, so nothing is asked of what follows it
  exfalso
  rcases hc with hmark | hdecimal
  · rw [hmark.isWordChar_eq] at hword
    cases hword
  · rw [isCased_of_isDecimal hdecimal] at hcased
    cases hcased

end Regular

/-- The letters of a notation. -/
theorem isCased_of_isLetter {capital c : Char} (hcapital : capital ∈ ['O', 'B', 'T'])
    (h : isLetter capital c = true) : isCased c = true := by
  have hall : ∀ k ∈ ['O', 'B', 'T'], [k, k.toLower].all isCased := List.all_eq_true.mp (by decide)
  have hc : c ∈ [capital, capital.toLower] := by simpa using isLetter_iff.mp h
  exact List.all_eq_true.mp (hall capital hcapital) c hc

/-- What stands in front of the count of a notation: nothing, or two letters. -/
theorem regular_lead {t : DiceToken} {lead : List Char} (h : t.form.IsLead lead) :
    Regular lead := by
  by_cases hform : t.form = .openEnded
  · rw [hform] at h
    obtain ⟨o, b, rfl, ho, hb⟩ := h
    have hled : IsLed [o, b] := by
      have ho := isLetter_iff.mp ho
      have hb := isLetter_iff.mp hb
      refine ⟨(o, b), ?_, [], rfl⟩
      rcases ho with rfl | rfl <;> rcases hb with rfl | rfl <;> decide
    refine Regular.of_letters hled ?_
    rw [List.forall_mem_cons, List.forall_mem_singleton]
    exact ⟨⟨isCased_of_isLetter (by simp) ho, (isWordChar_of_isLetter (by simp) ho).1⟩,
      isCased_of_isLetter (by simp) hb, (isWordChar_of_isLetter (by simp) hb).1⟩
  · rw [DiceToken.eq_nil_of_isLead hform h]
    exact Regular.nil

/-- What stands behind the count of a notation: a letter and the sides. -/
theorem regular_sides (form : DiceForm) {letter : Char} (h : isLetter 'T' letter = true) :
    Regular (letter :: form.sideDigits) := by
  have hsides : ∀ c ∈ form.sideDigits, isDecimal c = true := by
    refine List.all_eq_true.mp ?_
    cases form <;> decide
  have hled : IsLed (letter :: form.sideDigits) := by
    have hletter := isLetter_iff.mp h
    cases form with
    | t100 => exact ⟨(letter, '1'), by rcases hletter with rfl | rfl <;> decide, _, rfl⟩
    | t10 => exact ⟨(letter, '1'), by rcases hletter with rfl | rfl <;> decide, _, rfl⟩
    | openEnded => exact ⟨(letter, '6'), by rcases hletter with rfl | rfl <;> decide, _, rfl⟩
    | t6 => exact ⟨(letter, '6'), by rcases hletter with rfl | rfl <;> decide, _, rfl⟩
  exact Regular.cons_letter hled (isCased_of_isLetter (by simp) h)
    (isWordChar_of_isLetter (by simp) h).1 (Regular.of_isDecimal hsides)

/-- A notation is regular: behind its count stand the letter and its sides. -/
theorem regular_notation {t : DiceToken} (h : t.IsNotation) : Regular t.text := by
  obtain ⟨lead, letter, hlead, hletter, htext⟩ := h.text
  have hback := (Regular.of_isDecimal h.digits).append (regular_sides t.form hletter)
  rw [htext]
  exact (regular_lead hlead).append hback

/-- The names of the built-in dialects start as no other lexemes do, and have letters only. -/
theorem regular_name {d : Dialect} (hd : d ∈ Dialect.builtin) (hfunctions : d.functions = false)
    {x : String} (hx : x ∈ d.parameters) : Regular x.toList := by
  have hall : ∀ d ∈ Dialect.builtin, d.functions = false → ∀ x ∈ d.parameters,
      (leads.any fun p => [p.1, p.2].isPrefixOf x.toList) = true ∧
        (x.toList.all fun c => isCased c && isWordChar c) = true := by decide
  obtain ⟨hled, hchars⟩ := hall d hd hfunctions x hx
  refine Regular.of_letters ?_ fun c hc => by simpa using List.all_eq_true.mp hchars c hc
  obtain ⟨p, hp, hprefix⟩ := List.any_eq_true.mp hled
  obtain ⟨r, hr⟩ := List.isPrefixOf_iff_prefix.mp hprefix
  exact ⟨p, hp, r, hr.symm⟩

/-- Texts that are put together are regular. -/
theorem regular_textOf {d : Dialect} (hd : d ∈ Dialect.builtin) (hfunctions : d.functions = false)
    {ps : List (Part Operand)} (hps : ∀ p ∈ ps, p.Holds (Operand.Fits d)) :
    Regular (textOf Operand.text ps) := by
  induction ps with
  | nil => exact Regular.nil
  | cons p ps ih =>
    obtain ⟨hp, hrest⟩ := List.forall_mem_cons.mp hps
    rw [textOf_cons]
    refine Regular.append ?_ (ih hrest)
    cases p with
    | mark m =>
      have hm : IsMark m.char := ⟨m, hp, rfl⟩
      refine ⟨List.forall_mem_singleton.mpr (Or.inl hm), Or.inl fun c hc => ?_, ?_⟩
      · cases hc
        exact Or.inl hm
      · intro u c v heq _
        cases u with
        | nil =>
          obtain ⟨-, rfl⟩ := List.cons.inj heq
          exact mayFollow_nil
        | cons k u => simp [Part.text] at heq
    | leaf a =>
      cases a with
      | literal ds => exact Regular.of_isDecimal hp.2
      | name x => exact regular_name hd hfunctions hp
      | dice t => exact regular_notation hp.2

/-! ### Words -/

/-- Neither a numeral nor a name goes on with a digit of another script. -/
theorem stray_ends {c : Char} (h : isDecimal c = true) (hdigit : c.isDigit = false) :
    endsNumeral c = true ∧ goesOn c = false := by
  have hnot := not_mem_of_apart (l := ['.', 'e', 'E', '_', '"']) h (by decide)
  simp only [List.mem_cons, List.not_mem_nil, not_or, or_false] at hnot
  refine ⟨endsNumeral_eq_true_iff.mpr ⟨hdigit, hnot.1, hnot.2.1, hnot.2.2.1⟩, ?_⟩
  simp [goesOn, isCased_of_isDecimal h, hdigit, hnot]

/-- A numeral ends where no ASCII digit follows it. -/
theorem endsNumeral_of_mayFollow {s u : List Char} (hs : MayFollow s)
    (hdigit : ∀ c ∈ s.head?, c.isDigit = false) (hu : ∀ c ∈ u.head?, IsMark c) :
    ∀ c ∈ (s ++ u).head?, endsNumeral c = true := by
  cases s with
  | nil => exact fun c hc => (hu c hc).ends.1
  | cons k s =>
    intro c hc
    cases hc
    rcases hs with hhead | ⟨p, hp, r, heq⟩
    · rcases hhead k rfl with hmark | hdecimal
      · exact hmark.ends.1
      · exact (stray_ends hdecimal (hdigit k rfl)).1
    · have hall : ∀ p ∈ leads, endsNumeral p.1 = true := by decide
      obtain ⟨rfl, -⟩ := List.cons.inj heq
      exact hall p hp

/-- The numeral at the front of a word is the longest run of ASCII digits. -/
theorem exists_numeral {c : Char} {w : List Char} (hw : Regular (c :: w))
    (hshort : HasShortNumerals (c :: w)) (hdigit : c.isDigit = true) :
    ∃ ds rest, w = ds ++ rest ∧ IsLiteral (c :: ds) ∧ MayFollow rest ∧
      ∀ d ∈ rest.head?, d.isDigit = false := by
  obtain ⟨ds, rest, rfl, hds, hhead⟩ := exists_run Char.isDigit w
  have hall : ∀ d ∈ c :: ds, d.isDigit = true := List.forall_mem_cons.mpr ⟨hdigit, hds⟩
  have hliteral : IsLiteral (c :: ds) := by
    have hle : modestDigits ≤ maxDigits := by decide
    refine ⟨List.cons_ne_nil _ _, hall, Nat.le_trans ?_ hle⟩
    exact hshort _ ⟨[], rest, by simp⟩ fun d hd => isDecimal_of_isDigit (hall d hd)
  have hlast := List.getLast?_eq_some_getLast (List.cons_ne_nil c ds)
  have hfollow : MayFollow rest := @Regular.mayFollow (c :: ds) rest hw _ hlast
    (isDecimal_of_isDigit (hall _ (List.getLast_mem _)))
  exact ⟨ds, rest, rfl, hliteral, hfollow, hhead⟩

/-- The name at the front of a word is the longest run of letters and ASCII digits. It ends in front
of a digit of another script, since there are no other word characters. -/
theorem exists_variable {c : Char} {w : List Char} (hw : Regular (c :: w))
    (hword : ∀ d ∈ c :: w, isWordChar d = true) (hc : isDecimal c = false) :
    ∃ x rest, w = x ++ rest ∧ IsVariable (c :: x) ∧
      ∀ d ∈ rest.head?, isDecimal d = true ∧ d.isDigit = false := by
  have hmark : ∀ d ∈ c :: w, ¬IsMark d := by
    intro d hd hmark
    have hd := hword d hd
    rw [hmark.isWordChar_eq] at hd
    cases hd
  obtain ⟨p, hp, r, heq⟩ : IsLed (c :: w) := by
    refine hw.start.resolve_left fun hhead => ?_
    rcases hhead c rfl with hmark' | hdecimal
    · exact hmark c List.mem_cons_self hmark'
    · rw [hc] at hdecimal
      cases hdecimal
  have hleads : ∀ p ∈ leads, isCased p.1 = true ∧ (isCased p.2 || p.2.isDigit) = true := by decide
  obtain ⟨hfirst, hsecond⟩ := hleads p hp
  obtain ⟨rfl, htail⟩ := List.cons.inj heq
  obtain ⟨x, rest, rfl, hx, hhead⟩ := exists_run (fun c => isCased c || c.isDigit) w
  refine ⟨x, rest, rfl, ⟨?_, ?_⟩, ?_⟩
  · -- both characters that the name starts with are in the run
    cases x with
    | nil =>
      obtain rfl : rest = p.2 :: r := htail
      have hout := hhead p.2 rfl
      rw [hsecond] at hout
      cases hout
    | cons d x =>
      obtain ⟨rfl, -⟩ := List.cons.inj htail
      exact ⟨p, hp, x, rfl⟩
  · exact List.forall_mem_cons.mpr ⟨Or.inl hfirst, fun d hd => by simpa using hx d hd⟩
  · intro d hd
    obtain ⟨hcased, hdigit⟩ := Bool.or_eq_false_iff.mp (hhead d hd)
    have hmem : d ∈ p.1 :: (x ++ rest) :=
      List.mem_cons_of_mem _ (List.mem_append_right x (List.mem_of_mem_head? hd))
    rcases hw.chars d hmem with hmark' | hdecimal | ⟨hcased', -⟩
    · exact absurd hmark' (hmark d hmem)
    · exact ⟨hdecimal, hdigit⟩
    · rw [hcased] at hcased'
      cases hcased'

/-- A word that stays as it is keeps texts alike. -/
theorem alike_word {w u v : List Char} (hw : Regular w) (hword : ∀ c ∈ w, isWordChar c = true)
    (hshort : HasShortNumerals w) (hu : ∀ c ∈ u.head?, IsMark c) (hv : ∀ c ∈ v.head?, IsMark c)
    (h : Alike u v) : Alike (w ++ u) (w ++ v) := by
  induction hn : w.length using Nat.strongRecOn generalizing w with
  | ind n ih =>
    cases w with
    | nil => exact h
    | cons c w =>
      have hrest : ∀ {a b : List Char}, w = a ++ b → MayFollow b → Alike (b ++ u) (b ++ v) := by
        rintro a b rfl hb
        refine ih b.length ?_ (@Regular.of_append (c :: a) b hw hb) (fun d hd => hword d ?_)
          (hshort.of_infix ⟨c :: a, [], by simp⟩) rfl
        · rw [← hn, List.length_cons, List.length_append]
          omega
        · exact List.mem_cons_of_mem c (List.mem_append_right a hd)
      cases hdecimal : isDecimal c with
      | true =>
        cases hdigit : c.isDigit with
        | false => exact .stray hdecimal hdigit _ _
        | true =>
          obtain ⟨ds, rest, rfl, hds, hfollow, hhead⟩ := exists_numeral hw hshort hdigit
          have hends := fun {t} ht => @endsNumeral_of_mayFollow rest t hfollow hhead ht
          rw [← List.cons_append, List.append_assoc, List.append_assoc]
          exact .numeral hds hds (hends hu) (hends hv) (hrest rfl hfollow)
      | false =>
        obtain ⟨x, rest, rfl, hx, hstray⟩ := exists_variable hw hword hdecimal
        have hfollow : MayFollow rest := Or.inl fun d hd => Or.inr (hstray d hd).1
        have hends : ∀ {t : List Char}, (∀ d ∈ t.head?, IsMark d) →
            ∀ d ∈ (rest ++ t).head?, goesOn d = false := by
          intro t ht d hd
          cases rest with
          | nil => exact (ht d hd).ends.2
          | cons k rest =>
            cases hd
            exact (stray_ends (hstray d rfl).1 (hstray d rfl).2).2
        rw [← List.cons_append, List.append_assoc, List.append_assoc]
        exact .name hx (hends hu) (hends hv) (hrest rfl hfollow)

end Kindred.Formula
