import Mathlib.Data.List.TakeWhile
import Kindred.Proofs.Text.Numeral

/-!
# Texts word by word

A text is a row of words, which are runs of word characters as long as they can be, and of the
characters between them. What is done to a text word by word leaves the characters between the
words alone, so it can be done in two rounds or in one.

- `IsWord`: a word.
- `words_induction`: a text taken apart into words and the characters between them.
- `trim_isInfix`, `trim_append`, `trim_append_blanks`: the ends of a text cut off.
- `mapWords`: a function applied to every word.
- `mapWords_mapWords`: two rounds in one.
-/

namespace Kindred.Text

/-! ### Words -/

/-- A word: at least one character, and word characters only. -/
structure IsWord (w : List Char) : Prop where
  ne_nil : w ≠ []
  all : ∀ c ∈ w, isWordChar c = true

/-- Whether no word goes on at the front of a text. -/
def IsGap (s : List Char) : Prop := ∀ c ∈ s.head?, isWordChar c = false

theorem isGap_nil : IsGap [] := nofun

theorem isGap_cons {c : Char} {s : List Char} : IsGap (c :: s) ↔ isWordChar c = false := by
  constructor
  · intro h
    exact h c rfl
  · intro h d hd
    cases hd
    exact h

/-- A word starts with a word character. -/
theorem IsWord.exists_cons {w : List Char} (h : IsWord w) :
    ∃ c u, w = c :: u ∧ isWordChar c = true ∧ ∀ d ∈ u, isWordChar d = true := by
  obtain ⟨c, u, rfl⟩ := List.exists_cons_of_ne_nil h.ne_nil
  exact ⟨c, u, rfl, h.all c List.mem_cons_self, fun d hd => h.all d (List.mem_cons_of_mem c hd)⟩

theorem IsWord.exists_not_isBlank {w : List Char} (h : IsWord w) :
    ∃ c ∈ w, isBlank c = false := by
  obtain ⟨c, u, rfl, hc, -⟩ := h.exists_cons
  exact ⟨c, List.mem_cons_self, isBlank_of_isWordChar hc⟩

theorem IsWord.reverse {w : List Char} (h : IsWord w) : IsWord w.reverse :=
  ⟨by simpa using h.ne_nil, fun c hc => h.all c (List.mem_reverse.mp hc)⟩

theorem IsWord.append {w u : List Char} (h : IsWord w) (hu : ∀ c ∈ u, isWordChar c = true) :
    IsWord (w ++ u) :=
  ⟨List.append_ne_nil_of_left_ne_nil h.ne_nil _, List.forall_mem_append.mpr ⟨h.all, hu⟩⟩

/-- A row of digits is a word. -/
theorem isWord_of_isDigit {ds : List Char} (hne : ds ≠ []) (hds : ∀ c ∈ ds, c.isDigit = true) :
    IsWord ds := ⟨hne, fun c hc => isWordChar_of_isDigit (hds c hc)⟩

theorem isWord_natText (n : Nat) : IsWord (natText n) :=
  isWord_of_isDigit (natText_ne_nil n) fun _ => isDigit_of_mem_natText

/-- A text has one first word. -/
theorem word_unique {w w' s s' : List Char} (hw : IsWord w) (hs : IsGap s) (hw' : IsWord w')
    (hs' : IsGap s') (h : w ++ s = w' ++ s') : w = w' ∧ s = s' := by
  have hspan : (w ++ s).span isWordChar = (w, s) := span_append hw.all hs
  rw [h, span_append hw'.all hs'] at hspan
  exact ⟨(Prod.mk.inj hspan).1.symm, (Prod.mk.inj hspan).2.symm⟩

/-- What holds of the empty text, and of a text with one more word or one more character between
words in front, holds of every text. -/
theorem words_induction {p : List Char → Prop} (nil : p [])
    (gap : ∀ c s, isWordChar c = false → p s → p (c :: s))
    (word : ∀ w s, IsWord w → IsGap s → p s → p (w ++ s)) (s : List Char) : p s := by
  induction hn : s.length using Nat.strongRecOn generalizing s with
  | ind n ih =>
    cases s with
    | nil => exact nil
    | cons c s =>
      cases hc : isWordChar c with
      | false =>
        refine gap c s hc (ih s.length ?_ s rfl)
        rw [← hn]
        exact Nat.lt_succ_self _
      | true =>
        -- the first word is the longest run of word characters
        obtain ⟨u, rest, rfl, hu, hrest⟩ := exists_run isWordChar s
        refine word (c :: u) rest ⟨List.cons_ne_nil _ _, List.forall_mem_cons.mpr ⟨hc, hu⟩⟩ hrest
          (ih rest.length ?_ rest rfl)
        rw [← hn, List.length_cons, List.length_append]
        omega

theorem dropBlanksRight_isPrefix (s : List Char) : dropBlanksRight s <+: s := by
  have hsuffix : dropBlanks s.reverse <:+ s.reverse := List.dropWhile_suffix isBlank
  have hback := List.reverse_prefix.mpr hsuffix
  rwa [List.reverse_reverse] at hback

/-- A text without the blanks at its ends is a part of it. -/
theorem trim_isInfix (s : List Char) : trim s <:+: s := by
  have hfront : dropBlanks s <:+ s := List.dropWhile_suffix isBlank
  exact (dropBlanksRight_isPrefix _).isInfix.trans hfront.isInfix

/-- Blanks in front of a text end at its first word. -/
theorem dropBlanks_append {w : List Char} (hw : IsWord w) (u s : List Char) :
    dropBlanks (u ++ (w ++ s)) = dropBlanks u ++ (w ++ s) := by
  have hword : dropBlanks (w ++ s) = w ++ s := by
    obtain ⟨c, v, rfl, hc, -⟩ := hw.exists_cons
    exact List.dropWhile_cons_of_neg (by simp [isBlank_of_isWordChar hc])
  unfold dropBlanks at hword ⊢
  rw [List.dropWhile_append, hword]
  split
  · next hnil => rw [List.isEmpty_iff.mp hnil, List.nil_append]
  · rfl

/-- Blanks at the ends of a text do not touch its words. -/
theorem trim_append {w : List Char} (hw : IsWord w) (u v : List Char) :
    trim (u ++ (w ++ v)) = dropBlanks u ++ (w ++ dropBlanksRight v) := by
  unfold trim dropBlanksRight
  rw [dropBlanks_append hw]
  simp only [List.reverse_append, List.append_assoc]
  rw [dropBlanks_append hw.reverse]
  simp

theorem dropBlanksRight_of_isBlankText {s : List Char} (h : isBlankText s = true) :
    dropBlanksRight s = [] := by
  unfold dropBlanksRight dropBlanks
  rw [List.reverse_eq_nil_iff, List.dropWhile_eq_nil_iff]
  intro c hc
  exact List.all_eq_true.mp h c (List.mem_reverse.mp hc)

/-- What is dropped at the end of a text is blank. -/
theorem exists_blanks_behind (s : List Char) :
    ∃ b, s = dropBlanksRight s ++ b ∧ isBlankText b = true := by
  refine ⟨(s.reverse.takeWhile isBlank).reverse, ?_, ?_⟩
  · have hsplit : s.reverse.takeWhile isBlank ++ s.reverse.dropWhile isBlank = s.reverse :=
      List.takeWhile_append_dropWhile
    have hback := congrArg List.reverse hsplit
    rw [List.reverse_append, List.reverse_reverse] at hback
    exact hback.symm
  · refine List.all_eq_true.mpr fun c hc => ?_
    exact List.mem_takeWhile_imp (List.mem_reverse.mp hc)

/-- Blanks are dropped from the end of a text, whatever stands in front of it. -/
theorem dropBlanksRight_append {s : List Char} (h : isBlankText s = false) (a : List Char) :
    dropBlanksRight (a ++ s) = a ++ dropBlanksRight s := by
  have hne : s.reverse.dropWhile isBlank ≠ [] := by
    rw [Ne, List.dropWhile_eq_nil_iff]
    intro hall
    refine Bool.false_ne_true (h.symm.trans (List.all_eq_true.mpr fun c hc => ?_))
    exact hall c (List.mem_reverse.mpr hc)
  unfold dropBlanksRight dropBlanks
  rw [List.reverse_append, List.dropWhile_append, if_neg (by simpa using hne), List.reverse_append,
    List.reverse_reverse]

/-- A text without the blanks behind it is blank only if the text is. -/
theorem isBlankText_dropBlanksRight (s : List Char) :
    isBlankText (dropBlanksRight s) = isBlankText s := by
  obtain ⟨b, hs, hb⟩ := exists_blanks_behind s
  conv_rhs => rw [hs]
  unfold isBlankText at hb ⊢
  rw [List.all_append, hb, Bool.and_true]

/-- Blanks behind a text do not count. -/
theorem trim_append_blanks {b : List Char} (h : isBlankText b = true) (s : List Char) :
    trim (s ++ b) = trim s := by
  have hall : ∀ c ∈ b, isBlank c = true := List.all_eq_true.mp h
  have hfront : b.dropWhile isBlank = [] := List.dropWhile_eq_nil_iff.mpr hall
  have hback : ∀ u : List Char, dropBlanksRight (u ++ b) = dropBlanksRight u := by
    intro u
    unfold dropBlanksRight dropBlanks
    rw [List.reverse_append,
      List.dropWhile_append_of_pos fun c hc => hall c (List.mem_reverse.mp hc)]
  unfold trim dropBlanks
  rw [List.dropWhile_append]
  split
  · next hnil => rw [hfront, List.isEmpty_iff.mp hnil]
  · exact hback _

theorem trim_dropBlanksRight (s : List Char) : trim (dropBlanksRight s) = trim s := by
  obtain ⟨b, hs, hb⟩ := exists_blanks_behind s
  conv_rhs => rw [hs]
  exact (trim_append_blanks hb _).symm

/-! ### A function on words, applied to a text -/

variable {f g : List Char → List Char}

/-- A word that has ended is changed; no word stays no word. -/
def changeWord (f : List Char → List Char) (w : List Char) : List Char :=
  if w.isEmpty then [] else f w

/-- Applies a function to every word of a text; `word` is what was read of the current word. -/
def mapWordsFrom (f : List Char → List Char) : List Char → List Char → List Char
  | word, [] => changeWord f word
  | word, c :: s =>
    if isWordChar c then mapWordsFrom f (word ++ [c]) s
    else changeWord f word ++ c :: mapWordsFrom f [] s

/-- Applies a function to every word of a text. -/
def mapWords (f : List Char → List Char) (s : List Char) : List Char := mapWordsFrom f [] s

@[simp] theorem mapWords_nil : mapWords f [] = [] := rfl

theorem mapWords_cons {c : Char} {s : List Char} (hc : isWordChar c = false) :
    mapWords f (c :: s) = c :: mapWords f s := by
  show mapWordsFrom f [] (c :: s) = _
  rw [mapWordsFrom, if_neg (by simp [hc])]
  rfl

/-- The characters of a word are read into it. -/
theorem mapWordsFrom_append {word u s : List Char} (hu : ∀ c ∈ u, isWordChar c = true) :
    mapWordsFrom f word (u ++ s) = mapWordsFrom f (word ++ u) s := by
  induction u generalizing word with
  | nil => simp
  | cons c u ih =>
    rw [List.cons_append, mapWordsFrom, if_pos (hu c List.mem_cons_self),
      ih fun d hd => hu d (List.mem_cons_of_mem c hd), List.append_assoc]
    rfl

/-- The word at the front of a text is changed. -/
theorem mapWords_append {w s : List Char} (hw : IsWord w) (hs : IsGap s) :
    mapWords f (w ++ s) = f w ++ mapWords f s := by
  have hchange : changeWord f w = f w := by
    unfold changeWord
    rw [if_neg (by simpa using hw.ne_nil)]
  show mapWordsFrom f [] (w ++ s) = _
  rw [mapWordsFrom_append hw.all, List.nil_append]
  cases s with
  | nil => rw [mapWordsFrom, hchange, mapWords_nil, List.append_nil]
  | cons c s =>
    have hc := isGap_cons.mp hs
    rw [mapWordsFrom, if_neg (by simp [hc]), hchange, mapWords_cons hc]
    rfl

theorem mapWords_word {w : List Char} (hw : IsWord w) : mapWords f w = f w := by
  have h := @mapWords_append f w [] hw isGap_nil
  rwa [List.append_nil, mapWords_nil, List.append_nil] at h

/-- What starts with no word character still does not. -/
theorem isGap_mapWords {s : List Char} (hs : IsGap s) : IsGap (mapWords f s) := by
  cases s with
  | nil => exact isGap_nil
  | cons c s =>
    have hc := isGap_cons.mp hs
    rw [mapWords_cons hc]
    exact isGap_cons.mpr hc

/-- In front of a character between words a text can be cut in two. -/
theorem mapWords_append_gap {u s : List Char} (hs : IsGap s) :
    mapWords f (u ++ s) = mapWords f u ++ mapWords f s := by
  induction u using words_induction with
  | nil => rfl
  | gap c u hc ih => rw [List.cons_append, mapWords_cons hc, ih, mapWords_cons hc, List.cons_append]
  | word w u hw hu ih =>
    -- the word ends in front of `u ++ s` as it did in front of `u`
    have happend : IsGap (u ++ s) := by
      cases u with
      | nil => exact hs
      | cons c u => exact isGap_cons.mpr (isGap_cons.mp hu)
    rw [List.append_assoc, mapWords_append hw happend, ih, mapWords_append hw hu, List.append_assoc]

/-- Functions that agree on words agree on texts. -/
theorem mapWords_congr (h : ∀ w, IsWord w → f w = g w) (s : List Char) :
    mapWords f s = mapWords g s := by
  induction s using words_induction with
  | nil => rfl
  | gap c s hc ih => rw [mapWords_cons hc, mapWords_cons hc, ih]
  | word w s hw hs ih => rw [mapWords_append hw hs, mapWords_append hw hs, ih, h w hw]

/-- What changes no word changes no text. -/
theorem mapWords_eq_self (h : ∀ w, IsWord w → f w = w) (s : List Char) : mapWords f s = s := by
  induction s using words_induction with
  | nil => rfl
  | gap c s hc ih => rw [mapWords_cons hc, ih]
  | word w s hw hs ih => rw [mapWords_append hw hs, ih, h w hw]

/-- Two rounds are one: the second goes over what the first made of each word. -/
theorem mapWords_mapWords (s : List Char) :
    mapWords g (mapWords f s) = mapWords (fun w => mapWords g (f w)) s := by
  induction s using words_induction with
  | nil => rfl
  | gap c s hc ih => rw [mapWords_cons hc, mapWords_cons hc, mapWords_cons hc, ih]
  | word w s hw hs ih =>
    rw [mapWords_append hw hs, mapWords_append hw hs, mapWords_append_gap (isGap_mapWords hs), ih]

end Kindred.Text
