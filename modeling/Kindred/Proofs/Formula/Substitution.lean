import Mathlib.Data.List.Nodup
import Mathlib.Data.List.TakeWhile
import Kindred.Formula.Evaluate
import Kindred.Proofs.Text.Words

/-!
# Names and their values in a text

Names are replaced one after the other, each wherever it stands as a whole word. What comes in for a
name holds no name: it is a numeral, in brackets behind a minus sign where the value is negative. So
nothing that was put in is replaced again, and the rounds are one round, in which every word that is
a name makes place for its value. Every value is written, so there is no text at all if one of them
is an integer with too many digits.

- `replaceWord_eq_mapWords`: one name.
- `IsName`: names that no value is mistaken for.
- `valueOf`: what a word makes place for.
- `substitute_of_writable`, `substitute_of_not_writable`: all names, if their values can be written.
- `replaceAll_eq_mapWords`: all names in one round.
- `Writable`, `namedText`: the names of a dialect in a formula.
- `ReplacesWord`, `Replaces`: what a word becomes, and a text, said without an order of the names.
- `substitute_simultaneous`: the rounds are that one replacement, in whatever order they come.
- `not_substitute_overlong`: a value with too many digits, although its name does not occur.
-/

namespace Kindred.Formula

open Kindred.Text

/-! ### One name -/

theorem startsWithWord_eq_false_iff {s : List Char} : startsWithWord s = false ↔ IsGap s := by
  cases s with
  | nil => exact iff_of_true rfl isGap_nil
  | cons c s => exact isGap_cons.symm

variable {name value : List Char}

/-- At the start of a word a name stands exactly if it is that word. -/
theorem matchesWord_append (hname : IsWord name) {w s : List Char} (hw : IsWord w) (hs : IsGap s) :
    matchesWord name false (w ++ s) = true ↔ name = w := by
  obtain ⟨c, u, rfl, hc, -⟩ := hw.exists_cons
  have hlast : (name.getLast?.map isWordChar).getD false = true := by
    rw [List.getLast?_eq_some_getLast hname.ne_nil, Option.map_some, Option.getD_some]
    exact hname.all _ (List.getLast_mem _)
  have hedge : isEdge false (c :: u ++ s) = true := by
    show (false != isWordChar c) = true
    rw [hc]
    rfl
  unfold matchesWord
  rw [hedge, hlast, Bool.true_and, Bool.and_eq_true, List.isPrefixOf_iff_prefix]
  constructor
  · rintro ⟨⟨t, ht⟩, hend⟩
    rw [← ht, List.drop_left] at hend
    have ht' : IsGap t := by
      rw [← startsWithWord_eq_false_iff]
      simpa [isEdge] using hend
    -- name and word are both the run of word characters at the front
    have hspan := span_append hname.all ht'
    rw [ht, span_append hw.all hs] at hspan
    exact (Prod.mk.inj hspan).1.symm
  · rintro rfl
    refine ⟨List.prefix_append _ _, ?_⟩
    rw [List.drop_left]
    show (true != startsWithWord s) = true
    rw [startsWithWord_eq_false_iff.mpr hs]
    rfl

/-- In front of a character between words no name stands. -/
theorem matchesWord_of_isGap (hname : IsWord name) {before : Bool} {s : List Char} (hs : IsGap s) :
    matchesWord name before s = false := by
  obtain ⟨c, u, rfl, hc, -⟩ := hname.exists_cons
  have hstart : (c :: u).isPrefixOf s = false := by
    cases s with
    | nil => rfl
    | cons d s =>
      have hne : (c == d) = false := beq_false_of_ne (ne_of_apart hc (isGap_cons.mp hs))
      rw [List.isPrefixOf, hne, Bool.false_and]
  unfold matchesWord
  rw [hstart, Bool.and_false, Bool.false_and]

theorem replaceFrom_of_not_matchesWord {before : Bool} {c : Char} {s : List Char}
    (h : matchesWord name before (c :: s) = false) :
    replaceFrom name value before 0 (c :: s) =
      c :: replaceFrom name value (isWordChar c) 0 s := by
  cases name <;> rw [replaceFrom, h, if_neg Bool.false_ne_true]

theorem replaceFrom_gap (hname : IsWord name) {before : Bool} {c : Char} {s : List Char}
    (hc : isWordChar c = false) :
    replaceFrom name value before 0 (c :: s) = c :: replaceWord name value s := by
  rw [replaceFrom_of_not_matchesWord (matchesWord_of_isGap hname (isGap_cons.mpr hc)), hc]
  rfl

/-- What follows a word is replaced by itself. -/
theorem replaceFrom_of_isGap (hname : IsWord name) {before : Bool} {s : List Char} (hs : IsGap s) :
    replaceFrom name value before 0 s = replaceWord name value s := by
  cases s with
  | nil =>
    show _ = replaceFrom name value false 0 []
    rw [replaceFrom, replaceFrom, matchesWord_of_isGap hname hs, matchesWord_of_isGap hname hs]
  | cons c s =>
    have hc := isGap_cons.mp hs
    rw [replaceFrom_gap hname hc]
    exact (replaceFrom_gap hname hc).symm

/-- Inside a word no name starts. -/
theorem replaceFrom_inside (hname : IsWord name) {u s : List Char}
    (hu : ∀ c ∈ u, isWordChar c = true) (hs : IsGap s) :
    replaceFrom name value true 0 (u ++ s) = u ++ replaceWord name value s := by
  induction u with
  | nil => exact replaceFrom_of_isGap hname hs
  | cons c u ih =>
    have hc := hu c List.mem_cons_self
    have hmatch : matchesWord name true (c :: (u ++ s)) = false := by
      have hedge : isEdge true (c :: (u ++ s)) = false := by
        show (true != isWordChar c) = false
        rw [hc]
        rfl
      unfold matchesWord
      rw [hedge, Bool.false_and, Bool.false_and]
    have hrest : ∀ d ∈ u, isWordChar d := fun d hd => hu d (List.mem_cons_of_mem c hd)
    rw [List.cons_append, replaceFrom_of_not_matchesWord hmatch, hc, ih hrest]
    rfl

/-- The characters of a name that was replaced are passed over. -/
theorem replaceFrom_skip (hname : IsWord name) {before : Bool} {u s : List Char} (hs : IsGap s) :
    replaceFrom name value before u.length (u ++ s) = replaceWord name value s := by
  induction u generalizing before with
  | nil => exact replaceFrom_of_isGap hname hs
  | cons c u ih =>
    rw [List.cons_append, List.length_cons, replaceFrom]
    exact ih

/-- A name is replaced wherever it is a whole word. -/
theorem replaceWord_eq_mapWords (hname : IsWord name) (s : List Char) :
    replaceWord name value s = mapWords (fun w => if w = name then value else w) s := by
  induction s using words_induction with
  | nil =>
    show replaceFrom name value false 0 [] = []
    rw [replaceFrom, matchesWord_of_isGap hname isGap_nil, if_neg Bool.false_ne_true]
  | gap c s hc ih =>
    rw [mapWords_cons hc, ← ih]
    exact replaceFrom_gap hname hc
  | word w s hw hs ih =>
    rw [mapWords_append hw hs, ← ih]
    have hmatch := matchesWord_append hname hw hs
    obtain ⟨c, u, rfl, hc, hu⟩ := hw.exists_cons
    rw [List.cons_append] at hmatch ⊢
    show replaceFrom name value false 0 (c :: (u ++ s)) = _
    by_cases heq : name = c :: u
    · subst heq
      rw [replaceFrom, if_pos (hmatch.mpr rfl), if_pos rfl, replaceFrom_skip hname hs]
    · have hnot : matchesWord name false (c :: (u ++ s)) = false :=
        Bool.eq_false_iff.mpr (mt hmatch.mp heq)
      rw [replaceFrom_of_not_matchesWord hnot, if_neg (Ne.symm heq), hc,
        replaceFrom_inside hname hu hs]
      rfl

/-! ### Values -/

/-- How an integer is written into a formula. -/
theorem valueText_int (n : Int) : valueText (.int n) =
    if n < 0 then '(' :: '-' :: natText n.natAbs ++ [')'] else natText n.natAbs := by
  cases n with
  | ofNat n =>
    rw [if_neg (by simp)]
    refine valueText_ofNat n fun h => ?_
    have hdigit := isDigit_of_mem_natText (List.mem_of_mem_head? h)
    exact absurd hdigit (by decide)
  | negSucc n =>
    rw [if_pos (Int.negSucc_lt_zero n)]
    rfl

/-- A name: a word that does not start with a digit. -/
structure IsName (x : List Char) : Prop extends IsWord x where
  head : ∀ c ∈ x.head?, c.isDigit = false

theorem isName_of_all {x : List Char} (hne : x ≠ []) (hall : x.all isWordChar = true)
    (hhead : (x.head?.all fun c => !c.isDigit) = true) : IsName x :=
  ⟨⟨hne, List.all_eq_true.mp hall⟩, fun c hc => by simpa [Option.mem_def.mp hc] using hhead⟩

theorem IsName.ne_natText {x : List Char} (hx : IsName x) (n : Nat) : x ≠ natText n := by
  rintro rfl
  obtain ⟨c, u, hcons⟩ := List.exists_cons_of_ne_nil (natText_ne_nil n)
  have hdigit : c.isDigit = true := isDigit_of_mem_natText (n := n) (by rw [hcons]; simp)
  rw [hx.head c (by rw [hcons]; rfl)] at hdigit
  cases hdigit

/-- What keeps every numeral keeps the text of every value. -/
theorem mapWords_valueText {f : List Char → List Char} (hf : ∀ n, f (natText n) = natText n)
    (n : Int) : mapWords f (valueText (.int n)) = valueText (.int n) := by
  rw [valueText_int]
  split
  · have hnum := isWord_natText n.natAbs
    have hclose : isWordChar ')' = false := by decide
    show mapWords f ('(' :: '-' :: (natText n.natAbs ++ [')'])) = _
    rw [mapWords_cons (by decide), mapWords_cons (by decide),
      mapWords_append hnum (isGap_cons.mpr hclose), hf, mapWords_cons hclose]
    rfl
  · rw [mapWords_word (isWord_natText _), hf]

/-! ### All names -/

/-- What a word makes place for: the value that it has, or else itself. -/
def valueOf (bs : Bindings) (w : List Char) : List Char :=
  match bs.find? fun b => b.1.toList = w with
  | some b => valueText b.2
  | none => w

/-- A word is a name, or it is none and stays. -/
theorem valueOf_cases (bs : Bindings) (w : List Char) :
    (∃ x n, (x, n) ∈ bs ∧ x.toList = w ∧ valueOf bs w = valueText n) ∨
      (∀ b ∈ bs, b.1.toList ≠ w) ∧ valueOf bs w = w := by
  unfold valueOf
  cases hfind : bs.find? fun b => b.1.toList = w with
  | some b =>
    have hw : b.1.toList = w := by simpa using List.find?_some hfind
    exact .inl ⟨b.1, b.2, List.mem_of_find?_eq_some hfind, hw, rfl⟩
  | none => exact .inr ⟨fun b hb => by simpa using List.find?_eq_none.mp hfind b hb, rfl⟩

theorem valueOf_of_ne {bs : Bindings} {w : List Char} (h : ∀ b ∈ bs, b.1.toList ≠ w) :
    valueOf bs w = w := by
  rcases valueOf_cases bs w with ⟨x, n, hx, hw, -⟩ | ⟨-, hself⟩
  · exact absurd hw (h _ hx)
  · exact hself

/-- A name that has one value only makes place for it. -/
theorem valueOf_of_mem {bs : Bindings} {x : String} {n : Number} (h : (x, n) ∈ bs)
    (hone : ∀ m, (x, m) ∈ bs → m = n) : valueOf bs x.toList = valueText n := by
  rcases valueOf_cases bs x.toList with ⟨y, m, hy, hyx, hvalue⟩ | ⟨hfree, -⟩
  · obtain rfl : y = x := String.toList_injective hyx
    rw [hvalue, hone m hy]
  · exact absurd rfl (hfree _ h)

theorem valueOf_cons {x : String} {n : Number} {bs : Bindings} {w : List Char} :
    valueOf ((x, n) :: bs) w = if w = x.toList then valueText n else valueOf bs w := by
  unfold valueOf
  by_cases h : w = x.toList
  · rw [List.find?_cons_of_pos (by simpa using h.symm), if_pos h]
  · rw [List.find?_cons_of_neg (by simpa using Ne.symm h), if_neg h]

/-- Names are replaced one after the other as they are in one round. -/
theorem foldl_replaceWord {bs : Bindings} (hbs : ∀ b ∈ bs, IsName b.1.toList ∧ ∃ n, b.2 = .int n)
    (s : List Char) : bs.foldl (fun s b => replaceWord b.1.toList (valueText b.2) s) s =
      mapWords (valueOf bs) s := by
  induction bs generalizing s with
  | nil => exact (mapWords_eq_self (fun w _ => rfl) s).symm
  | cons b bs ih =>
    obtain ⟨x, v⟩ := b
    obtain ⟨hx, n, rfl⟩ := hbs _ List.mem_cons_self
    have hrest := fun b hb => hbs b (List.mem_cons_of_mem _ hb)
    -- the later names leave the value of this one alone
    have hkeep : mapWords (valueOf bs) (valueText (.int n)) = valueText (.int n) :=
      mapWords_valueText
        (fun k => valueOf_of_ne fun b hb => (hrest b hb).1.ne_natText k) n
    rw [List.foldl_cons, ih hrest, replaceWord_eq_mapWords hx.toIsWord, mapWords_mapWords]
    refine mapWords_congr (fun w hw => ?_) s
    rw [valueOf_cons]
    by_cases h : w = x.toList
    · rw [if_pos h, if_pos h, hkeep]
    · rw [if_neg h, if_neg h, mapWords_word hw]

/-- All names replaced, the longest first. -/
def replaceAll (bs : Bindings) (s : List Char) : List Char :=
  (longestFirst bs).foldl (fun s b => replaceWord b.1.toList (valueText b.2) s) s

/-- All names make place for their values at once. -/
theorem replaceAll_eq_mapWords {bs : Bindings}
    (hbs : ∀ b ∈ bs, IsName b.1.toList ∧ ∃ n, b.2 = .int n) (s : List Char) :
    replaceAll bs s = mapWords (valueOf (longestFirst bs)) s :=
  foldl_replaceWord (fun b hb => hbs b ((sortBy_perm _ bs).mem_iff.mp hb)) s

/-! ### Values that can be written -/

theorem isWritable_int_iff {n : Int} : IsWritable (.int n) ↔ Short n := Iff.rfl

/-- A round in which a name is replaced, if its value can be written. -/
def replaceOne (s : List Char) (b : String × Number) : Except Fault (List Char) := do
  return replaceWord b.1.toList (← writeValue b.2) s

/-- The rounds go on as long as values can be written. -/
theorem foldlM_replaceOne_of_writable {bs : Bindings} (h : ∀ b ∈ bs, IsWritable b.2)
    (s : List Char) : bs.foldlM replaceOne s =
      .ok (bs.foldl (fun s b => replaceWord b.1.toList (valueText b.2) s) s) := by
  induction bs generalizing s with
  | nil => rfl
  | cons b bs ih =>
    obtain ⟨hb, hrest⟩ := List.forall_mem_cons.mp h
    have hwrite : writeValue b.2 = .ok (valueText b.2) := if_pos hb
    rw [List.foldlM_cons, replaceOne, hwrite]
    exact ih hrest _

theorem foldlM_replaceOne_of_not_writable {bs : Bindings} (h : ∃ b ∈ bs, ¬ IsWritable b.2)
    (s : List Char) : bs.foldlM replaceOne s = .error .integerTooLong := by
  induction bs generalizing s with
  | nil =>
    obtain ⟨b, hb, -⟩ := h
    cases hb
  | cons b bs ih =>
    rw [List.foldlM_cons, replaceOne, writeValue]
    split
    · next hwritable =>
      refine ih ?_ _
      obtain ⟨c, hc, hnot⟩ := h
      rcases List.mem_cons.mp hc with rfl | hc
      · exact absurd hwritable hnot
      · exact ⟨c, hc, hnot⟩
    · rfl

theorem substitute_of_writable {bs : Bindings} (h : ∀ b ∈ bs, IsWritable b.2) (s : List Char) :
    substitute bs s = .ok (replaceAll bs s) :=
  foldlM_replaceOne_of_writable (fun b hb => h b ((sortBy_perm _ bs).mem_iff.mp hb)) s

theorem substitute_of_not_writable {bs : Bindings} (h : ∃ b ∈ bs, ¬ IsWritable b.2)
    (s : List Char) : substitute bs s = .error .integerTooLong := by
  obtain ⟨b, hb, hnot⟩ := h
  exact foldlM_replaceOne_of_not_writable ⟨b, (sortBy_perm _ bs).mem_iff.mpr hb, hnot⟩ s

/-! ### The names of a dialect -/

section Dialect

variable {d : Dialect} {bs : Bindings}

/-- Whether the values of all names of a dialect can be written. -/
def Writable (d : Dialect) (bs : Bindings) : Prop := ∀ b ∈ bs.within d.parameters, IsWritable b.2

instance : Decidable (Writable d bs) :=
  inferInstanceAs (Decidable (∀ b ∈ bs.within d.parameters, IsWritable b.2))

/-- The text of a formula with its names replaced, if they can be written. -/
def namedText (d : Dialect) (bs : Bindings) (s : String) : List Char :=
  let bare := trim s.toList
  replaceAll (bs.within d.parameters) (if d.functions then dropMathPrefix bare else bare)

theorem replaceNames_of_writable (h : Writable d bs) (s : String) :
    replaceNames d bs s = .ok (namedText d bs s) := substitute_of_writable h _

theorem replaceNames_of_not_writable (h : ¬ Writable d bs) (s : String) :
    replaceNames d bs s = .error .integerTooLong := by
  unfold Writable at h
  push Not at h
  exact substitute_of_not_writable h _

end Dialect

/-! ### All names at once -/

/-- The decimal digits of an integer; a negative one has its sign in front, and brackets around. -/
def bracketed (n : Int) : List Char :=
  if n < 0 then '(' :: '-' :: natText n.natAbs ++ [')'] else natText n.natAbs

/-- What a word becomes: a name its value, and any other word itself. -/
inductive ReplacesWord (bs : Bindings) (w : List Char) : List Char → Prop
  | bound {x : String} {n : Int} (hx : (x, .int n) ∈ bs) (hw : x.toList = w) :
      ReplacesWord bs w (bracketed n)
  | free (hw : ∀ b ∈ bs, b.1.toList ≠ w) : ReplacesWord bs w w

/-- What a text becomes: every word in it, as far as the word goes, is looked up, and the characters
between the words stay. -/
inductive Replaces (bs : Bindings) : List Char → List Char → Prop
  | nil : Replaces bs [] []
  | gap {c : Char} {s t : List Char} (hc : isWordChar c = false) (h : Replaces bs s t) :
      Replaces bs (c :: s) (c :: t)
  | word {w x s t : List Char} (hw : IsWord w) (hs : IsGap s) (hx : ReplacesWord bs w x)
      (h : Replaces bs s t) : Replaces bs (w ++ s) (x ++ t)

section Simultaneous

variable {bs cs : Bindings} {s t w x : List Char}

/-- Where names are different, each has one value. -/
theorem value_unique (hone : (bs.map Prod.fst).Nodup) {x : String} {m n : Number}
    (hm : (x, m) ∈ bs) (hn : (x, n) ∈ bs) : m = n :=
  (Prod.mk.inj (List.inj_on_of_nodup_map hone hm hn rfl)).2

/-- The value of a name is found in whatever order the names are listed. -/
theorem valueOf_perm (hone : (bs.map Prod.fst).Nodup) (h : cs.Perm bs) (w : List Char) :
    valueOf cs w = valueOf bs w := by
  rcases valueOf_cases bs w with ⟨x, n, hx, rfl, hvalue⟩ | ⟨hfree, hself⟩
  · rw [hvalue]
    exact valueOf_of_mem (h.mem_iff.mpr hx) fun m hm => value_unique hone (h.mem_iff.mp hm) hx
  · rw [hself]
    exact valueOf_of_ne fun b hb => hfree b (h.mem_iff.mp hb)

theorem replacesWord_iff (hbs : ∀ b ∈ bs, ∃ n, b.2 = .int n) (hone : (bs.map Prod.fst).Nodup) :
    ReplacesWord bs w x ↔ valueOf bs w = x := by
  constructor
  · intro h
    cases h with
    | bound hx hw =>
      rw [← hw, valueOf_of_mem hx fun m hm => value_unique hone hm hx]
      exact valueText_int _
    | free hw => exact valueOf_of_ne hw
  · rintro rfl
    rcases valueOf_cases bs w with ⟨y, v, hy, hw, hvalue⟩ | ⟨hfree, hself⟩
    · obtain ⟨n, rfl⟩ := hbs _ hy
      rw [hvalue, valueText_int]
      exact .bound hy hw
    · rw [hself]
      exact .free hfree

/-- A text becomes one text, which is found word by word. -/
theorem replaces_iff (hbs : ∀ b ∈ bs, ∃ n, b.2 = .int n) (hone : (bs.map Prod.fst).Nodup) :
    Replaces bs s t ↔ mapWords (valueOf bs) s = t := by
  constructor
  · intro h
    induction h with
    | nil => rfl
    | gap hc h ih => rw [mapWords_cons hc, ih]
    | word hw hs hx h ih => rw [mapWords_append hw hs, (replacesWord_iff hbs hone).mp hx, ih]
  · rintro rfl
    induction s using words_induction with
    | nil => exact .nil
    | gap c s hc ih =>
      rw [mapWords_cons hc]
      exact .gap hc ih
    | word w s hw hs ih =>
      rw [mapWords_append hw hs]
      exact .word hw hs ((replacesWord_iff hbs hone).mpr rfl) ih

/-- Whether all values are integers, bound to different names. -/
structure BindsNames (bs : Bindings) : Prop where
  names : ∀ b ∈ bs, IsName b.1.toList ∧ ∃ n, b.2 = .int n
  nodup : (bs.map Prod.fst).Nodup

/-- Names that are replaced one after the other, the longest first, are replaced all at once, if
their values have at most 4300 digits. Nothing depends on the order in which they are listed, nor on
the order in which they are replaced. -/
theorem substitute_simultaneous (hbs : BindsNames bs) (hshort : ∀ x n, (x, .int n) ∈ bs → Short n)
    (s : List Char) :
    (∃ t, substitute bs s = .ok t ∧ ∀ t', Replaces bs s t' ↔ t = t') ∧
      ∀ cs : Bindings, cs.Perm bs → substitute cs s = substitute bs s ∧
        cs.foldlM replaceOne s = substitute bs s := by
  have hwritable : ∀ b ∈ bs, IsWritable b.2 := by
    rintro ⟨x, v⟩ hb
    obtain ⟨n, rfl⟩ := (hbs.names _ hb).2
    exact isWritable_int_iff.mpr (hshort x n hb)
  have hround : ∀ cs : Bindings, cs.Perm bs →
      cs.foldlM replaceOne s = .ok (mapWords (valueOf bs) s) := by
    intro cs h
    rw [foldlM_replaceOne_of_writable fun b hb => hwritable b (h.mem_iff.mp hb),
      foldl_replaceWord fun b hb => hbs.names b (h.mem_iff.mp hb)]
    exact congrArg Except.ok (mapWords_congr (fun w _ => valueOf_perm hbs.nodup h w) s)
  have hall : ∀ cs : Bindings, cs.Perm bs → substitute cs s = .ok (mapWords (valueOf bs) s) :=
    fun cs h => hround (longestFirst cs) ((sortBy_perm _ cs).trans h)
  refine ⟨⟨_, hall bs (.refl bs), fun t => ?_⟩, fun cs h => ⟨?_, ?_⟩⟩
  · exact replaces_iff (fun b hb => (hbs.names b hb).2) hbs.nodup
  · rw [hall cs h, hall bs (.refl bs)]
  · rw [hround cs h, hall bs (.refl bs)]

/-- Names of which one is the front of another, and one the end. -/
def nestedNames : Bindings := [("age", .int (-3)), ("age_2", .int 10), ("_age", .int 0)]

theorem bindsNames_nestedNames : BindsNames nestedNames := by
  refine ⟨?_, by decide⟩
  simp only [nestedNames, List.forall_mem_cons]
  refine ⟨⟨?_, -3, rfl⟩, ⟨?_, 10, rfl⟩, ⟨?_, 0, rfl⟩, List.forall_mem_nil _⟩
  all_goals exact isName_of_all (by decide) (by decide) (by decide)

/-- The longest first, and in the opposite order. -/
theorem substitute_simultaneous_nested :
    BindsNames nestedNames ∧ (∀ x n, (x, .int n) ∈ nestedNames → Short n) ∧
      Replaces nestedNames "age_2-age*_age+age2".toList "10-(-3)*0+age2".toList ∧
      substitute nestedNames.reverse "age_2-age*_age+age2".toList =
        .ok "10-(-3)*0+age2".toList ∧
      nestedNames.foldlM replaceOne "age_2-age*_age+age2".toList =
        .ok "10-(-3)*0+age2".toList := by
  have hshort : ∀ x n, (x, .int n) ∈ nestedNames → Short n := by
    have hall : ∀ b ∈ nestedNames, IsWritable b.2 := by decide
    exact fun x n hn => isWritable_int_iff.mp (hall _ hn)
  have hvalue : substitute nestedNames "age_2-age*_age+age2".toList =
      .ok "10-(-3)*0+age2".toList := by
    decide
  obtain ⟨⟨t, ht, hreplaces⟩, horder⟩ :=
    substitute_simultaneous bindsNames_nestedNames hshort "age_2-age*_age+age2".toList
  rw [hvalue] at ht
  cases ht
  refine ⟨bindsNames_nestedNames, hshort, (hreplaces _).mpr rfl, ?_, ?_⟩
  · exact (horder _ nestedNames.reverse_perm).1.trans hvalue
  · exact (horder _ (.refl _)).2.trans hvalue

/-- A name with a value of 4301 digits. -/
def overlongName : Bindings := [("age", .int overlong)]

/-- Such a value cannot be written, so that not even a text without the name is left as it is. -/
theorem not_substitute_overlong : BindsNames overlongName ∧
    Replaces overlongName ['1'] ['1'] ∧
    substitute overlongName ['1'] = .error .integerTooLong := by
  refine ⟨⟨?_, by decide⟩, ?_, ?_⟩
  · simp only [overlongName, List.forall_mem_cons]
    exact ⟨⟨isName_of_all (by decide) (by decide) (by decide), overlong, rfl⟩,
      List.forall_mem_nil _⟩
  · have hword : IsWord ['1'] := isWord_of_isDigit nofun (List.forall_mem_singleton.mpr rfl)
    refine .word hword isGap_nil (.free ?_) .nil
    simp [overlongName]
  · have hvalue : ¬ IsWritable (.int overlong) := mt isWritable_int_iff.mp not_short_overlong
    exact substitute_of_not_writable ⟨_, List.mem_singleton.mpr rfl, hvalue⟩ _

end Simultaneous

end Kindred.Formula
