import Kindred.Proofs.Formula.Reach
import Kindred.Proofs.Formula.Shown

/-!
# Words without a meaning

A word of a formula that is no name and no notation is left in the expression that is worked out.
A dialect without functions reads no names, so it refuses the expression, unless nothing asks for
the word: it stands in a comment, or it is the exponent of the numeral in front of it. The names of
the two constants are left aside.

- `Stray`: a word without a meaning, with what stands around it.
- `Spared`: the places where such a word is not looked at.
- `Shows.run_eq`: comments are where they were.
- `spared_of_accepts`: what becomes of the word in an expression that is accepted.
- `evaluateStrict_of_stray`: a formula with such a word fails.
-/

namespace Kindred.Formula

open Kindred.Text

variable {σ : Type} {d : Dialect} {bs : Bindings} {joined : Bool} {s t u v w x : List Char}

/-! ### Words and places -/

/-- Whether a word of a text, with what stands in front of it and behind it, is no number, no name
that is bound, and no notation that is rolled there. -/
structure Stray (d : Dialect) (bs : Bindings) (u w v : List Char) : Prop where
  apart : EndsApart u
  word : IsWord w
  gap : IsGap v
  initial : ∀ c ∈ w.head?, isDecimal c = false
  name : ∀ b ∈ bs, b.1 ∈ d.parameters → b.1.toList ≠ w
  dice : joinedAfter false u = false → ∀ t ∈ diceAt? w, t.text = w → t.form ∉ d.dice

theorem stray_iff : Stray d bs u w v ↔
    (u.getLast?.all (!isWordChar ·) = true ∧ w ≠ [] ∧ w.all isWordChar = true ∧
      v.head?.all (!isWordChar ·) = true ∧ w.head?.all (!isDecimal ·) = true) ∧
    (∀ b ∈ bs, b.1 ∈ d.parameters → b.1.toList ≠ w) ∧
    (joinedAfter false u = false → ∀ t ∈ diceAt? w, t.text = w → t.form ∉ d.dice) := by
  have hall : ∀ {o : Option Char} {p : Char → Bool},
      o.all (!p ·) = true ↔ ∀ c ∈ o, p c = false := by
    intro o p
    cases o <;> simp
  rw [hall, hall, hall, List.all_eq_true]
  constructor
  · intro h
    exact ⟨⟨h.apart, h.word.ne_nil, h.word.all, h.gap, h.initial⟩, h.name, h.dice⟩
  · rintro ⟨⟨hu, hne, hw, hv, hinitial⟩, hname, hdice⟩
    exact ⟨hu, ⟨hne, hw⟩, hv, hinitial, hname, hdice⟩

instance : Decidable (Stray d bs u w v) := decidable_of_iff _ stray_iff.symm

/-- Whether a word ends as the exponent of a numeral does: with digits, or in front of a sign with
digits. -/
def IsExponent (w v : List Char) : Prop :=
  ∃ c ds, w = c :: ds ∧ (c = 'e' ∨ c = 'E') ∧ (∀ k ∈ ds, k.isDigit = true) ∧
    (ds = [] → ∃ sign k v', v = sign :: k :: v' ∧ (sign = '-' ∨ sign = '+') ∧
      isWordChar k = true)

/-- Where a word is not looked at: in a comment, and as an exponent behind a point or behind the
notation that it starts with. -/
inductive Spared (d : Dialect) (u w v : List Char) : Prop
  | comment (h : (Scan.outside.run u).isInside = true)
  | exponent (h : IsExponent w v) {u' : List Char} {k : Char} (hu : u = u' ++ [k, '.'])
      (hk : isWordChar k = true)
  | total {t : DiceToken} {rest : List Char} (h : IsExponent rest v) (ht : diceAt? w = some t)
      (hform : t.form ∈ d.dice) (hw : w = t.text ++ rest) (hjoined : joinedAfter false u = false)

/-! ### Blanks at the ends -/

theorem joins_of_isBlank {c : Char} (h : isBlank c = true) : joins c = false := by
  have hpoint : c ≠ '.' := ne_of_apart h (by decide)
  simp [joins, isWordChar_of_isBlank h, hpoint]

/-- Behind blanks a notation may start, as it may at the start of a text. -/
theorem joinedAfter_dropBlanks (u : List Char) :
    joinedAfter false (dropBlanks u) = joinedAfter false u := by
  by_cases hu : dropBlanks u = []
  · have hblank : ∀ c ∈ u, isBlank c = true := List.dropWhile_eq_nil_iff.mp hu
    rw [hu]
    unfold joinedAfter
    cases hlast : u.getLast? with
    | none => rfl
    | some c => exact (joins_of_isBlank (hblank c (List.mem_of_getLast? hlast))).symm
  · have hsplit : u = u.takeWhile isBlank ++ dropBlanks u := List.takeWhile_append_dropWhile.symm
    conv_rhs => rw [hsplit]
    exact (joinedAfter_append hu false).symm

theorem Stray.trimmed (h : Stray d bs u w v) :
    Stray d bs (dropBlanks u) w (dropBlanksRight v) := by
  refine ⟨?_, h.word, ?_, h.initial, h.name, ?_⟩
  · by_cases hu : dropBlanks u = []
    · rw [hu]
      exact nofun
    · refine EndsApart.of_append (u := u.takeWhile isBlank) ?_ hu
      have happend : u.takeWhile isBlank ++ dropBlanks u = u := List.takeWhile_append_dropWhile
      rw [happend]
      exact h.apart
  · obtain ⟨b, hb⟩ := dropBlanksRight_isPrefix v
    intro c hc
    refine h.gap c ?_
    rw [← hb]
    exact List.mem_head?_append_of_mem_head? hc
  · rw [joinedAfter_dropBlanks]
    exact h.dice

theorem IsExponent.append {w v : List Char} (h : IsExponent w v) (b : List Char) :
    IsExponent w (v ++ b) := by
  obtain ⟨c, ds, hw, hc, hds, hsign⟩ := h
  refine ⟨c, ds, hw, hc, hds, fun hnil => ?_⟩
  obtain ⟨sign, k, v', rfl, hrest⟩ := hsign hnil
  exact ⟨sign, k, v' ++ b, rfl, hrest⟩

theorem Spared.of_trimmed (h : Spared d (dropBlanks u) w (dropBlanksRight v)) :
    Spared d u w v := by
  have hsplit : u = u.takeWhile isBlank ++ dropBlanks u := List.takeWhile_append_dropWhile.symm
  obtain ⟨b, hb⟩ := dropBlanksRight_isPrefix v
  cases h with
  | comment h =>
    refine .comment ?_
    have hblanks : Scan.outside.run (u.takeWhile isBlank) = .outside := by
      by_cases hnil : u.takeWhile isBlank = []
      · rw [hnil]
        rfl
      · refine Scan.run_of_ne hnil (fun c hc => ?_) _
        have hblank : isBlank c = true := List.mem_takeWhile_imp hc
        exact ⟨ne_of_apart hblank (by decide), ne_of_apart hblank (by decide)⟩
    rw [hsplit, Scan.run_append, hblanks]
    exact h
  | @exponent h u' k hu hk =>
    have hu : u = (u.takeWhile isBlank ++ u') ++ [k, '.'] := by
      rw [List.append_assoc, ← hu]
      exact hsplit
    exact .exponent (hb ▸ h.append b) hu hk
  | total h ht hform hw hjoined =>
    refine .total (hb ▸ h.append b) ht hform hw ?_
    rwa [joinedAfter_dropBlanks] at hjoined

/-! ### Comments -/

theorem ne_of_isWordChar {c : Char} (h : isWordChar c = true) : c ≠ '/' ∧ c ≠ '*' :=
  ⟨ne_of_apart h (by decide), ne_of_apart h (by decide)⟩

/-- Comments are where they were. -/
theorem Shows.run_eq (h : Shows d bs joined s t) (st : Scan) : st.run t = st.run s := by
  induction h generalizing st with
  | nil => rfl
  | gap hc h ih => exact ih _
  | word hw hs hx h ih =>
    obtain ⟨hne, hchars⟩ := hx.chars hw
    have hshown := Scan.run_of_ne hne fun c hc => by
      rcases hchars c hc with h | h
      · exact ne_of_isWordChar h
      · exact ⟨ne_of_mem_of_not_mem h (by decide), ne_of_mem_of_not_mem h (by decide)⟩
    rw [Scan.run_append, Scan.run_append, hshown,
      Scan.run_of_ne hw.ne_nil fun c hc => ne_of_isWordChar (hw.all c hc), ih]

/-! ### Exponents -/

/-- An exponent without a sign takes a word whole where reading goes on behind a number. -/
theorem eq_digits_of_append {r r' : Reading} {column : Nat} {ds rest v' : List Char}
    (hword : ∀ c ∈ w, isWordChar c = true) (hgap : IsGap v') (hds : ∀ c ∈ ds, c.isDigit = true)
    (h : w ++ v' = ds ++ rest) (hrest : ∀ c ∈ rest.head?, c.isDigit = false)
    (hr : Accepts r (readFrom column rest) r') (hoperator : r.expect = .operator) : w = ds := by
  rcases List.append_eq_append_iff.mp h with ⟨a, rfl, rfl⟩ | ⟨a, rfl, rfl⟩
  · cases a with
    | nil => exact (List.append_nil w).symm
    | cons k a =>
      have hk := isWordChar_of_isDigit (hds k (by simp))
      rw [isGap_cons.mp hgap] at hk
      cases hk
  · cases a with
    | nil => exact List.append_nil ds
    | cons k a =>
      -- a letter behind the digits would have to start a constant
      have hk : IsInitial k := ⟨hword k (by simp), hrest k rfl⟩
      have htakes := (hr.constant rfl hk).1
      rw [hoperator] at htakes
      cases htakes

/-- An exponent in front of a place where reading goes on behind a number takes the word that it
starts with. -/
theorem isExponent_of_append {r r' : Reading} {column : Nat} {e : Exponent} {rest v' : List Char}
    (hw : IsWord w) (hv : IsGap v) (hshown : Shows d bs true v v') (h : w ++ v' = e.text ++ rest)
    (hrest : ∀ c ∈ rest.head?, c.isDigit = false) (hr : Accepts r (readFrom column rest) r')
    (hoperator : r.expect = .operator) : IsExponent w v := by
  obtain ⟨c, w, rfl⟩ := List.exists_cons_of_ne_nil hw.ne_nil
  change c :: (w ++ v') = e.letter :: (e.sign ++ e.digits ++ rest) at h
  obtain ⟨rfl, htail⟩ := List.cons.inj h
  by_cases hsign : e.sign = []
  · rw [hsign, List.nil_append] at htail
    have hdone : w = e.digits := eq_digits_of_append
      (fun k hk => hw.all k (List.mem_cons_of_mem _ hk)) (hshown.isGap hv) e.isDigit htail hrest hr
      hoperator
    exact ⟨_, _, rfl, e.isLetter, hdone ▸ e.isDigit, fun hnil => absurd (hdone ▸ hnil) e.ne_nil⟩
  · obtain ⟨sign, hsign', hmem⟩ : ∃ k, e.sign = [k] ∧ (k = '-' ∨ k = '+') := by
      rcases e.isSign with h | h | h
      · exact absurd h hsign
      · exact ⟨_, h, .inl rfl⟩
      · exact ⟨_, h, .inr rfl⟩
    obtain ⟨k, ds, hds⟩ := List.exists_cons_of_ne_nil e.ne_nil
    rw [hsign', hds] at htail
    have hapart : isWordChar sign = false := by rcases hmem with rfl | rfl <;> decide
    cases w with
    | nil =>
      have hv' : v' = sign :: k :: (ds ++ rest) := htail
      rw [hv'] at hshown
      have hk := isWordChar_of_isDigit (e.isDigit k (by rw [hds]; simp))
      obtain ⟨k', v'', hv'', hk'⟩ := hshown.of_sign hv hk
      exact ⟨_, [], rfl, e.isLetter, List.forall_mem_nil _,
        fun _ => ⟨sign, k', v'', hv'', hmem, hk'⟩⟩
    | cons j w =>
      obtain rfl : j = sign := (List.cons.inj htail).1
      rw [hw.all j (by simp)] at hapart
      cases hapart

/-- What stands in front of an exponent that starts a word is a numeral with a point at its end. -/
theorem IsMantissa.of_endsApart {m : List Char} (h : IsMantissa m) (hm : EndsApart m) :
    ∃ ds, m = ds ++ ['.'] ∧ IsWord ds := by
  have hnot : ∀ {ds u : List Char}, ds ≠ [] → (∀ c ∈ ds, c.isDigit = true) → EndsApart (u ++ ds) →
      False := fun hne hds hend =>
    not_endsApart_word (isWord_of_isDigit hne hds) (hend.of_append hne)
  obtain ⟨whole, part, rfl, hwhole, rfl | ⟨ds, rfl, hds⟩⟩ := h.parts
  · rw [List.append_nil] at hm h
    exact (hnot (u := []) h.ne_nil hwhole hm).elim
  · by_cases hnil : ds = []
    · subst hnil
      refine ⟨whole, rfl, isWord_of_isDigit ?_ hwhole⟩
      rintro rfl
      obtain ⟨c, hc, hdigit⟩ := h.digit
      obtain rfl := List.mem_singleton.mp hc
      exact absurd hdigit (by decide)
    · refine (hnot (u := whole ++ ['.']) hnil hds ?_).elim
      rwa [List.append_assoc]

theorem exists_of_not_endsApart (h : ¬ EndsApart s) :
    ∃ u k, s = u ++ [k] ∧ isWordChar k = true := by
  rcases List.eq_nil_or_concat s with rfl | ⟨u, k, rfl⟩
  · exact absurd nofun h
  · refine ⟨u, k, List.concat_eq_append, ?_⟩
    cases hk : isWordChar k with
    | true => rfl
    | false =>
      refine absurd (fun c hc => ?_) h
      rw [List.concat_eq_append, List.getLast?_concat] at hc
      cases hc
      exact hk

/-- A numeral that a text shows at its end, with a point behind it, ends a word of the text. -/
theorem Shows.of_mantissa {m : List Char} (h : Shows d bs joined s (t ++ m)) (hm : IsMantissa m)
    (hend : EndsApart (t ++ m)) : ∃ u k, s = u ++ [k, '.'] ∧ isWordChar k = true := by
  obtain ⟨ds, rfl, hds⟩ := hm.of_endsApart (hend.of_append hm.ne_nil)
  rw [← List.append_assoc] at h
  obtain ⟨p, rfl, hp⟩ := h.of_concat_point
  have hword : ¬ EndsApart p := fun hapart =>
    not_endsApart_word hds ((hp.endsApart hapart).of_append hds.ne_nil)
  obtain ⟨u, k, rfl, hk⟩ := exists_of_not_endsApart hword
  exact ⟨u, k, by simp, hk⟩

/-! ### What becomes of the word -/

/-- The text of a total is made of digits, behind a minus sign or not. -/
theorem intText_chars (n : Int) : intText n ≠ [] ∧ (∀ c ∈ intText n, c ≠ '/' ∧ c ≠ '*') ∧
    ∀ c ∈ (intText n).getLast?, c.isDigit = true := by
  have hnat : ∀ {k : Nat} {c : Char}, c ∈ natText k → c ≠ '/' ∧ c ≠ '*' := fun hc =>
    ne_of_isWordChar (isWordChar_of_isDigit (isDigit_of_mem_natText hc))
  cases n with
  | ofNat n =>
    exact ⟨natText_ne_nil n, fun _ => hnat, fun c hc =>
      isDigit_of_mem_natText (List.mem_of_getLast? hc)⟩
  | negSucc n =>
    refine ⟨List.cons_ne_nil _ _, List.forall_mem_cons.mpr ⟨by decide, fun _ => hnat⟩, ?_⟩
    intro c hc
    change c ∈ (['-'] ++ natText (n + 1)).getLast? at hc
    rw [List.getLast?_append_of_ne_nil _ (natText_ne_nil _)] at hc
    exact isDigit_of_mem_natText (List.mem_of_getLast? hc)

theorem isInitial_of_isDecimal {c : Char} (hc : isWordChar c = true)
    (hdigit : isDecimal c = false) : IsInitial c := by
  refine ⟨hc, ?_⟩
  cases hd : c.isDigit with
  | false => rfl
  | true =>
    rw [isDecimal_of_isDigit hd] at hdigit
    cases hdigit

/-- A word that is left as it was is not looked at, or it names a constant. -/
theorem Stray.spared_of_kept {names : Bindings} {u' v' : List Char} (h : Stray d bs u w v)
    (hu : Shows d names false u u') (hv : Shows d names true v v') {r r' : Reading} {column : Nat}
    (hr : Accepts r (readFrom column (u' ++ (w ++ v'))) r') :
    Spared d u w v ∨ w = ['E'] ∨ w = ['P', 'I'] := by
  have hinitial : ∀ c ∈ w.head?, IsInitial c := fun c hc =>
    isInitial_of_isDecimal (h.word.all c (List.mem_of_mem_head? hc)) (h.initial c hc)
  obtain ⟨c, y, hcons, -⟩ := h.word.exists_cons
  have hhead : c ∈ w.head? := by rw [hcons]; rfl
  have hfront : c ∈ (w ++ v').head? := by rw [hcons]; rfl
  have hapart : EndsApart u' := hu.endsApart h.apart
  have hend : ∀ k ∈ u'.getLast?, isWordChar k = true → k.isDigit = true := by
    intro k hk hword
    rw [hapart k hk] at hword
    cases hword
  have hreach := hr.reaches (.inl rfl : Scan.outside.InStep _) hend ⟨c, hfront, hinitial c hhead⟩
  cases hreach with
  | inside hinside =>
    rw [hu.run_eq] at hinside
    exact .inl (.comment hinside)
  | apart hnext _ => exact .inr (hnext.constant_word h.word (hv.isGap h.gap) hinitial)
  | astride e hm hs ht hfollow hnext hoperator =>
    subst hs
    obtain ⟨p, k, rfl, hk⟩ := hu.of_mantissa hm hapart
    exact .inl (.exponent (isExponent_of_append h.word h.gap hv ht hfollow hnext hoperator) rfl hk)

/-- What is left of a word behind the total of its notation is not looked at. -/
theorem Stray.spared_of_total {names : Bindings} {u' v' rest : List Char} {token : DiceToken}
    {n : Int} (h : Stray d bs u w v) (hu : Shows d names false u u') (hv : Shows d names true v v')
    (hjoined : joinedAfter false u = false) (ht : diceAt? w = some token)
    (hform : token.form ∈ d.dice) (hsplit : w = token.text ++ rest) {r r' : Reading} {column : Nat}
    (hr : Accepts r (readFrom column (u' ++ (intText n ++ rest ++ v'))) r') : Spared d u w v := by
  obtain ⟨-, rest', hsplit', hdigit⟩ := isNotation_of_diceAt? ht
  obtain rfl := List.append_cancel_left (hsplit.symm.trans hsplit')
  obtain ⟨hne, hchars, hlast⟩ := intText_chars n
  -- the notation is not the whole word
  have hrest : rest ≠ [] := by
    rintro rfl
    rw [List.append_nil] at hsplit
    exact h.dice hjoined token ht hsplit.symm hform
  have hword : IsWord rest := by
    refine ⟨hrest, fun c hc => h.word.all c ?_⟩
    rw [hsplit]
    exact List.mem_append_right _ hc
  obtain ⟨c, y, rfl, hc, -⟩ := hword.exists_cons
  have hinitial : IsInitial c := isInitial_of_isDecimal hc hdigit
  rw [List.append_assoc, ← List.append_assoc u'] at hr
  have hend : ∀ k ∈ (u' ++ intText n).getLast?, k.isDigit = true := by
    rwa [List.getLast?_append_of_ne_nil _ hne]
  have hreach := hr.reaches (.inl rfl : Scan.outside.InStep _) (fun k hk _ => hend k hk)
    ⟨c, rfl, hinitial⟩
  cases hreach with
  | inside hinside =>
    rw [Scan.run_append, Scan.run_of_ne hne hchars, Scan.isInside_settled, hu.run_eq] at hinside
    exact .comment hinside
  | apart hnext hoperator =>
    have htakes := (hnext.constant rfl hinitial).1
    obtain ⟨k, hk⟩ : ∃ k, k ∈ (u' ++ intText n).getLast? := by
      rw [List.getLast?_append_of_ne_nil _ hne, List.getLast?_eq_some_getLast hne]
      exact ⟨_, rfl⟩
    rw [hoperator k hk (hend k hk)] at htakes
    cases htakes
  | astride e hm hs ht' hfollow hnext hoperator =>
    exact .total (isExponent_of_append hword h.gap hv ht' hfollow hnext hoperator) ht hform hsplit
      hjoined

/-- A word without a meaning is not looked at in an expression that is accepted, or it names a
constant. -/
theorem Stray.spared_of_accepts {names : Bindings} (h : Stray d bs u w v)
    (hnames : ∀ b ∈ names, b ∈ bs ∧ b.1 ∈ d.parameters)
    (hshown : Shows d names false (u ++ (w ++ v)) t) {r r' : Reading} {column : Nat}
    (hr : Accepts r (readFrom column t) r') : Spared d u w v ∨ w = ['E'] ∨ w = ['P', 'I'] := by
  obtain ⟨u', x, v', rfl, hu', hx, hv'⟩ := hshown.split h.apart h.word h.gap
  cases hx with
  | value hmem hname =>
    obtain ⟨hb, hparameter⟩ := hnames _ hmem
    exact absurd hname.symm (h.name _ hb hparameter)
  | total n hname hjoined ht hform hsplit =>
    exact .inl (h.spared_of_total hu' hv' hjoined ht hform hsplit hr)
  | kept hname ht => exact h.spared_of_kept hu' hv' hr

/-! ### Formulas -/

section Formulas

variable {text : String} {src : Source σ} {w₀ w₁ : World σ}

/-- The expression that is left when the dice are rolled is refused if the formula holds a word
without a meaning. -/
theorem Stray.exists_refusal (hd : d ∈ Dialect.builtin) (hfunctions : d.functions = false)
    (hbs : ∀ x ∈ d.parameters, ∀ n, (x, n) ∈ bs → ∃ k, n = .int k)
    (htext : text.toList = u ++ (w ++ v)) (h : Stray d bs u w v) (hspared : ¬ Spared d u w v)
    (hconstant : w ≠ ['E'] ∧ w ≠ ['P', 'I']) {r : Rolled}
    (hr : rollPieces d (pieces (namedText d bs text)) src w₀ = .ok r w₁) :
    ∃ why, evaluate d (String.ofList r.text) = .error (.formula why) := by
  by_contra hnot
  push Not at hnot
  obtain ⟨r', -, -, -, haccepts, -⟩ := accepts_of_evaluate hfunctions hnot
  rw [String.toList_ofList] at haccepts
  have hnames : ∀ b ∈ longestFirst (bs.within d.parameters), b ∈ bs ∧ b.1 ∈ d.parameters :=
    fun b hb => mem_within.mp ((sortBy_perm _ _).mem_iff.mp hb)
  rw [namedText_eq_mapWords hd hfunctions hbs, htext, trim_append h.word] at hr
  have hshown := shows_of_rolled (fun b hb => hbs b.1 (hnames b hb).2 b.2 (hnames b hb).1) hr
  rcases h.trimmed.spared_of_accepts hnames hshown haccepts with hs | hs | hs
  · exact hspared hs.of_trimmed
  · exact hconstant.1 hs
  · exact hconstant.2 hs

/-- A formula whose dice are rolled fails if it holds a word without a meaning. -/
theorem Stray.fails_of_rolled (hd : d ∈ Dialect.builtin) (hfunctions : d.functions = false)
    (hbs : ∀ x ∈ d.parameters, ∀ n, (x, n) ∈ bs → ∃ k, n = .int k) (hwritable : Writable d bs)
    (htext : text.toList = u ++ (w ++ v)) (h : Stray d bs u w v) (hspared : ¬ Spared d u w v)
    (hconstant : w ≠ ['E'] ∧ w ≠ ['P', 'I']) {r : Rolled}
    (hr : rollPieces d (pieces (namedText d bs text)) src w₀ = .ok r w₁) :
    ∃ why w', evaluateStrict d bs text src w₀ = .error (.formula why) w' := by
  cases hblank : isBlankString text with
  | true => exact ⟨_, w₀, evaluateStrict_of_blank hblank⟩
  | false =>
    obtain ⟨why, hwhy⟩ := h.exists_refusal hd hfunctions hbs htext hspared hconstant hr
    have hvalue : Roll.evaluate d (String.ofList r.text) src w₁ = _ :=
      Roll.evaluate_of_formula hwhy
    rw [evaluateStrict_of_writable hblank hwritable]
    exact ⟨why, _, bind_error_iff.mpr (.inr ⟨r, w₁, hr, bind_pure_error_iff.mpr hvalue⟩)⟩

/-- A formula with a word without a meaning has no value, whatever stands around the word, whatever
integers the names are bound to and whatever the dice show, unless the word is not looked at where
it stands or names a constant. It fails as a formula, if no count of its notations is too long to be
read, and no value of a name and no total of a notation too long to be written. -/
theorem evaluateStrict_of_stray (hd : d ∈ Dialect.builtin) (hfunctions : d.functions = false)
    (hbs : ∀ x ∈ d.parameters, ∀ n, (x, n) ∈ bs → ∃ k, n = .int k)
    (htext : text.toList = u ++ (w ++ v)) (h : Stray d bs u w v) (hspared : ¬ Spared d u w v)
    (hconstant : w ≠ ['E'] ∧ w ≠ ['P', 'I'])
    (hends : (evaluateStrict d bs text : Roll σ Evaluation).Ends src w₀) :
    (∀ e w', evaluateStrict d bs text src w₀ ≠ .ok e w') ∧
      (Writable d bs → (∀ t, ¬ IsUncountable d bs text t) → ¬ IsOverlong d bs text src w₀ →
        ∃ why w', evaluateStrict d bs text src w₀ = .error (.formula why) w') := by
  have hfails := fun hwritable r w₁ => @Stray.fails_of_rolled σ d bs u v w text src w₀ w₁ hd
    hfunctions hbs hwritable htext h hspared hconstant r
  have hvalue : ∀ e w', evaluateStrict d bs text src w₀ ≠ .ok e w' := by
    intro e w' hrun
    obtain ⟨-, hwritable, r, w₁, -, hr, -⟩ := evaluateStrict_ok_iff.mp hrun
    obtain ⟨why, w', hwhy⟩ := hfails hwritable r w₁ hr
    rw [hrun] at hwhy
    cases hwhy
  refine ⟨hvalue, fun hwritable hcounts htotals => ?_⟩
  cases hrun : evaluateStrict d bs text src w₀ with
  | ok e w' => exact absurd hrun (hvalue e w')
  | error e w' =>
    cases evaluateStrict_error hrun with
    | formula why => exact ⟨why, w', rfl⟩
    | endless => exact absurd hrun (hends w')
    | boundless hboundless =>
      -- the dice were rolled, so the formula fails before it can have too large a value
      obtain ⟨named, r, w₁, -, -, -, hnamed, hr, -⟩ := hboundless
      rw [replaceNames_of_writable hwritable] at hnamed
      cases hnamed
      rw [← hrun]
      exact hfails hwritable r w₁ hr
    | uncountable ht => exact absurd ht (hcounts _)
    | unwritable hnot => exact absurd hwritable hnot
    | overlong hlong => exact absurd hlong htotals

end Formulas

/-! ### Samples -/

/-- The names of the siblings' dialect, bound to thirty. -/
def sampleNames : Bindings := [("characterApparentAge", .int 30), ("characterAge", .int 30)]

/-- A formula with a name that the dialect does not have fails. -/
theorem evaluateStrict_of_stray_sample : ∃ why w', evaluateStrict .sibling sampleNames
    "characterAge + foo" (Source.constant 3 0) (World.start ()) = .error (.formula why) w' := by
  have hstray : Stray .sibling sampleNames "characterAge + ".toList "foo".toList [] := by
    decide +kernel
  have hspared : ¬ Spared .sibling "characterAge + ".toList "foo".toList [] := by
    rintro (h | ⟨⟨c, ds, hw, hc, -⟩, -, -⟩ | ⟨-, ht, -⟩)
    · exact absurd h (by decide)
    · obtain ⟨rfl, -⟩ := List.cons.inj hw
      exact absurd hc (by decide)
    · cases ht
  have hends : (evaluateStrict .sibling sampleNames "characterAge + foo").Ends
      (Source.constant 3 0) (World.start ()) := by
    have hfault : faultOf? (evaluateStrict .sibling sampleNames "characterAge + foo"
        (Source.constant 3 0) (World.start ())) ≠ some .endless := by
      decide +kernel
    intro w' h
    rw [h] at hfault
    exact hfault rfl
  have hnamed : ∀ named, replaceNames .sibling sampleNames "characterAge + foo" = .ok named →
      pieces named = "30 + foo".toList.map .char := by
    have hpieces : (replaceNames .sibling sampleNames "characterAge + foo").map pieces =
        .ok ("30 + foo".toList.map .char) := by
      decide +kernel
    intro named h
    rw [h] at hpieces
    exact Except.ok.inj hpieces
  have hdice : ∀ t, .dice t ∉ "30 + foo".toList.map Piece.char := by simp
  refine (evaluateStrict_of_stray (by decide) rfl ?_ rfl hstray hspared (by decide) hends).2
    (by decide) ?_ ?_
  · intro x _ n hn
    have hall : ∀ b ∈ sampleNames, b.2 = .int 30 := by simp [sampleNames]
    exact ⟨30, hall _ hn⟩
  · rintro t ⟨named, h, ht, -⟩
    rw [hnamed named h] at ht
    exact hdice t ht
  · rintro ⟨named, h, front, t, rest, -, -, -, -, -, hsplit, -⟩
    rw [hnamed named h] at hsplit
    exact hdice t (hsplit ▸ List.mem_append_right front List.mem_cons_self)

/-- Whether a formula has a value in a sample although it holds a word without a meaning. -/
def HasValueWith (u w v : List Char) : Prop :=
  Stray .sibling sampleNames u w v ∧ ∃ e w', evaluateStrict .sibling sampleNames
    (String.ofList (u ++ (w ++ v))) (Source.constant 3 0) (World.start ()) = .ok e w'

theorem hasValueWith_of_check (h : Stray .sibling sampleNames u w v ∧
    faultOf? (evaluateStrict .sibling sampleNames (String.ofList (u ++ (w ++ v)))
      (Source.constant 3 0) (World.start ())) = none) : HasValueWith u w v := by
  refine ⟨h.1, ?_⟩
  have hfault := h.2
  cases hrun : evaluateStrict .sibling sampleNames (String.ofList (u ++ (w ++ v)))
      (Source.constant 3 0) (World.start ()) with
  | ok e w' => exact ⟨e, w', rfl⟩
  | error e w' =>
    rw [hrun] at hfault
    cases hfault

/-- In a comment or as an exponent such a word need not make a formula fail. -/
theorem hasValueWith_samples : HasValueWith "1/*".toList "foo".toList "*/+2".toList ∧
    HasValueWith "1.".toList "e5".toList [] ∧ HasValueWith [] "Ob1T6e5".toList [] := by
  refine ⟨?comment, ?exponent, ?total⟩ <;>
    exact hasValueWith_of_check (by decide +kernel)

end Kindred.Formula
