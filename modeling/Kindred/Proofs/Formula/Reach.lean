import Kindred.Proofs.Formula.Plain

/-!
# How far a lexeme reaches

The lexemes that lead to plain entries are single marks, numerals, constants and comments. So what
stands in the middle of one is a comment, or a numeral that goes on there with its exponent.

- `Exponent`, `IsMantissa`, `numberAt?_some`: how a numeral is made up.
- `Scan`, `commentBody?_some`: whether a text ends inside a comment.
- `Front`, `Accepts.front`: the lexemes that lead to plain entries, with the text of each.
- `Accepts.constant`, `Accepts.constant_word`: what a letter may start.
- `Reaches`, `Accepts.reaches`: where reading stands in front of a letter.
-/

namespace Kindred.Formula

open Kindred.Text Kindred.Number

/-! ### Numerals -/

/-- An exponent: the letter, a sign if there is one, and digits. -/
structure Exponent where
  letter : Char
  sign : List Char
  digits : List Char
  isLetter : letter = 'e' ∨ letter = 'E'
  isSign : sign = [] ∨ sign = ['-'] ∨ sign = ['+']
  ne_nil : digits ≠ []
  isDigit : ∀ c ∈ digits, c.isDigit = true

/-- How an exponent is written. -/
def Exponent.text (e : Exponent) : List Char := e.letter :: (e.sign ++ e.digits)

/-- Whether a character stands in front of the exponent of a numeral. -/
def isPlainChar (c : Char) : Bool := c.isDigit || c == '.'

/-- What stands in front of an exponent: digits, and no more than one point among them. -/
structure IsMantissa (m : List Char) : Prop where
  parts : ∃ whole part, m = whole ++ part ∧ (∀ c ∈ whole, c.isDigit = true) ∧
    (part = [] ∨ ∃ ds, part = '.' :: ds ∧ ∀ c ∈ ds, c.isDigit = true)
  digit : ∃ c ∈ m, c.isDigit = true

theorem IsMantissa.ne_nil {m : List Char} (h : IsMantissa m) : m ≠ [] := by
  obtain ⟨c, hc, -⟩ := h.digit
  exact List.ne_nil_of_mem hc

theorem IsMantissa.plain {m : List Char} (h : IsMantissa m) : ∀ c ∈ m, isPlainChar c = true := by
  have hdigits : ∀ {ds : List Char}, (∀ c ∈ ds, c.isDigit = true) →
      ∀ c ∈ ds, isPlainChar c = true := by
    intro ds hds c hc
    rw [isPlainChar, hds c hc, Bool.true_or]
  obtain ⟨whole, part, rfl, hwhole, rfl | ⟨ds, rfl, hds⟩⟩ := h.parts
  · exact List.forall_mem_append.mpr ⟨hdigits hwhole, List.forall_mem_nil _⟩
  · exact List.forall_mem_append.mpr
      ⟨hdigits hwhole, List.forall_mem_cons.mpr ⟨by decide, hdigits hds⟩⟩

/-- An exponent that is found at the front of a text takes all digits. -/
theorem exponentAt?_some {s t : List Char} (h : exponentAt? s = some t) :
    ∃ (e : Exponent) (rest : List Char), t = e.text ∧ s = e.text ++ rest ∧
      ∀ c ∈ rest.head?, c.isDigit = false := by
  cases s with
  | nil => cases h
  | cons c s =>
    unfold exponentAt? at h
    dsimp only at h
    split at h
    · next hletter =>
      have hsign : ∃ sign u, (sign = [] ∨ sign = ['-'] ∨ sign = ['+']) ∧ s = sign ++ u ∧
          (if (spanAsciiDigits u).1.isEmpty then none
            else some (c :: sign ++ (spanAsciiDigits u).1)) = some t := by
        split at h
        · exact ⟨['-'], _, .inr (.inl rfl), rfl, h⟩
        · exact ⟨['+'], _, .inr (.inr rfl), rfl, h⟩
        · exact ⟨[], s, .inl rfl, rfl, h⟩
      obtain ⟨sign, u, hsign, rfl, hfound⟩ := hsign
      obtain ⟨ds, rest, rfl, hds, hrest⟩ := exists_run Char.isDigit u
      rw [spanAsciiDigits_append hds hrest] at hfound
      split at hfound
      · cases hfound
      · next hne =>
        cases hfound
        refine ⟨⟨c, sign, ds, by simpa using hletter, hsign, by simpa using hne, hds⟩, rest, rfl,
          ?_, hrest⟩
        simp [Exponent.text]
    · cases h

/-- An exponent by itself, or behind a point only, is no number. -/
theorem ofText?_exponent (e : Exponent) :
    Decimal.ofText? e.text = none ∧ Decimal.ofText? ('.' :: e.text) = none := by
  obtain ⟨letter, sign, digits, rfl | rfl, -, -, -⟩ := e
  · exact ⟨rfl, rfl⟩
  · exact ⟨rfl, rfl⟩

/-- A numeral with an exponent has digits in front of the exponent, or it cannot be read. -/
theorem scientificAt?_some {s t : List Char} (h : scientificAt? s = some t)
    (hread : Decimal.ofText? t ≠ none) :
    ∃ (m : List Char) (e : Exponent) (rest : List Char), IsMantissa m ∧ t = m ++ e.text ∧
      s = t ++ rest ∧ ∀ c ∈ rest.head?, c.isDigit = false := by
  obtain ⟨whole, u, rfl, hwhole, hu⟩ := exists_run Char.isDigit s
  have hpart : ∃ part v, u = part ++ v ∧
      (part = [] ∨ ∃ ds, part = '.' :: ds ∧ ∀ c ∈ ds, c.isDigit = true) ∧
      (exponentAt? v).map (whole ++ part ++ ·) = some t := by
    unfold scientificAt? at h
    rw [spanAsciiDigits_append hwhole hu] at h
    dsimp only at h
    split at h
    · next v =>
      obtain ⟨ds, rest, rfl, hds, hrest⟩ := exists_run Char.isDigit v
      rw [spanAsciiDigits_append hds hrest] at h
      exact ⟨'.' :: ds, rest, rfl, .inr ⟨ds, rfl, hds⟩, h⟩
    · exact ⟨[], u, rfl, .inl rfl, h⟩
  obtain ⟨part, v, rfl, hpart, hmap⟩ := hpart
  obtain ⟨x, hx, rfl⟩ := Option.map_eq_some_iff.mp hmap
  obtain ⟨e, rest, rfl, rfl, hrest⟩ := exponentAt?_some hx
  refine ⟨whole ++ part, e, rest, ⟨⟨whole, part, rfl, hwhole, hpart⟩, ?_⟩, rfl, ?_, hrest⟩
  · -- a numeral without a digit in front of its exponent cannot be read
    cases whole with
    | cons c whole => exact ⟨c, List.mem_cons_self, hwhole c List.mem_cons_self⟩
    | nil =>
      rcases hpart with rfl | ⟨ds, rfl, hds⟩
      · exact absurd (ofText?_exponent e).1 hread
      · cases ds with
        | nil => exact absurd (ofText?_exponent e).2 hread
        | cons c ds => exact ⟨c, by simp, hds c List.mem_cons_self⟩
  · simp [List.append_assoc]

/-- How a numeral is made up: of digits and points, or of digits and an exponent that goes as far as
there are digits. -/
theorem numberAt?_some {s : List Char} {x : Number} {n : Nat}
    (h : numberAt? s = some (.number x, n)) :
    ∃ run rest, s = run ++ rest ∧ n = run.length ∧ run ≠ [] ∧
      ((∀ c ∈ run, isPlainChar c = true) ∨
        ∃ (m : List Char) (e : Exponent), IsMantissa m ∧ run = m ++ e.text ∧
          ∀ c ∈ rest.head?, c.isDigit = false) := by
  unfold numberAt? at h
  split at h
  · cases h
  split at h
  · next numeral hnumeral =>
    have hread : Decimal.ofText? numeral ≠ none := by
      intro hnone
      rw [hnone] at h
      cases h
    obtain ⟨m, e, rest, hm, rfl, hs, hrest⟩ := scientificAt?_some hnumeral hread
    refine ⟨m ++ e.text, rest, hs, ?_, by simp [Exponent.text], .inr ⟨m, e, hm, rfl, hrest⟩⟩
    exact ((Prod.mk.inj (Option.some.inj h)).2).symm
  · dsimp only at h
    split at h
    · cases h
    · next hne =>
      refine ⟨_, _, List.takeWhile_append_dropWhile.symm,
        ((Prod.mk.inj (Option.some.inj h)).2).symm, by simpa using hne, .inl fun c hc => ?_⟩
      exact List.mem_takeWhile_imp hc

/-! ### Comments -/

/-- Where in a text a reader stands that looks for comments only. -/
inductive Scan where
  | outside
  /-- Behind a slash. -/
  | slash
  | inside
  /-- Inside a comment, behind a star. -/
  | star
deriving DecidableEq, Repr

namespace Scan

/-- The effect of one character. A slash right behind the star that opens a comment ends it. -/
def next : Scan → Char → Scan
  | outside, c => if c = '/' then slash else outside
  | slash, c => if c = '*' then star else if c = '/' then slash else outside
  | inside, c => if c = '*' then star else inside
  | star, c => if c = '/' then outside else if c = '*' then star else inside

/-- The effect of a text. -/
def run (st : Scan) (s : List Char) : Scan := s.foldl next st

/-- Whether a place lies inside a comment. -/
def isInside : Scan → Bool
  | inside | star => true
  | _ => false

/-- Where a reader stands behind characters that have nothing to do with comments. -/
def settled : Scan → Scan
  | outside | slash => outside
  | _ => inside

theorem isInside_settled (st : Scan) : st.settled.isInside = st.isInside := by cases st <;> rfl

theorem run_append (st : Scan) (s t : List Char) : st.run (s ++ t) = (st.run s).run t :=
  List.foldl_append

theorem next_of_ne {c : Char} (hslash : c ≠ '/') (hstar : c ≠ '*') (st : Scan) :
    st.next c = st.settled := by
  cases st <;> simp [next, settled, hslash, hstar]

theorem run_of_ne {s : List Char} (hne : s ≠ []) (hs : ∀ c ∈ s, c ≠ '/' ∧ c ≠ '*') (st : Scan) :
    st.run s = st.settled := by
  induction s generalizing st with
  | nil => exact absurd rfl hne
  | cons c s ih =>
    obtain ⟨⟨hslash, hstar⟩, hrest⟩ := List.forall_mem_cons.mp hs
    show (st.next c).run s = _
    rw [next_of_ne hslash hstar]
    by_cases hnil : s = []
    · rw [hnil]
      rfl
    · rw [ih hnil hrest]
      cases st <;> rfl

end Scan

/-- A comment is left behind the slash that ends it, and not before. -/
theorem commentBody?_some {s body : List Char} (h : commentBody? s = some body) :
    (∃ rest, s = body ++ '*' :: '/' :: rest) ∧
      ∀ st : Scan, (st = .inside ∨ st = .star ∧ s.head? ≠ some '/') →
        st.run (body ++ ['*', '/']) = .outside ∧
          ∀ u, u <+: body ++ ['*'] → (st.run u).isInside = true := by
  induction s using commentBody?.induct generalizing body with
  | case1 rest =>
    cases h
    refine ⟨⟨rest, rfl⟩, fun st hst => ?_⟩
    have hstar : st.next '*' = .star := by rcases hst with rfl | ⟨rfl, -⟩ <;> rfl
    constructor
    · show ((st.next '*').next '/') = _
      rw [hstar]
      rfl
    · intro u hu
      rcases List.prefix_cons_iff.mp hu with rfl | ⟨v, rfl, hv⟩
      · rcases hst with rfl | ⟨rfl, -⟩ <;> rfl
      · obtain rfl := List.prefix_nil.mp hv
        show (st.next '*').isInside = true
        rw [hstar]
        rfl
  | case2 c s hnot ih =>
    rw [commentBody?] at h
    · obtain ⟨body, hbody, rfl⟩ := Option.map_eq_some_iff.mp h
      obtain ⟨⟨rest, hrest⟩, hscan⟩ := ih hbody
      refine ⟨⟨rest, by rw [hrest]; rfl⟩, fun st hst => ?_⟩
      -- a slash right behind a star would have ended the comment
      have hnext : st.next c = .inside ∨ st.next c = .star ∧ s.head? ≠ some '/' := by
        by_cases hstar : c = '*'
        · subst hstar
          refine .inr ⟨by rcases hst with rfl | ⟨rfl, -⟩ <;> rfl, fun hhead => ?_⟩
          obtain ⟨s', rfl⟩ := List.head?_eq_some_iff.mp hhead
          exact hnot s' rfl rfl
        · refine .inl ?_
          rcases hst with rfl | ⟨rfl, hslash⟩
          · simp [Scan.next, hstar]
          · have hne : c ≠ '/' := fun heq => hslash (congrArg some heq)
            simp [Scan.next, hstar, hne]
      obtain ⟨hout, hin⟩ := hscan _ hnext
      refine ⟨hout, fun u hu => ?_⟩
      rcases List.prefix_cons_iff.mp hu with rfl | ⟨v, rfl, hv⟩
      · rcases hst with rfl | ⟨rfl, -⟩ <;> rfl
      · exact hin v hv
    · exact fun rest hc hs => hnot rest hc hs
  | case3 => cases h

/-! ### The front of a text -/

/-- The lexemes that lead to plain entries, with the text that each is found in and what follows. -/
inductive Front : Lexeme → List Char → List Char → Prop
  | mark {l : Lexeme} {c : Char} {rest : List Char} (hc : isWordChar c = false)
      (hslash : c = '/' → rest.head? ≠ some '*') : Front l [c] rest
  | comment {body rest : List Char} (h : commentBody? (body ++ '*' :: '/' :: rest) = some body)
      (hstar : (body ++ ['*']).head? = some '*') :
      Front .comment ('/' :: (body ++ ['*', '/'])) rest
  | plain {x : Number} {run rest : List Char} (hne : run ≠ [])
      (h : ∀ c ∈ run, isPlainChar c = true) : Front (.number x) run rest
  | scientific {x : Number} {m rest : List Char} (e : Exponent) (hm : IsMantissa m)
      (hrest : ∀ c ∈ rest.head?, c.isDigit = false) : Front (.number x) (m ++ e.text) rest
  | constant {x : Float} {w rest : List Char} (hw : w = ['E'] ∨ w = ['P', 'I'])
      (hrest : IsGap rest) : Front (.constant x) w rest

/-- The spellings of the four operations are single marks. -/
theorem spelling_of_plainNames : ∀ e ∈ operatorTable, e.2.1 ∈ plainNames →
    ∃ c, e.1 = [c] ∧ isWordChar c = false ∧ (c = '/' → e.2.1 = "/") := by
  have htable : operatorTable.all (fun e => !plainNames.contains e.2.1 || (e.1.length == 1 &&
      e.1.all fun c => !isWordChar c && (c != '/' || e.2.1 == "/"))) = true := by
    decide +kernel
  intro e he hname
  have h := List.all_eq_true.mp htable e he
  rw [List.contains_iff_mem.mpr hname] at h
  simp only [Bool.not_true, Bool.false_or, Bool.and_eq_true, beq_iff_eq, List.all_eq_true] at h
  obtain ⟨hlength, hall⟩ := h
  obtain ⟨c, hc⟩ := List.length_eq_one_iff.mp hlength
  obtain ⟨hword, hslash⟩ := hall c (by rw [hc]; exact List.mem_cons_self)
  exact ⟨c, hc, by simpa using hword, fun heq => by simpa [heq] using hslash⟩

theorem spelling_of_slash : ∀ e ∈ operatorTable, e.2.1 = "/" → e.1 = ['/'] := by
  decide

/-- An operation, or a comment. -/
theorem front_of_operatorAt? {r r' : Reading} {s : List Char} {l : Lexeme} {n : Nat}
    (h : operatorAt? s = some (l, n)) (hl : Advances r l r') :
    ∃ x rest, s = x ++ rest ∧ n = x.length ∧ Front l x rest := by
  obtain ⟨⟨spelling, name, rank⟩, hfind, he⟩ := Option.map_eq_some_iff.mp h
  have hmem := List.mem_of_find?_eq_some hfind
  have hfits : spelling.isPrefixOf s = true := by simpa using List.find?_some hfind
  obtain ⟨rest, rfl⟩ := List.isPrefixOf_iff_prefix.mp hfits
  dsimp only at he
  rw [List.drop_left] at he
  by_cases hname : name = "/"
  · obtain rfl : spelling = ['/'] := spelling_of_slash _ hmem hname
    rw [if_pos (beq_iff_eq.mpr hname)] at he
    split at he
    · cases he
      cases hl
    · next tail =>
      split at he
      · next body hbody =>
        cases he
        obtain ⟨⟨rest, hrest⟩, -⟩ := commentBody?_some hbody
        refine ⟨_, rest, ?_, ?_, .comment (hrest ▸ hbody) ?_⟩
        · simp [hrest]
        · simp
        · cases body with
          | nil => rfl
          | cons c body => exact congrArg some (List.cons.inj hrest).1.symm
      · cases he
        cases hl
    · next hstar =>
      cases he
      refine ⟨['/'], rest, rfl, rfl, .mark (by decide) fun _ hhead => ?_⟩
      obtain ⟨tail, rfl⟩ := List.head?_eq_some_iff.mp hhead
      exact hstar tail rfl
  · rw [if_neg (by simpa using hname)] at he
    cases he
    cases hl with
    | operator _ hplain =>
      obtain ⟨c, hc, hword, hslash⟩ := spelling_of_plainNames _ hmem hplain
      dsimp only at hc hslash
      subst hc
      exact ⟨[c], rest, rfl, rfl, .mark hword fun heq => absurd (hslash heq) hname⟩

/-- A bracket. A comma leads to no plain entries. -/
theorem front_of_markAt? {r r' : Reading} {s : List Char} {l : Lexeme} {n : Nat}
    (h : markAt? s = some (l, n)) (hl : Advances r l r') :
    ∃ x rest, s = x ++ rest ∧ n = x.length ∧ Front l x rest := by
  unfold markAt? at h
  split at h
  · next rest =>
    cases h
    exact ⟨['('], rest, rfl, rfl, .mark (by decide) fun heq => absurd heq (by decide)⟩
  · next rest =>
    cases h
    exact ⟨[')'], rest, rfl, rfl, .mark (by decide) fun heq => absurd heq (by decide)⟩
  · cases h
    cases hl
  · cases h

theorem front_of_constantAt? {s : List Char} {l : Lexeme} {n : Nat}
    (h : constantAt? s = some (l, n)) :
    ∃ x rest, s = x ++ rest ∧ n = x.length ∧ Front l x rest := by
  obtain ⟨⟨w, x⟩, hfind, he⟩ := Option.map_eq_some_iff.mp h
  have hmem := List.mem_of_find?_eq_some hfind
  have hfront := List.find?_some hfind
  dsimp only at hfront he
  obtain ⟨hfits, hend⟩ := Bool.and_eq_true_iff.mp hfront
  obtain ⟨rest, rfl⟩ := List.isPrefixOf_iff_prefix.mp hfits
  rw [List.drop_left] at hend
  cases he
  refine ⟨w, rest, rfl, rfl, .constant ?_ fun c hc => ?_⟩
  · have hall : ∀ e ∈ constants, e.1 = ['E'] ∨ e.1 = ['P', 'I'] := by simp [constants]
    exact hall _ hmem
  · rw [Option.mem_def.mp hc] at hend
    simpa using hend

/-- What stands at the front of a text whose first lexeme leads to plain entries. -/
theorem exists_front {r r' : Reading} {column : Nat} {s : List Char}
    (hl : Advances r (lexemeAt column s).1 r') :
    ∃ x rest, s = x ++ rest ∧ (lexemeAt column s).2 = x.length ∧
      Front (lexemeAt column s).1 x rest := by
  have hcases := lexemeAt_cases column s
  generalize lexemeAt column s = p at hcases hl ⊢
  obtain ⟨l, n⟩ := p
  dsimp only at hl ⊢
  rcases hcases with h | h | h | h | h | h | ⟨hblank, h⟩ | ⟨why, h⟩
  · exact front_of_operatorAt? h hl
  · rcases numberAt?_cases h with ⟨x, rfl⟩ | ⟨why, rfl⟩
    · obtain ⟨run, rest, hs, hn, hne, hplain | ⟨m, e, hm, rfl, hrest⟩⟩ := numberAt?_some h
      · exact ⟨run, rest, hs, hn, .plain hne hplain⟩
      · exact ⟨_, rest, hs, hn, .scientific e hm hrest⟩
    · cases hl
  · rcases quotedAt?_cases h with rfl | ⟨why, rfl⟩ <;> cases hl
  · exact front_of_markAt? h hl
  · exact front_of_constantAt? h
  · unfold nameAt? at h
    dsimp only at h
    split at h
    · cases h
      cases hl
    split at h
    · cases h
      cases hl
    split at h
    · cases h
    · cases h
      cases hl
  · cases h
    cases s with
    | nil => cases hblank
    | cons c rest =>
      have hc : isBlank c = true := by simpa using hblank
      have hslash : c ≠ '/' := ne_of_apart hc (by decide)
      exact ⟨[c], rest, rfl, rfl, .mark (isWordChar_of_isBlank hc) fun heq => absurd heq hslash⟩
  · cases h
    cases hl

theorem Front.ne_nil {l : Lexeme} {x rest : List Char} (h : Front l x rest) : x ≠ [] := by
  cases h with
  | mark hc hslash => exact List.cons_ne_nil _ _
  | comment h hstar => exact List.cons_ne_nil _ _
  | plain hne h => exact hne
  | scientific e hm hrest => exact List.append_ne_nil_of_right_ne_nil _ (List.cons_ne_nil _ _)
  | constant hw hrest => rcases hw with rfl | rfl <;> exact List.cons_ne_nil _ _

theorem readFrom_cons (column : Nat) (c : Char) (s : List Char) :
    ∃ ls, readFrom column (c :: s) = (lexemeAt column (c :: s)).1 :: ls := by
  unfold readFrom
  rw [lexemesFrom]
  generalize lexemeAt column (c :: s) = p
  obtain ⟨l, n⟩ := p
  cases l <;> exact ⟨_, rfl⟩

/-- The first lexeme of a text that is accepted, and the rest of the text. -/
theorem Accepts.front {r r' : Reading} {column : Nat} {s : List Char} (hs : s ≠ [])
    (h : Accepts r (readFrom column s) r') :
    ∃ l r₁ x rest next, s = x ++ rest ∧ Front l x rest ∧ Advances r l r₁ ∧
      Accepts r₁ (readFrom next rest) r' := by
  have hfirst : ∃ r₁, Advances r (lexemeAt column s).1 r₁ := by
    obtain ⟨c, u, rfl⟩ := List.exists_cons_of_ne_nil hs
    obtain ⟨ls, hls⟩ := readFrom_cons column c u
    rw [hls] at h
    cases h with
    | cons hl _ => exact ⟨_, hl⟩
  obtain ⟨r₀, hadvance⟩ := hfirst
  obtain ⟨x, rest, rfl, hn, hfront⟩ := exists_front hadvance
  have hbroken : ∀ why, (lexemeAt column (x ++ rest)).1 ≠ .broken why := by
    intro why heq
    rw [heq] at hadvance
    cases hadvance
  rw [readFrom_append hfront.ne_nil hbroken (Prod.ext rfl hn)] at h
  cases h with
  | cons hl hls => exact ⟨_, _, x, rest, _, rfl, hfront, hl, hls⟩

/-- Whether a character is a letter or an underscore. -/
structure IsInitial (c : Char) : Prop where
  word : isWordChar c = true
  digit : c.isDigit = false

theorem IsInitial.isPlainChar_eq {c : Char} (h : IsInitial c) : isPlainChar c = false := by
  have hpoint : c ≠ '.' := by
    rintro rfl
    exact absurd h.word (by decide)
  simp [isPlainChar, h.digit, hpoint]

/-- A letter or an underscore starts a constant, or nothing that leads to plain entries. -/
theorem Accepts.constant {r r' : Reading} {column : Nat} {s : List Char}
    (h : Accepts r (readFrom column s) r') {c : Char} (hc : c ∈ s.head?) (hinitial : IsInitial c) :
    r.expect.takesOperand = true ∧
      ∃ w rest, s = w ++ rest ∧ (w = ['E'] ∨ w = ['P', 'I']) ∧ IsGap rest := by
  obtain ⟨u, rfl⟩ := List.head?_eq_some_iff.mp hc
  obtain ⟨l, r₁, x, rest, next, hs, hfront, hl, -⟩ := h.front (List.cons_ne_nil _ _)
  have hplain := hinitial.isPlainChar_eq
  cases hfront with
  | mark hc hslash =>
    obtain ⟨rfl, -⟩ := List.cons.inj hs
    rw [hinitial.word] at hc
    cases hc
  | comment h hstar =>
    obtain ⟨rfl, -⟩ := List.cons.inj hs
    exact absurd hinitial.word (by decide)
  | @plain _ run _ hne h =>
    obtain ⟨k, run, rfl⟩ := List.exists_cons_of_ne_nil hne
    obtain ⟨rfl, -⟩ := List.cons.inj hs
    rw [h c List.mem_cons_self] at hplain
    cases hplain
  | @scientific _ m _ e hm hrest =>
    obtain ⟨k, m', rfl⟩ := List.exists_cons_of_ne_nil hm.ne_nil
    obtain ⟨rfl, -⟩ := List.cons.inj hs
    rw [hm.plain c List.mem_cons_self] at hplain
    cases hplain
  | constant hw hrest =>
    cases hl with
    | constant _ htakes => exact ⟨htakes, _, _, hs, hw, hrest⟩

/-- A word that starts with a letter or an underscore is a constant, or nothing that leads to plain
entries. -/
theorem Accepts.constant_word {r r' : Reading} {column : Nat} {w s : List Char}
    (h : Accepts r (readFrom column (w ++ s)) r') (hw : IsWord w) (hs : IsGap s)
    (hinitial : ∀ c ∈ w.head?, IsInitial c) : w = ['E'] ∨ w = ['P', 'I'] := by
  obtain ⟨c, u, hcons, -⟩ := hw.exists_cons
  have hhead : c ∈ (w ++ s).head? := by
    rw [hcons]
    rfl
  obtain ⟨-, name, rest, hsplit, hname, hgap⟩ := h.constant hhead (hinitial c (by rw [hcons]; rfl))
  have hword : IsWord name := by
    rcases hname with rfl | rfl <;> exact ⟨List.cons_ne_nil _ _, List.all_eq_true.mp (by decide)⟩
  rw [(word_unique hw hs hword hgap hsplit).1]
  exact hname

/-! ### A place in the middle -/

/-- Whether no comment starts at a place other than those that a scan finds there. -/
def Scan.InStep (st : Scan) (s : List Char) : Prop :=
  st = .outside ∨ st = .slash ∧ s.head? ≠ some '*'

theorem Scan.InStep.settled_eq {st : Scan} {s : List Char} (h : st.InStep s) :
    st.settled = .outside := by
  rcases h with rfl | ⟨rfl, -⟩ <;> rfl

theorem ne_of_isPlainChar {c : Char} (h : isPlainChar c = true) : c ≠ '/' ∧ c ≠ '*' :=
  ⟨ne_of_apart h (by decide), ne_of_apart h (by decide)⟩

theorem Exponent.ne_of_mem (e : Exponent) {c : Char} (h : c ∈ e.text) : c ≠ '/' ∧ c ≠ '*' := by
  rcases List.mem_cons.mp h with rfl | h
  · rcases e.isLetter with heq | heq <;> rw [heq] <;> decide
  rcases List.mem_append.mp h with h | h
  · rcases e.isSign with heq | heq | heq <;> rw [heq] at h
    · cases h
    · obtain rfl := List.mem_singleton.mp h
      decide
    · obtain rfl := List.mem_singleton.mp h
      decide
  · exact ⟨ne_of_apart (e.isDigit c h) (by decide), ne_of_apart (e.isDigit c h) (by decide)⟩

/-- The slash of a comment, seen by a scan that is in step. -/
theorem Scan.InStep.run_comment {st : Scan} {s body : List Char} (h : st.InStep s)
    (hstar : (body ++ ['*']).head? = some '*') {u : List Char} (hu : u <+: body ++ ['*', '/'])
    (hne : u ≠ []) : st.run ('/' :: u) = Scan.inside.run u := by
  have hslash : st.next '/' = .slash := by rcases h with rfl | ⟨rfl, -⟩ <;> rfl
  obtain ⟨c, u, rfl⟩ := List.exists_cons_of_ne_nil hne
  have hc : c = '*' := by
    cases body with
    | nil => exact (List.cons_prefix_cons.mp hu).1
    | cons k body =>
      rw [(List.cons_prefix_cons.mp hu).1]
      exact Option.some.inj hstar
  subst hc
  show (st.next '/').run ('*' :: u) = _
  rw [hslash]
  rfl

/-- A scan stays in step over a lexeme. -/
theorem Front.inStep {l : Lexeme} {x rest : List Char} (h : Front l x rest) {st : Scan}
    (hst : st.InStep (x ++ rest)) : (st.run x).InStep rest := by
  have hother : ∀ {x : List Char}, x ≠ [] → (∀ c ∈ x, c ≠ '/' ∧ c ≠ '*') →
      (st.run x).InStep rest := by
    intro x hne hx
    exact .inl ((Scan.run_of_ne hne hx st).trans hst.settled_eq)
  cases h with
  | @mark _ c _ hc hslash =>
    rcases hst with rfl | ⟨rfl, hhead⟩
    · show (Scan.next .outside c).InStep rest
      by_cases heq : c = '/'
      · exact .inr ⟨if_pos heq, hslash heq⟩
      · exact .inl (if_neg heq)
    · have hstar : c ≠ '*' := fun heq => hhead (congrArg some heq)
      show (Scan.next .slash c).InStep rest
      by_cases heq : c = '/'
      · exact .inr ⟨(if_neg hstar).trans (if_pos heq), hslash heq⟩
      · exact .inl ((if_neg hstar).trans (if_neg heq))
  | comment h hstar =>
    refine .inl ?_
    rw [hst.run_comment hstar (List.prefix_refl _) (by simp)]
    exact ((commentBody?_some h).2 .inside (.inl rfl)).1
  | plain hne h => exact hother hne fun c hc => ne_of_isPlainChar (h c hc)
  | scientific e hm hrest =>
    refine hother (List.append_ne_nil_of_left_ne_nil hm.ne_nil _)
      (List.forall_mem_append.mpr ⟨fun c hc => ne_of_isPlainChar (hm.plain c hc), ?_⟩)
    exact fun c => e.ne_of_mem
  | constant hw hrest =>
    rcases hw with rfl | rfl <;> exact hother (List.cons_ne_nil _ _) (by simp)

/-- A lexeme that ends with a digit is a number. -/
theorem Front.operator_of_digit {l : Lexeme} {x rest : List Char} (h : Front l x rest)
    {r r₁ : Reading} (hl : Advances r l r₁) {c : Char} (hc : c ∈ x.getLast?)
    (hdigit : c.isDigit = true) : r₁.expect = .operator := by
  have hmem := List.mem_of_getLast? hc
  cases h with
  | mark hword hslash =>
    obtain rfl := List.mem_singleton.mp hmem
    rw [isWordChar_of_isDigit hdigit] at hword
    cases hword
  | comment h hstar =>
    have hlast : c = '/' := by
      rw [List.getLast?_cons, List.getLast?_append_of_ne_nil _ (List.cons_ne_nil _ _)] at hc
      exact (Option.some.inj hc).symm
    exact absurd hlast (ne_of_apart hdigit (by decide))
  | plain hne h => cases hl; rfl
  | scientific e hm hrest => cases hl; rfl
  | constant hw hrest => cases hl; rfl

/-- Where in an exponent a letter stands. -/
theorem Exponent.initial (e : Exponent) {s y : List Char} {c : Char} (h : e.text = s ++ c :: y)
    (hc : IsInitial c) : s = [] := by
  cases s with
  | nil => rfl
  | cons k s =>
    have hmem : c ∈ e.sign ++ e.digits := by
      rw [(List.cons.inj h).2]
      simp
    rcases List.mem_append.mp hmem with hmem | hmem
    · rcases e.isSign with heq | heq | heq <;> rw [heq] at hmem
      · cases hmem
      · obtain rfl := List.mem_singleton.mp hmem
        exact absurd hc.word (by decide)
      · obtain rfl := List.mem_singleton.mp hmem
        exact absurd hc.word (by decide)
    · have hdigit := hc.digit
      rw [e.isDigit c hmem] at hdigit
      cases hdigit

/-- A scan that is in step is inside a comment wherever a word starts there. -/
theorem Scan.InStep.isInside_of_comment {st : Scan} {s y body rest t : List Char} {c : Char}
    (h : st.InStep t) (hbody : commentBody? (body ++ '*' :: '/' :: rest) = some body)
    (hstar : (body ++ ['*']).head? = some '*') (hx : s ++ c :: y = '/' :: (body ++ ['*', '/']))
    (hne : s ≠ []) (hc : IsInitial c) : (st.run s).isInside = true := by
  obtain ⟨k, s, rfl⟩ := List.exists_cons_of_ne_nil hne
  obtain rfl : k = '/' := (List.cons.inj hx).1
  have hrest : s ++ c :: y = body ++ ['*', '/'] := (List.cons.inj hx).2
  have hfits : s <+: body ++ ['*', '/'] := ⟨c :: y, hrest⟩
  have hnil : s ≠ [] := by
    rintro rfl
    have hhead : (c :: y).head? = (body ++ ['*']).head? := by
      rw [show c :: y = body ++ ['*', '/'] from hrest]
      cases body <;> rfl
    obtain rfl : c = '*' := Option.some.inj (hhead.trans hstar)
    exact absurd hc.word (by decide)
  -- something is left behind the place, so it is not behind the comment
  have hshort : s <+: body ++ ['*'] := by
    have hlength := congrArg List.length hrest
    simp only [List.length_append, List.length_cons, List.length_nil] at hlength
    refine List.prefix_of_prefix_length_le hfits ⟨['/'], by simp⟩ ?_
    simp only [List.length_append, List.length_cons, List.length_nil]
    omega
  rw [h.run_comment hstar hfits hnil]
  exact ((commentBody?_some hbody).2 .inside (.inl rfl)).2 s hshort

/-- In a numeral a word starts with the exponent. -/
theorem Exponent.eq_of_append (e : Exponent) {m s y : List Char} {c : Char} (hm : IsMantissa m)
    (hx : s ++ c :: y = m ++ e.text) (hc : IsInitial c) : s = m ∧ c :: y = e.text := by
  rcases List.append_eq_append_iff.mp hx with ⟨u, rfl, hu⟩ | ⟨u, rfl, hu⟩
  · cases u with
    | nil => exact ⟨(List.append_nil s).symm, hu⟩
    | cons k u =>
      obtain ⟨rfl, -⟩ := List.cons.inj hu
      have hfalse := hc.isPlainChar_eq
      rw [hm.plain c (by simp)] at hfalse
      cases hfalse
  · obtain rfl := e.initial hu hc
    exact ⟨List.append_nil m, hu.symm⟩

/-- No word starts in the middle of a constant. -/
theorem not_constant_around {w s y : List Char} {c : Char} (hw : w = ['E'] ∨ w = ['P', 'I'])
    (hx : s ++ c :: y = w) (hne : s ≠ [])
    (hs : ∀ k ∈ s.getLast?, isWordChar k = true → k.isDigit = true) : False := by
  obtain ⟨k, s, rfl⟩ := List.exists_cons_of_ne_nil hne
  rcases hw with rfl | rfl
  · have hnil : s ++ c :: y = [] := (List.cons.inj hx).2
    exact absurd hnil (by simp)
  · obtain rfl : k = 'P' := (List.cons.inj hx).1
    have htail : s ++ c :: y = ['I'] := (List.cons.inj hx).2
    cases s with
    | nil => exact absurd (hs 'P' rfl (by decide)) (by decide)
    | cons k s =>
      have hnil : s ++ c :: y = [] := (List.cons.inj htail).2
      exact absurd hnil (by simp)

/-- A lexeme around a place where a word starts is a comment, or a numeral whose exponent starts
there. -/
theorem Front.around {l : Lexeme} {s y rest : List Char} {c : Char}
    (h : Front l (s ++ c :: y) rest) (hne : s ≠ []) (hc : IsInitial c)
    (hs : ∀ k ∈ s.getLast?, isWordChar k = true → k.isDigit = true) :
    (∀ st : Scan, st.InStep (s ++ c :: y ++ rest) → (st.run s).isInside = true) ∨
      ∃ (x : Number) (e : Exponent), l = .number x ∧ IsMantissa s ∧ c :: y = e.text ∧
        ∀ c ∈ rest.head?, c.isDigit = false := by
  generalize hx : s ++ c :: y = x at h
  cases h with
  | mark hword hslash =>
    obtain ⟨k, s, rfl⟩ := List.exists_cons_of_ne_nil hne
    have hnil : s ++ c :: y = [] := (List.cons.inj hx).2
    exact absurd hnil (by simp)
  | @comment body _ hbody hstar =>
    exact .inl fun st hst => hst.isInside_of_comment hbody hstar hx hne hc
  | plain _ hplain =>
    have hmem : c ∈ s ++ c :: y := by simp
    rw [hx] at hmem
    have hfalse := hc.isPlainChar_eq
    rw [hplain c hmem] at hfalse
    cases hfalse
  | @scientific x m _ e hm hrest =>
    obtain ⟨rfl, hexponent⟩ := e.eq_of_append hm hx hc
    exact .inr ⟨x, e, rfl, hm, hexponent, hrest⟩
  | constant hw hrest => exact (not_constant_around hw hx hne hs).elim

/-- Where reading stands at a place of a text that is accepted and goes on there with a letter or an
underscore: inside a comment, between two lexemes, or at the exponent of a numeral. -/
inductive Reaches (r' : Reading) (st : Scan) (s t : List Char) : Prop
  | inside (h : (st.run s).isInside = true)
  | apart {r : Reading} {column : Nat} (h : Accepts r (readFrom column t) r')
      (hdigit : ∀ c ∈ s.getLast?, c.isDigit = true → r.expect = .operator)
  | astride {r : Reading} {column : Nat} {u m rest : List Char} (e : Exponent) (hm : IsMantissa m)
      (hs : s = u ++ m) (ht : t = e.text ++ rest) (hrest : ∀ c ∈ rest.head?, c.isDigit = false)
      (h : Accepts r (readFrom column rest) r') (hoperator : r.expect = .operator)

theorem Reaches.of_append {r' : Reading} {st : Scan} {x s t : List Char} (hs : s ≠ [])
    (h : Reaches r' (st.run x) s t) : Reaches r' st (x ++ s) t := by
  cases h with
  | inside h => exact .inside (by rwa [Scan.run_append])
  | apart h hdigit =>
    refine .apart h ?_
    rwa [List.getLast?_append_of_ne_nil _ hs]
  | @astride r column u m rest e hm hs ht hrest h hoperator =>
    exact .astride e hm (by rw [hs, List.append_assoc] : x ++ s = (x ++ u) ++ m) ht hrest h
      hoperator

/-- A text that is accepted is read up to any place where a word goes on with a letter behind
digits, or starts. -/
theorem Accepts.reaches {r r' : Reading} {column : Nat} {s t : List Char} {st : Scan}
    (h : Accepts r (readFrom column (s ++ t)) r') (hst : st.InStep (s ++ t))
    (hs : ∀ k ∈ s.getLast?, isWordChar k = true → k.isDigit = true)
    (ht : ∃ c ∈ t.head?, IsInitial c) : Reaches r' st s t := by
  induction hn : s.length using Nat.strong_induction_on generalizing s st r column with
  | _ n ih =>
    subst hn
    by_cases hnil : s = []
    · subst hnil
      exact .apart h nofun
    obtain ⟨l, r₁, x, rest, next, hsplit, hfront, hl, hrest⟩ := h.front (by simp [hnil])
    rw [hsplit] at hst
    rcases List.append_eq_append_iff.mp hsplit.symm with ⟨s', rfl, rfl⟩ | ⟨y, rfl, rfl⟩
    · -- the lexeme ends before the place, or there
      by_cases hs' : s' = []
      · subst hs'
        rw [List.append_nil]
        exact .apart hrest fun c hc hdigit => hfront.operator_of_digit hl hc hdigit
      · have hlength : s'.length < (x ++ s').length := by
          have hpos := List.length_pos_of_ne_nil hfront.ne_nil
          simp only [List.length_append]
          omega
        refine Reaches.of_append hs' (ih _ hlength hrest (hfront.inStep hst) ?_ rfl)
        rwa [List.getLast?_append_of_ne_nil _ hs'] at hs
    · cases y with
      | nil =>
        rw [List.append_nil] at hfront
        exact .apart hrest fun c hc hdigit => hfront.operator_of_digit hl hc hdigit
      | cons c y =>
        obtain ⟨c', hc', hinitial⟩ := ht
        obtain rfl : c = c' := Option.some.inj hc'
        rcases hfront.around hnil hinitial hs with hinside | ⟨x, e, rfl, hm, he, hend⟩
        · exact .inside (hinside st hst)
        · refine .astride e hm (List.nil_append s).symm (congrArg (· ++ rest) he) hend hrest ?_
          cases hl
          rfl

end Kindred.Formula
