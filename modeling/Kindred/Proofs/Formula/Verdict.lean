import Kindred.Content.Review
import Kindred.Proofs.Formula.Composed
import Kindred.Proofs.Formula.Containment

/-!
# One trial decides

A formula without functions and divisions is checked by working it out once. Whether it fails does
not depend on the numbers that its names have, nor on what its dice show: every word of it makes
place for a numeral, or for a numeral with a rest that stays, or stays whole, and which of these it
is depends on the word only. So the expressions of two trials are alike, and they fail together.

- `Cut`: the pieces of a word.
- `Becomes`: what a word becomes once it is rolled.
- `rolled_word`, `alike_of_rolled`: the words of a text, in one trial and in two.
- `Trial`: a way to work a formula out.
- `verdict`: one trial decides for all of them.
-/

namespace Kindred.Formula

open Kindred.Text

variable {σ τ : Type} {d : Dialect}

/-! ### The pieces of a word -/

/-- Whether words make place for what comes in: a name for a numeral, and other words for
themselves. -/
structure Pastes (d : Dialect) (f : List Char → List Char) : Prop where
  name : ∀ x ∈ d.parameters, ∃ n, IsLiteral (natText n) ∧ f x.toList = natText n
  other : ∀ w, (∀ x ∈ d.parameters, w ≠ x.toList) → f w = w

/-- The pieces that a word is cut into, after its name was replaced. -/
inductive Cut (d : Dialect) (w : List Char) : List Piece → Prop where
  | name {x : String} {n : Nat} (hx : x ∈ d.parameters) (hw : w = x.toList)
      (hn : IsLiteral (natText n)) : Cut d w ((natText n).map .char)
  | dice {t : DiceToken} {rest : List Char} (hname : ∀ x ∈ d.parameters, w ≠ x.toList)
      (ht : diceAt? w = some t) (hw : w = t.text ++ rest) : Cut d w (.dice t :: rest.map .char)
  | plain (hname : ∀ x ∈ d.parameters, w ≠ x.toList) (ht : diceAt? w = none) :
      Cut d w (w.map .char)

/-- Behind a word it does not matter that one stood there. -/
theorem piecesFrom_of_isGap {joined : Bool} {s : List Char} (hs : IsGap s) :
    piecesFrom joined 0 s = pieces s := by
  cases s with
  | nil => rfl
  | cons c s =>
    unfold pieces
    rw [piecesFrom_cons (isGap_cons.mp hs), piecesFrom_cons (isGap_cons.mp hs)]

/-- The first word of a text is cut by itself. -/
theorem exists_cut {f : List Char → List Char} (hf : Pastes d f) {w s : List Char} (hw : IsWord w)
    (hs : IsGap s) :
    ∃ ps, Cut d w ps ∧ pieces (mapWords f (w ++ s)) = ps ++ pieces (mapWords f s) := by
  have hgap : IsGap (mapWords f s) := isGap_mapWords hs
  rw [mapWords_append hw hs]
  by_cases hname : ∃ x ∈ d.parameters, w = x.toList
  · obtain ⟨x, hx, rfl⟩ := hname
    obtain ⟨n, hn, hvalue⟩ := hf.name x hx
    refine ⟨_, .name hx rfl hn, ?_⟩
    rw [hvalue, pieces, piecesFrom_append_digits hn.ne_nil hn.digits hgap, piecesFrom_of_isGap hgap]
  · have hname : ∀ x ∈ d.parameters, w ≠ x.toList := fun x hx heq => hname ⟨x, hx, heq⟩
    rw [hf.other w hname]
    rcases piecesFrom_word hw hgap false with ⟨t, rest, -, ht, hsplit, hpieces⟩ | ⟨ht, hpieces⟩
    · exact ⟨_, .dice hname ht hsplit, by rw [pieces, hpieces, piecesFrom_of_isGap hgap]⟩
    · exact ⟨_, .plain hname (ht rfl), by rw [pieces, hpieces, piecesFrom_of_isGap hgap]⟩

/-- The count of a notation is a numeral of the text. -/
theorem digits_isInfix {t : DiceToken} (ht : t.IsNotation) : t.digits <:+: t.text := by
  obtain ⟨lead, letter, -, -, htext⟩ := ht.text
  exact ⟨lead, letter :: t.form.sideDigits, by rw [htext, List.append_assoc]⟩

/-- No notation of a word has too long a count. -/
theorem Cut.short {w : List Char} {ps : List Piece} (h : Cut d w ps) (hw : HasShortNumerals w)
    {t : DiceToken} (ht : .dice t ∈ ps) : t.digits.length ≤ modestDigits := by
  cases h with
  | name hx hw hn => simp at ht
  | plain hname hnone => simp at ht
  | @dice t' rest hname hdice hsplit =>
    obtain rfl : t = t' := by simpa using ht
    obtain ⟨htoken, -⟩ := isNotation_of_diceAt? hdice
    refine hw t.digits ((digits_isInfix htoken).trans ?_) htoken.digits
    rw [hsplit]
    exact (List.prefix_append _ _).isInfix

theorem pieces_cons {c : Char} (hc : IsMark c) (s : List Char) :
    pieces (c :: s) = .char c :: pieces s := by
  unfold pieces
  rw [piecesFrom_cons hc.isWordChar_eq, hc.joins_eq]

/-- No notation of a text has too long a count. -/
theorem short_of_mem_pieces {f : List Char → List Char} (hf : Pastes d f) {s : List Char}
    (hs : Regular s) (hshort : HasShortNumerals s) {t : DiceToken}
    (ht : .dice t ∈ pieces (mapWords f s)) : t.digits.length ≤ modestDigits := by
  induction s using words_induction with
  | nil => cases ht
  | gap c s hc ih =>
    have hmark := hs.isMark List.mem_cons_self hc
    rw [mapWords_cons hc, pieces_cons hmark] at ht
    rcases List.mem_cons.mp ht with heq | ht
    · cases heq
    · exact ih (hs.of_cons (Or.inl hmark)) (hshort.of_infix (List.suffix_cons c s).isInfix) ht
  | word w s hw hgap ih =>
    obtain ⟨ps, hcut, hpieces⟩ := exists_cut hf hw hgap
    rw [hpieces] at ht
    rcases List.mem_append.mp ht with ht | ht
    · exact hcut.short (hshort.of_infix (List.prefix_append _ _).isInfix) ht
    · exact ih (hs.rest hgap) (hshort.of_infix (List.suffix_append _ _).isInfix) ht

/-! ### Words rolled -/

/-- What a word becomes in the expression that is worked out. -/
inductive Becomes (d : Dialect) (w : List Char) : List Char → Prop where
  | name {x : String} {n : Nat} (hx : x ∈ d.parameters) (hw : w = x.toList)
      (hn : IsLiteral (natText n)) : Becomes d w (natText n)
  | total {t : DiceToken} {rest : List Char} {n : Nat} (hname : ∀ x ∈ d.parameters, w ≠ x.toList)
      (ht : diceAt? w = some t) (hform : t.form ∈ d.dice) (hw : w = t.text ++ rest)
      (hn : IsLiteral (natText n)) : Becomes d w (natText n ++ rest)
  | kept (hname : ∀ x ∈ d.parameters, w ≠ x.toList)
      (ht : ∀ t, diceAt? w = some t → t.form ∉ d.dice) : Becomes d w w

section Words

variable {src : Source σ} {w₀ w₁ : World σ} (hsrc : src.InRange)

include hsrc

/-- The total of a notation with a modest count has not too many digits, as long as chains of sixes
are not followed for too long. -/
theorem rollToken_short (hpatience : src.patience < Nat.pow 10 modestDigits) {t : DiceToken}
    (ht : t.digits.length ≤ modestDigits) {total : Int} {own : Option OpenEnded}
    (h : rollToken t src w₀ = .ok (total, own) w₁) : Short total := by
  obtain ⟨n, rfl⟩ := Int.eq_ofNat_of_zero_le (rollToken_ok hsrc h)
  have hcount : t.count < Nat.pow 10 modestDigits := digitsValue_lt ht
  -- a die is followed by no more dice than the source has patience for, and shows 100 at most
  have hproduct : t.count + t.count * src.patience ≤
      Nat.pow 10 modestDigits * Nat.pow 10 modestDigits := by
    rw [Nat.add_comm, ← Nat.mul_succ]
    exact Nat.mul_le_mul hcount.le hpatience
  have hle : n ≤ 100 * (t.count + t.count * src.patience) := Int.ofNat_le.mp (rollToken_le hsrc h)
  have hlarge : 100 * (Nat.pow 10 modestDigits * Nat.pow 10 modestDigits) <
      Nat.pow 10 longestNumeral := by
    decide +kernel
  exact short_iff.mpr (Nat.lt_of_le_of_lt (hle.trans (Nat.mul_le_mul_left 100 hproduct)) hlarge)

/-- The first word of a text is rolled by itself, and the others after it. -/
theorem Cut.rolled {w : List Char} {ps qs : List Piece} (hcut : Cut d w ps) {r : Rolled}
    (h : rollPieces d (ps ++ qs) src w₀ = .ok r w₁) :
    ∃ text r' w', Becomes d w text ∧ rollPieces d qs src w' = .ok r' w₁ ∧
      r.text = text ++ r'.text := by
  cases hcut with
  | name hx hw hn =>
    rw [rollPieces_chars] at h
    obtain ⟨r', hr', rfl⟩ := map_ok_iff.mp h
    exact ⟨_, r', w₀, .name hx hw hn, hr', rfl⟩
  | plain hname ht =>
    rw [rollPieces_chars] at h
    obtain ⟨r', hr', rfl⟩ := map_ok_iff.mp h
    refine ⟨_, r', w₀, .kept hname ?_, hr', rfl⟩
    rw [ht]
    exact nofun
  | @dice t rest hname ht hw =>
    rw [List.cons_append] at h
    rcases rollPieces_notation_origin h with
      ⟨hform, total, own, w', r', htoken, hshort, hr', htext⟩ | ⟨hform, r', hr', htext⟩
    · obtain ⟨n, rfl⟩ := Int.eq_ofNat_of_zero_le (rollToken_ok hsrc htoken)
      exact ⟨_, r', w', .total hname ht hform hw (isLiteral_natText hshort), hr', htext⟩
    · rw [← hw] at htext
      refine ⟨w, r', w₀, .kept hname ?_, hr', htext⟩
      rw [ht]
      rintro t' ⟨⟩
      exact hform

end Words

/-! ### Two trials -/

/-- What a notation leaves of a word behind its total keeps texts alike. -/
theorem alike_total {w u v rest : List Char} {t : DiceToken} {n m : Nat} (hw : IsWord w)
    (hregular : Regular w) (hshort : HasShortNumerals w) (ht : diceAt? w = some t)
    (hsplit : w = t.text ++ rest) (hn : IsLiteral (natText n)) (hm : IsLiteral (natText m))
    (hu : ∀ c ∈ u.head?, IsMark c) (hv : ∀ c ∈ v.head?, IsMark c) (h : Alike u v) :
    Alike (natText n ++ rest ++ u) (natText m ++ rest ++ v) := by
  obtain ⟨htoken, rest', hsplit', hdigit⟩ := isNotation_of_diceAt? ht
  obtain rfl := List.append_cancel_left (hsplit.symm.trans hsplit')
  subst hsplit
  -- behind the digit that the notation ends with there is no other one
  obtain ⟨c, hlast, hc⟩ := htoken.exists_getLast?
  have hfollow : MayFollow rest := hregular.mayFollow hlast hc
  have hhead : ∀ c ∈ rest.head?, c.isDigit = false := by
    intro c hc
    refine Bool.eq_false_iff.mpr fun hd => ?_
    unfold startsWithDigit at hdigit
    rw [Option.mem_def.mp hc, Option.any_some, isDecimal_of_isDigit hd] at hdigit
    cases hdigit
  have hends := fun {t} ht => @endsNumeral_of_mayFollow rest t hfollow hhead ht
  rw [List.append_assoc, List.append_assoc]
  exact .numeral hn hm (hends hu) (hends hv) (alike_word (hregular.of_append hfollow)
    (fun c hc => hw.all c (List.mem_append_right _ hc))
    (hshort.of_infix (List.suffix_append _ _).isInfix) hu hv h)

/-- Whatever a word becomes, it becomes alike in another trial. -/
theorem alike_becomes {w a b u v : List Char} (hw : IsWord w) (hregular : Regular w)
    (hshort : HasShortNumerals w) (ha : Becomes d w a) (hb : Becomes d w b)
    (hu : ∀ c ∈ u.head?, IsMark c) (hv : ∀ c ∈ v.head?, IsMark c) (h : Alike u v) :
    Alike (a ++ u) (b ++ v) := by
  cases ha with
  | name hx hname hn =>
    cases hb with
    | name _ _ hm =>
      exact .numeral hn hm (fun c hc => (hu c hc).ends.1) (fun c hc => (hv c hc).ends.1) h
    | total hother => exact absurd hname (hother _ hx)
    | kept hother => exact absurd hname (hother _ hx)
  | @total t rest n hother ht hform hsplit hn =>
    cases hb with
    | name hx hname => exact absurd hname (hother _ hx)
    | kept _ hnone => exact absurd hform (hnone t ht)
    | @total t' rest' m _ ht' _ hsplit' hm =>
      rw [ht] at ht'
      cases ht'
      obtain rfl := List.append_cancel_left (hsplit.symm.trans hsplit')
      exact alike_total hw hregular hshort ht hsplit hn hm hu hv h
  | kept hother hnone =>
    cases hb with
    | name hx hname => exact absurd hname (hother _ hx)
    | total _ ht hform => exact absurd hform (hnone _ ht)
    | kept => exact alike_word hregular hw.all hshort hu hv h

/-- One way to work a formula out: numbers of a modest size for the names, and dice in their ranges
whose chains of sixes end. -/
structure Trial (d : Dialect) (s : String) where
  State : Type
  source : Source State
  world : World State
  bindings : Bindings
  bound : ∀ x ∈ d.parameters, ∃ n : Nat, (natText n).length ≤ modestDigits ∧
    ∀ m, (x, m) ∈ bindings ↔ m = .int n
  inRange : source.InRange
  patience : source.patience < Nat.pow 10 modestDigits
  ends : (evaluateStrict d bindings s).Ends source world

namespace Trial

variable {s : String}

/-- Whether the formula fails. -/
def Fails (t : Trial d s) : Prop :=
  ∃ why w, evaluateStrict d t.bindings s t.source t.world = .error (.formula why) w

/-- What words make place for. -/
def paste (t : Trial d s) : List Char → List Char :=
  valueOf (longestFirst (t.bindings.within d.parameters))

theorem pastes (t : Trial d s) : Pastes d t.paste := by
  constructor
  · intro x hx
    obtain ⟨n, hn, hbound⟩ := t.bound x hx
    have hle : modestDigits ≤ maxDigits := by decide
    refine ⟨n, ⟨natText_ne_nil n, fun _ => isDigit_of_mem_natText, hn.trans hle⟩, ?_⟩
    rw [paste, valueOf_of_mem (mem_longestFirst_within.mpr ⟨(hbound _).mpr rfl, hx⟩) fun m hm =>
      (hbound m).mp (mem_longestFirst_within.mp hm).1, valueText_int, if_neg (by omega)]
    rfl
  · intro w hw
    refine valueOf_of_ne ?_
    rintro ⟨x, n⟩ hb heq
    exact hw x (mem_longestFirst_within.mp hb).2 heq.symm

/-- The values of the names can be written. -/
theorem writable (t : Trial d s) : Writable d t.bindings := by
  rintro ⟨x, v⟩ hb
  obtain ⟨hb, hx⟩ := mem_within.mp hb
  obtain ⟨n, hn, hbound⟩ := t.bound x hx
  obtain rfl := (hbound v).mp hb
  have hle : modestDigits ≤ longestNumeral := by decide
  exact hn.trans hle

/-- The first word of a text, rolled in a trial. -/
theorem rolled_word (t : Trial d s) {w text : List Char} (hw : IsWord w) (hgap : IsGap text)
    {r : Rolled} {w₀ w₁ : World t.State}
    (h : rollPieces d (pieces (mapWords t.paste (w ++ text))) t.source w₀ = .ok r w₁) :
    ∃ front r' w', Becomes d w front ∧
      rollPieces d (pieces (mapWords t.paste text)) t.source w' = .ok r' w₁ ∧
      r.text = front ++ r'.text := by
  obtain ⟨ps, hcut, hpieces⟩ := exists_cut t.pastes hw hgap
  rw [hpieces] at h
  exact hcut.rolled t.inRange h

/-- A mark in front of a text, rolled in a trial. -/
theorem rolled_mark (t : Trial d s) {c : Char} {text : List Char} (hc : IsMark c) {r : Rolled}
    {w₀ w₁ : World t.State}
    (h : rollPieces d (pieces (mapWords t.paste (c :: text))) t.source w₀ = .ok r w₁) :
    ∃ r', rollPieces d (pieces (mapWords t.paste text)) t.source w₀ = .ok r' w₁ ∧
      r.text = c :: r'.text := by
  rw [mapWords_cons hc.isWordChar_eq, pieces_cons hc] at h
  obtain ⟨r', hr', rfl⟩ := bind_pure_ok_iff.mp h
  exact ⟨r', hr', rfl⟩

/-- Behind a word stays a mark. -/
theorem isMark_of_rolled (t : Trial d s) {text : List Char} (hregular : Regular text)
    (hgap : IsGap text) {r : Rolled} {w₀ w₁ : World t.State}
    (h : rollPieces d (pieces (mapWords t.paste text)) t.source w₀ = .ok r w₁) :
    ∀ c ∈ r.text.head?, IsMark c := by
  cases text with
  | nil =>
    obtain ⟨rfl, -⟩ := pure_ok_iff.mp h
    exact nofun
  | cons c text =>
    have hmark := hregular.isMark List.mem_cons_self (isGap_cons.mp hgap)
    obtain ⟨r', -, htext⟩ := t.rolled_mark hmark h
    rw [htext]
    rintro k ⟨⟩
    exact hmark

/-- A text is rolled alike in two trials. -/
theorem alike_of_rolled (t u : Trial d s) {text : List Char} (hregular : Regular text)
    (hshort : HasShortNumerals text) {r r' : Rolled} {w₀ w₁ : World t.State}
    {v₀ v₁ : World u.State}
    (ht : rollPieces d (pieces (mapWords t.paste text)) t.source w₀ = .ok r w₁)
    (hu : rollPieces d (pieces (mapWords u.paste text)) u.source v₀ = .ok r' v₁) :
    Alike r.text r'.text := by
  induction text using words_induction generalizing r r' w₀ v₀ with
  | nil =>
    obtain ⟨rfl, -⟩ := pure_ok_iff.mp ht
    obtain ⟨rfl, -⟩ := pure_ok_iff.mp hu
    exact .nil
  | gap c text hc ih =>
    have hmark := hregular.isMark List.mem_cons_self hc
    obtain ⟨r₁, hr₁, htext⟩ := t.rolled_mark hmark ht
    obtain ⟨r₂, hr₂, htext'⟩ := u.rolled_mark hmark hu
    obtain ⟨m, hm, rfl⟩ := id hmark
    rw [htext, htext']
    exact .mark hm (ih (hregular.of_cons (Or.inl hmark))
      (hshort.of_infix (List.suffix_cons _ _).isInfix) hr₁ hr₂)
  | word w text hw hgap ih =>
    have hwshort : HasShortNumerals w := hshort.of_infix (List.prefix_append _ _).isInfix
    have hrest : Regular text := hregular.rest hgap
    obtain ⟨front, r₁, w', hfront, hr₁, htext⟩ := t.rolled_word hw hgap ht
    obtain ⟨front', r₂, v', hfront', hr₂, htext'⟩ := u.rolled_word hw hgap hu
    rw [htext, htext']
    exact alike_becomes hw (hregular.word hgap) hwshort hfront hfront'
      (t.isMark_of_rolled hrest hgap hr₁) (u.isMark_of_rolled hrest hgap hr₂)
      (ih hrest (hshort.of_infix (List.suffix_append _ _).isInfix) hr₁ hr₂)

theorem fails_evaluate_iff {src : Source σ} {w : World σ} {expr : String} :
    (∃ why w', Roll.evaluate d expr src w = .error (.formula why) w') ↔
      FailsAsFormula (evaluate d expr) := by
  rw [Roll.evaluate_eq]
  unfold FailsAsFormula
  cases evaluate d expr with
  | ok n => simp
  | error e => cases e <;> simp

section Nonblank

variable (hd : d ∈ Dialect.builtin) (hfunctions : d.functions = false) (t : Trial d s)
  (hblank : isBlankString s = false)

include hd hfunctions hblank

/-- A formula that is not blank is rolled word by word, and what comes out is worked out. -/
theorem evaluateStrict_eq : (evaluateStrict d t.bindings s : Roll t.State Evaluation) = (do
    let r ← rollPieces d (pieces (mapWords t.paste (trim s.toList)))
    let value ← Roll.evaluate d (String.ofList r.text)
    return { formula := s, value := value, expression := String.ofList r.text, dice := r.dice,
             openEnded := r.openEnded }) := by
  have hbound : ∀ x ∈ d.parameters, ∀ n, (x, n) ∈ t.bindings → ∃ k, n = .int k := by
    intro x hx m hm
    obtain ⟨n, -, hbound⟩ := t.bound x hx
    exact ⟨n, (hbound m).mp hm⟩
  rw [evaluateStrict_of_writable hblank t.writable, namedText_eq_mapWords hd hfunctions hbound]
  rfl

/-- The dice of a formula are rolled: they are not given up, no count is too long to be read, and no
total is too long to be written. -/
theorem exists_rolled (hregular : Regular (trim s.toList))
    (hshort : HasShortNumerals (trim s.toList)) :
    ∃ r w, rollPieces d (pieces (mapWords t.paste (trim s.toList))) t.source t.world =
      .ok r w := by
  have hmodest : ∀ token, .dice token ∈ pieces (mapWords t.paste (trim s.toList)) →
      token.digits.length ≤ modestDigits :=
    fun token => short_of_mem_pieces t.pastes hregular hshort
  cases hrun : rollPieces d (pieces (mapWords t.paste (trim s.toList))) t.source t.world with
  | ok r w => exact ⟨r, w, rfl⟩
  | error e w =>
    cases rollPieces_error hrun with
    | endless =>
      refine absurd ?_ (t.ends w)
      rw [t.evaluateStrict_eq hd hfunctions hblank]
      exact bind_error_iff.mpr (Or.inl hrun)
    | @uncountable token htoken _ hlong =>
      have hle : modestDigits ≤ longestNumeral := by decide
      exact absurd hlong (Nat.not_lt.mpr ((hmodest token htoken).trans hle))
    | overlong h =>
      obtain ⟨front, token, rest, r, w₁, total, own, w₂, hsplit, -, -, hroll, hlong⟩ := h
      have htoken : .dice token ∈ pieces (mapWords t.paste (trim s.toList)) := by
        rw [hsplit]
        exact List.mem_append_right front List.mem_cons_self
      exact absurd (rollToken_short t.inRange t.patience (hmodest token htoken) hroll) hlong

/-- A formula that is rolled fails as its expression does. -/
theorem fails_iff_of_rolled {r : Rolled} {w : World t.State}
    (hr : rollPieces d (pieces (mapWords t.paste (trim s.toList))) t.source t.world = .ok r w) :
    t.Fails ↔ FailsAsFormula (evaluate d (String.ofList r.text)) := by
  rw [← @fails_evaluate_iff _ d t.source w]
  unfold Fails
  rw [t.evaluateStrict_eq hd hfunctions hblank]
  constructor
  · rintro ⟨why, w', h⟩
    rcases bind_error_iff.mp h with h | ⟨r', w₁, hr', h⟩
    · rw [hr] at h
      cases h
    · rw [hr] at hr'
      cases hr'
      exact ⟨why, w', bind_pure_error_iff.mp h⟩
  · rintro ⟨why, w', h⟩
    exact ⟨why, w', bind_error_iff.mpr (Or.inr ⟨r, w, hr, bind_pure_error_iff.mpr h⟩)⟩

end Nonblank

/-- A formula that is put together fails in all trials or in none. -/
theorem fails_iff (hd : d ∈ Dialect.builtin) (hfunctions : d.functions = false)
    (hs : Composed d s) (t u : Trial d s) : t.Fails ↔ u.Fails := by
  cases hblank : isBlankString s with
  | true =>
    have hfails : ∀ t : Trial d s, t.Fails := by
      intro t
      refine ⟨.emptyFormula, t.world, ?_⟩
      unfold evaluateStrict
      rw [hblank]
      rfl
    -- a blank formula fails before anything is rolled
    exact iff_of_true (hfails t) (hfails u)
  | false =>
    obtain ⟨ps, hps, htext⟩ := hs.parts
    have hregular : Regular (trim s.toList) := by
      rw [htext, trim_textOf (fun a ha => Operand.Fits.isWord hd ha) hps]
      exact regular_textOf hd hfunctions fun p hp => hps p (mem_of_mem_trimParts hp)
    have hshort : HasShortNumerals (trim s.toList) := hs.short.of_infix (trim_isInfix _)
    obtain ⟨r, w, hr⟩ := t.exists_rolled hd hfunctions hblank hregular hshort
    obtain ⟨r', w', hr'⟩ := u.exists_rolled hd hfunctions hblank hregular hshort
    rw [t.fails_iff_of_rolled hd hfunctions hblank hr,
      u.fails_iff_of_rolled hd hfunctions hblank hr']
    exact (t.alike_of_rolled u hregular hshort hr hr').evaluate_fails_iff hfunctions

end Trial

/-! ### The check -/

/-- What every name of a dialect is bound to while a formula is checked. -/
def sampleBindings (d : Dialect) : Bindings :=
  d.parameters.map fun name => (name, .int sampleValue)

/-- What the check makes of a fault. -/
def checkFault : Fault → Except Fault (Option FormulaError)
  | .formula why => .ok (some why)
  | f => .error f

section Check

variable {s : String} {w : World Twister}

/-- The check has nothing to say about a formula with a value. -/
theorem checkFormula_of_ok {e : Evaluation}
    (h : evaluateStrict d (sampleBindings d) s Twister.source (World.start (Twister.ofSeed 0)) =
      .ok e w) : checkFormula d s = .ok none := by
  have hout := Roll.outcome_of_ok h
  unfold sampleBindings at hout
  unfold checkFormula
  dsimp only
  rw [hout]

theorem checkFormula_of_error {f : Fault}
    (h : evaluateStrict d (sampleBindings d) s Twister.source (World.start (Twister.ofSeed 0)) =
      .error f w) : checkFormula d s = checkFault f := by
  have hout := Roll.outcome_of_error h
  unfold sampleBindings at hout
  unfold checkFormula
  dsimp only
  rw [hout]
  cases f <;> rfl

end Check

/-- The trial that the check of a formula makes. -/
def checkTrial (d : Dialect) (s : String) (h : checkFormula d s ≠ .error .endless) : Trial d s where
  State := Twister
  source := Twister.source
  world := World.start (Twister.ofSeed 0)
  bindings := sampleBindings d
  bound := by
    intro x hx
    refine ⟨30, by decide, fun m => ?_⟩
    simp only [sampleBindings, List.mem_map, Prod.mk.injEq]
    exact ⟨fun ⟨_, _, _, hm⟩ => hm.symm, fun hm => ⟨x, hx, rfl, hm.symm⟩⟩
  inRange := Twister.inRange_source
  patience := by decide +kernel
  ends := by
    intro w hw
    refine h ?_
    rw [checkFormula_of_error hw]
    rfl

/-- The check reports an error exactly if its trial fails. -/
theorem checkFormula_iff {s : String} (h : checkFormula d s ≠ .error .endless) :
    (∃ why, checkFormula d s = .ok (some why)) ↔ (checkTrial d s h).Fails := by
  have hfails : (checkTrial d s h).Fails ↔ ∃ why w, evaluateStrict d (sampleBindings d) s
      Twister.source (World.start (Twister.ofSeed 0)) = .error (.formula why) w := Iff.rfl
  rw [hfails]
  cases hrun : evaluateStrict d (sampleBindings d) s Twister.source
      (World.start (Twister.ofSeed 0)) with
  | ok e w =>
    rw [checkFormula_of_ok hrun]
    simp
  | error f w =>
    rw [checkFormula_of_error hrun]
    cases f <;> simp [checkFault]

/-- A formula without functions that is put together from digits, names, notations, signs of
arithmetic but the quotient, brackets and blanks fails in all trials or in none, whether it makes
sense or not. So where the one trial that the check makes is not given up, the check reports an
error exactly if the formula fails whatever its names are bound to and whatever its dice show. -/
theorem verdict (hd : d ∈ Dialect.builtin) (hfunctions : d.functions = false) {s : String}
    (hs : Composed d s) :
    (∀ t u : Trial d s, t.Fails ↔ u.Fails) ∧
      (checkFormula d s ≠ .error .endless →
        ((∃ why, checkFormula d s = .ok (some why)) ↔ ∀ t : Trial d s, t.Fails)) := by
  refine ⟨Trial.fails_iff hd hfunctions hs, fun h => ?_⟩
  rw [checkFormula_iff h]
  exact ⟨fun hcheck t => (Trial.fails_iff hd hfunctions hs _ t).mp hcheck, fun hall => hall _⟩

theorem composed_sample : Composed .sibling "characterAge 2" := by
  refine ⟨⟨[.leaf (.name "characterAge"), .mark (.blank ' '), .leaf (.literal ['2'])], ?_,
    by decide⟩, fun ds hds _ => hds.length_le.trans (by decide)⟩
  simp only [List.forall_mem_cons]
  have hname : "characterAge" ∈ Dialect.sibling.parameters := by decide
  exact ⟨hname, rfl, ⟨List.cons_ne_nil _ _, List.forall_mem_singleton.mpr rfl⟩, nofun⟩

/-- Two operands without a sign between them are no formula, whatever the age is. -/
theorem verdict_sample : (∃ why, checkFormula .sibling "characterAge 2" = .ok (some why)) ∧
    ∀ t : Trial .sibling "characterAge 2", t.Fails := by
  have hcheck : ∃ why, checkFormula .sibling "characterAge 2" = .ok (some why) := ⟨_, rfl⟩
  have hends : checkFormula .sibling "characterAge 2" ≠ .error .endless := by
    obtain ⟨why, h⟩ := hcheck
    rw [h]
    exact nofun
  exact ⟨hcheck, ((verdict (by decide) rfl composed_sample).2 hends).mp hcheck⟩

end Kindred.Formula
