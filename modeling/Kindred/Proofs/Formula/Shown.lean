import Kindred.Proofs.Formula.Pieces

/-!
# What a formula shows

What is left of a formula once its names have values and its dice are rolled, word by word. A bound
name makes place for its value, a word that starts with a notation for the total and the rest of
the word, and every other word stays, as does everything between words.

- `ShowsWord`, `Shows`: what a word shows, and a text.
- `shows_of_rolled`: what rolling a text leaves.
- `Shows.split`: what a text shows around one of its words.
- `Shows.of_concat_point`, `Shows.of_sign`: what in a text a point at its end comes from, and a
  digit behind a sign.
-/

namespace Kindred.Formula

open Kindred.Text

variable {σ : Type} {d : Dialect} {bs : Bindings} {joined : Bool} {s t w x : List Char}

/-! ### Words and texts -/

/-- What a word shows. `joined` tells that no notation starts behind the character in front. -/
inductive ShowsWord (d : Dialect) (bs : Bindings) (joined : Bool) (w : List Char) :
    List Char → Prop
  | value {x : String} {n : Int} (hx : (x, .int n) ∈ bs) (hw : w = x.toList) :
      ShowsWord d bs joined w (valueText (.int n))
  | total {t : DiceToken} {rest : List Char} (n : Int) (hname : ∀ b ∈ bs, b.1.toList ≠ w)
      (hjoined : joined = false) (ht : diceAt? w = some t) (hform : t.form ∈ d.dice)
      (hw : w = t.text ++ rest) : ShowsWord d bs joined w (intText n ++ rest)
  | kept (hname : ∀ b ∈ bs, b.1.toList ≠ w)
      (ht : joined = false → ∀ t, diceAt? w = some t → t.form ∉ d.dice) :
      ShowsWord d bs joined w w

/-- What a text shows. -/
inductive Shows (d : Dialect) (bs : Bindings) : Bool → List Char → List Char → Prop
  | nil {joined : Bool} : Shows d bs joined [] []
  | gap {joined : Bool} {c : Char} {s t : List Char} (hc : isWordChar c = false)
      (h : Shows d bs (joins c) s t) : Shows d bs joined (c :: s) (c :: t)
  | word {joined : Bool} {w s x t : List Char} (hw : IsWord w) (hs : IsGap s)
      (hx : ShowsWord d bs joined w x) (h : Shows d bs true s t) :
      Shows d bs joined (w ++ s) (x ++ t)

/-- The first word of a text is rolled by itself, and the others after it. -/
theorem showsWord_of_rolled (hbs : ∀ b ∈ bs, ∃ n, b.2 = .int n) (hw : IsWord w) (hs : IsGap s)
    {src : Source σ} {w₀ w₁ : World σ} {r : Rolled}
    (h : rollPieces d (piecesFrom joined 0 (valueOf bs w ++ s)) src w₀ = .ok r w₁) :
    ∃ x r' w', ShowsWord d bs joined w x ∧
      rollPieces d (piecesFrom true 0 s) src w' = .ok r' w₁ ∧ r.text = x ++ r'.text := by
  rcases valueOf_cases bs w with ⟨x, v, hx, hname, hvalue⟩ | ⟨hname, hself⟩
  · obtain ⟨n, rfl⟩ := hbs _ hx
    obtain ⟨j, hj⟩ := @piecesFrom_append_value n s hs joined
    rw [hvalue, hj, rollPieces_chars] at h
    obtain ⟨r', hr', rfl⟩ := map_ok_iff.mp h
    refine ⟨_, r', w₀, .value hx hname.symm, ?_, rfl⟩
    cases s with
    | nil => exact hr'
    | cons c s =>
      rw [piecesFrom_cons (isGap_cons.mp hs)] at hr' ⊢
      exact hr'
  · rw [hself] at h
    rcases piecesFrom_word hw hs joined with ⟨t, rest, hj, ht, hsplit, hp⟩ | ⟨ht, hp⟩
    · rw [hp, List.cons_append] at h
      rcases rollPieces_notation_origin h with
        ⟨hform, total, own, w', r', -, -, hr', htext⟩ | ⟨hform, r', hr', htext⟩
      · exact ⟨_, r', w', .total total hname hj ht hform hsplit, hr', htext⟩
      · rw [← hsplit] at htext
        refine ⟨w, r', w₀, .kept hname ?_, hr', htext⟩
        rw [ht]
        rintro - t' ⟨⟩
        exact hform
    · rw [hp, rollPieces_chars] at h
      obtain ⟨r', hr', rfl⟩ := map_ok_iff.mp h
      refine ⟨w, r', w₀, .kept hname ?_, hr', rfl⟩
      intro hj t htoken
      rw [ht hj] at htoken
      cases htoken

/-- What rolling a text leaves, once its names made place for their values. -/
theorem shows_of_rolled (hbs : ∀ b ∈ bs, ∃ n, b.2 = .int n) {src : Source σ} {w₀ w₁ : World σ}
    {r : Rolled}
    (h : rollPieces d (piecesFrom joined 0 (mapWords (valueOf bs) s)) src w₀ = .ok r w₁) :
    Shows d bs joined s r.text := by
  induction s using words_induction generalizing joined r w₀ with
  | nil =>
    obtain ⟨rfl, -⟩ := pure_ok_iff.mp h
    exact .nil
  | gap c s hc ih =>
    rw [mapWords_cons hc, piecesFrom_cons hc] at h
    obtain ⟨r', hr', rfl⟩ := bind_pure_ok_iff.mp h
    exact .gap hc (ih hr')
  | word w s hw hs ih =>
    rw [mapWords_append hw hs] at h
    obtain ⟨x, r', w', hx, hr', htext⟩ := showsWord_of_rolled hbs hw (isGap_mapWords hs) h
    rw [htext]
    exact .word hw hs hx (ih hr')

/-! ### Around a word -/

/-- What a text shows that starts with a word. -/
theorem Shows.of_word (h : Shows d bs joined (w ++ s) t) (hw : IsWord w) (hs : IsGap s) :
    ∃ x u, t = x ++ u ∧ ShowsWord d bs joined w x ∧ Shows d bs true s u := by
  obtain ⟨c, v, hcons, hc, -⟩ := hw.exists_cons
  generalize hu : w ++ s = u at h
  cases h with
  | nil =>
    rw [hcons] at hu
    cases hu
  | gap hc' h =>
    rw [hcons] at hu
    obtain ⟨rfl, -⟩ := List.cons.inj hu
    rw [hc] at hc'
    cases hc'
  | word hw' hs' hx h =>
    obtain ⟨rfl, rfl⟩ := word_unique hw hs hw' hs' hu
    exact ⟨_, _, rfl, hx, h⟩

/-- What a text shows that starts between words. -/
theorem Shows.of_gap {c : Char} (h : Shows d bs joined (c :: s) t) (hc : isWordChar c = false) :
    ∃ u, t = c :: u ∧ Shows d bs (joins c) s u := by
  generalize hu : c :: s = u at h
  cases h with
  | nil => cases hu
  | gap hc' h =>
    cases hu
    exact ⟨_, rfl, h⟩
  | word hw' hs' hx h =>
    obtain ⟨k, v, rfl, hk, -⟩ := hw'.exists_cons
    obtain ⟨rfl, -⟩ := List.cons.inj hu
    rw [hk] at hc
    cases hc

/-- Whether no word goes on behind a text. -/
def EndsApart (s : List Char) : Prop := ∀ c ∈ s.getLast?, isWordChar c = false

/-- Whether no notation starts behind a text; `joined` tells it for the empty text. -/
def joinedAfter (joined : Bool) (s : List Char) : Bool := (s.getLast?.map joins).getD joined

theorem EndsApart.of_append {u v : List Char} (h : EndsApart (u ++ v)) (hv : v ≠ []) :
    EndsApart v := by
  intro c hc
  refine h c ?_
  rwa [List.getLast?_append_of_ne_nil _ hv]

theorem joinedAfter_append {u v : List Char} (hv : v ≠ []) (j : Bool) :
    joinedAfter joined (u ++ v) = joinedAfter j v := by
  unfold joinedAfter
  rw [List.getLast?_append_of_ne_nil _ hv, List.getLast?_eq_some_getLast hv]
  rfl

/-- A text that ends with a word does not end apart. -/
theorem not_endsApart_word (hw : IsWord w) : ¬ EndsApart w := by
  intro h
  have hlast := List.getLast?_eq_some_getLast hw.ne_nil
  have hword := hw.all _ (List.getLast_mem hw.ne_nil)
  rw [h _ hlast] at hword
  cases hword

/-- What a text shows around one of its words. -/
theorem Shows.split {u v : List Char} (h : Shows d bs joined (u ++ (w ++ v)) t)
    (hu : EndsApart u) (hw : IsWord w) (hv : IsGap v) :
    ∃ u' x v', t = u' ++ (x ++ v') ∧ Shows d bs joined u u' ∧
      ShowsWord d bs (joinedAfter joined u) w x ∧ Shows d bs true v v' := by
  induction u using words_induction generalizing joined t with
  | nil =>
    change Shows d bs joined (w ++ v) t at h
    obtain ⟨x, v', rfl, hx, hv'⟩ := h.of_word hw hv
    exact ⟨[], x, v', rfl, .nil, hx, hv'⟩
  | gap c u hc ih =>
    obtain ⟨t', rfl, hrest⟩ := Shows.of_gap h hc
    cases hnil : u with
    | nil =>
      subst hnil
      obtain ⟨u', x, v', rfl, hu', hx, hv'⟩ := ih hrest nofun
      exact ⟨c :: u', x, v', rfl, .gap hc hu', hx, hv'⟩
    | cons k rest =>
      have hne : u ≠ [] := by simp [hnil]
      obtain ⟨u', x, v', rfl, hu', hx, hv'⟩ := ih hrest (@EndsApart.of_append [c] u hu hne)
      rw [← hnil]
      refine ⟨c :: u', x, v', rfl, .gap hc hu', ?_, hv'⟩
      rwa [show c :: u = [c] ++ u from rfl, joinedAfter_append hne (joins c)]
  | word k u hk hgap ih =>
    have hne : u ≠ [] := by
      rintro rfl
      rw [List.append_nil] at hu
      exact not_endsApart_word hk hu
    have hend : IsGap (u ++ (w ++ v)) := by
      obtain ⟨c, u', rfl⟩ := List.exists_cons_of_ne_nil hne
      exact isGap_cons.mpr (isGap_cons.mp hgap)
    rw [List.append_assoc] at h
    obtain ⟨y, t', rfl, hy, hrest⟩ := h.of_word hk hend
    obtain ⟨u', x, v', rfl, hu', hx, hv'⟩ := ih hrest (hu.of_append hne)
    refine ⟨y ++ u', x, v', (List.append_assoc _ _ _).symm, .word hk hgap hy hu', ?_, hv'⟩
    rwa [joinedAfter_append hne true]

/-! ### Characters between words -/

/-- What a word shows is not empty, and made of characters of words, brackets and minus signs. -/
theorem ShowsWord.chars (h : ShowsWord d bs joined w x) (hw : IsWord w) :
    x ≠ [] ∧ ∀ c ∈ x, isWordChar c = true ∨ c ∈ ['(', '-', ')'] := by
  have hnat : ∀ {n : Nat} {c : Char}, c ∈ natText n → isWordChar c = true := fun hc =>
    isWordChar_of_isDigit (isDigit_of_mem_natText hc)
  cases h with
  | value hx hname =>
    rename_i n
    rw [valueText_int]
    split
    · refine ⟨List.cons_ne_nil _ _, fun c hc => ?_⟩
      simp only [List.cons_append, List.mem_cons, List.mem_append, List.not_mem_nil,
        or_false] at hc
      rcases hc with rfl | rfl | hc | rfl
      · exact .inr (by decide)
      · exact .inr (by decide)
      · exact .inl (hnat hc)
      · exact .inr (by decide)
    · exact ⟨natText_ne_nil _, fun c hc => .inl (hnat hc)⟩
  | total n hname hjoined ht hform hsplit =>
    rename_i t rest
    have hrest : ∀ c ∈ rest, isWordChar c = true := by
      intro c hc
      refine hw.all c ?_
      rw [hsplit]
      exact List.mem_append_right _ hc
    cases n with
    | ofNat n =>
      refine ⟨fun hnil => natText_ne_nil n (List.append_eq_nil_iff.mp hnil).1, fun c hc => ?_⟩
      rcases List.mem_append.mp hc with hc | hc
      · exact .inl (hnat hc)
      · exact .inl (hrest c hc)
    | negSucc n =>
      refine ⟨List.cons_ne_nil _ _, fun c hc => ?_⟩
      rcases List.mem_append.mp hc with hc | hc
      · rcases List.mem_cons.mp hc with rfl | hc
        · exact .inr (by decide)
        · exact .inl (hnat hc)
      · exact .inl (hrest c hc)
  | kept hname ht => exact ⟨hw.ne_nil, fun c hc => .inl (hw.all c hc)⟩

/-- Something shows of every text that is not empty, and of no other one. -/
theorem Shows.eq_nil_iff (h : Shows d bs joined s t) : t = [] ↔ s = [] := by
  cases h with
  | nil => exact Iff.rfl
  | gap hc h => exact iff_of_false (List.cons_ne_nil _ _) (List.cons_ne_nil _ _)
  | word hw hs hx h =>
    refine iff_of_false (fun hnil => (hx.chars hw).1 ?_) (fun hnil => hw.ne_nil ?_)
    · exact (List.append_eq_nil_iff.mp hnil).1
    · exact (List.append_eq_nil_iff.mp hnil).1

/-- What shows behind a word is no word either. -/
theorem Shows.isGap (h : Shows d bs joined s t) (hs : IsGap s) : IsGap t := by
  cases s with
  | nil =>
    rw [h.eq_nil_iff.mpr rfl]
    exact isGap_nil
  | cons c s =>
    obtain ⟨t', rfl, -⟩ := h.of_gap (isGap_cons.mp hs)
    exact isGap_cons.mpr (isGap_cons.mp hs)

/-- A text that ends apart shows one that does. -/
theorem Shows.endsApart (h : Shows d bs joined s t) (hs : EndsApart s) : EndsApart t := by
  induction h with
  | nil => exact nofun
  | @gap joined c s t hc h ih =>
    by_cases ht : t = []
    · subst ht
      rintro k ⟨⟩
      exact hc
    · have hrest := ih (@EndsApart.of_append [c] s hs (mt h.eq_nil_iff.mpr ht))
      intro k hk
      refine hrest k ?_
      rwa [← List.getLast?_append_of_ne_nil [c] ht]
  | @word joined w s x t hw hgap hx h ih =>
    have hne : s ≠ [] := by
      rintro rfl
      rw [List.append_nil] at hs
      exact not_endsApart_word hw hs
    have hrest := ih (hs.of_append hne)
    intro k hk
    refine hrest k ?_
    rwa [← List.getLast?_append_of_ne_nil x (mt h.eq_nil_iff.mp hne)]

/-- A point at the end of what a text shows is one of the text. -/
theorem Shows.of_concat_point (h : Shows d bs joined s (t ++ ['.'])) :
    ∃ u, s = u ++ ['.'] ∧ Shows d bs joined u t := by
  generalize ht : t ++ ['.'] = t' at h
  induction h generalizing t with
  | nil => cases t <;> cases ht
  | @gap joined c s t' hc h ih =>
    cases t with
    | nil =>
      obtain ⟨rfl, rfl⟩ := List.cons.inj ht
      rw [h.eq_nil_iff.mp rfl]
      exact ⟨[], rfl, .nil⟩
    | cons k t =>
      obtain ⟨rfl, htail⟩ := List.cons.inj ht
      obtain ⟨u, rfl, hu⟩ := ih htail
      exact ⟨k :: u, rfl, .gap hc hu⟩
  | @word joined w s x t' hw hs hx h ih =>
    -- no word shows a point, so the point is one of those behind the word
    have hpoint : '.' ∉ x := by
      intro hmem
      rcases (hx.chars hw).2 '.' hmem with hc | hc <;> exact absurd hc (by decide)
    rcases List.append_eq_append_iff.mp ht with ⟨v, rfl, hv⟩ | ⟨v, rfl, hv⟩
    · cases v with
      | nil =>
        obtain ⟨u, rfl, hu⟩ := @ih [] hv
        refine ⟨w ++ u, (List.append_assoc _ _ _).symm, ?_⟩
        have hword := Shows.word hw (fun c hc => hs c (List.mem_head?_append_of_mem_head? hc)) hx hu
        simpa using hword
      | cons c v =>
        obtain ⟨rfl, -⟩ := List.cons.inj hv
        exact absurd (List.mem_append_right _ List.mem_cons_self) hpoint
    · obtain ⟨u, rfl, hu⟩ := ih hv.symm
      refine ⟨w ++ u, (List.append_assoc _ _ _).symm, .word hw ?_ hx hu⟩
      exact fun c hc => hs c (List.mem_head?_append_of_mem_head? hc)

/-- A digit behind a sign comes from a word behind the sign. -/
theorem Shows.of_sign {c k : Char} (h : Shows d bs joined s (c :: k :: t)) (hs : IsGap s)
    (hk : isWordChar k = true) : ∃ k' u, s = c :: k' :: u ∧ isWordChar k' = true := by
  cases s with
  | nil => exact absurd (h.eq_nil_iff.mpr rfl) (List.cons_ne_nil _ _)
  | cons c' s =>
    obtain ⟨t', ht, hrest⟩ := h.of_gap (isGap_cons.mp hs)
    obtain ⟨rfl, rfl⟩ := List.cons.inj ht
    cases s with
    | nil => exact absurd (hrest.eq_nil_iff.mpr rfl) (List.cons_ne_nil _ _)
    | cons k' s =>
      refine ⟨k', s, rfl, ?_⟩
      cases hk' : isWordChar k' with
      | true => rfl
      | false =>
        obtain ⟨t'', ht, -⟩ := hrest.of_gap hk'
        obtain ⟨rfl, -⟩ := List.cons.inj ht
        rw [hk] at hk'
        cases hk'

end Kindred.Formula
