import Kindred.Proofs.Formula.Containment
import Kindred.Proofs.Formula.Operand

/-!
# Dice of a formula rolled

The dice of a text are found from left to right. In a text that is written with operands they are
the notations among the leaves and no others: neither a literal nor a value that came in for a name
is part of one. So rolling the text is rolling the leaves.

- `piecesFrom_cons`, `piecesFrom_append_digits`, `piecesFrom_append_notation`: the parts of a text.
- `Part.pieces`, `piecesFrom_textOf`: the parts of the text of a row.
- `rollPieces_notation_origin`: what is left of a text that starts with a notation.
- `rollPieces_flatMap_ok_iff`: the text of a row rolled.
-/

namespace Kindred.Formula

open Kindred.Text

variable {σ : Type}

/-! ### Where notations stand -/

theorem joins_of_isWordChar {c : Char} (h : isWordChar c = true) : joins c = true := by
  unfold joins
  rw [h, Bool.true_or]

theorem piecesFrom_cons {joined : Bool} {c : Char} {s : List Char} (hc : isWordChar c = false) :
    piecesFrom joined 0 (c :: s) = .char c :: piecesFrom (joins c) 0 s := by
  have hnone : (if joined then none else diceAt? (c :: s)) = none := by
    cases joined with
    | true => rfl
    | false => exact diceAt?_eq_none_of_isGap (isGap_cons.mpr hc)
  rw [piecesFrom, hnone]

/-- Inside a word no notation starts. -/
theorem piecesFrom_inside {u s : List Char} (hu : ∀ c ∈ u, isWordChar c = true) :
    piecesFrom true 0 (u ++ s) = u.map .char ++ piecesFrom true 0 s := by
  induction u with
  | nil => rfl
  | cons c u ih =>
    obtain ⟨hc, hu⟩ := List.forall_mem_cons.mp hu
    rw [List.cons_append, piecesFrom, if_pos rfl, joins_of_isWordChar hc, ih hu]
    rfl

/-- A numeral is no notation. -/
theorem piecesFrom_append_digits {ds s : List Char} (hne : ds ≠ [])
    (hds : ∀ c ∈ ds, c.isDigit = true) (hs : IsGap s) (joined : Bool) :
    piecesFrom joined 0 (ds ++ s) = ds.map .char ++ piecesFrom true 0 s := by
  have hnone : (if joined then none else diceAt? (ds ++ s)) = none := by
    cases joined with
    | true => rfl
    | false => exact diceAt?_digits_eq_none (fun c hc => isDecimal_of_isDigit (hds c hc)) hs
  obtain ⟨c, u, rfl⟩ := List.exists_cons_of_ne_nil hne
  obtain ⟨hc, hu⟩ := List.forall_mem_cons.mp hds
  rw [List.cons_append] at hnone ⊢
  rw [piecesFrom, hnone, joins_of_isWordChar (isWordChar_of_isDigit hc)]
  simp only
  rw [piecesFrom_inside fun d hd => isWordChar_of_isDigit (hu d hd)]
  rfl

/-- The characters of a notation are passed over. -/
theorem piecesFrom_skip {u s : List Char} (hu : ∀ c ∈ u, isWordChar c = true) :
    piecesFrom true u.length (u ++ s) = piecesFrom true 0 s := by
  induction u with
  | nil => rfl
  | cons c u ih =>
    obtain ⟨hc, hu⟩ := List.forall_mem_cons.mp hu
    rw [List.cons_append, List.length_cons, piecesFrom, joins_of_isWordChar hc]
    exact ih hu

theorem startsWithDigit_of_isGap {s : List Char} (hs : IsGap s) : startsWithDigit s = false := by
  cases s with
  | nil => rfl
  | cons c s => exact isDecimal_of_not_isWordChar (isGap_cons.mp hs)

/-- A notation is found where it starts a word and no digit follows it. -/
theorem piecesFrom_append_notation {t : DiceToken} (ht : t.IsNotation) {s : List Char}
    (hs : startsWithDigit s = false) :
    piecesFrom false 0 (t.text ++ s) = .dice t :: piecesFrom true 0 s := by
  have hdice := ht.diceAt?_append hs
  obtain ⟨c, u, hcons, hc, hu⟩ := ht.isWord.exists_cons
  rw [hcons, List.cons_append] at hdice ⊢
  rw [piecesFrom, if_neg Bool.false_ne_true, hdice, joins_of_isWordChar hc]
  simp only
  have hlength : t.text.length - 1 = u.length := by
    rw [hcons]
    rfl
  rw [hlength, piecesFrom_skip hu]

/-- A word is cut by itself: a notation may stand at its front, and nothing stands in it else. -/
theorem piecesFrom_word {w s : List Char} (hw : IsWord w) (hs : IsGap s) (joined : Bool) :
    (∃ t rest, joined = false ∧ diceAt? w = some t ∧ w = t.text ++ rest ∧
      piecesFrom joined 0 (w ++ s) = .dice t :: rest.map .char ++ piecesFrom true 0 s) ∨
    ((joined = false → diceAt? w = none) ∧
      piecesFrom joined 0 (w ++ s) = w.map .char ++ piecesFrom true 0 s) := by
  have hkept : (joined = false → diceAt? (w ++ s) = none) →
      piecesFrom joined 0 (w ++ s) = w.map .char ++ piecesFrom true 0 s := by
    intro hnone
    obtain ⟨c, u, rfl, hc, hu⟩ := hw.exists_cons
    have hfront : (if joined then none else diceAt? (c :: (u ++ s))) = none := by
      cases joined with
      | true => rfl
      | false => exact hnone rfl
    rw [List.cons_append, piecesFrom, hfront, joins_of_isWordChar hc, piecesFrom_inside hu]
    rfl
  have hdice := diceAt?_append_of_isGap (w := w) hs
  rw [hdice] at hkept
  cases joined with
  | true => exact .inr ⟨nofun, hkept nofun⟩
  | false =>
    cases ht : diceAt? w with
    | none => exact .inr ⟨fun _ => rfl, hkept fun _ => ht⟩
    | some t =>
      obtain ⟨htoken, rest, rfl, hrest⟩ := isNotation_of_diceAt? ht
      have hinside : ∀ c ∈ rest, isWordChar c = true :=
        fun c hc => hw.all c (List.mem_append_right _ hc)
      have hdigit : startsWithDigit (rest ++ s) = false := by
        cases rest with
        | nil => exact startsWithDigit_of_isGap hs
        | cons c rest => exact hrest
      refine .inl ⟨t, rest, rfl, rfl, rfl, ?_⟩
      rw [List.append_assoc, piecesFrom_append_notation htoken hdigit, piecesFrom_inside hinside]
      rfl

/-- The parts of the text of a value. -/
theorem piecesFrom_append_value {n : Int} {s : List Char} (hs : IsGap s) (joined : Bool) :
    ∃ j, piecesFrom joined 0 (valueText (.int n) ++ s) =
      (valueText (.int n)).map .char ++ piecesFrom j 0 s := by
  have hdigits : ∀ c ∈ natText n.natAbs, c.isDigit = true := fun _ => isDigit_of_mem_natText
  rw [valueText_int]
  split
  · have hclose : isWordChar ')' = false := by decide
    have hnumeral := piecesFrom_append_digits (natText_ne_nil n.natAbs) hdigits
      (isGap_cons.mpr hclose : IsGap (')' :: s)) (joins '-')
    refine ⟨joins ')', ?_⟩
    show piecesFrom joined 0 ('(' :: '-' :: (natText n.natAbs ++ [')'] ++ s)) = _
    rw [piecesFrom_cons (by decide), piecesFrom_cons (by decide), List.append_assoc]
    show _ :: _ :: piecesFrom (joins '-') 0 (natText n.natAbs ++ ')' :: s) = _
    rw [hnumeral, piecesFrom_cons hclose]
    simp
  · exact ⟨true, piecesFrom_append_digits (natText_ne_nil _) hdigits hs joined⟩

/-- What is found in the text of a part: a notation, or characters only. -/
def Part.pieces (env : String → Int) : Part Operand → List Piece
  | .leaf (.dice t) => [.dice t]
  | p => (p.text (Operand.named env)).map .char

variable {d : Dialect} {env : String → Int}

/-- The notations in the text of a row are those among its leaves. -/
theorem piecesFrom_textOf {ps : List (Part Operand)}
    (hps : ∀ p ∈ ps, p.Holds (Operand.Allowed d)) (hchain : List.IsChain Part.Apart ps)
    {joined : Bool} (hjoined : joined = true → ∀ p ∈ ps.head?, p.leaf? = none) :
    piecesFrom joined 0 (textOf (Operand.named env) ps) = ps.flatMap (Part.pieces env) := by
  induction ps generalizing joined with
  | nil => rfl
  | cons p ps ih =>
    obtain ⟨hp, hrest⟩ := List.forall_mem_cons.mp hps
    have hnext := (List.isChain_cons.mp hchain).2
    rw [textOf_cons, List.flatMap_cons]
    cases p with
    | mark m =>
      have hjoins : joins m.char = true → ∀ p ∈ ps.head?, p.leaf? = none := by
        rw [m.joins_char hp]
        exact nofun
      show piecesFrom joined 0 (m.char :: textOf (Operand.named env) ps) = _
      rw [piecesFrom_cons (m.isWordChar_char hp), ih hrest hnext hjoins]
      rfl
    | leaf a =>
      have hbehind := leaf?_of_isChain hchain
      have hgap : IsGap (textOf (Operand.named env) ps) := isGap_textOf hrest hbehind
      -- behind a leaf stands no other leaf, so it does not matter whether one might start there
      have ih := fun (j : Bool) => ih hrest hnext (fun _ : j = true => hbehind)
      cases a with
      | literal ds =>
        show piecesFrom joined 0 (ds ++ textOf (Operand.named env) ps) = _
        rw [piecesFrom_append_digits hp.ne_nil hp.digits hgap, ih true]
        rfl
      | name x =>
        obtain ⟨j, hj⟩ := @piecesFrom_append_value (env x) _ hgap joined
        show piecesFrom joined 0 (valueText (.int (env x)) ++ textOf (Operand.named env) ps) = _
        rw [hj, ih j]
        rfl
      | dice t =>
        have hfree : joined = false := by
          refine Bool.eq_false_iff.mpr fun hj => ?_
          cases hjoined hj _ rfl
        show piecesFrom joined 0 (t.text ++ textOf (Operand.named env) ps) = _
        rw [hfree, piecesFrom_append_notation hp.2.1 (startsWithDigit_of_isGap hgap), ih true]
        rfl

/-! ### Rolling a text -/

/-- What is left of a text that starts with a notation: the total of the notation and what stands
behind it, or the notation itself if the dialect has no such dice. -/
theorem rollPieces_notation_origin {src : Source σ} {w w' : World σ} {t : DiceToken}
    {cs : List Char} {ps : List Piece} {r : Rolled}
    (h : rollPieces d (.dice t :: (cs.map .char ++ ps)) src w = .ok r w') :
    (t.form ∈ d.dice ∧ ∃ total own w₁ r', rollToken t src w = .ok (total, own) w₁ ∧
      Short total ∧ rollPieces d ps src w₁ = .ok r' w' ∧
      r.text = intText total ++ cs ++ r'.text) ∨
    (t.form ∉ d.dice ∧ ∃ r', rollPieces d ps src w = .ok r' w' ∧
      r.text = t.text ++ cs ++ r'.text) := by
  by_cases hform : t.form ∈ d.dice
  · obtain ⟨total, own, w₁, r₁, htoken, hshort, hr₁, rfl⟩ := (rollPieces_dice_ok_iff hform).mp h
    rw [rollPieces_chars] at hr₁
    obtain ⟨r', hr', rfl⟩ := map_ok_iff.mp hr₁
    exact .inl ⟨hform, total, own, w₁, r', htoken, hshort, hr', (List.append_assoc _ _ _).symm⟩
  · rw [rollPieces_kept hform] at h
    obtain ⟨r₁, hr₁, rfl⟩ := map_ok_iff.mp h
    rw [rollPieces_chars] at hr₁
    obtain ⟨r', hr', rfl⟩ := map_ok_iff.mp hr₁
    exact .inr ⟨hform, r', hr', (List.append_assoc _ _ _).symm⟩

/-- What stands between words in front of a text is left when the text is rolled. -/
theorem isGap_of_rolled {src : Source σ} {w w' : World σ} {joined : Bool} {s : List Char}
    (hs : IsGap s) {r : Rolled} (h : rollPieces d (piecesFrom joined 0 s) src w = .ok r w') :
    IsGap r.text := by
  cases s with
  | nil =>
    obtain ⟨rfl, -⟩ := pure_ok_iff.mp h
    exact isGap_nil
  | cons c s =>
    have hc := isGap_cons.mp hs
    rw [piecesFrom_cons hc] at h
    obtain ⟨r', -, rfl⟩ := bind_pure_ok_iff.mp h
    exact isGap_cons.mpr hc

/-- What was rolled for the leaves of a row. -/
def rolledOf (bs : List (Part Settled)) : Rolled :=
  { text := textOf Settled.text bs, dice := (leavesOf bs).flatMap Settled.dice,
    openEnded := (leavesOf bs).findSome? Settled.openEnded }

/-- What was rolled for a leaf and what stands behind it. -/
def Settled.before (b : Settled) (r : Rolled) : Rolled :=
  { text := b.text ++ r.text, dice := b.dice ++ r.dice, openEnded := b.openEnded.or r.openEnded }

theorem rolledOf_leaf (b : Settled) (bs : List (Part Settled)) :
    rolledOf (.leaf b :: bs) = b.before (rolledOf bs) := by
  unfold rolledOf Settled.before
  rw [leavesOf_leaf, List.findSome?_cons]
  cases b.openEnded <;> rfl

/-- A leaf in front whose value can be written. -/
theorem rollPieces_leaf_ok_iff {a : Operand} (ha : a.Allowed d)
    (hshort : ∀ x ∈ d.parameters, Short (env x)) {ps : List Piece} {src : Source σ}
    {w w' : World σ} {r : Rolled} :
    rollPieces d (Part.pieces env (.leaf a) ++ ps) src w = .ok r w' ↔
      ∃ b w₁ r', settle env a src w = .ok b w₁ ∧ Short b.value ∧
        rollPieces d ps src w₁ = .ok r' w' ∧ b.before r' = r := by
  -- a leaf whose text is there already
  have hplain : ∀ (cs : List Char) (n : Int), Short n →
      (rollPieces d (cs.map .char ++ ps) src w = .ok r w' ↔
        ∃ b w₁ r', (pure { text := cs, value := n } : Roll σ Settled) src w = .ok b w₁ ∧
          Short b.value ∧ rollPieces d ps src w₁ = .ok r' w' ∧ b.before r' = r) := by
    intro cs n hn
    rw [rollPieces_chars, map_ok_iff]
    constructor
    · rintro ⟨r', hr', rfl⟩
      exact ⟨_, w, r', rfl, hn, hr', rfl⟩
    · rintro ⟨_, _, r', ⟨⟩, -, hr', rfl⟩
      exact ⟨r', hr', rfl⟩
  cases a with
  | literal ds => exact hplain ds _ (short_digitsValue ha.length_le)
  | name x => exact hplain (valueText (.int (env x))) _ (hshort x ha)
  | dice t =>
    show rollPieces d (.dice t :: ps) src w = .ok r w' ↔ _
    rw [rollPieces_dice_ok_iff ha.1]
    constructor
    · rintro ⟨total, own, w₁, r', htoken, hn, hr', rfl⟩
      exact ⟨_, w₁, r', bind_pure_ok_iff.mpr ⟨(total, own), htoken, rfl⟩, hn, hr', rfl⟩
    · rintro ⟨b, w₁, r', hb, hn, hr', rfl⟩
      obtain ⟨⟨total, own⟩, htoken, rfl⟩ := bind_pure_ok_iff.mp hb
      exact ⟨total, own, w₁, r', htoken, hn, hr', rfl⟩

/-- The text of a row is rolled as its leaves are, if their values can be written. -/
theorem rollPieces_flatMap_ok_iff {ps : List (Part Operand)}
    (hps : ∀ p ∈ ps, p.Holds (Operand.Allowed d)) (hshort : ∀ x ∈ d.parameters, Short (env x))
    {src : Source σ} {w w' : World σ} {r : Rolled} :
    rollPieces d (ps.flatMap (Part.pieces env)) src w = .ok r w' ↔
      ∃ qs, rollParts (settle env) ps src w = .ok qs w' ∧ (∀ b ∈ leavesOf qs, Short b.value) ∧
        rolledOf qs = r := by
  induction ps generalizing w r with
  | nil =>
    constructor
    · intro h
      obtain ⟨rfl, rfl⟩ := pure_ok_iff.mp h
      exact ⟨[], rfl, nofun, rfl⟩
    · rintro ⟨qs, hqs, -, rfl⟩
      obtain ⟨rfl, rfl⟩ := pure_ok_iff.mp hqs
      rfl
  | cons p ps ih =>
    obtain ⟨hp, hrest⟩ := List.forall_mem_cons.mp hps
    have ih := fun {w r} => ih (w := w) (r := r) hrest
    rw [List.flatMap_cons]
    cases p with
    | mark m =>
      show rollPieces d ([m.char].map .char ++ ps.flatMap (Part.pieces env)) src w = _ ↔ _
      rw [rollPieces_chars, map_ok_iff]
      constructor
      · rintro ⟨r', hr', rfl⟩
        obtain ⟨qs, hqs, hvalues, rfl⟩ := ih.mp hr'
        exact ⟨.mark m :: qs, rollParts_mark hqs, hvalues, rfl⟩
      · rintro ⟨_, hrow, hvalues, rfl⟩
        obtain ⟨qs, hqs, rfl⟩ := bind_pure_ok_iff.mp hrow
        exact ⟨rolledOf qs, ih.mpr ⟨qs, hqs, hvalues, rfl⟩, rfl⟩
    | leaf a =>
      rw [rollPieces_leaf_ok_iff hp hshort]
      constructor
      · rintro ⟨b, w₁, r', hb, hvalue, hr', rfl⟩
        obtain ⟨qs, hqs, hvalues, rfl⟩ := ih.mp hr'
        refine ⟨.leaf b :: qs, ?_, List.forall_mem_cons.mpr ⟨hvalue, hvalues⟩, ?_⟩
        · exact bind_ok_iff.mpr ⟨b, w₁, hb, bind_pure_ok_iff.mpr ⟨qs, hqs, rfl⟩⟩
        · exact rolledOf_leaf b qs
      · rintro ⟨_, hrow, hvalues, rfl⟩
        obtain ⟨b, w₁, hb, hrow⟩ := bind_ok_iff.mp hrow
        obtain ⟨qs, hqs, rfl⟩ := bind_pure_ok_iff.mp hrow
        obtain ⟨hvalue, hvalues⟩ := List.forall_mem_cons.mp hvalues
        exact ⟨b, w₁, _, hb, hvalue, ih.mpr ⟨qs, hqs, hvalues, rfl⟩, (rolledOf_leaf b qs).symm⟩

end Kindred.Formula
