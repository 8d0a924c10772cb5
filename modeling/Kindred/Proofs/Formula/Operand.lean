import Kindred.Proofs.Dice.Notation
import Kindred.Proofs.Dice.Rolled
import Kindred.Proofs.Formula.Spelling
import Kindred.Proofs.Formula.Substitution

/-!
# Formulas written with operands

The leaves of a formula are literals, names and dice notations. Each stands apart from the next, so
each is a word of the text, and names make place for their values one leaf at a time.

- `Operand`, `Operand.Allowed`: the leaves that a dialect has.
- `Written`: the texts that spell an expression in a dialect.
- `Settled`, `settle`: a leaf with its value, once names have values and dice are rolled.
- `namedText_textOf`: the text of a formula with its names replaced.
-/

namespace Kindred.Formula

open Kindred.Text

variable {α β σ : Type}

/-! ### Leaves -/

/-- A whole number as it may be written: not too long to be read. Thousands of digits are allowed,
so among numbers of a size that formulas deal with only zeros in front can make one too long. -/
structure IsLiteral (ds : List Char) : Prop where
  ne_nil : ds ≠ []
  digits : ∀ c ∈ ds, c.isDigit = true
  length_le : ds.length ≤ maxDigits

/-- A leaf of a formula. -/
inductive Operand where
  | literal (digits : List Char)
  | name (x : String)
  | dice (t : DiceToken)
deriving Repr

namespace Operand

/-- How a leaf is written. -/
def text : Operand → List Char
  | literal ds => ds
  | name x => x.toList
  | dice t => t.text

/-- Whether a leaf may stand in a formula of a dialect, with a numeral that can be read. -/
def Allowed (d : Dialect) : Operand → Prop
  | literal ds => IsLiteral ds
  | name x => x ∈ d.parameters
  | dice t => t.form ∈ d.dice ∧ t.IsNotation ∧ t.digits.length ≤ longestNumeral

end Operand

/-- Whether a mark that is given as a blank is one. -/
def Mark.IsPlain : Mark → Prop
  | blank c => isBlank c = true
  | _ => True

/-- Whether a condition holds of the leaf of a part, if it is one. -/
def Part.Holds (p : α → Prop) : Part α → Prop
  | leaf a => p a
  | mark m => m.IsPlain

/-- Whether a text spells an expression in a dialect, with any blanks between the parts. -/
def Written (d : Dialect) (t : Term Operand) (s : String) : Prop :=
  ∃ signed ps, (∀ p ∈ ps, p.Holds (Operand.Allowed d)) ∧
    Spelled signed .sum t (ps.filter Part.isSolid) ∧ s.toList = textOf Operand.text ps

/-- A leaf whose value is known. -/
structure Settled where
  /-- How the value stands in the expression that is worked out. -/
  text : List Char
  value : Int
  /-- The notation rolled for it, with its total. -/
  dice : List (String × Int) := []
  openEnded : Option OpenEnded := none
deriving Repr

/-- Settles a leaf: names have values, and dice are rolled. -/
def settle (env : String → Int) : Operand → Roll σ Settled
  | .literal ds => return { text := ds, value := digitsValue ds }
  | .name x => return { text := valueText (.int (env x)), value := env x }
  | .dice t => do
    let (total, own) ← rollToken t
    return { text := intText total, value := total, dice := [(String.ofList t.text, total)],
             openEnded := own }

/-! ### Rows as texts -/

/-- A mark is no word character, and a notation may start behind it. -/
theorem Mark.joins_char {m : Mark} (hm : m.IsPlain) : joins m.char = false := by
  cases m with
  | sign op => cases op <;> decide
  | opening => decide
  | closing => decide
  | blank c =>
    show (isWordChar c || c == '.') = false
    have hpoint : (c == '.') = false := by
      refine beq_false_of_ne ?_
      rintro rfl
      exact absurd (show isBlank '.' = true from hm) (by decide)
    rw [isWordChar_of_isBlank hm, hpoint]
    rfl

theorem Mark.isWordChar_char {m : Mark} (hm : m.IsPlain) : isWordChar m.char = false :=
  (Bool.or_eq_false_iff.mp (m.joins_char hm)).1

theorem Mark.isBlank_char {m : Mark} (h : m.isSolid = true) : isBlank m.char = false := by
  cases m with
  | sign op => cases op <;> decide
  | opening => decide
  | closing => decide
  | blank c => cases h

/-- Nothing is joined where a row starts without a leaf. -/
theorem joins_of_mem_head?_textOf {write : α → List Char} {p : α → Prop} {ps : List (Part α)}
    (hps : ∀ q ∈ ps, q.Holds p) (hhead : ∀ q ∈ ps.head?, q.leaf? = none) :
    ∀ c ∈ (textOf write ps).head?, joins c = false := by
  cases ps with
  | nil => exact nofun
  | cons q ps =>
    cases q with
    | leaf a => cases hhead _ rfl
    | mark m =>
      intro c hc
      cases hc
      exact m.joins_char (hps _ List.mem_cons_self)

theorem isGap_textOf {write : α → List Char} {p : α → Prop} {ps : List (Part α)}
    (hps : ∀ q ∈ ps, q.Holds p) (hhead : ∀ q ∈ ps.head?, q.leaf? = none) :
    IsGap (textOf write ps) := fun c hc =>
  (Bool.or_eq_false_iff.mp (joins_of_mem_head?_textOf hps hhead c hc)).1

theorem leaf?_of_isChain {a : α} {ps : List (Part α)}
    (h : List.IsChain Part.Apart (.leaf a :: ps)) : ∀ q ∈ ps.head?, q.leaf? = none := by
  intro q hq
  have hapart := ((List.isChain_cons.mp h).1 q hq).1
  cases q with
  | leaf b => exact absurd ⟨rfl, rfl⟩ hapart
  | mark m => rfl

/-- A row is changed word by word as its leaves are. -/
theorem mapWords_textOf {f : List Char → List Char} {write : α → List Char} {p : α → Prop}
    {ps : List (Part α)} (hwrite : ∀ a, p a → IsWord (write a)) (hps : ∀ q ∈ ps, q.Holds p)
    (hchain : List.IsChain Part.Apart ps) :
    mapWords f (textOf write ps) = textOf (fun a => f (write a)) ps := by
  induction ps with
  | nil => rfl
  | cons q ps ih =>
    obtain ⟨hq, hrest⟩ := List.forall_mem_cons.mp hps
    have ih := ih hrest (List.isChain_cons.mp hchain).2
    cases q with
    | leaf a =>
      have hgap : IsGap (textOf write ps) := isGap_textOf hrest (leaf?_of_isChain hchain)
      rw [textOf_cons, textOf_cons, ← ih]
      exact mapWords_append (hwrite a hq) hgap
    | mark m =>
      rw [textOf_cons, textOf_cons, ← ih]
      exact mapWords_cons (m.isWordChar_char hq)

theorem textOf_congr {write other : α → List Char} {p : α → Prop} {ps : List (Part α)}
    (h : ∀ a, p a → write a = other a) (hps : ∀ q ∈ ps, q.Holds p) :
    textOf write ps = textOf other ps := by
  refine List.flatMap_congr fun q hq => ?_
  cases q with
  | leaf a => exact h a (hps _ hq)
  | mark m => rfl

/-! ### Blanks at the ends -/

/-- A row without the blanks in front. -/
def dropBlankParts (ps : List (Part α)) : List (Part α) := ps.dropWhile fun p => !p.isSolid

/-- A row without the blanks at its two ends. -/
def trimParts (ps : List (Part α)) : List (Part α) :=
  (dropBlankParts (dropBlankParts ps).reverse).reverse

theorem mem_of_mem_trimParts {p : Part α} {ps : List (Part α)} (h : p ∈ trimParts ps) : p ∈ ps := by
  have hdrop : ∀ {qs : List (Part α)}, p ∈ dropBlankParts qs → p ∈ qs :=
    fun h => (List.dropWhile_sublist _).mem h
  exact hdrop (List.mem_reverse.mp (hdrop (List.mem_reverse.mp h)))

theorem filter_dropBlankParts (ps : List (Part α)) :
    (dropBlankParts ps).filter Part.isSolid = ps.filter Part.isSolid := by
  unfold dropBlankParts
  induction ps with
  | nil => rfl
  | cons p ps ih =>
    cases hp : p.isSolid with
    | true => rw [List.dropWhile_cons_of_neg (by simp [hp])]
    | false => rw [List.dropWhile_cons_of_pos (by simp [hp]), ih,
        List.filter_cons_of_neg (by simp [hp])]

/-- Only blanks are cut off. -/
theorem filter_trimParts (ps : List (Part α)) :
    (trimParts ps).filter Part.isSolid = ps.filter Part.isSolid := by
  unfold trimParts
  rw [List.filter_reverse, filter_dropBlankParts, List.filter_reverse, filter_dropBlankParts,
    List.reverse_reverse]

theorem reverse_textOf {write : α → List Char} (ps : List (Part α)) :
    (textOf write ps).reverse = textOf (fun a => (write a).reverse) ps.reverse := by
  unfold textOf
  rw [List.reverse_flatMap]
  refine congrArg (List.flatMap · ps.reverse) (funext fun p => ?_)
  cases p <;> rfl

/-- Blanks in front of a text are the blanks in front of its row. -/
theorem dropBlanks_textOf {write : α → List Char} {p : α → Prop} {ps : List (Part α)}
    (hwrite : ∀ a, p a → IsWord (write a)) (hps : ∀ q ∈ ps, q.Holds p) :
    dropBlanks (textOf write ps) = textOf write (dropBlankParts ps) := by
  unfold dropBlanks dropBlankParts
  induction ps with
  | nil => rfl
  | cons q ps ih =>
    obtain ⟨hq, hrest⟩ := List.forall_mem_cons.mp hps
    cases q with
    | leaf a =>
      -- the blanks end in front of a word
      obtain ⟨c, u, hcons, hc, -⟩ := (hwrite a hq).exists_cons
      have hblank := isBlank_of_isWordChar hc
      have htext : textOf write (.leaf a :: ps) = c :: (u ++ textOf write ps) := by
        rw [textOf_cons]
        show write a ++ _ = _
        rw [hcons]
        rfl
      rw [List.dropWhile_cons_of_neg (by simp [Part.isSolid]), htext,
        List.dropWhile_cons_of_neg (by simp [hblank])]
    | mark m =>
      cases hm : m.isSolid with
      | true =>
        rw [List.dropWhile_cons_of_neg (by simp [Part.isSolid, hm])]
        exact List.dropWhile_cons_of_neg (by simp [m.isBlank_char hm])
      | false =>
        have hblank : isBlank m.char = true := by
          cases m with
          | blank c => exact hq
          | sign op => cases hm
          | opening => cases hm
          | closing => cases hm
        rw [List.dropWhile_cons_of_pos (by simp [Part.isSolid, hm]), ← ih hrest]
        exact List.dropWhile_cons_of_pos hblank

/-- Blanks at the ends of a text are the blanks at the ends of its row. -/
theorem trim_textOf {write : α → List Char} {p : α → Prop} {ps : List (Part α)}
    (hwrite : ∀ a, p a → IsWord (write a)) (hps : ∀ q ∈ ps, q.Holds p) :
    trim (textOf write ps) = textOf write (trimParts ps) := by
  have hdropped : ∀ q ∈ (dropBlankParts ps).reverse, q.Holds p := fun q hq =>
    hps q ((List.dropWhile_sublist _).mem (List.mem_reverse.mp hq))
  -- the blanks at the end are those in front of the text read backwards
  have hback := @dropBlanks_textOf _ (fun a => (write a).reverse) p _
    (fun a ha => (hwrite a ha).reverse) hdropped
  unfold trim dropBlanksRight trimParts
  rw [dropBlanks_textOf hwrite hps, reverse_textOf, hback, reverse_textOf]
  simp only [List.reverse_reverse]

/-- A row with a part that says something is no blank text. -/
theorem isBlankText_textOf {write : α → List Char} {p : α → Prop} {ps : List (Part α)}
    (hwrite : ∀ a, p a → ∃ c ∈ write a, isBlank c = false) (hps : ∀ q ∈ ps, q.Holds p)
    (hsolid : ps.filter Part.isSolid ≠ []) : isBlankText (textOf write ps) = false := by
  obtain ⟨q, hq⟩ := List.exists_mem_of_ne_nil _ hsolid
  obtain ⟨hq, hsolid⟩ := List.mem_filter.mp hq
  have hfound : ∃ c ∈ q.text write, isBlank c = false := by
    cases q with
    | leaf a => exact hwrite a (hps _ hq)
    | mark m => exact ⟨m.char, List.mem_singleton.mpr rfl, m.isBlank_char hsolid⟩
  obtain ⟨c, hc, hblank⟩ := hfound
  unfold isBlankText
  rw [List.all_eq_false]
  exact ⟨c, List.mem_flatMap.mpr ⟨q, hq, hc⟩, by simp [hblank]⟩

/-! ### Names replaced -/

/-- The names of the built-in dialects are words without digits. -/
theorem isName_of_mem_parameters {d : Dialect} (hd : d ∈ Dialect.builtin) {x : String}
    (hx : x ∈ d.parameters) : IsName x.toList ∧ ∀ c ∈ x.toList, c.isDigit = false := by
  have hall : ∀ d ∈ Dialect.builtin, ∀ x ∈ d.parameters,
      x.toList ≠ [] ∧ x.toList.all fun c => isWordChar c && !c.isDigit := by decide
  obtain ⟨hne, hchars⟩ := hall d hd x hx
  have hword : ∀ c ∈ x.toList, isWordChar c = true ∧ c.isDigit = false := by
    intro c hc
    simpa using List.all_eq_true.mp hchars c hc
  exact ⟨⟨⟨hne, fun c hc => (hword c hc).1⟩, fun c hc => (hword c (List.mem_of_mem_head? hc)).2⟩,
    fun c hc => (hword c hc).2⟩

theorem Operand.Allowed.isWord {d : Dialect} (hd : d ∈ Dialect.builtin) {a : Operand}
    (ha : a.Allowed d) : IsWord a.text := by
  cases a with
  | literal ds => exact isWord_of_isDigit ha.ne_nil ha.digits
  | name x => exact (isName_of_mem_parameters hd ha).1.toIsWord
  | dice t => exact ha.2.1.isWord

/-- Whether every name of a dialect is bound, and to nothing but an integer. -/
def Binds (d : Dialect) (bs : Bindings) (env : String → Int) : Prop :=
  ∀ x ∈ d.parameters, ∀ n, (x, n) ∈ bs ↔ n = .int (env x)

/-- A leaf after names made place for their values. -/
def Operand.named (env : String → Int) : Operand → List Char
  | name x => valueText (.int (env x))
  | a => a.text

section Names

variable {d : Dialect} {bs : Bindings} {env : String → Int}

theorem mem_within {x : String} {n : Number} :
    (x, n) ∈ bs.within d.parameters ↔ (x, n) ∈ bs ∧ x ∈ d.parameters := by
  unfold Bindings.within
  rw [List.mem_filter]
  simp

theorem mem_longestFirst_within {x : String} {n : Number} :
    (x, n) ∈ longestFirst (bs.within d.parameters) ↔ (x, n) ∈ bs ∧ x ∈ d.parameters :=
  (sortBy_perm _ _).mem_iff.trans mem_within

/-- Names that are bound to integers can be written if those are short. -/
theorem Binds.writable_iff (hbs : Binds d bs env) :
    Writable d bs ↔ ∀ x ∈ d.parameters, Short (env x) := by
  constructor
  · intro h x hx
    exact h (x, .int (env x)) (mem_within.mpr ⟨(hbs x hx _).mpr rfl, hx⟩)
  · rintro h ⟨x, n⟩ hb
    obtain ⟨hb, hx⟩ := mem_within.mp hb
    obtain rfl := (hbs x hx n).mp hb
    exact h x hx

/-- A word with a digit in it is no name. -/
theorem valueOf_of_isDigit (hd : d ∈ Dialect.builtin) {w : List Char}
    (hw : ∃ c ∈ w, c.isDigit = true) :
    valueOf (longestFirst (bs.within d.parameters)) w = w := by
  obtain ⟨c, hc, hdigit⟩ := hw
  refine valueOf_of_ne ?_
  rintro ⟨x, n⟩ hb rfl
  rw [(isName_of_mem_parameters hd (mem_longestFirst_within.mp hb).2).2 c hc] at hdigit
  cases hdigit

/-- Leaves make place for their values. -/
theorem valueOf_text (hd : d ∈ Dialect.builtin) (hbs : Binds d bs env) {a : Operand}
    (ha : a.Allowed d) :
    valueOf (longestFirst (bs.within d.parameters)) a.text = a.named env := by
  cases a with
  | literal ds =>
    obtain ⟨c, u, rfl⟩ := List.exists_cons_of_ne_nil ha.ne_nil
    exact valueOf_of_isDigit hd ⟨c, List.mem_cons_self, ha.digits c List.mem_cons_self⟩
  | name x =>
    refine valueOf_of_mem (mem_longestFirst_within.mpr ⟨(hbs x ha _).mpr rfl, ha⟩) fun m hm => ?_
    exact (hbs x ha m).mp (mem_longestFirst_within.mp hm).1
  | dice t => exact valueOf_of_isDigit hd ha.2.1.exists_isDigit

/-- Names that are bound to integers make place for them, once the blanks at both ends are off. -/
theorem namedText_eq_mapWords (hd : d ∈ Dialect.builtin) (hfunctions : d.functions = false)
    (hbs : ∀ x ∈ d.parameters, ∀ n, (x, n) ∈ bs → ∃ k, n = .int k) (s : String) :
    namedText d bs s =
      mapWords (valueOf (longestFirst (bs.within d.parameters))) (trim s.toList) := by
  have hnames : ∀ b ∈ bs.within d.parameters, IsName b.1.toList ∧ ∃ n, b.2 = .int n := by
    rintro ⟨x, n⟩ hb
    obtain ⟨hb, hx⟩ := mem_within.mp hb
    exact ⟨(isName_of_mem_parameters hd hx).1, hbs x hx n hb⟩
  unfold namedText
  simp only [hfunctions, Bool.false_eq_true, if_false]
  rw [replaceAll_eq_mapWords hnames]

/-- The text of a formula with its names replaced, blanks at its ends cut off. -/
theorem namedText_textOf (hd : d ∈ Dialect.builtin) (hfunctions : d.functions = false)
    (hbs : Binds d bs env) {ps : List (Part Operand)} (hps : ∀ p ∈ ps, p.Holds (Operand.Allowed d))
    (hchain : List.IsChain Part.Apart (ps.filter Part.isSolid)) {s : String}
    (hs : s.toList = textOf Operand.text ps) :
    namedText d bs s = textOf (Operand.named env) (trimParts ps) := by
  have hwrite : ∀ a, Operand.Allowed d a → IsWord a.text := fun a ha => ha.isWord hd
  have htrim : ∀ p ∈ trimParts ps, p.Holds (Operand.Allowed d) :=
    fun p hp => hps p (mem_of_mem_trimParts hp)
  have hapart : List.IsChain Part.Apart (trimParts ps) :=
    isChain_of_filter (by rw [filter_trimParts]; exact hchain)
  rw [namedText_eq_mapWords hd hfunctions fun x hx n hn => ⟨env x, (hbs x hx n).mp hn⟩, hs,
    trim_textOf hwrite hps, mapWords_textOf hwrite htrim hapart]
  exact textOf_congr (fun a ha => valueOf_text hd hbs ha) htrim

end Names

end Kindred.Formula
