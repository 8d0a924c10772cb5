import Mathlib.Data.List.Chain
import Kindred.Proofs.Roll

/-!
# Expressions and how they are spelled

The trees that formulas stand for, over leaves of any kind, and the rows of leaves, signs, brackets
and blanks that spell them. A product binds its operands closer than a sum or a difference, and
among operations of one rank the left one comes first; what departs from this needs brackets, and
more brackets than needed may stand. A minus sign in front of an operand stands at the very start or
right behind an opening bracket.

- `Term`: the trees, with `Term.eval`, their values.
- `Part`: a leaf or a mark; `textOf`: a row of parts as a text.
- `Spelled`: which rows spell a tree.
- `Spelled.framed`: neither two leaves nor two signs stand side by side.
- `Term.roll`, `rollParts`, `Spelled.rolled`: the leaves rolled from left to right, in the tree and
  in the row.
-/

namespace Kindred.Formula

open Kindred.Text

variable {α β σ : Type}

/-! ### Trees -/

/-- The operations of arithmetic that keep integers integers. -/
inductive Operation where
  | sum
  | difference
  | product
deriving DecidableEq, Repr

/-- The integer that an operation makes of two. -/
def Operation.apply : Operation → Int → Int → Int
  | sum, a, b => a + b
  | difference, a, b => a - b
  | product, a, b => a * b

/-- The sign of an operation. -/
def Operation.sign : Operation → Char
  | sum => '+'
  | difference => '-'
  | product => '*'

/-- An expression. -/
inductive Term (α : Type) where
  | leaf (a : α)
  | negated (t : Term α)
  | joined (op : Operation) (a b : Term α)
deriving Repr

/-- The integer that an expression denotes. -/
def Term.eval (value : α → Int) : Term α → Int
  | leaf a => value a
  | negated t => -t.eval value
  | joined op a b => op.apply (a.eval value) (b.eval value)

/-- The leaves of an expression from left to right. -/
def Term.leaves : Term α → List α
  | leaf a => [a]
  | negated t => t.leaves
  | joined _ a b => a.leaves ++ b.leaves

/-! ### Rows -/

/-- What stands between the leaves. -/
inductive Mark where
  | sign (op : Operation)
  | opening
  | closing
  | blank (c : Char)
deriving DecidableEq, Repr

/-- The character of a mark. -/
def Mark.char : Mark → Char
  | sign op => op.sign
  | opening => '('
  | closing => ')'
  | blank c => c

/-- Whether a mark says something: blanks do not. -/
def Mark.isSolid : Mark → Bool
  | blank _ => false
  | _ => true

/-- One part of a spelling. -/
inductive Part (α : Type) where
  | leaf (a : α)
  | mark (m : Mark)
deriving Repr

namespace Part

/-- The text of a part. -/
def text (write : α → List Char) : Part α → List Char
  | leaf a => write a
  | mark m => [m.char]

/-- The leaf of a part that is one. -/
def leaf? : Part α → Option α
  | leaf a => some a
  | mark _ => none

/-- Whether a part is a sign. -/
def isSign : Part α → Bool
  | mark (.sign _) => true
  | _ => false

/-- Whether a part is a leaf or a mark that says something. -/
def isSolid : Part α → Bool
  | leaf _ => true
  | mark m => m.isSolid

/-- Whether two parts may stand side by side: no two leaves, and no two signs. -/
def Apart (p q : Part α) : Prop :=
  ¬(p.leaf?.isSome ∧ q.leaf?.isSome) ∧ ¬(p.isSign ∧ q.isSign)

end Part

/-- A row of parts as a text. -/
def textOf (write : α → List Char) (ps : List (Part α)) : List Char := ps.flatMap (Part.text write)

@[simp] theorem textOf_nil {write : α → List Char} : textOf write [] = [] := rfl

@[simp] theorem textOf_cons {write : α → List Char} (p : Part α) (ps : List (Part α)) :
    textOf write (p :: ps) = p.text write ++ textOf write ps := rfl

/-- How closely a row holds together. -/
inductive Rank where
  | operand
  | product
  | sum
deriving DecidableEq, Repr

/-- Which rows spell an expression, blanks aside. `signed` tells that a minus sign stands in front,
and `rank` how closely the row holds together. -/
inductive Spelled : Bool → Rank → Term α → List (Part α) → Prop where
  | leaf (a : α) : Spelled false .operand (.leaf a) [.leaf a]
  | bracketed {signed : Bool} {t : Term α} {ps : List (Part α)} (h : Spelled signed .sum t ps) :
      Spelled false .operand t (.mark .opening :: ps ++ [.mark .closing])
  | operand {t : Term α} {ps : List (Part α)} (h : Spelled false .operand t ps) :
      Spelled false .product t ps
  | product {signed : Bool} {t : Term α} {ps : List (Part α)} (h : Spelled signed .product t ps) :
      Spelled signed .sum t ps
  | negated {t : Term α} {ps : List (Part α)} (h : Spelled false .product t ps) :
      Spelled true .product (.negated t) (.mark (.sign .difference) :: ps)
  | multiplied {signed : Bool} {a b : Term α} {ps qs : List (Part α)}
      (ha : Spelled signed .product a ps) (hb : Spelled false .operand b qs) :
      Spelled signed .product (.joined .product a b) (ps ++ .mark (.sign .product) :: qs)
  | added {signed : Bool} {op : Operation} {a b : Term α} {ps qs : List (Part α)}
      (hop : op ≠ .product) (ha : Spelled signed .sum a ps) (hb : Spelled false .product b qs) :
      Spelled signed .sum (.joined op a b) (ps ++ .mark (.sign op) :: qs)

/-! ### Neighbours -/

/-- A blank may stand beside everything. -/
theorem Part.apart_of_not_isSolid {p q : Part α} (h : p.isSolid = false ∨ q.isSolid = false) :
    p.Apart q := by
  unfold Part.Apart
  rcases h with h | h
  · cases p with
    | leaf a => cases h
    | mark m => cases m <;> simp_all [Part.isSolid, Mark.isSolid, Part.leaf?, Part.isSign]
  · cases q with
    | leaf a => cases h
    | mark m => cases m <;> simp_all [Part.isSolid, Mark.isSolid, Part.leaf?, Part.isSign]

/-- A row whose parts may stand side by side, which does not end with a sign, and which starts with
one only if it is signed. -/
structure Framed (signed : Bool) (ps : List (Part α)) : Prop where
  ne_nil : ps ≠ []
  chain : List.IsChain Part.Apart ps
  head : signed = false → ∀ p ∈ ps.head?, p.isSign = false
  last : ∀ p ∈ ps.getLast?, p.isSign = false

theorem Framed.bracketed {signed : Bool} {ps : List (Part α)} (h : Framed signed ps) :
    Framed false (.mark .opening :: ps ++ [.mark .closing]) := by
  refine ⟨nofun, ?_, ?_, ?_⟩
  · rw [List.cons_append, List.isChain_cons, List.isChain_append]
    refine ⟨?_, h.chain, List.isChain_singleton _, ?_⟩
    · intro p hp
      exact ⟨by simp [Part.leaf?], by simp [Part.isSign]⟩
    · intro p hp q hq
      cases hq
      exact ⟨by simp [Part.leaf?], by simp [Part.isSign]⟩
  · intro _ p hp
    cases hp
    rfl
  · intro p hp
    rw [List.getLast?_concat] at hp
    cases hp
    rfl

theorem Framed.signed {ps : List (Part α)} (h : Framed false ps) (op : Operation) :
    Framed true (.mark (.sign op) :: ps) := by
  refine ⟨nofun, ?_, nofun, ?_⟩
  · rw [List.isChain_cons]
    refine ⟨fun p hp => ⟨by simp [Part.leaf?], ?_⟩, h.chain⟩
    rw [h.head rfl p hp]
    simp
  · intro p hp
    rw [List.getLast?_cons_of_ne_nil h.ne_nil] at hp
    exact h.last p hp

/-- A sign between two rows. -/
theorem Framed.append {signed : Bool} {ps qs : List (Part α)} (hps : Framed signed ps)
    (hqs : Framed false qs) (op : Operation) :
    Framed signed (ps ++ .mark (.sign op) :: qs) := by
  have hright := hqs.signed op
  refine ⟨?_, ?_, ?_, ?_⟩
  · exact List.append_ne_nil_of_left_ne_nil hps.ne_nil _
  · rw [List.isChain_append]
    refine ⟨hps.chain, hright.chain, ?_⟩
    intro p hp q hq
    cases hq
    refine ⟨by simp [Part.leaf?], ?_⟩
    rw [hps.last p hp]
    simp
  · rw [List.head?_append_of_ne_nil _ hps.ne_nil]
    exact hps.head
  · rw [List.getLast?_append_of_ne_nil _ hright.ne_nil]
    exact hright.last

/-- Every spelling is such a row. -/
theorem Spelled.framed {signed : Bool} {rank : Rank} {t : Term α} {ps : List (Part α)}
    (h : Spelled signed rank t ps) : Framed signed ps := by
  induction h with
  | leaf a => exact ⟨nofun, List.isChain_singleton _, by simp [Part.isSign], by simp [Part.isSign]⟩
  | bracketed h ih => exact ih.bracketed
  | operand h ih => exact ih
  | product h ih => exact ih
  | negated h ih => exact ih.signed _
  | multiplied ha hb iha ihb => exact iha.append ihb _
  | added hop ha hb iha ihb => exact iha.append ihb _

/-- Blanks between the parts of a row do no harm. -/
theorem isChain_of_filter {ps : List (Part α)}
    (h : List.IsChain Part.Apart (ps.filter Part.isSolid)) : List.IsChain Part.Apart ps := by
  induction ps with
  | nil => exact List.isChain_nil
  | cons p ps ih =>
    rw [List.isChain_cons]
    cases hp : p.isSolid with
    | false =>
      rw [List.filter_cons_of_neg (by simp [hp])] at h
      exact ⟨fun q _ => Part.apart_of_not_isSolid (Or.inl hp), ih h⟩
    | true =>
      rw [List.filter_cons_of_pos hp, List.isChain_cons] at h
      refine ⟨fun q hq => ?_, ih h.2⟩
      cases hqs : q.isSolid with
      | false => exact Part.apart_of_not_isSolid (Or.inr hqs)
      | true =>
        -- the neighbour is solid, so it is the neighbour without the blanks, too
        obtain ⟨qs, rfl⟩ := List.head?_eq_some_iff.mp (Option.mem_def.mp hq)
        refine h.1 q ?_
        rw [List.filter_cons_of_pos hqs]
        rfl

/-! ### Leaves -/

/-- The leaves of a row. -/
def leavesOf (ps : List (Part α)) : List α := ps.filterMap Part.leaf?

@[simp] theorem leavesOf_leaf (a : α) (ps : List (Part α)) :
    leavesOf (.leaf a :: ps) = a :: leavesOf ps := rfl

@[simp] theorem leavesOf_mark (m : Mark) (ps : List (Part α)) :
    leavesOf (.mark m :: ps) = leavesOf ps := rfl

/-- A row has the leaves of the expression that it spells, in their order. -/
theorem Spelled.leavesOf_eq {signed : Bool} {rank : Rank} {t : Term α} {ps : List (Part α)}
    (h : Spelled signed rank t ps) : leavesOf ps = t.leaves := by
  unfold leavesOf
  induction h with
  | leaf a => rfl
  | bracketed h ih =>
    rw [List.cons_append, List.filterMap_cons_none rfl, List.filterMap_append, ih]
    exact List.append_nil _
  | operand h ih => exact ih
  | product h ih => exact ih
  | negated h ih => exact ih
  | multiplied ha hb iha ihb =>
    rw [List.filterMap_append, List.filterMap_cons_none rfl, iha, ihb]
    rfl
  | added hop ha hb iha ihb =>
    rw [List.filterMap_append, List.filterMap_cons_none rfl, iha, ihb]
    rfl

theorem leavesOf_filter (ps : List (Part α)) : leavesOf (ps.filter Part.isSolid) = leavesOf ps := by
  unfold leavesOf
  rw [List.filterMap_filter]
  refine List.filterMap_congr fun p _ => ?_
  cases p with
  | leaf a => rfl
  | mark m => cases m <;> rfl

/-! ### Rolling -/

/-- Settles the leaves of an expression from left to right. -/
def Term.roll (settle : α → Roll σ β) : Term α → Roll σ (Term β)
  | leaf a => do
    let b ← settle a
    return leaf b
  | negated t => do
    let t ← t.roll settle
    return negated t
  | joined op a b => do
    let a ← a.roll settle
    let b ← b.roll settle
    return joined op a b

/-- Settles the leaves of a row from left to right. -/
def rollParts (settle : α → Roll σ β) : List (Part α) → Roll σ (List (Part β))
  | [] => return []
  | .leaf a :: ps => do
    let b ← settle a
    let ps ← rollParts settle ps
    return .leaf b :: ps
  | .mark m :: ps => do
    let ps ← rollParts settle ps
    return .mark m :: ps

variable {settle : α → Roll σ β} {src : Source σ} {w w₁ w₂ : World σ}

/-- Two rows are settled one after the other. -/
theorem rollParts_append {ps qs : List (Part α)} {bs cs : List (Part β)}
    (hps : rollParts settle ps src w = .ok bs w₁) (hqs : rollParts settle qs src w₁ = .ok cs w₂) :
    rollParts settle (ps ++ qs) src w = .ok (bs ++ cs) w₂ := by
  induction ps generalizing bs w with
  | nil =>
    obtain ⟨rfl, rfl⟩ := pure_ok_iff.mp hps
    exact hqs
  | cons p ps ih =>
    cases p with
    | leaf a =>
      rw [List.cons_append]
      obtain ⟨b, w₃, hb, hps⟩ := bind_ok_iff.mp hps
      obtain ⟨bs, hbs, rfl⟩ := bind_pure_ok_iff.mp hps
      exact bind_ok_iff.mpr ⟨b, w₃, hb, bind_pure_ok_iff.mpr ⟨bs ++ cs, ih hbs, rfl⟩⟩
    | mark m =>
      obtain ⟨bs, hbs, rfl⟩ := bind_pure_ok_iff.mp hps
      exact bind_pure_ok_iff.mpr ⟨bs ++ cs, ih hbs, rfl⟩

theorem rollParts_mark {m : Mark} {ps : List (Part α)} {bs : List (Part β)}
    (h : rollParts settle ps src w = .ok bs w₁) :
    rollParts settle (.mark m :: ps) src w = .ok (.mark m :: bs) w₁ :=
  bind_pure_ok_iff.mpr ⟨bs, h, rfl⟩

/-- Where the leaves of an expression are settled those of its spelling are, in the same way, and
the new row spells the new expression. -/
theorem Spelled.rolled {signed : Bool} {rank : Rank} {t : Term α} {ps : List (Part α)}
    (h : Spelled signed rank t ps) {t' : Term β} (hroll : t.roll settle src w = .ok t' w₁) :
    ∃ bs, rollParts settle ps src w = .ok bs w₁ ∧ Spelled signed rank t' bs := by
  induction h generalizing t' w w₁ with
  | leaf a =>
    obtain ⟨b, hb, rfl⟩ := bind_pure_ok_iff.mp hroll
    refine ⟨[.leaf b], ?_, .leaf b⟩
    exact bind_ok_iff.mpr ⟨b, w₁, hb, bind_pure_ok_iff.mpr ⟨[], rfl, rfl⟩⟩
  | bracketed h ih =>
    obtain ⟨bs, hbs, hspelled⟩ := ih hroll
    exact ⟨_, rollParts_append (rollParts_mark hbs) (rollParts_mark rfl), hspelled.bracketed⟩
  | operand h ih =>
    obtain ⟨bs, hbs, hspelled⟩ := ih hroll
    exact ⟨bs, hbs, hspelled.operand⟩
  | product h ih =>
    obtain ⟨bs, hbs, hspelled⟩ := ih hroll
    exact ⟨bs, hbs, hspelled.product⟩
  | negated h ih =>
    obtain ⟨t', ht, rfl⟩ := bind_pure_ok_iff.mp hroll
    obtain ⟨bs, hbs, hspelled⟩ := ih ht
    exact ⟨_, rollParts_mark hbs, hspelled.negated⟩
  -- the left operand is settled first, in the expression as in the row
  | multiplied ha hb iha ihb =>
    obtain ⟨a', w₂, hrolla, hrest⟩ := bind_ok_iff.mp hroll
    obtain ⟨b', hrollb, rfl⟩ := bind_pure_ok_iff.mp hrest
    obtain ⟨bs, hbs, hleft⟩ := iha hrolla
    obtain ⟨cs, hcs, hright⟩ := ihb hrollb
    exact ⟨_, rollParts_append hbs (rollParts_mark hcs), hleft.multiplied hright⟩
  | added hop ha hb iha ihb =>
    obtain ⟨a', w₂, hrolla, hrest⟩ := bind_ok_iff.mp hroll
    obtain ⟨b', hrollb, rfl⟩ := bind_pure_ok_iff.mp hrest
    obtain ⟨bs, hbs, hleft⟩ := iha hrolla
    obtain ⟨cs, hcs, hright⟩ := ihb hrollb
    exact ⟨_, rollParts_append hbs (rollParts_mark hcs), hleft.added hop hright⟩

/-- Blanks may be put back: a row is settled as it is without them. -/
theorem exists_rollParts_of_filter {ps : List (Part α)} {bs : List (Part β)}
    (h : rollParts settle (ps.filter Part.isSolid) src w = .ok bs w₁) :
    ∃ cs, rollParts settle ps src w = .ok cs w₁ ∧ cs.filter Part.isSolid = bs := by
  induction ps generalizing bs w with
  | nil =>
    obtain ⟨rfl, rfl⟩ := pure_ok_iff.mp h
    exact ⟨[], rfl, rfl⟩
  | cons p ps ih =>
    cases p with
    | leaf a =>
      obtain ⟨b, w₂, hb, hps⟩ := bind_ok_iff.mp h
      obtain ⟨bs, hbs, rfl⟩ := bind_pure_ok_iff.mp hps
      obtain ⟨cs, hcs, rfl⟩ := ih hbs
      refine ⟨.leaf b :: cs, ?_, rfl⟩
      exact bind_ok_iff.mpr ⟨b, w₂, hb, bind_pure_ok_iff.mpr ⟨cs, hcs, rfl⟩⟩
    | mark m =>
      cases hm : m.isSolid with
      | false =>
        have hgap : ∀ {β : Type}, ¬ (@Part.mark β m).isSolid := by simp [Part.isSolid, hm]
        rw [List.filter_cons_of_neg hgap] at h
        obtain ⟨cs, hcs, rfl⟩ := ih h
        exact ⟨.mark m :: cs, rollParts_mark hcs, List.filter_cons_of_neg hgap⟩
      | true =>
        rw [List.filter_cons_of_pos (by exact hm)] at h
        obtain ⟨bs, hbs, rfl⟩ := bind_pure_ok_iff.mp h
        obtain ⟨cs, hcs, rfl⟩ := ih hbs
        exact ⟨.mark m :: cs, rollParts_mark hcs, List.filter_cons_of_pos hm⟩

/-- An expression settles its leaves one after the other. -/
theorem Term.leaves_roll (t : Term α) :
    Term.leaves <$> t.roll settle = t.leaves.mapM settle := by
  induction t with
  | leaf a =>
    show Term.leaves <$> (settle a >>= fun b => pure (.leaf b)) = [a].mapM settle
    simp [Term.leaves]
  | negated t ih =>
    show Term.leaves <$> (t.roll settle >>= fun t => pure (.negated t)) = t.leaves.mapM settle
    rw [← ih]
    simp [Term.leaves]
  | joined op a b iha ihb =>
    show Term.leaves <$> (a.roll settle >>= fun a => b.roll settle >>= fun b =>
      pure (.joined op a b)) = (a.leaves ++ b.leaves).mapM settle
    rw [List.mapM_append, ← iha, ← ihb]
    simp [Term.leaves]

/-- A row settles its leaves one after the other. -/
theorem leavesOf_rollParts (ps : List (Part α)) :
    leavesOf <$> rollParts settle ps = (leavesOf ps).mapM settle := by
  induction ps with
  | nil => rfl
  | cons p ps ih =>
    cases p with
    | leaf a =>
      show leavesOf <$> (settle a >>= fun b => rollParts settle ps >>= fun bs =>
        pure (.leaf b :: bs)) = (a :: leavesOf ps).mapM settle
      rw [List.mapM_cons, ← ih]
      simp
    | mark m =>
      show leavesOf <$> (rollParts settle ps >>= fun bs => pure (.mark m :: bs)) =
        (leavesOf ps).mapM settle
      rw [← ih]
      simp

/-- A row fails as an expression with the same leaves does. -/
theorem rollParts_error_iff {t : Term α} {ps : List (Part α)} (h : leavesOf ps = t.leaves)
    {e : Fault} : rollParts settle ps src w = .error e w₁ ↔ t.roll settle src w = .error e w₁ := by
  have hleaves : leavesOf <$> rollParts settle ps = Term.leaves <$> t.roll settle := by
    rw [leavesOf_rollParts, h, t.leaves_roll]
  rw [← map_error_iff (g := leavesOf), hleaves, map_error_iff]

end Kindred.Formula
