import Mathlib.Algebra.Group.Int.Defs
import Kindred.Proofs.Family.Bounds
import Kindred.Proofs.Family.Generations
import Kindred.Proofs.Family.Reroll

/-!
# Siblings on their side of the character

Ages of siblings are rolled as looks. The character's age is turned into looks by a table, a die is
added or taken away, and the result is turned back into an age that is drawn from the table. Where
the table does not know an age or a look, each counts as the other. So an older sibling is at least
as old as the character, and a younger one at most, as long as both are in the table or neither is.

- `IsAgeTable`: tables in which ages and looks grow from row to row.
- `Kin`: how the age of a sibling relates to that of the character.
- `kin_of_looks`, `kin_of_mem_rollLitter`: looks and litters that are rolled.
- `kin_of_play`: the siblings that a move records.
-/

namespace Kindred

open Kindred.Formula Kindred.Json Kindred.Text

variable {σ : Type} {src : Source σ} {w w' : World σ}

/-! ### Tables -/

/-- Whether no row of a table is empty, and each is followed by rows with greater ages and with
looks that are not lower. -/
structure IsAgeTable (rows : List AgeBracket) : Prop where
  nonempty : ∀ b ∈ rows, b.minActual ≤ b.maxActual
  increasing : rows.Pairwise fun b c => b.maxActual < c.minActual ∧ b.apparent ≤ c.apparent

/-- Lower looks stand in an earlier row. -/
theorem IsAgeTable.lt_of_apparent_lt {rows : List AgeBracket} (h : IsAgeTable rows)
    {b c : AgeBracket} (hb : b ∈ rows) (hc : c ∈ rows) (hlt : b.apparent < c.apparent) :
    b.maxActual < c.minActual := by
  obtain ⟨i, hi, rfl⟩ := List.mem_iff_getElem.mp hb
  obtain ⟨j, hj, rfl⟩ := List.mem_iff_getElem.mp hc
  have hrows := List.pairwise_iff_getElem.mp h.increasing
  rcases Nat.lt_trichotomy i j with hij | rfl | hji
  · exact (hrows i j hi hj hij).1
  · omega
  · have hle := (hrows j i hj hi hji).2
    omega

variable {t : AgeMapping} {age apparent : Int}

/-! ### Kin -/

/-- Whether a number may be found on a side of another one. -/
def Side.Admits : Side → Int → Int → Prop
  | older, a, b => a ≤ b
  | younger, a, b => b ≤ a

/-- How the age of a sibling on a side relates to that of the character. They are in order, unless
the table is left or entered between them, or the character looks like a newborn. -/
inductive Kin (rows : List AgeBracket) (side : Side) (a b : Int) : Prop
  | inOrder (h : side.Admits a b)
  /-- The character is in the table; the looks of the sibling are not, and so they are its age. -/
  | leaves {r : AgeBracket} (hr : r ∈ rows) (hholds : r.Holds a)
      (hlooks : side.Admits (max 0 r.apparent) b) (hne : b ≠ max 0 r.apparent)
      (hnone : ∀ c ∈ rows, c.apparent ≠ b)
  /-- The character is not in the table; the looks of the sibling are, and they are in order. -/
  | enters {c : AgeBracket} (hnone : ∀ r ∈ rows, ¬ r.Holds a) (hc : c ∈ rows)
      (hlooks : side.Admits a c.apparent) (hspan : c.Spans b)
  /-- Nobody can look younger than the character. -/
  | newborn {r c : AgeBracket} (hside : side = .younger) (hr : r ∈ rows) (hholds : r.Holds a)
      (hlooks : r.apparent ≤ 0) (hc : c ∈ rows) (hzero : c.apparent = 0) (hspan : c.Spans b)

/-- What an age that may be drawn from a row is to the ages of the row. -/
theorem AgeBracket.Spans.bounds {b : AgeBracket} {age : Int} (h : b.Spans age)
    (hrow : b.minActual ≤ b.maxActual) : 0 ≤ age ∧ b.minActual ≤ age ∧ age ≤ max 0 b.maxActual := by
  obtain ⟨hlow, hhigh⟩ := h
  unfold AgeBracket.span at hlow hhigh
  dsimp only at hlow hhigh
  omega

section Looks

variable {rows : List AgeBracket} {a looks total age : Int}
  (htable : IsAgeTable rows) (hpos : 0 < a)
  (hlooks : (∃ r ∈ rows, r.Holds a ∧ looks = max 0 r.apparent) ∨
    (∀ r ∈ rows, ¬ r.Holds a) ∧ a ≤ looks + 1 ∧ looks ≤ a + 1)
  (htotal : 1 ≤ total)

include htable hpos hlooks htotal

/-- An older sibling looks older than the character. -/
theorem kin_of_looks_older
    (hage : (∃ c ∈ rows, c.apparent = (looks + total).toNat ∧ c.Spans age) ∨
      (∀ c ∈ rows, c.apparent ≠ (looks + total).toNat) ∧
        age = max 0 ((looks + total).toNat : Int)) :
    Kin rows .older a (max 0 age) := by
  rcases hlooks with ⟨r, hr, hholds, rfl⟩ | ⟨hnone, hnear⟩ <;>
    rcases hage with ⟨c, hc, hlook, hspan⟩ | ⟨huncarried, rfl⟩
  · -- both are in the table, the sibling in a later row
    have hbounds := hspan.bounds (htable.nonempty c hc)
    have hlt := htable.lt_of_apparent_lt hr hc (by omega)
    have hlast : a ≤ r.maxActual := hholds.2
    exact .inOrder (show a ≤ max 0 age by omega)
  · have hage : max 0 (max 0 ((max 0 r.apparent + total).toNat : Int)) =
        ((max 0 r.apparent + total).toNat : Int) := by omega
    rw [hage]
    refine .leaves hr hholds (show max 0 r.apparent ≤ _ by omega) (by omega) huncarried
  · have hbounds := hspan.bounds (htable.nonempty c hc)
    rw [show max 0 age = age by omega]
    exact .enters hnone hc (show a ≤ c.apparent by omega) hspan
  · exact .inOrder (show a ≤ max 0 (max 0 ((looks + total).toNat : Int)) by omega)

/-- A younger sibling looks younger than the character, unless that looks like a newborn. -/
theorem kin_of_looks_younger
    (hage : (∃ c ∈ rows, c.apparent = (looks - total).toNat ∧ c.Spans age) ∨
      (∀ c ∈ rows, c.apparent ≠ (looks - total).toNat) ∧
        age = max 0 ((looks - total).toNat : Int)) :
    Kin rows .younger a (max 0 age) := by
  rcases hlooks with ⟨r, hr, hholds, rfl⟩ | ⟨hnone, hnear⟩ <;>
    rcases hage with ⟨c, hc, hlook, hspan⟩ | ⟨huncarried, rfl⟩
  · have hbounds := hspan.bounds (htable.nonempty c hc)
    by_cases hlooks : 0 < r.apparent
    · -- both are in the table, the sibling in an earlier row
      have hlt := htable.lt_of_apparent_lt hc hr (by omega)
      have hfirst : r.minActual ≤ a := hholds.1
      exact .inOrder (show max 0 age ≤ a by omega)
    · rw [show max 0 age = age by omega]
      exact .newborn rfl hr hholds (by omega) hc (by omega) hspan
  · have hage : max 0 (max 0 ((max 0 r.apparent - total).toNat : Int)) =
        ((max 0 r.apparent - total).toNat : Int) := by omega
    rw [hage]
    by_cases hlooks : 0 < r.apparent
    · exact .leaves hr hholds (show _ ≤ max 0 r.apparent by omega) (by omega) huncarried
    · exact .inOrder (show _ ≤ a by omega)
  · have hbounds := hspan.bounds (htable.nonempty c hc)
    rw [show max 0 age = age by omega]
    exact .enters hnone hc (show c.apparent ≤ a by omega) hspan
  · exact .inOrder (show max 0 (max 0 ((looks - total).toNat : Int)) ≤ a by omega)

/-- Looks that differ by a die on one side of the character make kin. -/
theorem kin_of_looks {side : Side} (hage :
    (∃ c ∈ rows, c.apparent = ((litterOperation side).apply looks total).toNat ∧ c.Spans age) ∨
      (∀ c ∈ rows, c.apparent ≠ ((litterOperation side).apply looks total).toNat) ∧
        age = max 0 (((litterOperation side).apply looks total).toNat : Int)) :
    Kin rows side a (max 0 age) := by
  cases side with
  | older => exact kin_of_looks_older htable hpos hlooks htotal hage
  | younger => exact kin_of_looks_younger htable hpos hlooks htotal hage

end Looks

/-! ### Sessions -/

/-- Mappings that are nothing but a table. -/
structure AgeMapping.IsPlain (t : AgeMapping) : Prop where
  apparentFormula_eq : t.apparentFormula = none
  actualFormula_eq : t.actualFormula = none
  table : IsAgeTable t.table

/-- How old someone looks by a table: as a row says, or about as old as they are. -/
theorem AgeMapping.IsPlain.looks_ok (ht : t.IsPlain) (hpos : 0 < age)
    (hsmall : (∀ b ∈ t.table, ¬ b.Holds age) → age < 2 ^ 54) {looks : Int}
    (h : actualToApparent (some t) age src w = .ok looks w') :
    (∃ r ∈ t.table, r.Holds age ∧ looks = max 0 r.apparent) ∨
      (∀ r ∈ t.table, ¬ r.Holds age) ∧ age ≤ looks + 1 ∧ looks ≤ age + 1 := by
  rcases actualToApparent_cases (.of_none ht.apparentFormula_eq) h with hrow | ⟨hnone, hclamp⟩
  · exact .inl hrow
  · have hsmall := hsmall hnone
    obtain ⟨n, rfl⟩ := Int.eq_ofNat_of_zero_le (Int.le_of_lt hpos)
    obtain ⟨c, hc, hnear⟩ := @clampAge_near n (by omega)
    obtain rfl : (c : Int) = looks := Except.ok.inj (hc.symm.trans hclamp)
    exact .inr ⟨hnone, by omega, by omega⟩

/-- The siblings of a litter that is rolled by a plain table are kin. -/
theorem kin_of_mem_rollLitter (hsrc : src.InRange) (ht : t.IsPlain) {rules : SiblingRules}
    {side : Side} (hformula : rules.ageFormula side = ({} : SiblingRules).ageFormula side)
    {a looks : Int} (hpos : 0 < a)
    (hlooks : (∃ r ∈ t.table, r.Holds a ∧ looks = max 0 r.apparent) ∨
      (∀ r ∈ t.table, ¬ r.Holds a) ∧ a ≤ looks + 1 ∧ looks ≤ a + 1) {n : Int} {l : List Sibling}
    (h : rollLitter side rules looks (some t) n src w = .ok l w') :
    ∀ b ∈ l, Kin t.table side a b.age := by
  obtain ⟨total, age, _, _, htotal, hage, hl⟩ := rollLitter_age hsrc hformula h
  intro b hb
  rw [hl b hb]
  exact kin_of_looks ht.table hpos hlooks htotal
    (apparentToActual_cases hsrc (.of_none ht.actualFormula_eq _) hage)

/-- What a move records on the side that it rolls are litters, rolled by the rules in force for how
old the character looks. -/
theorem Move.exists_litters {m : Move} {side : Side} (hm : m.side? = some side) {s s' : Session}
    (haged : s.family.hasAge = true) {answer : Answer}
    (h : m.play src (w, s) = .ok answer (w', s')) :
    ∃ rules looks n start ls w₀ w₁ w₂, s.siblingRules = some rules ∧
      actualToApparent s.mapping (s.family.characterAge.getD 0) src w₀ = .ok looks w₁ ∧
      litters side rules looks s.mapping n start src w₂ = .ok ls w' ∧
      s'.family.on side = ls.flatten := by
  obtain ⟨r, rfl⟩ := Move.answer_side hm haged h
  obtain ⟨side', w₀, budget, hm', hside⟩ := Move.side_ok h
  obtain rfl : side' = side := Option.some.inj (hm'.symm.trans hm)
  obtain ⟨hr, hreplaced⟩ := playSide_replaced hside
  obtain ⟨-, rules, looks, w₂, hrules, ⟨s₂, hlooks⟩, hroll⟩ := playSide_ok hside
  obtain ⟨-, ls, w₃, hls, hsiblings⟩ := rollSide_ok hroll
  obtain ⟨w₁, hlooks⟩ := actualToApparent_of_ok hlooks
  have hon := hreplaced.on_side
  rw [hr, hsiblings] at hon
  exact ⟨rules, looks, r.litters, _, ls, w₀, w₁, w₃, hrules, hlooks, hls, hon⟩

/-- Every sibling that a move records on the side that it rolls is kin of the character, in a
session with a plain table and with the usual formula for that side. Outside of the table this holds
as long as the age has at most 54 bits. -/
theorem kin_of_play (hsrc : src.InRange) {s s' : Session} {t : AgeMapping}
    (hmapping : s.mapping = some t) (ht : t.IsPlain) {rules : SiblingRules}
    (hrules : s.siblingRules = some rules) {side : Side}
    (hformula : rules.ageFormula side = ({} : SiblingRules).ageFormula side) {a : Int}
    (hage : s.family.characterAge = some a) (hpos : 0 < a)
    (hsmall : (∀ b ∈ t.table, ¬ b.Holds a) → a < 2 ^ 54) {m : Move} (hm : m.side? = some side)
    {answer : Answer} (h : m.play.outcome src w s = (.ok answer, w', s')) :
    ∀ b ∈ s'.family.on side, Kin t.table side a b.age := by
  have haged : s.family.hasAge = true := by
    unfold Family.hasAge
    rw [hage]
    exact decide_eq_true hpos
  obtain ⟨rules', looks, n, start, ls, w₀, w₁, w₂, hrules', hlooks, hls, hon⟩ :=
    Move.exists_litters hm haged (Play.outcome_ok h)
  obtain rfl : rules = rules' := Option.some.inj (hrules.symm.trans hrules')
  rw [hmapping, hage] at hlooks
  rw [hmapping] at hls
  have hlooks := ht.looks_ok hpos hsmall hlooks
  rw [hon]
  exact forall_mem_litters (fun n w l w' hl =>
    kin_of_mem_rollLitter hsrc ht hformula hpos hlooks hl) hls

/-- A session for a character of an age, with a table. -/
def sessionOf (rows : List AgeBracket) (age : Int) : Session where
  mapping := some { table := rows }
  family := .fresh (some age) {}

/-- The session after a move in which all dice show threes. -/
def afterThrees (s : Session) (m : Move) : Session :=
  (m.play.outcome (Source.constant 3 0) (World.start ()) s).2.2

theorem exists_outcome_afterThrees {s : Session} {m : Move}
    (h : (m.play.outcome (Source.constant 3 0) (World.start ()) s).1.isOk = true) :
    ∃ answer w', m.play.outcome (Source.constant 3 0) (World.start ()) s =
      (.ok answer, w', afterThrees s m) := by
  unfold afterThrees
  generalize m.play.outcome (Source.constant 3 0) (World.start ()) s = result at h
  obtain ⟨answer | fault, w', s'⟩ := result
  · cases h
  · exact ⟨_, w', rfl⟩

/-- A table without gaps between its looks. -/
def sampleRows : List AgeBracket := [⟨1, 10, 10⟩, ⟨11, 40, 20⟩, ⟨41, 200, 23⟩]

/-- By that table a character of 15 years looks 20, an older sibling looks 23 and is 41. -/
theorem kin_of_play_sample :
    (afterThrees (sessionOf sampleRows 15) .rollOlder).family.older.map (·.age) = [41] ∧
    ∀ b ∈ (afterThrees (sessionOf sampleRows 15) .rollOlder).family.older,
      Kin sampleRows .older 15 b.age := by
  have hplain : AgeMapping.IsPlain { table := sampleRows } :=
    ⟨rfl, rfl, ⟨by decide, by decide⟩⟩
  obtain ⟨answer, w', h⟩ := @exists_outcome_afterThrees (sessionOf sampleRows 15) .rollOlder
    (by decide +kernel)
  have hkin : ∀ b ∈ (afterThrees (sessionOf sampleRows 15) .rollOlder).family.on .older,
      Kin sampleRows .older 15 b.age :=
    kin_of_play (Source.inRange_constant 3 0) rfl hplain rfl rfl rfl (by decide)
      (fun _ => by decide) rfl h
  exact ⟨by decide +kernel, hkin⟩

/-- Whether the siblings that a move records on a side are on that side of the character. -/
def RecordsInOrder (src : Source σ) (w : World σ) (s : Session) (m : Move) (side : Side)
    (a : Int) : Prop :=
  ∀ answer w' s', m.play.outcome src w s = (.ok answer, w', s') →
    ∀ b ∈ s'.family.on side, side.Admits a b.age

theorem not_recordsInOrder {rows : List AgeBracket} {a b : Int} {m : Move} {side : Side}
    (hok : (m.play.outcome (Source.constant 3 0) (World.start ()) (sessionOf rows a)).1.isOk = true)
    (hages : ((afterThrees (sessionOf rows a) m).family.on side).map (·.age) = [b])
    (hnot : ¬ side.Admits a b) :
    ¬ RecordsInOrder (Source.constant 3 0) (World.start ()) (sessionOf rows a) m side a := by
  intro hall
  obtain ⟨answer, w', h⟩ := exists_outcome_afterThrees hok
  have hmem : b ∈ ((afterThrees (sessionOf rows a) m).family.on side).map (·.age) := by
    rw [hages]
    exact List.mem_singleton_self b
  obtain ⟨c, hc, rfl⟩ := List.mem_map.mp hmem
  exact hnot (hall answer w' _ h c hc)

/-- Where the table is left, siblings may be on the wrong side. Someone of 150 years who looks 20
has an older sibling who looks 23 and so is 23; someone of 5 years who looks 50 has a younger one
who is 47. -/
theorem not_recordsInOrder_samples : (Source.constant 3 0).InRange ∧
    IsAgeTable [⟨100, 200, 20⟩] ∧ IsAgeTable [⟨5, 5, 50⟩] ∧
    ¬ RecordsInOrder (Source.constant 3 0) (World.start ()) (sessionOf [⟨100, 200, 20⟩] 150)
      .rollOlder .older 150 ∧
    ¬ RecordsInOrder (Source.constant 3 0) (World.start ()) (sessionOf [⟨5, 5, 50⟩] 5)
      .rollYounger .younger 5 := by
  have holder : ¬ Side.older.Admits 150 23 := by
    unfold Side.Admits
    decide
  have hyounger : ¬ Side.younger.Admits 5 47 := by
    unfold Side.Admits
    decide
  have hages : ((afterThrees (sessionOf [⟨100, 200, 20⟩] 150) .rollOlder).family.on .older).map
      (·.age) = [23] := by decide +kernel
  have hages' : ((afterThrees (sessionOf [⟨5, 5, 50⟩] 5) .rollYounger).family.on .younger).map
      (·.age) = [47] := by decide +kernel
  exact ⟨Source.inRange_constant 3 0, ⟨by decide, by decide⟩, ⟨by decide, by decide⟩,
    not_recordsInOrder (by decide +kernel) hages holder,
    not_recordsInOrder (by decide +kernel) hages' hyounger⟩

end Kindred
