import Kindred.Proofs.Roll

/-!
# The litters of a side

The siblings of a side are rolled litter by litter. The litters have consecutive numbers, and within
a litter the positions count from one, while age and formula are the same.

- `litters`: the loop that rolls litters, with each litter by itself.
- `rollLitter_parts`: all that is rolled for a litter.
- `IsLitter`, `Litters`: the form of one litter, and of several.
- `Block`: what this means for the siblings of a side taken together.
- `leadingCount_ok`, `litterCount_ok`: all that is rolled for a number of litters.
- `leadingCount_of_openEnded`, `leadingCount_of_plain`: a number that starts with dice, from what is
  rolled.
- `rollSide_ok`, `rollSide_count`: a side that was rolled has this form, and its number of litters.
-/

namespace Kindred

open Kindred.Text

variable {σ : Type} {src : Source σ} {w w' : World σ} {side : Side} {rules : SiblingRules}
  {age : Int} {m : Option AgeMapping}

/-! ### Litter by litter -/

/-- Rolls a number of litters, numbered from a start, and keeps them apart. -/
def litters (side : Side) (rules : SiblingRules) (age : Int) (m : Option AgeMapping) :
    Nat → Int → Roll σ (List (List Sibling))
  | 0, _ => return []
  | n + 1, litter => do
    let first ← rollLitter side rules age m litter
    let rest ← litters side rules age m n (litter + 1)
    return first :: rest

/-- Rolling litters is rolling them apart, and taking them together afterwards. -/
theorem rollLitters_ok_iff {n : Nat} {start : Int} {siblings : List Sibling} :
    rollLitters side rules age m n start src w = .ok siblings w' ↔
      ∃ ls, litters side rules age m n start src w = .ok ls w' ∧ ls.flatten = siblings := by
  induction n generalizing start siblings w w' with
  | zero =>
    simp only [rollLitters, litters, pure_ok_iff]
    constructor
    · rintro ⟨rfl, rfl⟩
      exact ⟨[], ⟨rfl, rfl⟩, rfl⟩
    · rintro ⟨_, ⟨rfl, rfl⟩, rfl⟩
      exact ⟨rfl, rfl⟩
  | succ n ih =>
    simp only [rollLitters, litters, bind_ok_iff, pure_ok_iff, ih]
    constructor
    · rintro ⟨first, w₁, hfirst, rest, w₂, ⟨ls, hls, rfl⟩, rfl, rfl⟩
      exact ⟨first :: ls, ⟨first, w₁, hfirst, ls, w₂, hls, rfl, rfl⟩, rfl⟩
    · rintro ⟨_, ⟨first, w₁, hfirst, ls, w₂, hls, rfl, rfl⟩, rfl⟩
      exact ⟨first, w₁, hfirst, ls.flatten, w₂, ⟨ls, hls, rfl⟩, rfl, rfl⟩

/-! ### The form of litters -/

/-- Whether siblings are a litter with a number. -/
def IsLitter (side : Side) (rules : SiblingRules) (n : Int) (l : List Sibling) : Prop :=
  ∃ age genders, 0 ≤ age ∧ l = litterOf side rules n age genders

/-- Whether siblings are litters with consecutive numbers, from a start on. -/
inductive Litters (side : Side) (rules : SiblingRules) : Int → List (List Sibling) → Prop where
  | nil (start : Int) : Litters side rules start []
  | cons {start : Int} {l : List Sibling} {ls : List (List Sibling)}
      (first : IsLitter side rules start l) (rest : Litters side rules (start + 1) ls) :
      Litters side rules start (l :: ls)

/-- What is rolled for a litter: its size, how old its siblings look and are, and their genders. The
number of the litter was written into a line of the trace. -/
theorem rollLitter_parts {n : Int} {l : List Sibling}
    (h : rollLitter side rules age m n src w = .ok l w') :
    ∃ size w₁ looks w₂ apparent actual w₃ genders w₄,
      litterSize rules.litterSize (siblingBindings age) src w = .ok size w₁ ∧
      evaluateFormula .sibling (siblingBindings age) (rules.ageFormula side) src w₁ =
        .ok looks w₂ ∧
      floorNonNegative looks.value = .ok apparent ∧
      apparentToActual m apparent src w₂ = .ok actual w₃ ∧
      times (drawGender rules.gender) size src w₃ = .ok genders w₄ ∧
      Short n ∧ litterOf side rules n (max 0 actual) genders = l := by
  obtain ⟨size, w₁, hsize, h⟩ := bind_ok_iff.mp h
  obtain ⟨looks, w₂, hlooks, h⟩ := bind_ok_iff.mp h
  obtain ⟨apparent, _, happarent, h⟩ := bind_ok_iff.mp h
  obtain ⟨hfloor, rfl⟩ := Roll.ofExcept_ok_iff.mp happarent
  obtain ⟨actual, w₃, hactual, h⟩ := bind_ok_iff.mp h
  obtain ⟨genders, w₄, hgenders, h⟩ := bind_ok_iff.mp h
  obtain ⟨_, w₅, hline, h⟩ := bind_ok_iff.mp h
  -- the number is the first thing that is written into the line for the litter
  obtain ⟨message, hmessage⟩ := Roll.tell_ok hline
  obtain ⟨number, hnumber, -⟩ := except_bind_ok_iff.mp hmessage
  exact ⟨size, w₁, looks, w₂, apparent, actual, w₃, genders, w₄, hsize, hlooks, hfloor, hactual,
    hgenders, short_of_writeNumeral hnumber, (pure_ok_iff.mp h).1⟩

/-- A litter that was rolled is one. -/
theorem rollLitter_ok {n : Int} {l : List Sibling}
    (h : rollLitter side rules age m n src w = .ok l w') : IsLitter side rules n l := by
  obtain ⟨_, _, _, _, _, actual, _, genders, _, -, -, -, -, -, -, rfl⟩ := rollLitter_parts h
  exact ⟨max 0 actual, genders, by omega, rfl⟩

/-- A litter whose number is too long is not rolled to its end. -/
theorem short_of_rollLitter {n : Int} {l : List Sibling}
    (h : rollLitter side rules age m n src w = .ok l w') : Short n := by
  obtain ⟨_, _, _, _, _, _, _, _, _, -, -, -, -, -, hshort, -⟩ := rollLitter_parts h
  exact hshort

/-- Litters that were rolled have consecutive numbers, and there are as many as were asked for. -/
theorem litters_ok {n : Nat} {start : Int} {ls : List (List Sibling)}
    (h : litters side rules age m n start src w = .ok ls w') :
    Litters side rules start ls ∧ ls.length = n := by
  induction n generalizing start ls w with
  | zero =>
    obtain ⟨rfl, -⟩ := pure_ok_iff.mp h
    exact ⟨.nil start, rfl⟩
  | succ n ih =>
    simp only [litters, bind_ok_iff, pure_ok_iff] at h
    obtain ⟨first, w₁, hfirst, rest, w₂, hrest, rfl, rfl⟩ := h
    obtain ⟨hlitters, hlength⟩ := ih hrest
    exact ⟨.cons (rollLitter_ok hfirst) hlitters, by rw [List.length_cons, hlength]⟩

/-- What holds of the siblings of every litter that may be rolled holds of all of them. -/
theorem forall_mem_litters {p : Sibling → Prop}
    (hp : ∀ n w l w', rollLitter side rules age m n src w = .ok l w' → ∀ b ∈ l, p b) {n : Nat}
    {start : Int} {ls : List (List Sibling)}
    (h : litters side rules age m n start src w = .ok ls w') : ∀ b ∈ ls.flatten, p b := by
  induction n generalizing start ls w with
  | zero =>
    obtain ⟨rfl, -⟩ := pure_ok_iff.mp h
    exact nofun
  | succ n ih =>
    obtain ⟨first, w₁, hfirst, h⟩ := bind_ok_iff.mp h
    obtain ⟨rest, hrest, rfl⟩ := bind_pure_ok_iff.mp h
    exact List.forall_mem_append.mpr ⟨hp start w first w₁ hfirst, ih hrest⟩

/-- The positions that count from one. -/
def positions (k : Nat) : List Int := (List.range k).map fun i : Nat => (i : Int) + 1

theorem nodup_positions (k : Nat) : (positions k).Nodup :=
  List.Pairwise.map _ (fun i j h he => h (by omega)) List.nodup_range

namespace IsLitter

variable {n : Int} {l : List Sibling}

theorem litter_eq (h : IsLitter side rules n l) {b : Sibling} (hb : b ∈ l) : b.litter = n := by
  obtain ⟨a, genders, -, rfl⟩ := h
  obtain ⟨_, _, rfl⟩ := List.mem_map.mp hb
  rfl

theorem isOlder_eq (h : IsLitter side rules n l) {b : Sibling} (hb : b ∈ l) :
    b.isOlder = (side == .older) := by
  obtain ⟨a, genders, -, rfl⟩ := h
  obtain ⟨_, _, rfl⟩ := List.mem_map.mp hb
  rfl

/-- The positions of the siblings of a litter count from one. -/
theorem position_eq (h : IsLitter side rules n l) : l.map (·.position) = positions l.length := by
  obtain ⟨a, genders, -, rfl⟩ := h
  unfold litterOf positions
  rw [List.map_map, List.length_map, List.length_zipIdx, List.range_eq_range',
    ← List.zipIdx_map_snd 0 genders, List.map_map]
  rfl

/-- The siblings of a litter share their age, and the formula for it. -/
theorem age_eq (h : IsLitter side rules n l) {b c : Sibling} (hb : b ∈ l) (hc : c ∈ l) :
    b.age = c.age := by
  obtain ⟨a, genders, -, rfl⟩ := h
  obtain ⟨_, _, rfl⟩ := List.mem_map.mp hb
  obtain ⟨_, _, rfl⟩ := List.mem_map.mp hc
  rfl

theorem ageFormula_eq (h : IsLitter side rules n l) {b c : Sibling} (hb : b ∈ l) (hc : c ∈ l) :
    b.ageFormula = c.ageFormula := by
  obtain ⟨a, genders, -, rfl⟩ := h
  obtain ⟨_, _, rfl⟩ := List.mem_map.mp hb
  obtain ⟨_, _, rfl⟩ := List.mem_map.mp hc
  rfl

theorem nil (n : Int) : IsLitter side rules n [] := ⟨0, [], by omega, rfl⟩

end IsLitter

/-! ### A side taken together -/

/-- The siblings of a litter. -/
def ofLitter (n : Int) (l : List Sibling) : List Sibling := l.filter (·.litter == n)

/-- What holds of the siblings of one side: the numbers of the litters never decrease, and the
siblings with one number are a litter. -/
structure Block (l : List Sibling) : Prop where
  sorted : l.Pairwise fun b c => b.litter ≤ c.litter
  position_eq : ∀ n, (ofLitter n l).map (·.position) = positions (ofLitter n l).length
  age_eq : ∀ b ∈ l, ∀ c ∈ l, b.litter = c.litter → b.age = c.age
  ageFormula_eq : ∀ b ∈ l, ∀ c ∈ l, b.litter = c.litter → b.ageFormula = c.ageFormula

namespace Litters

variable {start : Int} {ls : List (List Sibling)}

/-- The numbers of litters lie in a window. -/
theorem litter_mem (h : Litters side rules start ls) {b : Sibling} (hb : b ∈ ls.flatten) :
    start ≤ b.litter ∧ b.litter < start + ls.length := by
  induction h with
  | nil start => cases hb
  | cons first rest ih =>
    rw [List.flatten_cons, List.mem_append] at hb
    rw [List.length_cons]
    rcases hb with hb | hb
    · have hn := first.litter_eq hb
      omega
    · have hn := ih hb
      omega

theorem isOlder_eq (h : Litters side rules start ls) {b : Sibling} (hb : b ∈ ls.flatten) :
    b.isOlder = (side == .older) := by
  induction h with
  | nil start => cases hb
  | cons first rest ih =>
    rw [List.flatten_cons, List.mem_append] at hb
    rcases hb with hb | hb
    · exact first.isOlder_eq hb
    · exact ih hb

/-- The siblings with one number are a litter. -/
theorem isLitter (h : Litters side rules start ls) (n : Int) :
    IsLitter side rules n (ofLitter n ls.flatten) := by
  induction h with
  | nil start => exact .nil n
  | @cons start l ls first rest ih =>
    rw [List.flatten_cons, ofLitter, List.filter_append]
    by_cases hn : start = n
    · -- the first litter has that number, and the others have greater ones
      subst hn
      have hl : l.filter (·.litter == start) = l :=
        List.filter_eq_self.mpr fun b hb => beq_iff_eq.mpr (first.litter_eq hb)
      have hls : ls.flatten.filter (·.litter == start) = [] := by
        refine List.filter_eq_nil_iff.mpr fun b hb hbs => ?_
        have hb := (rest.litter_mem hb).1
        rw [beq_iff_eq] at hbs
        omega
      rw [hl, hls, List.append_nil]
      exact first
    · have hl : l.filter (·.litter == n) = [] := by
        refine List.filter_eq_nil_iff.mpr fun b hb hbs => ?_
        rw [beq_iff_eq, first.litter_eq hb] at hbs
        exact hn hbs
      rw [hl, List.nil_append]
      exact ih

/-- The numbers of litters never decrease. -/
theorem sorted (h : Litters side rules start ls) :
    ls.flatten.Pairwise fun b c => b.litter ≤ c.litter := by
  induction h with
  | nil start => exact .nil
  | @cons start l ls first rest ih =>
    rw [List.flatten_cons, List.pairwise_append]
    refine ⟨?_, ih, fun b hb c hc => ?_⟩
    · refine List.pairwise_of_forall_mem_list fun b hb c hc => ?_
      exact Int.le_of_eq ((first.litter_eq hb).trans (first.litter_eq hc).symm)
    · have hc := (rest.litter_mem hc).1
      rw [first.litter_eq hb]
      omega

/-- The siblings of a side form a block. -/
theorem block (h : Litters side rules start ls) : Block ls.flatten := by
  have hmem : ∀ b ∈ ls.flatten, ∀ c ∈ ls.flatten, b.litter = c.litter →
      b ∈ ofLitter c.litter ls.flatten ∧ c ∈ ofLitter c.litter ls.flatten := by
    intro b hb c hc hbc
    exact ⟨List.mem_filter.mpr ⟨hb, beq_iff_eq.mpr hbc⟩,
      List.mem_filter.mpr ⟨hc, beq_self_eq_true _⟩⟩
  refine ⟨h.sorted, fun n => (h.isLitter n).position_eq, fun b hb c hc hbc => ?_,
    fun b hb c hc hbc => ?_⟩
  · obtain ⟨hb, hc⟩ := hmem b hb c hc hbc
    exact (h.isLitter c.litter).age_eq hb hc
  · obtain ⟨hb, hc⟩ := hmem b hb c hc hbc
    exact (h.isLitter c.litter).ageFormula_eq hb hc

/-- Where no litter is empty, every number of the window is the number of a litter. -/
theorem exists_litter (h : Litters side rules start ls) (hne : ∀ l ∈ ls, l ≠ []) {n : Int}
    (hlow : start ≤ n) (hhigh : n < start + ls.length) : ∃ b ∈ ls.flatten, b.litter = n := by
  induction h with
  | nil start => simp only [List.length_nil] at hhigh; omega
  | @cons start l ls first rest ih =>
    rw [List.length_cons] at hhigh
    by_cases hn : start = n
    · obtain ⟨b, l', hl⟩ := List.exists_cons_of_ne_nil (hne l List.mem_cons_self)
      have hb : b ∈ l := hl ▸ List.mem_cons_self
      exact ⟨b, List.mem_append_left _ hb, (first.litter_eq hb).trans hn⟩
    · obtain ⟨b, hb, hbn⟩ := ih (fun l hl => hne l (List.mem_cons_of_mem _ hl)) (by omega)
        (by omega)
      exact ⟨b, List.mem_append_right _ hb, hbn⟩

end Litters

/-- No two siblings of a block have the same number and the same position. -/
theorem Block.nodup {l : List Sibling} (h : Block l) :
    (l.map fun b => (b.litter, b.position)).Nodup := by
  have hpositions : ∀ n, ((ofLitter n l).map (·.position)).Nodup := by
    intro n
    rw [h.position_eq n]
    exact nodup_positions _
  -- the tail of a block need not be one, but its positions under one number stay different
  clear h
  induction l with
  | nil => exact .nil
  | cons b l ih =>
    rw [List.map_cons, List.nodup_cons]
    constructor
    · intro hmem
      obtain ⟨c, hc, hpair⟩ := List.mem_map.mp hmem
      rw [Prod.mk.injEq] at hpair
      have hb := hpositions b.litter
      rw [ofLitter, List.filter_cons_of_pos (by simp), List.map_cons, List.nodup_cons] at hb
      refine hb.1 (List.mem_map.mpr ⟨c, List.mem_filter.mpr ⟨hc, ?_⟩, hpair.2⟩)
      exact beq_iff_eq.mpr hpair.1
    · refine ih fun n => (hpositions n).sublist ?_
      exact ((List.sublist_cons_self b l).filter _).map _

/-- The greatest number of a litter is that of a sibling, or zero where there are none. -/
theorem maxLitter_cases (l : List Sibling) :
    maxLitter l = 0 ∨ ∃ b ∈ l, maxLitter l = b.litter := by
  unfold maxLitter
  cases hmax : (l.map (·.litter)).max? with
  | none => exact .inl rfl
  | some n =>
    obtain ⟨b, hb, rfl⟩ := List.mem_map.mp (List.max?_mem hmax)
    exact .inr ⟨b, hb, rfl⟩

/-! ### The number of litters -/

section Count

variable {formula : String} {bs : Formula.Bindings} {c : LitterCount}

/-- All that is rolled for dice at the front of a formula: the dice, and then the modifier. The sum
of both is counted and recorded, but for open-ended dice nothing below zero is recorded. -/
theorem leadingCount_ok {lead : LeadingDice} (h : leadingCount formula bs lead src w = .ok c w') :
    ∃ n m sum x w₁, readNumeral lead.digits = .ok n ∧
      modifierValue bs lead.modifier src w₁ = .ok m w' ∧ floorNonNegative sum = .ok c.count ∧
      ((∃ roll, openEnded n src w = .ok roll w₁ ∧ sum = withModifier roll.total m ∧
          recordedTotal (atLeastZero sum) = .ok x ∧
          c.roll = some ⟨.openEnded, n, some roll, none, roll.total, bareText? lead.modifier,
            .float m.toFloat, x, formula⟩) ∨
        ∃ rolls, dice n 6 src w = .ok rolls w₁ ∧ sum = withModifier (totalOf rolls) m ∧
          recordedTotal sum = .ok x ∧
          c.roll = some ⟨.plain, n, none, some rolls, totalOf rolls, bareText? lead.modifier,
            .float m.toFloat, x, formula⟩) := by
  obtain ⟨kind, digits, modifier⟩ := lead
  unfold leadingCount at h
  obtain ⟨n, w₁, hn, h⟩ := bind_ok_iff.mp h
  obtain ⟨hread, rfl⟩ := Roll.ofExcept_ok_iff.mp hn
  cases kind with
  | openEnded =>
    simp only [bind_ok_iff, pure_ok_iff, Roll.ofExcept_ok_iff] at h
    obtain ⟨roll, w₂, hroll, m, _, hm, x, _, ⟨hx, rfl⟩, k, _, ⟨hk, rfl⟩, rfl, rfl⟩ := h
    exact ⟨n, m, _, x, w₂, hread, hm, hk, .inl ⟨roll, hroll, rfl, hx, rfl⟩⟩
  | plain =>
    simp only [bind_ok_iff, pure_ok_iff, Roll.ofExcept_ok_iff] at h
    obtain ⟨rolls, w₂, hrolls, m, _, hm, x, _, ⟨hx, rfl⟩, k, _, ⟨hk, rfl⟩, rfl, rfl⟩ := h
    exact ⟨n, m, _, x, w₂, hread, hm, hk, .inr ⟨rolls, hrolls, rfl, hx, rfl⟩⟩

section Parts

variable {lead : LeadingDice} {w₁ : World σ} {n k : Nat} {m : Number} {x : Float}

/-- A number of litters that starts with open-ended dice, from all that is rolled for it. -/
theorem leadingCount_of_openEnded (hkind : lead.kind = .openEnded)
    (hn : readNumeral lead.digits = .ok n) {roll : OpenEnded}
    (hroll : openEnded n src w = .ok roll w₁)
    (hm : modifierValue bs lead.modifier src w₁ = .ok m w')
    (hx : recordedTotal (atLeastZero (withModifier roll.total m)) = .ok x)
    (hk : floorNonNegative (withModifier roll.total m) = .ok k) :
    leadingCount formula bs lead src w = .ok ⟨k, some ⟨.openEnded, n, some roll, none, roll.total,
      bareText? lead.modifier, .float m.toFloat, x, formula⟩⟩ w' := by
  unfold leadingCount
  refine bind_ok_iff.mpr ⟨n, w, Roll.ofExcept_ok_iff.mpr ⟨hn, rfl⟩, ?_⟩
  rw [hkind]
  exact bind_ok_iff.mpr ⟨roll, w₁, hroll, bind_ok_iff.mpr ⟨m, w', hm,
    bind_ok_iff.mpr ⟨x, w', Roll.ofExcept_ok_iff.mpr ⟨hx, rfl⟩, bind_ok_iff.mpr ⟨k, w',
    Roll.ofExcept_ok_iff.mpr ⟨hk, rfl⟩, rfl⟩⟩⟩⟩

/-- A number of litters that starts with plain dice. -/
theorem leadingCount_of_plain (hkind : lead.kind = .plain)
    (hn : readNumeral lead.digits = .ok n) {rolls : List Int}
    (hrolls : dice n 6 src w = .ok rolls w₁)
    (hm : modifierValue bs lead.modifier src w₁ = .ok m w')
    (hx : recordedTotal (withModifier (totalOf rolls) m) = .ok x)
    (hk : floorNonNegative (withModifier (totalOf rolls) m) = .ok k) :
    leadingCount formula bs lead src w = .ok ⟨k, some ⟨.plain, n, none, some rolls, totalOf rolls,
      bareText? lead.modifier, .float m.toFloat, x, formula⟩⟩ w' := by
  unfold leadingCount
  refine bind_ok_iff.mpr ⟨n, w, Roll.ofExcept_ok_iff.mpr ⟨hn, rfl⟩, ?_⟩
  rw [hkind]
  exact bind_ok_iff.mpr ⟨rolls, w₁, hrolls, bind_ok_iff.mpr ⟨m, w', hm,
    bind_ok_iff.mpr ⟨x, w', Roll.ofExcept_ok_iff.mpr ⟨hx, rfl⟩, bind_ok_iff.mpr ⟨k, w',
    Roll.ofExcept_ok_iff.mpr ⟨hk, rfl⟩, rfl⟩⟩⟩⟩

end Parts

/-- A number of litters starts with dice, or it is what its formula evaluates to and nothing is
recorded. -/
theorem litterCount_ok (h : litterCount formula bs src w = .ok c w') :
    (∃ lead, LeadingDice.ofText? formula = some lead ∧
        leadingCount formula bs lead src w = .ok c w') ∨
      LeadingDice.ofText? formula = none ∧ c.roll = none ∧
        ∃ e, evaluateFormula .sibling bs formula src w = .ok e w' ∧
          floorNonNegative e.value = .ok c.count := by
  unfold litterCount at h
  cases hlead : LeadingDice.ofText? formula with
  | some lead =>
    rw [hlead] at h
    exact .inl ⟨lead, rfl, h⟩
  | none =>
    rw [hlead] at h
    simp only [bind_ok_iff, pure_ok_iff, Roll.ofExcept_ok_iff] at h
    obtain ⟨e, _, he, k, _, ⟨hk, rfl⟩, rfl, rfl⟩ := h
    exact .inr ⟨rfl, rfl, e, he, hk⟩

end Count

/-! ### Rolled sides -/

/-- A side that was rolled consists of litters with consecutive numbers, as many as there are said
to be. -/
theorem rollSide_ok {start : Int} {r : SideRoll}
    (h : rollSide side rules age m start src w = .ok r w') :
    r.side = side ∧ ∃ ls w₁, litters side rules age m r.litters start src w₁ = .ok ls w' ∧
      r.siblings = ls.flatten := by
  unfold rollSide at h
  simp only [bind_ok_iff, pure_ok_iff, rollLitters_ok_iff] at h
  obtain ⟨count, _, _, _, w₁, _, _, _, ⟨ls, hls, rfl⟩, rfl, rfl⟩ := h
  exact ⟨rfl, ls, w₁, hls, rfl⟩

/-- A side that was rolled keeps its number of litters, with what was rolled for it. -/
theorem rollSide_count {start : Int} {r : SideRoll}
    (h : rollSide side rules age m start src w = .ok r w') :
    ∃ c w₁, litterCount rules.litters (siblingBindings age) src w = .ok c w₁ ∧
      r.litters = c.count ∧ r.roll = c.roll := by
  unfold rollSide at h
  obtain ⟨c, w₁, hc, h⟩ := bind_ok_iff.mp h
  simp only [bind_ok_iff, pure_ok_iff] at h
  obtain ⟨_, _, _, _, _, _, rfl, _⟩ := h
  exact ⟨c, w₁, hc, rfl, rfl⟩

end Kindred
