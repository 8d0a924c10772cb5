import Mathlib.Data.List.Nodup
import Kindred.Proofs.Family.Step
import Kindred.Proofs.Sibling.Litters

/-!
# The order of the siblings

However a session goes, its siblings are the older ones followed by the younger ones. On each side
the litters have increasing numbers, and the siblings of a litter have positions that count from one
and share their age. Older litters are numbered from one, and younger ones from somewhere behind
them.

- `Family.Ordered`: the invariant.
- `Family.Ordered.withSide`: newly rolled siblings keep it; the other changes do not concern it.
- `ordered_playAll`: it holds after every run.
-/

namespace Kindred

variable {σ : Type} {src : Source σ}

/-! ### The invariant -/

/-- What holds of the siblings of a family at any time. -/
structure Family.Ordered (f : Family) : Prop where
  /-- The older siblings come first. -/
  siblings_eq : f.siblings = f.older ++ f.younger
  older : Block f.older
  younger : Block f.younger
  /-- Older litters are numbered from one. -/
  olderWindow : ∀ b ∈ f.older, 1 ≤ b.litter ∧ b.litter ≤ f.olderLitters
  /-- Younger litters are numbered from some number on. -/
  youngerWindow : ∃ s, 0 ≤ s ∧ ∀ b ∈ f.younger, s + 1 ≤ b.litter ∧ b.litter ≤ s + f.youngerLitters
  /-- No two siblings have the same place. -/
  nodup : (f.siblings.map fun b => (b.isOlder, b.litter, b.position)).Nodup

namespace Family

/-- On either side the places are different, so they are among all siblings. -/
theorem nodup_places {f : Family} (h : f.siblings = f.older ++ f.younger) (hold : Block f.older)
    (hyoung : Block f.younger) :
    (f.siblings.map fun b => (b.isOlder, b.litter, b.position)).Nodup := by
  have hside : ∀ {l : List Sibling}, Block l →
      (l.map fun b => (b.isOlder, b.litter, b.position)).Nodup := by
    intro l hl
    refine List.Nodup.of_map Prod.snd ?_
    rw [List.map_map]
    exact hl.nodup
  rw [h, List.map_append, List.nodup_append]
  refine ⟨hside hold, hside hyoung, ?_⟩
  rintro _ hb _ hc rfl
  obtain ⟨b, hbold, rfl⟩ := List.mem_map.mp hb
  obtain ⟨c, hcyoung, hbc⟩ := List.mem_map.mp hc
  have hb : b.isOlder = true := f.isOlder_of_mem_on .older hbold
  have hc : c.isOlder = false := f.isOlder_of_mem_on .younger hcyoung
  rw [Prod.mk.injEq, hb, hc] at hbc
  cases hbc.1

namespace Ordered

variable {f : Family}

/-- The invariant, with the places of the siblings left to be concluded. -/
theorem of_blocks (h : f.siblings = f.older ++ f.younger) (hold : Block f.older)
    (hyoung : Block f.younger) (hwindow : ∀ b ∈ f.older, 1 ≤ b.litter ∧ b.litter ≤ f.olderLitters)
    (hwindow' : ∃ s, 0 ≤ s ∧ ∀ b ∈ f.younger, s + 1 ≤ b.litter ∧ b.litter ≤ s + f.youngerLitters) :
    f.Ordered :=
  ⟨h, hold, hyoung, hwindow, hwindow', nodup_places h hold hyoung⟩

/-- Without siblings the invariant holds. -/
theorem of_siblings_nil (h : f.siblings = []) : f.Ordered := by
  have hold : f.older = [] := by rw [Family.older, h]; rfl
  have hyoung : f.younger = [] := by rw [Family.younger, h]; rfl
  have hblock : Block [] := (Litters.nil 1 : Litters .older {} 1 []).block
  refine of_blocks ?_ ?_ ?_ ?_ ?_
  · rw [h, hold, hyoung]; rfl
  · rw [hold]; exact hblock
  · rw [hyoung]; exact hblock
  · rw [hold]; exact nofun
  · rw [hyoung]; exact ⟨0, Int.le_refl 0, nofun⟩

/-- The invariant concerns nothing but the siblings and the numbers of litters. -/
theorem congr {g : Family} (h : f.Ordered) (hs : g.siblings = f.siblings)
    (hold : g.olderLitters = f.olderLitters) (hyoung : g.youngerLitters = f.youngerLitters) :
    g.Ordered := by
  have holder : g.older = f.older := congrArg (List.filter _) hs
  have hyounger : g.younger = f.younger := congrArg (List.filter _) hs
  refine of_blocks ?_ ?_ ?_ ?_ ?_
  · rw [hs, holder, hyounger]; exact h.siblings_eq
  · rw [holder]; exact h.older
  · rw [hyounger]; exact h.younger
  · rw [holder, hold]; exact h.olderWindow
  · rw [hyounger, hyoung]; exact h.youngerWindow

/-- Other older siblings keep the invariant, if they have this form. -/
theorem of_younger_eq {g : Family} (h : f.Ordered) (hs : g.siblings = g.older ++ g.younger)
    (hyoung : g.younger = f.younger) (hcount : g.youngerLitters = f.youngerLitters)
    (hblock : Block g.older) (hwindow : ∀ b ∈ g.older, 1 ≤ b.litter ∧ b.litter ≤ g.olderLitters) :
    g.Ordered := by
  refine of_blocks hs hblock (hyoung ▸ h.younger) hwindow ?_
  rw [hyoung, hcount]
  exact h.youngerWindow

/-- Other younger siblings keep the invariant, if they have this form. -/
theorem of_older_eq {g : Family} (h : f.Ordered) (hs : g.siblings = g.older ++ g.younger)
    (hold : g.older = f.older) (hcount : g.olderLitters = f.olderLitters) (hblock : Block g.younger)
    (hwindow : ∃ s, 0 ≤ s ∧ ∀ b ∈ g.younger, s + 1 ≤ b.litter ∧
      b.litter ≤ s + g.youngerLitters) : g.Ordered := by
  refine of_blocks hs (hold ▸ h.older) hblock ?_ hwindow
  rw [hold, hcount]
  exact h.olderWindow

theorem zero_le_maxLitter (h : f.Ordered) : 0 ≤ maxLitter f.older := by
  rcases maxLitter_cases f.older with hnone | ⟨b, hb, hmax⟩
  · omega
  · have hone := (h.olderWindow b hb).1
    omega

/-- Newly rolled siblings keep the invariant. -/
theorem withSide (h : f.Ordered) {side : Side} {rules : SiblingRules} {age : Int}
    {m : Option AgeMapping} {w w' : World σ} {r : SideRoll}
    (hroll : rollSide side rules age m (f.firstLitter side) src w = .ok r w') :
    (f.withSide r).Ordered := by
  obtain ⟨rfl, ls, w₁, hls, hsiblings⟩ := rollSide_ok hroll
  obtain ⟨hlitters, hlength⟩ := litters_ok hls
  have hblock : Block r.siblings := hsiblings ▸ hlitters.block
  have hside : ∀ b ∈ r.siblings, b.isOlder = (r.side == .older) := fun b hb =>
    hlitters.isOlder_eq (hsiblings ▸ hb)
  have hwindow : ∀ b ∈ r.siblings, f.firstLitter r.side ≤ b.litter ∧
      b.litter < f.firstLitter r.side + r.litters := by
    intro b hb
    rw [← hlength]
    exact hlitters.litter_mem (hsiblings ▸ hb)
  -- the parts of the new family, for whichever side was rolled
  have hnew := Family.on_withSide (f := f) hside
  have hother := Family.on_withSide_other (f := f) hside
  have hcount := f.litters_withSide r
  have hcount' := f.litters_withSide_other r
  have heq := Family.siblings_withSide (f := f) (r := r)
  cases hr : r.side with
  | older =>
    rw [hr] at hnew hother hcount hcount' heq hwindow
    have hold : (f.withSide r).older = r.siblings := hnew
    have hyoung : (f.withSide r).younger = f.younger := hother
    refine h.of_younger_eq (by rw [hold, hyoung]; exact heq) hyoung hcount' (hold ▸ hblock) ?_
    intro b hb
    rw [hold] at hb
    have hcount : (f.withSide r).olderLitters = r.litters := hcount
    have hb : 1 ≤ b.litter ∧ b.litter < 1 + r.litters := hwindow b hb
    omega
  | younger =>
    rw [hr] at hnew hother hcount hcount' heq hwindow
    have hyoung : (f.withSide r).younger = r.siblings := hnew
    have hold : (f.withSide r).older = f.older := hother
    refine h.of_older_eq (by rw [hold, hyoung]; exact heq) hold hcount' (hyoung ▸ hblock) ?_
    refine ⟨maxLitter f.older, h.zero_le_maxLitter, fun b hb => ?_⟩
    rw [hyoung] at hb
    have hcount : (f.withSide r).youngerLitters = r.litters := hcount
    have hb : maxLitter f.older + 1 ≤ b.litter ∧
        b.litter < maxLitter f.older + 1 + r.litters := hwindow b hb
    omega

/-- Every act keeps the invariant. -/
theorem of_act {s s' : Session} (hact : Act src s s') (h : s.family.Ordered) :
    s'.family.Ordered := by
  cases hact with
  | side haged hrules hage hroll => exact h.withSide hroll
  | clear haged => exact of_siblings_nil rfl
  | @status rules age w w' r haged hrules hage hroll =>
    obtain ⟨m, fa, hstatus⟩ := s.family.exists_withStatus rules r
    exact h.congr (congrArg (·.siblings) hstatus) (congrArg (·.olderLitters) hstatus)
      (congrArg (·.youngerLitters) hstatus)
  | @parentAge p status rules age w w' r haged hstatus hrules heligible hage hroll =>
    obtain ⟨m, fa, hparent⟩ := s.family.exists_withParentAge p (some r)
    exact h.congr (congrArg (·.siblings) hparent) (congrArg (·.olderLitters) hparent)
      (congrArg (·.youngerLitters) hparent)
  | charge f haged => exact h.congr rfl rfl rfl
  | reread => exact h.congr rfl rfl rfl

/-- Every change keeps the invariant. -/
theorem of_change {s s' : Session} (hchange : Change src s s') (h : s.family.Ordered) :
    s'.family.Ordered := by
  cases hchange with
  | act hact => exact h.of_act hact
  | aged age => exact h.congr rfl rfl rfl
  | rules hfamily => exact hfamily ▸ h

end Ordered

/-- A family before anything is rolled, for a character who may have an age and tokens. -/
def fresh (age : Option Int) (budget : RerollBudget) : Family :=
  { characterAge := age, budget := budget }

end Family

/-! ### Runs -/

/-- After every run that starts with a fresh family, its siblings are ordered: whatever rules are in
force and are brought into force, whatever is drawn, and whether or not moves fail. -/
theorem ordered_playAll (src : Source σ) (w : World σ) (s : Session) (age : Option Int)
    (budget : RerollBudget) (ms : List Move) :
    (playAll src (w, { s with family := .fresh age budget }) ms).2.family.Ordered :=
  (playAll_changes src _ ms).preserves (P := fun s => s.family.Ordered) (fun _ _ => .of_change)
    (.of_siblings_nil rfl)

end Kindred
