import Mathlib.Data.List.Induction
import Kindred.Proofs.Family.Step

/-!
# Paying for rerolls

Every part of the family pays one token for its first reroll, as long as there are tokens. Over a
whole session this means that the tokens go to the parts in the order in which they were first
rerolled, until none is left. A reroll that is asked for without an age does not count, and one that
fails counts all the same.

- `RerollBudget.SpentOn`: what some tokens come to after the rerolls of some parts.
- `requests`: the rerolls that count in a run of moves.
- `budget_playAll`: a run changes the budget by these rerolls, and by nothing else.
- `tokens_playAll`: the accounts after every run.
-/

namespace Kindred

variable {σ : Type} {src : Source σ}

/-! ### Charging -/

namespace RerollBudget

variable (b : RerollBudget) (f g : Facet)

/-- The parts that have paid. -/
def paid : List Facet := [.older, .younger, .parent].filter b.isUsed

/-- A part that has paid has, and one that has not may pay now. -/
theorem isUsed_charge : (b.charge f).isUsed g = (b.isUsed g || (decide (f = g) && b.pays f)) := by
  unfold charge
  split
  · next h => rw [isUsed_markUsed, h, Bool.and_true, Bool.or_comm]; rfl
  · next h => rw [Bool.eq_false_iff.mpr h, Bool.and_false, Bool.or_false]

theorem remaining_charge :
    (b.charge f).remaining = if b.pays f then b.remaining - 1 else b.remaining := by
  unfold charge
  split
  · exact remaining_markUsed _ f
  · rfl

/-- A part that pays for the first time is one more. -/
theorem length_paid_markUsed (h : b.isUsed f = false) :
    (b.markUsed f).paid.length = b.paid.length + 1 := by
  obtain ⟨n, older, younger, parent⟩ := b
  cases older <;> cases younger <;> cases parent <;> cases f <;> first | rfl | cases h

/-- The tokens left and the parts that have paid add up to the same number as before. -/
theorem remaining_add_paid_charge :
    (b.charge f).remaining + (b.charge f).paid.length = b.remaining + b.paid.length := by
  unfold charge
  split
  · next h =>
    have hpays : b.isUsed f = false ∧ b.remaining ≠ 0 := by simpa [pays] using h
    have hpaid : ({ b with remaining := b.remaining - 1 }.markUsed f).paid.length =
        b.paid.length + 1 := length_paid_markUsed { b with remaining := b.remaining - 1 } f hpays.1
    rw [remaining_markUsed, hpaid]
    dsimp only
    omega
  · rfl

/-- The tokens left and the parts that have paid add up to the same number all along. -/
theorem remaining_add_paid_foldl (fs : List Facet) :
    (fs.foldl charge b).remaining + (fs.foldl charge b).paid.length =
      b.remaining + b.paid.length := by
  induction fs generalizing b with
  | nil => rfl
  | cons f fs ih => rw [List.foldl_cons, ih, remaining_add_paid_charge]

/-- A part that has paid has paid for good. -/
theorem isUsed_foldl (fs : List Facet) (h : b.isUsed f = true) :
    (fs.foldl charge b).isUsed f = true := by
  induction fs generalizing b with
  | nil => exact h
  | cons g fs ih => exact ih _ (by rw [isUsed_charge, h, Bool.true_or])

theorem charge_of_not_pays (h : b.pays f = false) : b.charge f = b := if_neg (by simp [h])

theorem eraseDups_concat_of_mem {fs : List Facet} {f : Facet} (h : f ∈ fs) :
    (fs ++ [f]).eraseDups = fs.eraseDups := by
  rw [List.eraseDups_append, List.cons_removeAll]
  simp [h]

theorem eraseDups_concat_of_not_mem {fs : List Facet} {f : Facet} (h : f ∉ fs) :
    (fs ++ [f]).eraseDups = fs.eraseDups ++ [f] := by
  rw [List.eraseDups_append, List.cons_removeAll]
  simp [h, List.eraseDups_cons]

/-- What stands at the end of a row is among its first elements if the row in front is short. -/
theorem mem_take_concat {fs : List Facet} {n : Nat} :
    g ∈ (fs ++ [f]).take n ↔ g ∈ fs.take n ∨ f = g ∧ fs.length < n := by
  rw [List.take_append, List.mem_append]
  refine or_congr_right ⟨fun hg => ?_, ?_⟩
  · have hpos : 0 < n - fs.length := by
      refine Nat.pos_of_ne_zero fun hzero => ?_
      rw [hzero] at hg
      cases hg
    exact ⟨(List.mem_singleton.mp (List.mem_of_mem_take hg)).symm, by omega⟩
  · rintro ⟨rfl, hlt⟩
    rw [List.take_of_length_le (by rw [List.length_singleton]; omega)]
    exact List.mem_singleton_self f

/-- Whether a budget is what a number of tokens comes to after the rerolls of some parts: the tokens
go to the parts in the order of their first rerolls, until none is left. -/
structure SpentOn (tokens : Nat) (fs : List Facet) (b : RerollBudget) : Prop where
  remaining : b.remaining = tokens - fs.eraseDups.length
  isUsed : ∀ f, b.isUsed f = true ↔ f ∈ fs.eraseDups.take tokens

variable {b f} {tokens : Nat} {fs : List Facet}

/-- A part that was rerolled before does not pay: it has paid, or there was no token for it. -/
theorem SpentOn.pays_of_mem (h : SpentOn tokens fs b) (hf : f ∈ fs) : b.pays f = false := by
  have hmem : f ∈ fs.eraseDups := List.mem_eraseDups.mpr hf
  by_cases hused : f ∈ fs.eraseDups.take tokens
  · rw [pays, (h.isUsed f).mpr hused, Bool.not_true, Bool.false_and]
  · have hlength : ¬ fs.eraseDups.length ≤ tokens := fun hle =>
      hused (by rwa [List.take_of_length_le hle])
    have hremaining := h.remaining
    have hzero : b.remaining = 0 := by omega
    rw [pays, hzero]
    exact Bool.and_false _

/-- A part that is rerolled for the first time pays if a token is left. -/
theorem SpentOn.pays_of_not_mem (h : SpentOn tokens fs b) (hf : f ∉ fs) :
    b.pays f = decide (fs.eraseDups.length < tokens) := by
  have hunused : b.isUsed f = false := by
    refine Bool.eq_false_iff.mpr fun hused => hf ?_
    exact List.mem_eraseDups.mp (List.mem_of_mem_take ((h.isUsed f).mp hused))
  rw [pays, hunused, h.remaining, Bool.not_false, Bool.true_and, bne, Bool.eq_iff_iff]
  simp only [Bool.not_eq_true', beq_eq_false_iff_ne, decide_eq_true_eq]
  omega

/-- One more reroll is accounted for. -/
theorem SpentOn.charge (h : SpentOn tokens fs b) (f : Facet) :
    SpentOn tokens (fs ++ [f]) (b.charge f) := by
  by_cases hf : f ∈ fs
  · rw [charge_of_not_pays b f (h.pays_of_mem hf)]
    constructor
    · rw [eraseDups_concat_of_mem hf]
      exact h.remaining
    · rw [eraseDups_concat_of_mem hf]
      exact h.isUsed
  · have hpays := h.pays_of_not_mem hf
    constructor
    · rw [eraseDups_concat_of_not_mem hf, remaining_charge, hpays, h.remaining, List.length_append,
        List.length_singleton]
      simp only [decide_eq_true_eq]
      split <;> omega
    · intro g
      rw [eraseDups_concat_of_not_mem hf, mem_take_concat, isUsed_charge, hpays, Bool.or_eq_true,
        h.isUsed g, Bool.and_eq_true, decide_eq_true_eq, decide_eq_true_eq]

/-- The rerolls of some parts are accounted for one after the other. -/
theorem spentOn_foldl (tokens : Nat) (fs : List Facet) :
    SpentOn tokens fs (fs.foldl RerollBudget.charge { remaining := tokens }) := by
  induction fs using List.reverseRecOn with
  | nil => exact ⟨rfl, fun f => by cases f <;> simp [RerollBudget.isUsed]⟩
  | append_singleton fs f ih =>
    rw [List.foldl_append, List.foldl_cons, List.foldl_nil]
    exact ih.charge f

end RerollBudget

/-! ### What moves charge for -/

/-- Whether a character of some age has one. -/
def isAge (age : Option Int) : Bool := age.any (0 < ·)

namespace Move

/-- The part that a move rerolls. -/
def facet? : Move → Option Facet
  | rerollOlder => some .older
  | rerollYounger => some .younger
  | rerollParents => some .parent
  | _ => none

/-- The age of the character after a move. -/
def ageAfter (age : Option Int) : Move → Option Int
  | setAge other => other
  | _ => age

/-- The reroll that a move asks for, of a character with an age. -/
def requests (age : Option Int) (m : Move) : List Facet :=
  if isAge age then m.facet?.toList else []

end Move

/-- The rerolls that the moves of a run ask for, of a character with an age at that time. -/
def requestsOf (age : Option Int) : List Move → List Facet
  | [] => []
  | m :: ms => m.requests age ++ requestsOf (m.ageAfter age) ms

/-- The age and the budget of the character. -/
def accounts (s : Session) : Option Int × RerollBudget := (s.family.characterAge, s.family.budget)

/-- Rolling a side leaves age and budget alone. -/
theorem playSide_keeps (side : Side) : (playSide side : Play σ SideRoll).Keeps accounts := by
  refine Play.Keeps.family.bind fun _ => characterApparentAge_keeps.bind fun _ =>
    Play.Keeps.session.bind fun _ => (Play.Keeps.demand _).bind fun _ =>
    (Play.Keeps.roll _).bind fun r => Play.Keeps.bind ?_ fun _ => .pure r
  refine .changeFamily fun s => ?_
  rw [accounts, Family.characterAge_withSide, Family.budget_withSide]
  rfl

theorem playStatus_keeps : (playStatus : Play σ StatusRoll).Keeps accounts := by
  refine characterApparentAge_keeps.bind fun _ => Play.Keeps.session.bind fun _ =>
    (Play.Keeps.demand _).bind fun rules =>
    (Play.Keeps.roll _).bind fun r => Play.Keeps.bind ?_ fun _ => .pure r
  refine .changeFamily fun s => ?_
  obtain ⟨m, fa, hstatus⟩ := s.family.exists_withStatus rules r
  change accounts { s with family := s.family.withStatus rules r } = accounts s
  rw [hstatus]
  rfl

theorem rollAge_keeps (p : Parent) : (rollAge p : Play σ (Option ParentAge)).Keeps accounts := by
  refine (canRollAge_keeps p).bind fun can => ?_
  cases can with
  | false =>
    rw [if_neg Bool.false_ne_true]
    exact Play.Keeps.family.bind fun _ => (Play.Keeps.roll _).bind fun _ => .pure none
  | true =>
    rw [if_pos rfl]
    refine characterApparentAge_keeps.bind fun _ => Play.Keeps.session.bind fun _ =>
      (Play.Keeps.roll _).bind fun r => Play.Keeps.bind ?_ fun _ => .pure (some r)
    refine .changeFamily fun s => ?_
    obtain ⟨m, fa, hparent⟩ := s.family.exists_withParentAge p (some r)
    rw [accounts, hparent]
    rfl

theorem reload_keeps : (reload : Play σ String).Keeps accounts := by
  intro src ws
  cases h : reload src ws with
  | ok text ws' => rw [Play.after_of_ok h, reload_ok h]; rfl
  | error e ws' => rw [Play.after_of_error h, reload_failsafe h]

/-- A reroll that is asked for is charged, whether or not it fails. -/
theorem accounts_reroll {α : Type} {ws : World σ × Session} (f : Facet) {x : Play σ α}
    (hx : x.Keeps accounts) :
    accounts ((Play.ifAged do charge f; x : Play σ (Option α)).after src ws) =
      (ws.2.family.characterAge,
        if isAge ws.2.family.characterAge then ws.2.family.budget.charge f
        else ws.2.family.budget) := by
  cases haged : isAge ws.2.family.characterAge with
  | false =>
    rw [Play.after_ifAged_of_not_hasAge haged]
    rfl
  | true =>
    rw [Play.after_ifAged_of_hasAge haged, Play.after_bind]
    have hcharge : accounts (ws.2.charged f) =
        (ws.2.family.characterAge, ws.2.family.budget.charge f) := rfl
    split
    · next _ ws₁ hok => rw [hx src ws₁, charge_ok hok, hcharge, if_pos rfl]
    · next _ ws₁ hfail => rw [charge_error hfail, hcharge, if_pos rfl]

namespace Move

theorem requests_of_facet? {m : Move} (h : m.facet? = none) (age : Option Int) :
    m.requests age = [] := by
  unfold requests
  rw [h]
  exact ite_self _

/-- A reroll charges for what it asks for. -/
theorem accounts_of_facet? {m : Move} {f : Facet} {α : Type} {x : Play σ α} {g : Option α → Answer}
    {ws : World σ × Session} (hm : m.facet? = some f) (hage : ∀ age, m.ageAfter age = age)
    (hx : x.Keeps accounts) :
    accounts ((do return g (← Play.ifAged do charge f; x) : Play σ Answer).after src ws) =
      (m.ageAfter ws.2.family.characterAge,
        (m.requests ws.2.family.characterAge).foldl RerollBudget.charge ws.2.family.budget) := by
  rw [Play.after_bind_pure, accounts_reroll f hx, hage, requests, hm]
  cases isAge ws.2.family.characterAge <;> rfl

/-- A move charges for what it asks for, and changes the age of the character if it sets it. -/
theorem accounts_after (m : Move) (src : Source σ) (ws : World σ × Session) :
    accounts (m.play.after src ws) = (m.ageAfter ws.2.family.characterAge,
      (m.requests ws.2.family.characterAge).foldl RerollBudget.charge ws.2.family.budget) := by
  -- most moves ask for no reroll and leave age and budget alone
  have hkeeps : (m.play : Play σ Answer).Keeps accounts → m.facet? = none →
      (∀ age, m.ageAfter age = age) → accounts (m.play.after src ws) =
      (m.ageAfter ws.2.family.characterAge,
        (m.requests ws.2.family.characterAge).foldl RerollBudget.charge ws.2.family.budget) := by
    intro hplay hfacet hage
    rw [hplay src ws, hage, requests_of_facet? hfacet]
    rfl
  cases m with
  | rollOlder => exact hkeeps ((playSide_keeps _).ifAged.bind fun _ => .pure _) rfl fun _ => rfl
  | rollYounger => exact hkeeps ((playSide_keeps _).ifAged.bind fun _ => .pure _) rfl fun _ => rfl
  | rollAll =>
    have hclear : (Play.changeFamily fun f => { f with siblings := [] } : Play σ Unit).Keeps
        accounts := .changeFamily fun _ => rfl
    have hall := hclear.bind fun _ => (playSide_keeps .older).bind fun older =>
      (playSide_keeps .younger).bind fun younger => .pure (older, younger)
    exact hkeeps (hall.ifAged.bind fun _ => .pure _) rfl fun _ => rfl
  | rerollOlder => exact accounts_of_facet? rfl (fun _ => rfl) (playSide_keeps _)
  | rerollYounger => exact accounts_of_facet? rfl (fun _ => rfl) (playSide_keeps _)
  | rollParents => exact hkeeps (playStatus_keeps.ifAged.bind fun _ => .pure _) rfl fun _ => rfl
  | rerollParents => exact accounts_of_facet? rfl (fun _ => rfl) playStatus_keeps
  | rollAge p => exact hkeeps ((rollAge_keeps p).bind fun _ => .pure _) rfl fun _ => rfl
  | canRollAge p => exact hkeeps ((canRollAge_keeps p).bind fun _ => .pure _) rfl fun _ => rfl
  | characterApparentAge =>
    exact hkeeps (characterApparentAge_keeps.bind fun _ => .pure _) rfl fun _ => rfl
  | setAge age =>
    rw [requests_of_facet? rfl]
    rfl
  | setMapping m => exact hkeeps (fun _ _ => rfl) rfl fun _ => rfl
  | setSiblingRules r => exact hkeeps (fun _ _ => rfl) rfl fun _ => rfl
  | setParentRules r => exact hkeeps (fun _ _ => rfl) rfl fun _ => rfl
  | setParentAge formula => exact hkeeps (fun _ _ => rfl) rfl fun _ => rfl
  | reload => exact hkeeps (reload_keeps.bind fun _ => .pure _) rfl fun _ => rfl

end Move

/-! ### Runs -/

/-- A run charges for the rerolls that it asks for, and changes the budget by nothing else. -/
theorem budget_playAll (src : Source σ) (ws : World σ × Session) (ms : List Move) :
    (playAll src ws ms).2.family.budget =
      (requestsOf ws.2.family.characterAge ms).foldl RerollBudget.charge ws.2.family.budget := by
  induction ms generalizing ws with
  | nil => rfl
  | cons m ms ih =>
    have hstep := m.accounts_after src ws
    rw [← Move.next_snd] at hstep
    have hage : (m.next src ws).2.family.characterAge = m.ageAfter ws.2.family.characterAge :=
      congrArg Prod.fst hstep
    have hbudget : (m.next src ws).2.family.budget =
        (m.requests ws.2.family.characterAge).foldl RerollBudget.charge ws.2.family.budget :=
      congrArg Prod.snd hstep
    rw [playAll_cons, ih, hage, hbudget, requestsOf, List.foldl_append]

/-- The accounts after every run of a session that starts with some tokens and in which no part has
paid: the tokens left and the parts that have paid add up to the tokens at the start; the parts that
have paid are the first ones that were rerolled, as many as there were tokens; they have paid for
good, whatever comes next; and a move that is no reroll leaves the budget as it is. -/
theorem tokens_playAll (src : Source σ) (w : World σ) (s : Session) (tokens : Nat)
    (ms : List Move) :
    let start := { s with family := { s.family with budget := { remaining := tokens } } }
    let after := playAll src (w, start) ms
    let budget := after.2.family.budget
    budget.remaining + budget.paid.length = tokens ∧
    (∀ f, f ∈ budget.paid ↔
      f ∈ (requestsOf s.family.characterAge ms).eraseDups.take tokens) ∧
    (∀ f ms', f ∈ budget.paid → f ∈ (playAll src after ms').2.family.budget.paid) ∧
    (∀ m : Move, m.facet? = none → (m.next src after).2.family.budget = budget) := by
  intro start after budget
  have hbudget : budget =
      (requestsOf s.family.characterAge ms).foldl RerollBudget.charge { remaining := tokens } :=
    budget_playAll src (w, start) ms
  have hpaid : ∀ (b : RerollBudget) (f : Facet), f ∈ b.paid ↔ b.isUsed f = true := by
    intro b f
    rw [RerollBudget.paid, List.mem_filter]
    exact ⟨fun h => h.2, fun h => ⟨by cases f <;> decide, h⟩⟩
  refine ⟨?_, fun f => ?_, fun f ms' hf => ?_, fun m hm => ?_⟩
  · rw [hbudget, RerollBudget.remaining_add_paid_foldl]
    rfl
  · rw [hpaid, hbudget]
    exact (RerollBudget.spentOn_foldl tokens _).isUsed f
  · rw [hpaid] at hf ⊢
    rw [budget_playAll]
    exact RerollBudget.isUsed_foldl _ f _ hf
  · rw [Move.next_snd]
    have hafter := congrArg Prod.snd (m.accounts_after src after)
    rw [Move.requests_of_facet? hm] at hafter
    exact hafter

end Kindred
