import Kindred.Proofs.Family.NonNegative
import Kindred.Proofs.Family.Reroll
import Kindred.Proofs.Formula.Defaults
import Kindred.Proofs.Number.Rounding

/-!
# Parents and their children

Without a mapping between ages, and with the usual formulas, the age of a parent is rolled from the
oldest sibling, or from the character where there is none. So a parent is older than all siblings.
The character is among the children that this takes care of only if there are no siblings, or if
one of them is older than the character: from younger siblings alone the age of a parent may be
rolled too low.

- `Session.IsUsual`: sessions with the usual rules for ages.
- `actualToApparent_ok`, `characterApparentAge_ok`: how old someone looks.
- `rollLitter_age`, `rollParentAge_ok`: ages of siblings, and of parents.
- `Session.Senior`: sessions in which the older siblings are older than the character.
- `Move.RollsOlder`: moves after which the older siblings are ones that they rolled.
- `parent_older`: the age of a parent after every run.
-/

namespace Kindred

open Kindred.Formula

variable {σ : Type} {src : Source σ} {w w' : World σ} {ws ws' : World σ × Session}

/-! ### Looks -/

theorem actualToApparent_none (age : Int) :
    (actualToApparent none age : Roll σ Int) = Roll.ofExcept (clampAge (.int age)) := rfl

theorem apparentToActual_none (apparent : Int) :
    (apparentToActual none apparent : Roll σ Int) = pure (max 0 apparent) := rfl

/-- Without a mapping someone looks as old as they are, up to the rounding of large ages. -/
theorem actualToApparent_ok {age c : Int} (hage : 0 ≤ age) (hage' : age < 2 ^ 57)
    (h : actualToApparent none age src w = .ok c w') : age ≤ c + 8 := by
  obtain ⟨n, rfl⟩ := Int.eq_ofNat_of_zero_le hage
  obtain ⟨k, hk, hlow, -⟩ := @clampAge_ofNat n (by omega)
  rw [actualToApparent_none, hk] at h
  obtain ⟨hc, -⟩ := Roll.ofExcept_ok_iff.mp h
  cases hc
  omega

theorem characterApparentAge_ok {s : Session} {age c : Int} (hmapping : s.mapping = none)
    (hage : s.family.characterAge = some age) (hpos : 0 ≤ age) (hsmall : age < 2 ^ 57)
    (h : characterApparentAge src (w, s) = .ok c ws') : age ≤ c + 8 := by
  obtain ⟨w₁, hlooks⟩ := actualToApparent_of_ok h
  rw [hmapping, hage] at hlooks
  exact actualToApparent_ok hpos hsmall hlooks

/-! ### Ages that are rolled -/

/-- The siblings of a litter have one age, at which someone looks older or younger than the
character by the total of a die. -/
theorem rollLitter_age (hsrc : src.InRange) {side : Side} {rules : SiblingRules}
    (hrules : rules.ageFormula side = ({} : SiblingRules).ageFormula side) {looks : Int}
    {m : Option AgeMapping} {n : Int} {l : List Sibling}
    (h : rollLitter side rules looks m n src w = .ok l w') :
    ∃ total age w₁ w₂, 1 ≤ total ∧
      apparentToActual m ((litterOperation side).apply looks total).toNat src w₁ = .ok age w₂ ∧
      ∀ b ∈ l, b.age = max 0 age := by
  obtain ⟨_, _, _, _, apparent, age, _, genders, _, -, he, happarent, hage, -, -, rfl⟩ :=
    rollLitter_parts h
  rw [hrules] at he
  obtain ⟨total, hlow, hvalue⟩ := litterAge_value hsrc he
  rw [hvalue, floorNonNegative_int] at happarent
  cases happarent
  refine ⟨total, age, _, _, hlow, hage, fun b hb => ?_⟩
  obtain ⟨_, _, rfl⟩ := List.mem_map.mp hb
  rfl

/-- Older siblings are rolled older than the character looks. -/
theorem age_lt_of_mem_rollLitter (hsrc : src.InRange) {rules : SiblingRules}
    (hrules : rules.olderAge = ({} : SiblingRules).olderAge) {age n : Int} {l : List Sibling}
    (h : rollLitter .older rules age none n src w = .ok l w') : ∀ b ∈ l, age < b.age := by
  have hrules : rules.ageFormula .older = ({} : SiblingRules).ageFormula .older := hrules
  obtain ⟨total, actual, w₁, w₂, hlow, hactual, hl⟩ := rollLitter_age hsrc hrules h
  have hsum : (litterOperation .older).apply age total = age + total := rfl
  rw [apparentToActual_none, hsum] at hactual
  obtain ⟨rfl, -⟩ := pure_ok_iff.mp hactual
  intro b hb
  rw [hl b hb]
  omega

/-- A parent is rolled at least sixteen years older than the age that the roll is based on. -/
theorem rollParentAge_ok (hsrc : src.InRange) {siblings : List Sibling} {age : Int} {r : ParentAge}
    (h : rollParentAge defaultParentAge siblings age none src w = .ok r w') :
    ∃ base w₁, oldestApparent siblings age none src w = .ok base w₁ ∧
      base + 16 ≤ r.actualAge := by
  obtain ⟨base, w₁, e, _, apparent, actual, _, hbase, he, happarent, hactual, rfl⟩ :=
    rollParentAge_parts h
  obtain ⟨n, hn, hle⟩ := parentAge_value hsrc he
  rw [hn, floorNonNegative_int] at happarent
  cases happarent
  rw [apparentToActual_none] at hactual
  obtain ⟨rfl, -⟩ := pure_ok_iff.mp hactual
  have hactual : base + 16 ≤ max 0 (max 0 (n.toNat : Int)) := by omega
  exact ⟨base, w₁, hbase, hactual⟩

/-- The roll for a parent is based on an age that is not far below that of any sibling. -/
theorem oldestApparent_ok {siblings : List Sibling} {age base : Int}
    (hsiblings : ∀ b ∈ siblings, 0 ≤ b.age ∧ b.age < 2 ^ 57)
    (h : oldestApparent siblings age none src w = .ok base w') :
    (∀ b ∈ siblings, b.age ≤ base + 8) ∧ (siblings = [] → base = age) := by
  rcases oldestApparent_origin h with ⟨rfl, rfl⟩ | ⟨b, hb, hmost, w₁, hlooks⟩
  · exact ⟨List.forall_mem_nil _, fun _ => rfl⟩
  · have hle := actualToApparent_ok (hsiblings b hb).1 (hsiblings b hb).2 hlooks
    refine ⟨fun c hc => ?_, ?_⟩
    · have hmost := hmost c hc
      omega
    · rintro rfl
      cases hb

/-! ### Sessions -/

/-- Whether ages are rolled as usual: without a mapping, and with the usual formulas for the ages of
older litters and of parents. -/
structure Session.IsUsual (s : Session) : Prop where
  mapping_eq : s.mapping = none
  olderAge_eq : ∃ rules, s.siblingRules = some rules ∧
    rules.olderAge = ({} : SiblingRules).olderAge
  parentAge_eq : s.parentAge = defaultParentAge

/-- Whether a move sets rules that ages are rolled by. -/
def Move.setsAgeRules : Move → Bool
  | setMapping _ => true
  | setSiblingRules _ => true
  | setParentAge _ => true
  | _ => false

namespace Session.IsUsual

variable {s s' : Session}

theorem of_givens (h : s.IsUsual) (hgivens : s'.givens = s.givens) : s'.IsUsual := by
  have hmapping : s'.mapping = s.mapping := congrArg (·.mapping) hgivens
  have hrules : s'.siblingRules = s.siblingRules := congrArg (·.siblingRules) hgivens
  have hparent : s'.parentAge = s.parentAge := congrArg (·.parentAge) hgivens
  exact ⟨hmapping.trans h.mapping_eq, hrules ▸ h.olderAge_eq, hparent.trans h.parentAge_eq⟩

/-- Every move but one that sets such rules leaves them usual. -/
theorem next (h : ws.2.IsUsual) {m : Move} (hm : m.setsAgeRules = false) :
    (m.next src ws).2.IsUsual := by
  rw [Move.next_snd]
  cases hset : m.isSetting with
  | false => exact h.of_givens (m.acts hset src ws).givens_eq
  | true =>
    cases m with
    | setAge age => exact ⟨h.mapping_eq, h.olderAge_eq, h.parentAge_eq⟩
    | setParentRules r => exact ⟨h.mapping_eq, h.olderAge_eq, h.parentAge_eq⟩
    | setMapping m => cases hm
    | setSiblingRules r => cases hm
    | setParentAge formula => cases hm
    | _ => cases hset

theorem playAll (h : ws.2.IsUsual) {ms : List Move} (hms : ∀ m ∈ ms, m.setsAgeRules = false) :
    (playAll src ws ms).2.IsUsual :=
  playAll_preserves (fun _ _ hm h => h.next hm) hms h

end Session.IsUsual

/-- No run that starts with a fresh family gives a sibling a negative age. -/
theorem age_nonneg_of_playAll {s s' : Session} {age : Option Int} {budget : RerollBudget}
    {ms : List Move} (h : playAll src (w, { s with family := .fresh age budget }) ms = (w', s')) :
    ∀ b ∈ s'.family.siblings, 0 ≤ b.age := by
  have hfamily := Family.NonNegative.playFresh src w s age budget ms
  unfold playFresh at hfamily
  rw [h] at hfamily
  exact fun b hb => (hfamily.siblings b hb).age

/-! ### Older siblings -/

/-- Whether the older siblings are older than the character, up to the rounding of large ages. -/
def Session.Senior (s : Session) : Prop :=
  ∀ b ∈ s.family.older, ∀ a, s.family.characterAge = some a → a < 2 ^ 57 → a < b.age + 8

namespace Session.Senior

variable {s s' : Session}

theorem congr (h : s.Senior) (hold : s'.family.older = s.family.older)
    (hage : s'.family.characterAge = s.family.characterAge) : s'.Senior := by
  unfold Senior
  rw [hold, hage]
  exact h

/-- Older siblings that are rolled are older than the character. -/
theorem of_older (hsrc : src.InRange) (husual : s.IsUsual) {rules : SiblingRules} {age : Int}
    {r : SideRoll} (haged : s.family.hasAge = true) (hrules : s.siblingRules = some rules)
    (hage : ∃ w₁ s₁, characterApparentAge src (w₁, s) = .ok age (w, s₁))
    (hroll : rollSide .older rules age s.mapping (s.family.firstLitter .older) src w = .ok r w') :
    Senior { s with family := s.family.withSide r } := by
  obtain ⟨hr, ls, w₂, hls, hsiblings⟩ := rollSide_ok hroll
  have hside : ∀ b ∈ r.siblings, b.isOlder = (r.side == .older) := by
    rw [hr]
    exact fun b hb => (litters_ok hls).1.isOlder_eq (hsiblings ▸ hb)
  have hnew := Family.on_withSide (f := s.family) hside
  rw [hr] at hnew
  intro b hb a ha hsmall
  obtain ⟨w₁, s₁, hage⟩ := hage
  rw [s.family.characterAge_withSide r] at ha
  have hpos : 0 < a := (Family.hasAge_iff ha).mp haged
  have hle := characterApparentAge_ok husual.mapping_eq ha (Int.le_of_lt hpos) hsmall hage
  obtain ⟨rules', hrules', hformula⟩ := husual.olderAge_eq
  obtain rfl : rules' = rules := Option.some.inj (hrules'.symm.trans hrules)
  rw [husual.mapping_eq] at hls
  have hlt := forall_mem_litters (p := fun b => age < b.age) (fun n w l w' hl =>
    age_lt_of_mem_rollLitter hsrc hformula hl) hls
  have hb : b ∈ r.siblings := hnew ▸ hb
  have hb := hlt b (hsiblings ▸ hb)
  omega

/-- Younger siblings that are rolled leave the older ones as they are. -/
theorem of_younger (h : s.Senior) {rules : SiblingRules} {age start : Int} {r : SideRoll}
    (hroll : rollSide .younger rules age s.mapping start src w = .ok r w') :
    Senior { s with family := s.family.withSide r } := by
  obtain ⟨hr, ls, w₂, hls, hsiblings⟩ := rollSide_ok hroll
  have hside : ∀ b ∈ r.siblings, b.isOlder = (r.side == .older) := by
    rw [hr]
    exact fun b hb => (litters_ok hls).1.isOlder_eq (hsiblings ▸ hb)
  have hother := Family.on_withSide_other (f := s.family) hside
  rw [hr] at hother
  exact h.congr hother (s.family.characterAge_withSide r)

/-- Every act keeps the invariant. -/
theorem of_act (hsrc : src.InRange) (hact : Act src s s') (h : s.Senior) (husual : s.IsUsual) :
    s'.Senior := by
  cases hact with
  | @side side rules age w w' r haged hrules hage hroll =>
    cases side with
    | older => exact of_older hsrc husual haged hrules hage hroll
    | younger => exact h.of_younger hroll
  | clear haged => exact nofun
  | @status rules age w w' r haged hrules hage hroll =>
    obtain ⟨m, fa, hstatus⟩ := s.family.exists_withStatus rules r
    exact h.congr (congrArg (·.older) hstatus) (congrArg (·.characterAge) hstatus)
  | @parentAge p status rules age w w' r haged hstatus hrules heligible hage hroll =>
    obtain ⟨m, fa, hparent⟩ := s.family.exists_withParentAge p (some r)
    exact h.congr (congrArg (·.older) hparent) (congrArg (·.characterAge) hparent)
  | charge f haged => exact h.congr rfl rfl
  | reread => exact h.congr rfl rfl

/-- Acts leave the rules as they are, so that several keep the invariant as well. -/
theorem of_acts (hsrc : src.InRange) (hacts : Acts src s s') (h : s.Senior)
    (husual : s.IsUsual) : s'.Senior :=
  (hacts.preserves (P := fun s => s.Senior ∧ s.IsUsual) (fun _ _ hact hs =>
    ⟨hs.1.of_act hsrc hact hs.2, hs.2.of_givens hact.givens_eq⟩) ⟨h, husual⟩).1

/-- Every move but one that gives the character another age keeps the invariant. -/
theorem next (hsrc : src.InRange) (h : ws.2.Senior) (husual : ws.2.IsUsual) {m : Move}
    (hm : m.setsAgeRules = false) (hage : ∀ age, m ≠ .setAge age) : (m.next src ws).2.Senior := by
  rw [Move.next_snd]
  cases hset : m.isSetting with
  | false => exact of_acts hsrc (m.acts hset src ws) h husual
  | true =>
    cases m with
    | setAge age => exact absurd rfl (hage age)
    | setParentRules r => exact h.congr rfl rfl
    | setMapping m => cases hm
    | setSiblingRules r => cases hm
    | setParentAge formula => cases hm
    | _ => cases hset

theorem playAll (hsrc : src.InRange) (h : ws.2.Senior) (husual : ws.2.IsUsual) {ms : List Move}
    (hms : ∀ m ∈ ms, m.setsAgeRules = false ∧ ∀ age, m ≠ .setAge age) :
    (playAll src ws ms).2.Senior :=
  (playAll_preserves (P := fun s => s.Senior ∧ s.IsUsual) (fun _ _ hm hs =>
    ⟨hs.1.next hsrc hs.2 hm.1 hm.2, hs.2.next hm.1⟩) hms ⟨h, husual⟩).1

end Session.Senior

/-- Whether the older siblings after a move are ones that the move rolls, for a character with an
age: it succeeds in rolling them, or it takes all siblings away and then rolls both sides, the older
one first, however that ends. -/
def Move.RollsOlder (src : Source σ) (ws : World σ × Session) (m : Move) : Prop :=
  ws.2.family.hasAge = true ∧
    (m = .rollAll ∨ m.side? = some .older ∧ (m.play.outcome src ws.1 ws.2).1.isOk = true)

/-- After such a move the older siblings are older than the character, whatever there was before. -/
theorem Move.RollsOlder.senior (hsrc : src.InRange) {m : Move} (hm : m.RollsOlder src ws)
    (husual : ws.2.IsUsual) : (m.next src ws).2.Senior := by
  rw [Move.next_snd]
  obtain ⟨haged, rfl | ⟨hside, hok⟩⟩ := hm
  · have hall : Acts src ws.2.cleared (Move.rollAll.play.after src ws) := by
      have hacts : Acts src ws.2.cleared _ := rollAll_acts_cleared haged
      rw [← Play.after_ifAged_of_hasAge haged] at hacts
      exact .answer hacts
    exact .of_acts hsrc hall nofun ⟨husual.mapping_eq, husual.olderAge_eq, husual.parentAge_eq⟩
  · cases hplay : m.play src ws with
    | error e ws' =>
      unfold Play.outcome at hok
      rw [hplay] at hok
      cases hok
    | ok answer ws' =>
      obtain ⟨r, rfl⟩ := Move.answer_side hside haged hplay
      obtain ⟨side, w, budget, hm, hrolled⟩ := Move.side_ok hplay
      obtain rfl : .older = side := Option.some.inj (hside.symm.trans hm)
      obtain ⟨hs, rules, age, w₁, hrules, ⟨s₁, hage⟩, hroll⟩ := playSide_ok hrolled
      have husual' : Session.IsUsual
          { ws.2 with family := { ws.2.family with budget := budget } } :=
        ⟨husual.mapping_eq, husual.olderAge_eq, husual.parentAge_eq⟩
      rw [Play.after_of_ok hplay, hs]
      exact .of_older hsrc husual' haged hrules ⟨w, s₁, hage⟩ hroll

/-! ### Parents -/

/-- The age that is rolled for a parent, in a session with the usual rules: it is above the ages of
all siblings, and at least sixteen years above how old the character looks if there are none. -/
theorem rollAge_ok (hsrc : src.InRange) {p : Parent} {r : ParentAge} (husual : ws.2.IsUsual)
    {a : Int} (ha : ws.2.family.characterAge = some a) (hsmall : a < 2 ^ 57)
    (hsiblings : ∀ b ∈ ws.2.family.siblings, 0 ≤ b.age ∧ b.age < 2 ^ 57)
    (h : rollAge p src ws = .ok (some r) ws') :
    (∀ b ∈ ws.2.family.siblings, b.age + 8 ≤ r.actualAge) ∧
      (ws.2.family.siblings = [] → a + 8 ≤ r.actualAge) := by
  obtain ⟨-, ⟨w, hcan⟩, age, w', ⟨w₁, s₁, hage⟩, hroll⟩ := rollAge_ok_some h
  have hpos : 0 < a := (Family.hasAge_iff ha).mp (canRollAge_ok hcan).1
  have hle := characterApparentAge_ok husual.mapping_eq ha (Int.le_of_lt hpos) hsmall hage
  rw [husual.parentAge_eq, husual.mapping_eq] at hroll
  obtain ⟨base, w₂, hbase, hactual⟩ := rollParentAge_ok hsrc hroll
  obtain ⟨hsibling, hnone⟩ := oldestApparent_ok hsiblings hbase
  refine ⟨fun b hb => ?_, fun hnil => ?_⟩
  · have hb := hsibling b hb
    omega
  · have hbase := hnone hnil
    omega

/-- A move that answers with an age has rolled it. -/
theorem rollAge_of_outcome {p : Parent} {s : Session} {r : ParentAge}
    (h : (Move.rollAge p).play.outcome src w s = (.ok (.age r), ws')) :
    rollAge p src (w, s) = .ok (some r) ws' := by
  obtain ⟨_, ⟨⟩, hplay⟩ := answer_ok (Play.outcome_ok h) nofun
  exact hplay

/-- Whenever the age of a parent is rolled, in a session that started with a fresh family and has
the usual rules for ages, the parent is older than every sibling. The parent is older than the
character, too, if there are no siblings, or if there are older ones that some move rolled since the
character was last given an age. All this as long as ages have at most 57 bits. -/
theorem parent_older (hsrc : src.InRange) {s₀ s : Session} (husual : s₀.IsUsual)
    {age : Option Int} {budget : RerollBudget} {w₀ w : World σ} {ms : List Move}
    (hms : ∀ m ∈ ms, m.setsAgeRules = false)
    (hrun : playAll src (w₀, { s₀ with family := .fresh age budget }) ms = (w, s)) {p : Parent}
    {r : ParentAge} {after : World σ × Session}
    (hroll : (Move.rollAge p).play.outcome src w s = (.ok (.age r), after)) {a : Int}
    (ha : s.family.characterAge = some a) (hsmall : a < 2 ^ 57)
    (hsiblings : ∀ b ∈ s.family.siblings, b.age < 2 ^ 57) :
    (∀ b ∈ s.family.siblings, b.age < r.actualAge) ∧
      (s.family.siblings = [] → a < r.actualAge) ∧
      (s.family.older ≠ [] → (∃ ms₁ m ms₂, ms = ms₁ ++ m :: ms₂ ∧
        m.RollsOlder src (playAll src (w₀, { s₀ with family := .fresh age budget }) ms₁) ∧
        ∀ age, .setAge age ∉ ms₂) → a < r.actualAge) := by
  have husual₀ : Session.IsUsual { s₀ with family := .fresh age budget } :=
    ⟨husual.mapping_eq, husual.olderAge_eq, husual.parentAge_eq⟩
  -- the rules are still usual, and no sibling has a negative age
  have husual₁ : (playAll src (w₀, { s₀ with family := .fresh age budget }) ms).2.IsUsual :=
    husual₀.playAll hms
  rw [hrun] at husual₁
  have hnonneg := age_nonneg_of_playAll hrun
  obtain ⟨hsibling, hnone⟩ := rollAge_ok hsrc husual₁ ha hsmall
    (fun b hb => ⟨hnonneg b hb, hsiblings b hb⟩) (rollAge_of_outcome hroll)
  refine ⟨fun b hb => ?_, fun hnil => ?_, ?_⟩
  · have hb := hsibling b hb
    omega
  · have hnone := hnone hnil
    omega
  · rintro hold ⟨ms₁, m, ms₂, rfl, hm, hsame⟩
    obtain ⟨hms₁, hms₂⟩ := List.forall_mem_append.mp hms
    obtain ⟨hrules, hms₂⟩ := List.forall_mem_cons.mp hms₂
    rw [playAll_append, playAll_cons] at hrun
    have husual₂ : (playAll src (w₀, { s₀ with family := .fresh age budget }) ms₁).2.IsUsual :=
      husual₀.playAll hms₁
    -- the move makes the older siblings older than the character, and the rest keeps them so
    have hsenior := (hm.senior hsrc husual₂).playAll hsrc (husual₂.next hrules)
      fun m hm => ⟨hms₂ m hm, fun age heq => hsame age (heq ▸ hm)⟩
    rw [hrun] at hsenior
    obtain ⟨b, hb⟩ := List.exists_mem_of_ne_nil _ hold
    have holder := hsenior b hb a ha hsmall
    have hb := hsibling b (List.mem_filter.mp hb).1
    omega

/-- A session with the usual rules for ages, in which both parents are alive. -/
def sampleUsual : Session := { parentRules := some { formula := "10" } }

theorem isUsual_sampleUsual : sampleUsual.IsUsual := ⟨rfl, ⟨{}, rfl, rfl⟩, rfl⟩

/-- A run of a character of an age, with given draws. -/
def sampleRun (age : Int) (ms : List Move) (draws : List Int) :
    World (List Int × List Float) × Session :=
  playAll Source.scripted (World.start (draws, [0.2, 0.2]),
    { sampleUsual with family := .fresh (some age) {} }) ms

/-- The age of the mother that is rolled after a run. -/
def motherAfter (ws : World (List Int × List Float) × Session) : Option ParentAge :=
  match ((Move.rollAge .mother).play.outcome Source.scripted ws.1 ws.2).1 with
  | .ok (.age r) => some r
  | .ok _ => none
  | .error _ => none

theorem exists_outcome_of_motherAfter {ws : World (List Int × List Float) × Session}
    {r : ParentAge} (h : motherAfter ws = some r) : ∃ after,
      (Move.rollAge .mother).play.outcome Source.scripted ws.1 ws.2 = (.ok (.age r), after) := by
  unfold motherAfter at h
  split at h
  · next r' heq => cases h; exact ⟨_, Prod.ext heq rfl⟩
  · cases h
  · cases h

/-- A run in which an older sibling is rolled twice, in the same way, with a new age in between. -/
def sampleTwice : World (List Int × List Float) × Session :=
  sampleRun 45 [.rollOlder, .setAge (some 46), .setAge (some 45), .rollOlder, .rollParents]
    [3, 2, 3, 2, 1, 1]

/-- With an older sibling of 47 years, rolled anew, the mother of a character of 45 years is older
than both. -/
theorem parent_older_sample : ∃ r after,
    (Move.rollAge .mother).play.outcome Source.scripted sampleTwice.1 sampleTwice.2 =
      (.ok (.age r), after) ∧
    sampleTwice.2.family.older.map (·.age) = [47] ∧ 47 < r.actualAge ∧ 45 < r.actualAge := by
  have hages : sampleTwice.2.family.siblings.map (·.age) = [47] := by decide +kernel
  have holder : sampleTwice.2.family.older.map (·.age) = [47] := by decide +kernel
  obtain ⟨r, hr⟩ := Option.isSome_iff_exists.mp (show (motherAfter sampleTwice).isSome = true by
    decide +kernel)
  obtain ⟨after, houtcome⟩ := exists_outcome_of_motherAfter hr
  obtain ⟨b, hb, hage⟩ : ∃ b ∈ sampleTwice.2.family.siblings, b.age = 47 :=
    List.mem_map.mp (hages ▸ List.mem_singleton.mpr rfl)
  have hsmall : ∀ b ∈ sampleTwice.2.family.siblings, b.age < 2 ^ 57 := by
    intro b hb
    have hb := List.mem_map_of_mem (f := (·.age)) hb
    rw [hages, List.mem_singleton] at hb
    omega
  have hne : sampleTwice.2.family.older ≠ [] := by
    intro hnil
    rw [hnil] at holder
    cases holder
  have hrules : ∀ m ∈ [Move.rollOlder, .setAge (some 46), .setAge (some 45), .rollOlder,
      .rollParents], m.setsAgeRules = false := by decide
  have hrun : playAll Source.scripted (World.start ([3, 2, 3, 2, 1, 1], [0.2, 0.2]),
      { sampleUsual with family := .fresh (some 45) {} }) [.rollOlder, .setAge (some 46),
        .setAge (some 45), .rollOlder, .rollParents] = (sampleTwice.1, sampleTwice.2) := by
    unfold sampleTwice sampleRun
    exact (Prod.eta _).symm
  have hcharacter : sampleTwice.2.family.characterAge = some 45 := by decide +kernel
  obtain ⟨hsiblings, -, hlast⟩ := parent_older Source.inRange_scripted isUsual_sampleUsual hrules
    hrun houtcome hcharacter (by decide) hsmall
  have holdest := hsiblings b hb
  rw [hage] at holdest
  have hrolls : Move.rollOlder.RollsOlder Source.scripted (sampleRun 45
      [.rollOlder, .setAge (some 46), .setAge (some 45)] [3, 2, 3, 2, 1, 1]) :=
    ⟨by decide +kernel, .inr ⟨rfl, by decide +kernel⟩⟩
  exact ⟨r, after, houtcome, holder, holdest, hlast hne
    ⟨[.rollOlder, .setAge (some 46), .setAge (some 45)], .rollOlder, [.rollParents], rfl, hrolls,
      by simp⟩⟩

/-- Whether a parent is older than the character and all siblings once the age is rolled. -/
def Elder (src : Source σ) (ws : World σ × Session) (p : Parent) : Prop :=
  ∀ r after, (Move.rollAge p).play.outcome src ws.1 ws.2 = (.ok (.age r), after) →
    (∀ b ∈ ws.2.family.siblings, b.age < r.actualAge) ∧
      ∀ a, ws.2.family.characterAge = some a → a < r.actualAge

/-- A parent need not be older. A mother with a child of 26 years is rolled 42 years old, while the
character is 45. And among ages of 58 bits the oldest sibling may be as old as the mother. -/
theorem not_elder_samples : Source.scripted.InRange ∧ sampleUsual.IsUsual ∧
    ¬ Elder Source.scripted
      (sampleRun 45 [.rollYounger, .rollParents] [3, 6, 6, 6, 1, 1, 1]) .mother ∧
    ¬ Elder Source.scripted
      (sampleRun (2 ^ 57 - 16) [.rollOlder, .rollParents] [3, 6, 6, 6, 6, 6, 2, 1, 1]) .mother := by
  refine ⟨Source.inRange_scripted, isUsual_sampleUsual, fun h => ?_, fun h => ?_⟩
  · obtain ⟨r, hr, hage⟩ := Option.map_eq_some_iff.mp (show
      (motherAfter (sampleRun 45 [.rollYounger, .rollParents] [3, 6, 6, 6, 1, 1, 1])).map
        (·.actualAge) = some 42 by decide +kernel)
    obtain ⟨after, houtcome⟩ := exists_outcome_of_motherAfter hr
    have hlt := (h r after houtcome).2 45 (by decide +kernel)
    omega
  · obtain ⟨r, hr, hage⟩ := Option.map_eq_some_iff.mp (show
      (motherAfter (sampleRun (2 ^ 57 - 16) [.rollOlder, .rollParents]
        [3, 6, 6, 6, 6, 6, 2, 1, 1])).map (·.actualAge) = some (2 ^ 57 + 16) by decide +kernel)
    obtain ⟨after, houtcome⟩ := exists_outcome_of_motherAfter hr
    obtain ⟨b, hb, hsame⟩ : ∃ b ∈ (sampleRun (2 ^ 57 - 16) [.rollOlder, .rollParents]
        [3, 6, 6, 6, 6, 6, 2, 1, 1]).2.family.siblings, b.age = 2 ^ 57 + 16 := by
      have hages : (sampleRun (2 ^ 57 - 16) [.rollOlder, .rollParents]
        [3, 6, 6, 6, 6, 6, 2, 1, 1]).2.family.siblings.map (·.age) = [2 ^ 57 + 16] := by
          decide +kernel
      exact List.mem_map.mp (hages ▸ List.mem_singleton.mpr rfl)
    have hlt := (h r after houtcome).1 b hb
    omega

end Kindred
