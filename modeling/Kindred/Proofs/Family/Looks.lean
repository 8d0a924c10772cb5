import Kindred.Proofs.Family.BothSides

/-!
# How old the character looks

How old someone looks is a function of the mapping and the age, so that nothing is drawn to find it.
In a session it is looked up anew by every roll. While the mapping and the age stay, each of these
look-ups finds the same, and every move is what it would be if that was known beforehand.

- `Session.LooksBy`: sessions with a given mapping and a given age.
- `Move.playWith`: a move for a character whose looks are found in a given way.
- `Play.Agree`: plays that come to the same end from sessions that satisfy an invariant.
- `Move.playWith_agree`: moves agree if the ways to find the looks do.
- `looks_without_chance`: the conversion, and a run of moves.
-/

namespace Kindred

variable {σ α β : Type} {src : Source σ} {ws vs : World σ × Session}

/-! ### Looks that are given -/

/-- Whether a session has a given mapping and a character of a given age. -/
def Session.LooksBy (s : Session) (m : Option AgeMapping) (age : Int) : Prop :=
  s.mapping = m ∧ s.family.characterAge.getD 0 = age

/-- Rolls one side of siblings and records it, where the looks are found in a given way. -/
def playSideWith (looks : Play σ Int) (side : Side) : Play σ SideRoll := do
  let start := (← Play.family).firstLitter side
  let age ← looks
  let s ← Play.session
  let rules ← Play.demand side.firstRule s.siblingRules
  let r ← Play.roll (rollSide side rules age s.mapping start)
  Play.changeFamily (·.withSide r)
  return r

/-- Rolls both sides anew, where the looks are found in a given way. -/
def playSidesWith (looks : Play σ Int) : Play σ (SideRoll × SideRoll) := do
  Play.changeFamily fun f => { f with siblings := [] }
  let older ← playSideWith looks .older
  let younger ← playSideWith looks .younger
  return (older, younger)

/-- Rolls the parents' status and records it, where the looks are found in a given way. -/
def playStatusWith (looks : Play σ Int) : Play σ StatusRoll := do
  let age ← looks
  let rules ← Play.demand "formula" (← Play.session).parentRules
  let r ← Play.roll (rollStatus rules age)
  Play.changeFamily fun f =>
    dropAge .father rules (dropAge .mother rules { f with statusRoll := some r })
  return r

/-- Rolls the age of a parent, if it can be rolled, where the looks are found in a given way. -/
def rollAgeWith (looks : Play σ Int) (p : Parent) : Play σ (Option ParentAge) := do
  if ← canRollAge p then
    let age ← looks
    let s ← Play.session
    let r ← Play.roll (rollParentAge s.parentAge s.family.siblings age s.mapping)
    Play.changeFamily (·.withParentAge p (some r))
    return some r
  else
    let status := (← Play.family).status
    Play.roll (Roll.note "Fam" ("no " ++ p.name ++ " age to roll (status " ++ statusText status ++
      ")"))
    return none

/-- Makes a move for a character whose looks are found in a given way. -/
def Move.playWith (looks : Play σ Int) : Move → Play σ Answer
  | rollOlder => return .ofOption .side (← Play.ifAged (playSideWith looks .older))
  | rollYounger => return .ofOption .side (← Play.ifAged (playSideWith looks .younger))
  | rollAll => return .ofOption (fun (o, y) => .sides o y) (← Play.ifAged (playSidesWith looks))
  | rerollOlder => return .ofOption .side (← Play.ifAged do
      charge .older
      playSideWith looks .older)
  | rerollYounger => return .ofOption .side (← Play.ifAged do
      charge .younger
      playSideWith looks .younger)
  | rollParents => return .ofOption .status (← Play.ifAged (playStatusWith looks))
  | rerollParents => return .ofOption .status (← Play.ifAged do
      charge .parent
      playStatusWith looks)
  | rollAge p => return .ofOption .age (← rollAgeWith looks p)
  | characterApparentAge => return .number (← looks)
  | m => m.play

/-- Every move is the one that looks the character's looks up. -/
theorem Move.playWith_characterApparentAge (m : Move) :
    m.playWith Kindred.characterApparentAge = (m.play : Play σ Answer) := by
  cases m <;> rfl

/-! ### Plays that agree -/

/-- Whether two states have the same session, in worlds that are alike. -/
def SameSession (ws vs : World σ × Session) : Prop := ws.1.Alike vs.1 ∧ ws.2 = vs.2

namespace Play

/-- Whether two plays come to the same end from the same session, if that satisfies an invariant. -/
def Agree (P : Session → Prop) (x y : Play σ α) : Prop :=
  Matches (fun ws vs => ws.1.Alike vs.1 ∧ ws.2 = vs.2 ∧ P ws.2) (· = ·) x y

namespace Agree

variable {P : Session → Prop}

theorem pure (a : α) : Agree P (pure a : Play σ α) (pure a) := Matches.pure rfl

theorem bind {x y : Play σ α} {f g : α → Play σ β} (hx : Agree P x y)
    (hf : ∀ a, Agree P (f a) (g a)) : Agree P (x >>= f) (y >>= g) :=
  Matches.bind hx fun a _ h => h ▸ hf a

theorem session {f g : Session → Play σ α} (hf : ∀ s, P s → Agree P (f s) (g s)) :
    Agree P (Play.session >>= f) (Play.session >>= g) := by
  refine Matches.bind (R := fun s t => s = t ∧ P s) ?_ ?_
  · exact fun _ _ _ h => .ok h.2 h
  · rintro s _ ⟨rfl, hs⟩
    exact hf s hs

theorem family {f g : Family → Play σ α} (hf : ∀ t, Agree P (f t) (g t)) :
    Agree P (Play.family >>= f) (Play.family >>= g) := by
  refine Matches.bind (R := (· = ·)) ?_ fun t _ h => h ▸ hf t
  exact fun _ _ _ h => .ok (congrArg Session.family h.2.1) h

theorem roll {x y : Roll σ α} (hx : Matches World.Alike (· = ·) x y) :
    Agree P (Play.roll x) (Play.roll y) :=
  Matches.play_roll (T := fun s t => s = t ∧ P s) hx

theorem demand (part : String) (o : Option α) :
    Agree P (Play.demand part o : Play σ α) (Play.demand part o) := by
  cases o with
  | none => exact Matches.throw _
  | some a => exact .pure a

theorem change {f : Session → Session} (hf : ∀ s, P s → P (f s)) :
    Agree P (Play.change f : Play σ Unit) (Play.change f) := by
  rintro src ws vs ⟨hworld, hs, hP⟩
  exact .ok rfl ⟨hworld, congrArg f hs, hf ws.2 hP⟩

theorem ifAged {x y : Play σ α} (hx : Agree P x y) : Agree P (Play.ifAged x) (Play.ifAged y) := by
  refine family fun t => ?_
  show Agree P _ _
  split
  · exact hx.bind fun a => .pure _
  · exact .pure none

/-- What plays that agree leave behind is the same session. -/
theorem endAlike {x y : Play σ α} (h : Agree P x y) (hws : SameSession ws vs) (hP : P ws.2) :
    EndAlike SameSession (· = ·) (x src ws) (y src vs) := by
  have h := h src ws vs ⟨hws.1, hws.2, hP⟩
  generalize x src ws = left at h
  generalize y src vs = right at h
  cases h with
  | ok value state => exact .ok value ⟨state.1, state.2.1⟩
  | error state => exact .error ⟨state.1, state.2.1⟩

end Agree

end Play

/-! ### Moves that agree -/

/-- Whether an invariant is about nothing in the family but the age of the character. -/
def IgnoresFamily (P : Session → Prop) : Prop :=
  ∀ (s : Session) (f : Family), f.characterAge = s.family.characterAge → P s →
    P { s with family := f }

section Moves

variable {P : Session → Prop} (hP : IgnoresFamily P)

include hP

/-- A change of the family that leaves the age of the character is made in both. -/
theorem changeFamily_agree {f : Family → Family} (hf : ∀ t, (f t).characterAge = t.characterAge) :
    Play.Agree P (Play.changeFamily f : Play σ Unit) (Play.changeFamily f) :=
  .change fun s => hP s _ (hf s.family)

theorem charge_agree (f : Facet) : Play.Agree P (charge f : Play σ Unit) (charge f) := by
  refine .family fun t => ?_
  have hrest : Play.Agree P (σ := σ) _ _ := (changeFamily_agree hP (f := fun fam =>
    { fam with budget := t.budget.charge f }) fun _ => rfl).bind fun _ =>
      .roll (Roll.Blind.tell "Reroll" (do
        return f.name ++ ": " ++ (if t.budget.pays f then "1 token" else "free") ++ ", " ++
          (← writeNumeral (t.budget.charge f).remaining) ++ " left"))
  dsimp only
  split
  · exact (Play.Agree.roll (Roll.Blind.remark _ _ _)).bind fun _ => hrest
  · exact (Play.Agree.pure ()).bind fun _ => hrest

omit hP in
theorem canRollAge_agree (p : Parent) :
    Play.Agree P (canRollAge p : Play σ Bool) (canRollAge p) := by
  refine .session fun s _ => ?_
  show Play.Agree P _ _
  split
  · exact (Play.Agree.demand _ _).bind fun rules => .pure _
  · exact .pure false

/-- A reroll is accounted for in both. -/
theorem reroll_agree {x y : Play σ α} (f : Facet) (hx : Play.Agree P x y) :
    Play.Agree P (Play.ifAged do charge f; x) (Play.ifAged do charge f; y) :=
  .ifAged ((charge_agree hP f).bind fun _ => hx)

variable {looks looks' : Play σ Int} (h : Play.Agree P looks looks')

include h

theorem playSideWith_agree (side : Side) :
    Play.Agree P (playSideWith looks side) (playSideWith looks' side) := by
  refine .family fun t => h.bind fun age => .session fun s _ => ?_
  refine (Play.Agree.demand _ s.siblingRules).bind fun rules => ?_
  refine (Play.Agree.roll (rollSide_stepwise side rules age s.mapping _).blind).bind fun r => ?_
  exact (changeFamily_agree hP fun t => t.characterAge_withSide r).bind fun _ => .pure r

theorem playSidesWith_agree : Play.Agree P (playSidesWith looks) (playSidesWith looks') :=
  (changeFamily_agree hP (f := fun t => { t with siblings := [] }) fun _ => rfl).bind fun _ =>
    (playSideWith_agree hP h .older).bind fun older =>
      (playSideWith_agree hP h .younger).bind fun younger => .pure (older, younger)

theorem playStatusWith_agree : Play.Agree P (playStatusWith looks) (playStatusWith looks') := by
  refine h.bind fun age => .session fun s _ => ?_
  refine (Play.Agree.demand _ s.parentRules).bind fun rules => ?_
  refine (Play.Agree.roll (rollStatus_stepwise rules age).blind).bind fun r => ?_
  refine (changeFamily_agree hP (f := (·.withStatus rules r)) fun t => ?_).bind fun _ => .pure r
  obtain ⟨mother, father, hstatus⟩ := t.exists_withStatus rules r
  rw [hstatus]

theorem rollAgeWith_agree (p : Parent) :
    Play.Agree P (rollAgeWith looks p) (rollAgeWith looks' p) := by
  refine (canRollAge_agree p).bind fun can => ?_
  split
  · refine h.bind fun age => .session fun s _ => ?_
    refine (Play.Agree.roll (rollParentAge_stepwise _ _ age _).blind).bind fun r => ?_
    refine (changeFamily_agree hP fun t => ?_).bind fun _ => .pure (some r)
    cases p <;> rfl
  · exact .family fun t => (Play.Agree.roll (Roll.Blind.note _ _)).bind fun _ => .pure none

/-- Moves come to the same end if the ways to find the looks do. -/
theorem Move.playWith_agree (src : Source σ) (m : Move) (hws : SameSession ws vs) (hs : P ws.2) :
    EndAlike SameSession (· = ·) (m.playWith looks src ws) (m.playWith looks' src vs) := by
  have hanswer : ∀ {α : Type} {x y : Play σ α} (g : α → Answer), Play.Agree P x y →
      EndAlike SameSession (· = ·) ((x >>= fun a => pure (g a)) src ws)
        ((y >>= fun a => pure (g a)) src vs) :=
    fun _ hx => (hx.bind fun _ => .pure _).endAlike hws hs
  have hplain : ∀ {x y : Play σ Answer}, Play.Agree (fun _ => True) x y →
      EndAlike SameSession (· = ·) (x src ws) (y src vs) := fun hx => hx.endAlike hws trivial
  cases m with
  | rollOlder => exact hanswer _ (.ifAged (playSideWith_agree hP h .older))
  | rollYounger => exact hanswer _ (.ifAged (playSideWith_agree hP h .younger))
  | rollAll => exact hanswer _ (.ifAged (playSidesWith_agree hP h))
  | rerollOlder => exact hanswer _ (reroll_agree hP .older (playSideWith_agree hP h .older))
  | rerollYounger => exact hanswer _ (reroll_agree hP .younger (playSideWith_agree hP h .younger))
  | rollParents => exact hanswer _ (.ifAged (playStatusWith_agree hP h))
  | rerollParents => exact hanswer _ (reroll_agree hP .parent (playStatusWith_agree hP h))
  | rollAge p => exact hanswer _ (rollAgeWith_agree hP h p)
  | characterApparentAge => exact hanswer _ h
  -- the other moves do not ask for the looks, so that what they set does not matter
  | canRollAge p => exact hplain ((canRollAge_agree p).bind fun b => .pure _)
  | setAge age => exact hplain ((Play.Agree.change fun _ _ => trivial).bind fun _ => .pure _)
  | setMapping m => exact hplain ((Play.Agree.change fun _ _ => trivial).bind fun _ => .pure _)
  | setSiblingRules r =>
    exact hplain ((Play.Agree.change fun _ _ => trivial).bind fun _ => .pure _)
  | setParentRules r =>
    exact hplain ((Play.Agree.change fun _ _ => trivial).bind fun _ => .pure _)
  | setParentAge formula =>
    exact hplain ((Play.Agree.change fun _ _ => trivial).bind fun _ => .pure _)
  | reload =>
    refine hplain (Play.Agree.bind (.family fun t => ?_) fun text => .pure _)
    exact (Play.Agree.roll (Roll.Blind.ofExcept _)).bind fun f =>
      (Play.Agree.change fun _ _ => trivial).bind fun _ => .pure _

end Moves

/-! ### Looks that stay -/

/-- Whether a move sets the mapping or the age of the character. -/
def Move.setsLooks : Move → Bool
  | setAge _ => true
  | setMapping _ => true
  | _ => false

/-- Moves that set neither the mapping nor the age leave both as they are. -/
theorem Session.LooksBy.playAll {m : Option AgeMapping} {age : Int} (h : ws.2.LooksBy m age)
    {ms : List Move} (hms : ∀ mv ∈ ms, mv.setsLooks = false) :
    (playAll src ws ms).2.LooksBy m age := by
  refine playAll_preserves (P := (·.LooksBy m age)) (fun ws mv hmv hs => ?_) hms h
  cases hset : mv.isSetting with
  | false =>
    have hgivens := (mv.acts hset src ws).givens_eq
    rw [← Move.next_snd] at hgivens
    have hmapping := congrArg Session.mapping hgivens
    have hage := congrArg (·.family.characterAge) hgivens
    exact ⟨hmapping.trans hs.1, (congrArg (Option.getD · 0) hage).trans hs.2⟩
  | true =>
    cases mv with
    | setSiblingRules r => exact hs
    | setParentRules r => exact hs
    | setParentAge formula => exact hs
    | setAge _ => cases hmv
    | setMapping _ => cases hmv
    | _ => cases hset

/-! ### Looks without chance -/

/-- A roll that comes to one end matches the value or the fault that it comes to. -/
theorem Roll.ComesTo.matches {x : Roll σ α} {result : Except Fault α} (h : x.ComesTo result) :
    Matches World.Alike (· = ·) x (Roll.ofExcept result) := by
  intro src w v hworld
  have h := h src w
  generalize x src w = run at h
  cases h with
  | ok alike => exact .ok rfl (alike.trans hworld)
  | error alike => exact .error (alike.trans hworld)

variable {m : Option AgeMapping} {age : Int}

theorem looksBy_ignoresFamily : IgnoresFamily (·.LooksBy m age) := by
  intro s f hf hs
  refine ⟨hs.1, ?_⟩
  show f.characterAge.getD 0 = age
  rw [hf]
  exact hs.2

/-- Looking the looks up agrees with taking what they are. -/
theorem characterApparentAge_agree : Play.Agree (·.LooksBy m age)
    (characterApparentAge : Play σ Int) (Play.roll (Roll.ofExcept (looksAt m age))) := by
  show Play.Agree _ (Play.session >>= fun s => Play.roll s.looks)
    (Play.session >>= fun _ => Play.roll (Roll.ofExcept (looksAt m age)))
  refine .session fun s hs => .roll ?_
  rw [← hs.1, ← hs.2]
  exact (actualToApparent_comesTo _ _).quietly.matches

/-- The session and the world after some moves, for a character whose looks are found in a given
way. -/
def playAllWith (looks : Play σ Int) (src : Source σ) (ws : World σ × Session) (ms : List Move) :
    World σ × Session :=
  ms.foldl (fun ws m => ((m.playWith looks).outcome src ws.1 ws.2).2) ws

/-- A move for the looks that the character has is that move. -/
theorem Move.outcome_playWith (mv : Move) (hws : SameSession ws vs) (hs : ws.2.LooksBy m age) :
    (mv.play.outcome src ws.1 ws.2).1 =
        ((mv.playWith (Play.roll (Roll.ofExcept (looksAt m age)))).outcome src vs.1 vs.2).1 ∧
      SameSession (mv.play.outcome src ws.1 ws.2).2
        ((mv.playWith (Play.roll (Roll.ofExcept (looksAt m age)))).outcome src vs.1 vs.2).2 := by
  have hend := Move.playWith_agree looksBy_ignoresFamily characterApparentAge_agree src mv hws hs
  rw [mv.playWith_characterApparentAge] at hend
  exact hend.outcome

/-- So is a run of moves, as long as the mapping and the age stay. -/
theorem playAll_sameSession (hws : SameSession ws vs) {ms : List Move}
    (hs : ∀ n, (playAll src ws (ms.take n)).2.LooksBy m age) :
    SameSession (playAll src ws ms)
      (playAllWith (Play.roll (Roll.ofExcept (looksAt m age))) src vs ms) := by
  induction ms generalizing ws vs with
  | nil => exact hws
  | cons mv ms ih =>
    exact ih (mv.outcome_playWith hws (hs 0)).2 fun n => hs (n + 1)

/-- How old someone looks is no matter of chance: with every source the conversion gives the same
age, or fails in the same way, and it draws nothing. So in every run of moves during which the
mapping and the age of the character stay, each roll finds the same looks: the run, and every move
after it, are as they would be if the looks were known beforehand. -/
theorem looks_without_chance (m : Option AgeMapping) (age : Int) : ∃ result : Except Fault Int,
    (∀ {σ : Type} (src : Source σ) (w : World σ),
      ((actualToApparent m age).outcome src w).1 = result ∧
        ((actualToApparent m age).outcome src w).2.Alike w) ∧
    ∀ {σ : Type} (src : Source σ) (ws : World σ × Session) (ms : List Move),
      (∀ n, (playAll src ws (ms.take n)).2.LooksBy m age) →
        SameSession (playAll src ws ms)
          (playAllWith (Play.roll (Roll.ofExcept result)) src ws ms) ∧
        ∀ mv : Move, (mv.play.outcome src (playAll src ws ms).1 (playAll src ws ms).2).1 =
          ((mv.playWith (Play.roll (Roll.ofExcept result))).outcome src
            (playAllWith (Play.roll (Roll.ofExcept result)) src ws ms).1
            (playAllWith (Play.roll (Roll.ofExcept result)) src ws ms).2).1 := by
  refine ⟨looksAt m age, fun src w => ?_, fun src ws ms hs => ?_⟩
  · have hend := actualToApparent_comesTo m age src w
    unfold Roll.outcome
    generalize actualToApparent m age src w = run at hend
    generalize looksAt m age = result at hend
    cases hend with
    | ok alike => exact ⟨rfl, alike⟩
    | error alike => exact ⟨rfl, alike⟩
  · have hrun := playAll_sameSession ⟨⟨rfl, rfl⟩, rfl⟩ hs
    have hlast := hs ms.length
    rw [List.take_length] at hlast
    exact ⟨hrun, fun mv => (mv.outcome_playWith hrun hlast).1⟩

/-- A session in which the formula for the looks has dice, which are not rolled for it. -/
def sampleDiced : Session where
  mapping := some { apparentFormula := some "actualAge + 1T6", table := [⟨40, 49, 20⟩] }
  family := { characterAge := some 45 }

/-- In that session the formula fails, and the table says that the character looks 20 years old,
whatever the source is, and before and after the older siblings were rolled. -/
theorem looks_without_chance_sample : ∃ result : Except Fault Int, result.toOption = some 20 ∧
    ((actualToApparent sampleDiced.mapping 45).outcome (Source.constant 6 0)
      (World.start ())).1 = result ∧
    SameSession (playAll (Source.constant 3 0) (World.start (), sampleDiced) [.rollOlder])
      (playAllWith (Play.roll (Roll.ofExcept result)) (Source.constant 3 0)
        (World.start (), sampleDiced) [.rollOlder]) := by
  obtain ⟨result, hconverted, hplayed⟩ := looks_without_chance sampleDiced.mapping 45
  have hvalue := (hconverted (Source.constant 3 0) (World.start ())).1
  have hlooks : (((actualToApparent sampleDiced.mapping 45).outcome (Source.constant 3 0)
      (World.start ())).1).toOption = some 20 := by decide +kernel
  have hstay : ∀ n, (playAll (Source.constant 3 0) (World.start (), sampleDiced)
      ([Move.rollOlder].take n)).2.LooksBy sampleDiced.mapping 45 := fun n =>
    Session.LooksBy.playAll ⟨rfl, rfl⟩ fun mv hmv => by
      rw [List.mem_singleton.mp (List.mem_of_mem_take hmv)]
      rfl
  rw [hvalue] at hlooks
  exact ⟨result, hlooks, (hconverted _ _).1, (hplayed _ _ _ hstay).1⟩

end Kindred
