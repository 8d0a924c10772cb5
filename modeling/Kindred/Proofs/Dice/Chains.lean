import Mathlib.Algebra.Ring.Int.Defs
import Kindred.Proofs.Dice.Rolled

/-!
# Open-ended rolls on a stream of faces

A source answers the question for a six-sided die again and again, and so deals a stream of faces.
An open-ended roll takes as many of them as it has dice in the throw, and then for every six of the
throw a chain: sixes, and the first face that is not one. No bound on the length of a chain is known
beforehand. If a face other than six always comes again, every chain ends all the same, and a roll
that is followed for long enough ends with the faces that the stream dealt.

- `World.rolled`, `World.after`, `World.face`, `World.faces`: the stream of faces.
- `World.SixesEnd`: a face other than six always comes again.
- `IsChain`: the faces that one six adds.
- `exists_chain`, `exists_chains`: the chains that are cut from the stream.
- `OpenEnded.IsCounted`: what an open-ended roll says about its faces.
- `openEnded_of_sixesEnd`: the roll on a stream of faces.
-/

namespace Kindred

variable {σ : Type} {src : Source σ} {w : World σ}

/-! ### The stream of faces -/

/-- The same source, with its own limit on the dice of a chain that are followed. -/
def Source.followed (src : Source σ) (patience : Nat) : Source σ :=
  { src with patience := patience }

namespace World

/-- The world after one six-sided die. -/
def rolled (src : Source σ) (w : World σ) : World σ :=
  { w with
    chance := (src.int 1 6 w.chance).2
    draws := .int 1 6 (src.int 1 6 w.chance).1 :: w.draws }

/-- The world after several six-sided dice. -/
def after (src : Source σ) (w : World σ) : Nat → World σ
  | 0 => w
  | n + 1 => after src (w.rolled src) n

/-- The face of one of the six-sided dice that come, counted from zero. -/
def face (src : Source σ) (w : World σ) (k : Nat) : Int := (src.int 1 6 (w.after src k).chance).1

/-- The faces of the next six-sided dice. -/
def faces (src : Source σ) (w : World σ) (n : Nat) : List Int := (List.range n).map (w.face src)

theorem after_add (src : Source σ) (w : World σ) (m n : Nat) :
    w.after src (m + n) = (w.after src m).after src n := by
  induction m generalizing w with
  | zero => rw [Nat.zero_add]; rfl
  | succ m ih =>
    rw [Nat.succ_add]
    exact ih (w.rolled src)

theorem face_after (src : Source σ) (w : World σ) (m k : Nat) :
    (w.after src m).face src k = w.face src (m + k) := by
  unfold face
  rw [after_add]

theorem length_faces (src : Source σ) (w : World σ) (n : Nat) : (w.faces src n).length = n := by
  unfold faces
  rw [List.length_map, List.length_range]

theorem faces_succ (src : Source σ) (w : World σ) (n : Nat) :
    w.faces src (n + 1) = w.face src 0 :: (w.rolled src).faces src n := by
  unfold faces
  rw [List.range_succ_eq_map, List.map_cons, List.map_map]
  rfl

theorem faces_add (src : Source σ) (w : World σ) (m n : Nat) :
    w.faces src (m + n) = w.faces src m ++ (w.after src m).faces src n := by
  unfold faces
  rw [List.range_add, List.map_append, List.map_map]
  congr 1
  exact List.map_congr_left fun k _ => (face_after src w m k).symm

/-- Rolling six-sided dice moves the source on and adds the draws. All else stays as it was. -/
theorem after_eq (src : Source σ) (w : World σ) (n : Nat) :
    w.after src n = { w with
      chance := (w.after src n).chance
      draws := ((w.faces src n).map (.int 1 6)).reverse ++ w.draws } := by
  induction n generalizing w with
  | zero => rfl
  | succ n ih =>
    rw [faces_succ, List.map_cons, List.reverse_cons, List.append_assoc]
    exact ih (w.rolled src)

/-- Whether a face other than six always comes again. -/
def SixesEnd (src : Source σ) (w : World σ) : Prop := ∀ k, ∃ m, k ≤ m ∧ w.face src m ≠ 6

theorem SixesEnd.after (h : w.SixesEnd src) (n : Nat) : (w.after src n).SixesEnd src := by
  intro k
  obtain ⟨m, hm, hface⟩ := h (n + k)
  refine ⟨m - n, by omega, ?_⟩
  rw [face_after, Nat.add_sub_cancel' (by omega)]
  exact hface

end World

/-! ### The dice of the throw -/

variable {p : Nat}

theorem die_six (src : Source σ) (p : Nat) (w : World σ) :
    die 6 (src.followed p) w = .ok (w.face src 0) (w.rolled src) := by
  unfold die Roll.drawInt
  rw [if_neg (by simp)]
  rfl

/-- Several six-sided dice show the faces that come next. -/
theorem times_die_six (src : Source σ) (p : Nat) (w : World σ) (n : Nat) :
    times (die 6) n (src.followed p) w = .ok (w.faces src n) (w.after src n) := by
  induction n generalizing w with
  | zero => rfl
  | succ n ih =>
    rw [World.faces_succ]
    unfold times
    rw [run_bind, die_six]
    exact bind_pure_ok_iff.mpr ⟨_, ih (w.rolled src), rfl⟩

/-! ### The chains -/

/-- Whether some faces are what one six adds: sixes, and one other face. -/
def IsChain (c : List Int) : Prop := ∃ k last, c = List.replicate k 6 ++ [last] ∧ last ≠ 6

namespace IsChain

theorem singleton {r : Int} (h : r ≠ 6) : IsChain [r] := ⟨0, r, rfl, h⟩

theorem cons {c : List Int} (h : IsChain c) : IsChain (6 :: c) := by
  obtain ⟨k, last, rfl, hlast⟩ := h
  exact ⟨k + 1, last, rfl, hlast⟩

/-- A chain has one face besides its sixes. -/
theorem length_eq {c : List Int} (h : IsChain c) : c.length = c.count 6 + 1 := by
  obtain ⟨k, last, rfl, hlast⟩ := h
  rw [List.length_append, List.length_replicate, List.length_singleton, List.count_append,
    List.count_replicate_self, List.count_singleton, if_neg (by simpa using hlast), Nat.add_zero]

end IsChain

/-- Chains have one face for each of them and one for each of their sixes. -/
theorem length_flatten_chains {cs : List (List Int)} (h : ∀ c ∈ cs, IsChain c) :
    cs.flatten.length = cs.length + cs.flatten.count 6 := by
  induction cs with
  | nil => rfl
  | cons c cs ih =>
    obtain ⟨hc, hcs⟩ := List.forall_mem_cons.mp h
    have hlength := hc.length_eq
    have ih := ih hcs
    rw [List.flatten_cons, List.length_append, List.count_append, List.length_cons]
    omega

theorem chain_of_ne (h : w.face src 0 ≠ 6) (fuel : Nat) :
    chain (fuel + 1) (src.followed p) w = .ok [w.face src 0] (w.rolled src) := by
  unfold chain
  rw [run_bind, die_six]
  simp only [if_neg h]
  rfl

theorem chain_of_six (h : w.face src 0 = 6) {fuel : Nat} {rest : List Int} {w' : World σ}
    (hrest : chain fuel (src.followed p) (w.rolled src) = .ok rest w') :
    chain (fuel + 1) (src.followed p) w = .ok (w.face src 0 :: rest) w' := by
  unfold chain
  rw [run_bind, die_six]
  simp only [if_pos h]
  exact bind_pure_ok_iff.mpr ⟨rest, hrest, rfl⟩

/-- One six adds the faces up to the first one that is not a six. -/
theorem exists_chain {m : Nat} (h : w.face src m ≠ 6) : ∃ n, IsChain (w.faces src n) ∧
    ∀ p fuel, n ≤ fuel →
      chain fuel (src.followed p) w = .ok (w.faces src n) (w.after src n) := by
  -- the induction is on a bound for the place of that face
  induction m generalizing w with
  | zero =>
    refine ⟨1, .singleton h, fun p fuel hfuel => ?_⟩
    obtain ⟨fuel, rfl⟩ := Nat.exists_eq_add_of_le' hfuel
    exact chain_of_ne h fuel
  | succ m ih =>
    by_cases hsix : w.face src 0 = 6
    · obtain ⟨n, hchain, hrun⟩ := ih (w := w.rolled src) h
      refine ⟨n + 1, ?_, fun p fuel hfuel => ?_⟩
      · rw [World.faces_succ, hsix]
        exact hchain.cons
      · obtain ⟨fuel, rfl⟩ := Nat.exists_eq_add_of_le' (Nat.le_of_add_left_le hfuel)
        rw [World.faces_succ]
        exact chain_of_six hsix (hrun p fuel (Nat.le_of_succ_le_succ hfuel))
    · refine ⟨1, .singleton hsix, fun p fuel hfuel => ?_⟩
      obtain ⟨fuel, rfl⟩ := Nat.exists_eq_add_of_le' hfuel
      exact chain_of_ne hsix fuel

/-- The sixes of a throw add one chain each, one behind the other. -/
theorem exists_chains (h : w.SixesEnd src) (rs : List Int) : ∃ cs : List (List Int), ∃ n enough,
    cs.length = rs.count 6 ∧ (∀ c ∈ cs, IsChain c) ∧ w.faces src n = cs.flatten ∧
    ∀ p fuel, enough ≤ fuel →
      chains fuel rs (src.followed p) w = .ok (w.faces src n) (w.after src n) := by
  induction rs generalizing w with
  | nil => exact ⟨[], 0, 0, rfl, nofun, rfl, fun p fuel _ => rfl⟩
  | cons r rs ih =>
    by_cases hsix : r = 6
    · obtain ⟨m, -, hm⟩ := h 0
      obtain ⟨k, hchain, hrun⟩ := exists_chain hm
      obtain ⟨cs, n, enough, hlength, hcs, hfaces, hrest⟩ := ih (h.after k)
      refine ⟨w.faces src k :: cs, k + n, max k enough, ?_, ?_, ?_, fun p fuel hfuel => ?_⟩
      · rw [List.length_cons, hlength, hsix, List.count_cons_self]
      · exact List.forall_mem_cons.mpr ⟨hchain, hcs⟩
      · rw [World.faces_add, hfaces, List.flatten_cons]
      · rw [World.faces_add, World.after_add]
        unfold chains
        rw [if_pos hsix, run_bind, hrun p fuel (by omega)]
        exact bind_pure_ok_iff.mpr ⟨_, hrest p fuel (by omega), rfl⟩
    · obtain ⟨cs, n, enough, hlength, hcs, hfaces, hrest⟩ := ih h
      refine ⟨cs, n, enough, ?_, hcs, hfaces, fun p fuel hfuel => ?_⟩
      · rw [hlength, List.count_cons_of_ne hsix]
      · unfold chains
        rw [if_neg hsix]
        exact hrest p fuel hfuel

/-! ### The roll -/

namespace OpenEnded

/-- What an open-ended roll says about its faces: as many as asked for in the throw, a chain for
each six of it, and what all of them come to. Two sixes in the throw make a fumble possible. A
single die may be perfect with a face up to three, several dice with a one on all but one of
them. -/
structure IsCounted (r : OpenEnded) (count : Nat) : Prop where
  throw : r.initial.length = count
  chains : ∃ cs : List (List Int), r.extra = cs.flatten ∧ cs.length = r.initial.count 6 ∧
    ∀ c ∈ cs, IsChain c
  extra : r.extra.length = r.initial.count 6 + r.extra.count 6
  total : r.total = r.all.sum
  count_le : count ≤ r.total
  fumble : r.fumble = true ↔ 2 ≤ r.initial.count 6
  perfect_one : count = 1 →
    (r.perfect = true ↔ r.initial = [1] ∨ r.initial = [2] ∨ r.initial = [3])
  perfect : count ≠ 1 → (r.perfect = true ↔ r.initial.count 1 + 1 = count)

theorem isPerfect_singleton (r : Int) :
    isPerfect [r] = true ↔ [r] = [1] ∨ [r] = [2] ∨ [r] = [3] := by
  simp [isPerfect, or_assoc]

theorem isPerfect_of_length_ne {rs : List Int} (h : rs.length ≠ 1) :
    isPerfect rs = true ↔ rs.count 1 + 1 = rs.length := by
  unfold isPerfect
  split
  · exact absurd rfl h
  · rw [beq_iff_eq]
    omega

theorem isCounted_ofDice {initial extra : List Int} {cs : List (List Int)}
    (hextra : extra = cs.flatten) (hlength : cs.length = initial.count 6)
    (hcs : ∀ c ∈ cs, IsChain c) (hfaces : ∀ r ∈ initial ++ extra, 1 ≤ r) :
    (ofDice initial extra).IsCounted initial.length where
  throw := rfl
  chains := ⟨cs, hextra, hlength, hcs⟩
  extra := by
    show extra.length = initial.count 6 + extra.count 6
    rw [hextra, length_flatten_chains hcs, hlength]
  total := (totalOf_append initial extra).symm
  count_le := by
    have hle := length_le_totalOf hfaces
    rw [totalOf_append, List.length_append] at hle
    show (initial.length : Int) ≤ totalOf initial + totalOf extra
    omega
  fumble := decide_eq_true_iff
  perfect_one := by
    intro hone
    obtain ⟨r, rfl⟩ := List.length_eq_one_iff.mp hone
    exact isPerfect_singleton r
  perfect := isPerfect_of_length_ne

end OpenEnded

/-- **Open-ended rolls end, and are counted rightly.** On every stream of faces in which a face
other than six always comes again, an open-ended roll that is followed for long enough ends. Its
dice are the faces that the stream dealt first, those of the throw and then those of the chains, and
no others were drawn. What it says about them is right. -/
theorem openEnded_of_sixesEnd (src : Source σ) (w : World σ) (count : Nat)
    (hfaces : ∀ k, 1 ≤ w.face src k) (hsixes : ∀ k, ∃ m, k ≤ m ∧ w.face src m ≠ 6) :
    ∃ r : OpenEnded, ∃ enough, r.IsCounted count ∧
      r.all = (List.range r.all.length).map (w.face src) ∧
      ∀ patience, enough ≤ patience →
        openEnded count (src.followed patience) w = .ok r
          { w with
            chance := (w.after src r.all.length).chance
            draws := (r.all.map (.int 1 6)).reverse ++ w.draws } := by
  have hend : w.SixesEnd src := hsixes
  obtain ⟨cs, n, enough, hlength, hcs, hextra, hrun⟩ :=
    exists_chains (hend.after count) (w.faces src count)
  have hall : (OpenEnded.ofDice (w.faces src count) ((w.after src count).faces src n)).all =
      w.faces src (count + n) := (World.faces_add src w count n).symm
  have hcounted := OpenEnded.isCounted_ofDice hextra hlength hcs fun r hr => by
    obtain ⟨k, -, rfl⟩ := List.mem_map.mp ((World.faces_add src w count n).symm ▸ hr)
    exact hfaces k
  rw [World.length_faces] at hcounted
  refine ⟨_, enough, hcounted, ?_, fun patience hpatience => ?_⟩
  · rw [hall, World.length_faces]
    rfl
  · rw [hall, World.length_faces, ← World.after_eq, World.after_add]
    unfold openEnded
    refine bind_ok_iff.mpr ⟨_, _, times_die_six src patience w count, ?_⟩
    refine bind_ok_iff.mpr ⟨patience, _, rfl, ?_⟩
    exact bind_pure_ok_iff.mpr ⟨_, hrun patience patience hpatience, rfl⟩

/-- A source that deals the faces of a stream, whatever it is asked for. -/
def Source.stream (f : Nat → Int) : Source Nat where
  int _ _ k := (f k, k + 1)
  fraction k := (0.0, k)
  refusesEmpty := false
  patience := ampleDice

theorem World.face_stream (f : Nat → Int) (w : World Nat) (k : Nat) :
    w.face (.stream f) k = f (w.chance + k) := by
  induction k generalizing w with
  | zero => rfl
  | succ k ih =>
    exact (ih (w.rolled (.stream f))).trans (congrArg f (Nat.succ_add_eq_add_succ w.chance k))

/-- The faces six, six and two, again and again. -/
def mostlySixes (k : Nat) : Int := if k % 3 = 2 then 2 else 6

/-- Two dice on that stream are both sixes, and each of them adds a chain. -/
theorem openEnded_of_sixesEnd_mostlySixes :
    (∀ k, 1 ≤ (World.start 0).face (.stream mostlySixes) k) ∧
    (∀ k, ∃ m, k ≤ m ∧ (World.start 0).face (.stream mostlySixes) m ≠ 6) ∧
    ∃ r : OpenEnded, ∃ enough, r.IsCounted 2 ∧ r.all = (List.range r.all.length).map mostlySixes ∧
      ∀ patience, enough ≤ patience → ∃ w',
        openEnded 2 (Source.followed (.stream mostlySixes) patience) (World.start 0) =
          .ok r w' ∧
        w'.draws = (r.all.map (.int 1 6)).reverse := by
  have hface : (World.start 0).face (.stream mostlySixes) = mostlySixes := by
    funext k
    rw [World.face_stream]
    exact congrArg mostlySixes (Nat.zero_add k)
  have hfaces : ∀ k, 1 ≤ (World.start 0).face (.stream mostlySixes) k := by
    intro k
    rw [hface, mostlySixes]
    split <;> decide
  have hsixes : ∀ k, ∃ m, k ≤ m ∧ (World.start 0).face (.stream mostlySixes) m ≠ 6 := by
    intro k
    refine ⟨3 * k + 2, by omega, ?_⟩
    rw [hface, mostlySixes, if_pos (by omega)]
    decide
  obtain ⟨r, enough, hcounted, hall, hrun⟩ :=
    openEnded_of_sixesEnd _ (World.start 0) 2 hfaces hsixes
  rw [hface] at hall
  refine ⟨hfaces, hsixes, r, enough, hcounted, hall, fun patience hpatience => ?_⟩
  exact ⟨_, hrun patience hpatience, List.append_nil _⟩

end Kindred
