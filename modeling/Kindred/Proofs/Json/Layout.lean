import Kindred.Json.Printer
import Kindred.Json.Reader

/-!
# JSON text with blanks

The two ways of writing a value differ in the blanks only: none, or line breaks and indentations.
Both are cases of one printer, to which the blanks are given.

- `Spacing`, `Spacing.compact`, `Spacing.indented`: where blanks stand.
- `printFrom`: a value with such blanks, in front of a text.
- `printFrom_compact`, `printFrom_indented`: the two cases.
- `skipSpace_append`: the reader passes over the blanks.
-/

namespace Kindred.Json

/-- The blanks between the parts of a value. -/
structure Spacing where
  /-- In front of a part of a list or map, or its closing bracket, at a level. -/
  gap : Nat → List Char
  /-- Behind the colon of an entry. -/
  behindColon : List Char
  isSpace_gap : ∀ level, ∀ c ∈ gap level, isSpace c = true
  isSpace_behindColon : ∀ c ∈ behindColon, isSpace c = true

namespace Spacing

/-- No blanks. -/
def compact : Spacing := ⟨fun _ => [], [], nofun, nofun⟩

/-- A line for each part. -/
def indented : Spacing where
  gap := newLine
  behindColon := [' ']
  isSpace_gap level c hc := by
    rcases List.mem_cons.mp hc with rfl | hc
    · rfl
    · rw [List.eq_of_mem_replicate hc]
      rfl
  isSpace_behindColon c hc := by
    rw [List.mem_singleton.mp hc]
    rfl

end Spacing

variable (p : Spacing)

mutual

/-- A value in front of a text. -/
def printFrom (level : Nat) : Data → List Char → List Char
  | .scalar s, rest => scalar s ++ rest
  | .list [], rest => '[' :: ']' :: rest
  | .list (d :: ds), rest =>
    '[' :: (p.gap (level + 1) ++
      printFrom (level + 1) d (printElements level ds (p.gap level ++ ']' :: rest)))
  | .map [], rest => '{' :: '}' :: rest
  | .map ((k, d) :: es), rest =>
    '{' :: (p.gap (level + 1) ++ (string (keyText k) ++ ':' :: (p.behindColon ++
      printFrom (level + 1) d (printEntries level es (p.gap level ++ '}' :: rest)))))

/-- The further elements of a list at a level. -/
def printElements (level : Nat) : List Data → List Char → List Char
  | [], rest => rest
  | d :: ds, rest =>
    ',' :: (p.gap (level + 1) ++ printFrom (level + 1) d (printElements level ds rest))

/-- The further entries of a map at a level. -/
def printEntries (level : Nat) : List (Scalar × Data) → List Char → List Char
  | [], rest => rest
  | (k, d) :: es, rest =>
    ',' :: (p.gap (level + 1) ++ (string (keyText k) ++ ':' :: (p.behindColon ++
      printFrom (level + 1) d (printEntries level es rest))))

end

variable {p}

mutual

theorem printFrom_compact (level : Nat) : ∀ d rest,
    printFrom .compact level d rest = compactFrom d rest
  | .scalar s, rest => rfl
  | .list [], rest => rfl
  | .list (d :: ds), rest => by
    rw [printFrom, printFrom_compact, printElements_compact, compactFrom]
    rfl
  | .map [], rest => rfl
  | .map ((k, d) :: es), rest => by
    rw [printFrom, printFrom_compact, printEntries_compact, compactFrom]
    rfl

theorem printElements_compact (level : Nat) : ∀ ds rest,
    printElements .compact level ds rest = compactElements ds rest
  | [], rest => rfl
  | d :: ds, rest => by
    rw [printElements, printFrom_compact, printElements_compact, compactElements]
    rfl

theorem printEntries_compact (level : Nat) : ∀ es rest,
    printEntries .compact level es rest = compactEntries es rest
  | [], rest => rfl
  | (k, d) :: es, rest => by
    rw [printEntries, printFrom_compact, printEntries_compact, compactEntries]
    rfl

end

mutual

theorem printFrom_indented (level : Nat) : ∀ d rest,
    printFrom .indented level d rest = indentedFrom level d rest
  | .scalar s, rest => rfl
  | .list [], rest => rfl
  | .list (d :: ds), rest => by
    rw [printFrom, printFrom_indented, printElements_indented, indentedFrom]
    rfl
  | .map [], rest => rfl
  | .map ((k, d) :: es), rest => by
    rw [printFrom, printFrom_indented, printEntries_indented, indentedFrom]
    simp [Spacing.indented]

theorem printElements_indented (level : Nat) : ∀ ds rest,
    printElements .indented level ds rest = indentedElements level ds rest
  | [], rest => rfl
  | d :: ds, rest => by
    rw [printElements, printFrom_indented, printElements_indented, indentedElements]
    rfl

theorem printEntries_indented (level : Nat) : ∀ es rest,
    printEntries .indented level es rest = indentedEntries level es rest
  | [], rest => rfl
  | (k, d) :: es, rest => by
    rw [printEntries, printFrom_indented, printEntries_indented, indentedEntries]
    simp [Spacing.indented]

end

/-! ### Blanks -/

/-- Blanks in front of a text are passed over. -/
theorem skipSpace_append {g : List Char} (hg : ∀ c ∈ g, isSpace c = true) (s : List Char) :
    skipSpace (g ++ s) = skipSpace s :=
  List.dropWhile_append_of_pos hg

/-! ### Lengths -/

theorem length_string (s : String) : s.toList.length + 2 ≤ (string s).length := by
  have hescaped : ∀ cs : List Char, cs.length ≤ (cs.flatMap escaped).length := by
    intro cs
    induction cs with
    | nil => exact Nat.le_refl 0
    | cons c cs ih =>
      have hone : 1 ≤ (escaped c).length := by
        unfold escaped
        repeat' split
        all_goals simp
      rw [List.flatMap_cons, List.length_append, List.length_cons]
      omega
  have h := hescaped s.toList
  unfold string
  rw [List.cons_append, List.length_cons, List.length_append, List.length_singleton]
  omega

end Kindred.Json
