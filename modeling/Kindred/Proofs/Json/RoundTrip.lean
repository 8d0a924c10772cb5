import Kindred.Proofs.Json.Layout
import Kindred.Proofs.Json.Number
import Kindred.Proofs.Record.Check

/-!
# Written values are read back

What is written as JSON text, with blanks or without, is read as the same value, with one exception:
a double that is not finite is read as null. The reader follows a value only so deep and an integer
only so far. It gives up on what goes beyond that, and on nothing else.

- `echo`: the value that a written value is read as.
- `integers`, `depth`, `Legible`: what the reader is able to follow.
- `stringBody_text`, `value_scalar`: texts and other single values.
- `reads_print`: values in front of a text, and the parts of lists and maps.
- `read_print`, `read_compact_of_legible`, `read_indented_of_legible`: values that take up a whole
  text.
-/

namespace Kindred.Json

open Kindred.Text Kindred.Number

/-! ### What is read -/

/-- The double that the text of a double stands for. -/
def echoFloat (x : Float) : Float := (floatOfText? (recordLayout.text x).toList).getD 0

/-- A finite double is read back as itself. -/
theorem echoFloat_eq {x : Float} (h : isFinite x = true) : echoFloat x = x := by
  obtain ⟨m, -, -, hvalue, htext⟩ := Numeral.exists_text_eq_record h
  rw [echoFloat, ← htext, floatOfText?, m.ofText?_text]
  exact hvalue

/-- The value that a single value is read as. -/
def echoScalar : Scalar → Scalar
  | .float x => if isFinite x then .float (echoFloat x) else .null
  | .bytes bs => .text ((textOfBytes? bs).getD "")
  | .other text _ => .text text
  | s => s

mutual

/-- The value that a value is read as. -/
def echo : Data → Data
  | .scalar s => .scalar (echoScalar s)
  | .list ds => .list (echoElements ds)
  | .map es => .map (echoEntries es)

/-- The values that the elements of a list are read as. -/
def echoElements : List Data → List Data
  | [] => []
  | d :: ds => echo d :: echoElements ds

/-- The entries that the entries of a map are read as. -/
def echoEntries : List (Scalar × Data) → List (Scalar × Data)
  | [] => []
  | (k, d) :: es => (.text (keyText k), echo d) :: echoEntries es

end

theorem echoElements_eq_map (ds : List Data) : echoElements ds = ds.map echo := by
  induction ds with
  | nil => rfl
  | cons d ds ih => rw [echoElements, ih, List.map_cons]

/-- The parts of a record are read one by one, under their names. -/
theorem echoEntries_entries (parts : List (String × Data)) :
    echoEntries (Record.entries parts) = Record.entries (parts.map fun (n, d) => (n, echo d)) := by
  induction parts with
  | nil => rfl
  | cons p parts ih =>
    unfold Record.entries at ih ⊢
    rw [List.map_cons, echoEntries, ih]
    rfl

theorem echo_record (parts : List (String × Data)) :
    echo (.record parts) = .record (parts.map fun (n, d) => (n, echo d)) := by
  rw [Record.record_eq_map, echo, echoEntries_entries]
  rfl

/-- A list of parts that are read as themselves. -/
theorem echo_list_map {α : Type} {write : α → Data} (h : ∀ a, echo (write a) = write a)
    (as : List α) : echo (.list (as.map write)) = .list (as.map write) := by
  rw [echo, echoElements_eq_map, List.map_map]
  exact congrArg Data.list (List.map_congr_left fun a _ => h a)

theorem echo_ofOption {α : Type} {write : α → Data} (o : Option α) :
    echo (.ofOption write o) = .ofOption (fun a => echo (write a)) o := by
  cases o <;> rfl

/-! ### What can be read -/

mutual

/-- The integers in a value. -/
def integers : Data → List Int
  | .scalar (.int n) => [n]
  | .scalar _ => []
  | .list ds => integersOf ds
  | .map es => integersUnder es

/-- The integers in the elements of a list. -/
def integersOf : List Data → List Int
  | [] => []
  | d :: ds => integers d ++ integersOf ds

/-- The integers in the entries of a map. -/
def integersUnder : List (Scalar × Data) → List Int
  | [] => []
  | (_, d) :: es => integers d ++ integersUnder es

end

mutual

/-- How many lists and maps with some content lie within each other. -/
def depth : Data → Nat
  | .scalar _ => 0
  | .list ds => depthOf ds
  | .map es => depthUnder es

/-- One more than the depth of the deepest element, if there are elements. -/
def depthOf : List Data → Nat
  | [] => 0
  | d :: ds => max (depth d + 1) (depthOf ds)

/-- One more than the depth of the deepest entry, if there are entries. -/
def depthUnder : List (Scalar × Data) → Nat
  | [] => 0
  | (_, d) :: es => max (depth d + 1) (depthUnder es)

end

/-- Whether a value can be read: its integers are short, and it does not go too deep. -/
def Legible (room : Nat) (d : Data) : Prop := (∀ n ∈ integers d, Short n) ∧ depth d ≤ room

/-! ### Texts -/

/-- The escape of a control character is read as that character. -/
theorem escapedUnit?_hexDigits (r : Rules) {c : Char} (hc : c.toNat < 32) (t : List Char) :
    escapedUnit? r (hexDigits 4 c.toNat ++ t) = some (c, t) := by
  have hunit : ∀ n < 32, hexNumber? (hexDigits 4 n) = some n := by decide
  have hread : hexUnit? (hexDigits 4 c.toNat ++ t) = some (c.toNat, t) := by
    have hnumber := hunit c.toNat hc
    simp only [hexDigits, List.nil_append, List.cons_append] at hnumber ⊢
    rw [hexUnit?, hnumber]
    rfl
  have hfirst : isFirstHalf c.toNat = false := by simp [isFirstHalf]; omega
  have hsecond : isSecondHalf c.toNat = false := by simp [isSecondHalf]; omega
  simp [escapedUnit?, hread, hfirst, hsecond, ofCodePoint, Char.ofNat_toNat]

/-- An escape with one letter is read as the character that it stands for. -/
theorem stringBody_letter (r : Rules) (fuel : Nat) {e c : Char} (t : List Char) (hu : e ≠ 'u')
    (he : escapeOf? e = some c) : stringBody r (fuel + 1) ('\\' :: e :: t) =
      (stringBody r fuel t).map fun (body, rest) => (c :: body, rest) := by
  rw [stringBody]
  · rw [he]
    cases stringBody r fuel t <;> rfl
  · exact fun h => hu h

/-- An escape with a number is read as the character with that number. -/
theorem stringBody_unit (r : Rules) (fuel : Nat) {c : Char} (hc : c.toNat < 32) (t : List Char) :
    stringBody r (fuel + 1) ('\\' :: 'u' :: hexDigits 4 c.toNat ++ t) =
      (stringBody r fuel t).map fun (body, rest) => (c :: body, rest) := by
  rw [List.cons_append, List.cons_append, stringBody, escapedUnit?_hexDigits r hc]
  simp only [Option.bind_eq_bind, Option.bind_some]
  cases stringBody r fuel t <;> rfl

/-- Any other character is read as itself. -/
theorem stringBody_plain (r : Rules) (fuel : Nat) {c : Char} (t : List Char) (hquote : c ≠ '"')
    (hslash : c ≠ '\\') (hc : ¬ c.toNat < 32) : stringBody r (fuel + 1) (c :: t) =
      (stringBody r fuel t).map fun (body, rest) => (c :: body, rest) := by
  rw [stringBody]
  · rw [if_neg (by simp [hslash]; omega)]
    cases stringBody r fuel t <;> rfl
  all_goals simp_all

/-- A written character is read as that character. -/
theorem stringBody_escaped (r : Rules) (fuel : Nat) (c : Char) (t : List Char) :
    stringBody r (fuel + 1) (escaped c ++ t) =
      (stringBody r fuel t).map fun (body, rest) => (c :: body, rest) := by
  have hcode : ∀ n, c.toNat = n → c = Char.ofNat n := fun n h => by rw [← h, Char.ofNat_toNat]
  -- seven characters have an escape with a letter, and other control characters one with a number
  unfold escaped
  split
  · next h => exact stringBody_letter r fuel t (by decide) (by rw [eq_of_beq h]; decide)
  split
  · next h => exact stringBody_letter r fuel t (by decide) (by rw [eq_of_beq h]; decide)
  split
  · next h => exact stringBody_letter r fuel t (by decide) (by rw [eq_of_beq h]; decide)
  split
  · next h => exact stringBody_letter r fuel t (by decide) (by rw [eq_of_beq h]; decide)
  split
  · next h => exact stringBody_letter r fuel t (by decide) (by rw [eq_of_beq h]; decide)
  split
  · next h => exact stringBody_letter r fuel t (by decide) (by rw [hcode 8 (eq_of_beq h)]; decide)
  split
  · next h => exact stringBody_letter r fuel t (by decide) (by rw [hcode 12 (eq_of_beq h)]; decide)
  split
  · next h => exact stringBody_unit r fuel h t
  · next hquote hslash _ _ _ _ _ hc =>
    refine stringBody_plain r fuel t ?_ ?_ hc
    · exact fun h => hquote (beq_iff_eq.mpr h)
    · exact fun h => hslash (beq_iff_eq.mpr h)

/-- A written character does not end a text. -/
theorem stringBody_zero (r : Rules) (c : Char) (t : List Char) :
    stringBody r 0 (escaped c ++ t) = none := by
  have hquote : (escaped c ++ t).head? ≠ some '"' := by
    unfold escaped
    repeat' split
    all_goals simp_all
  unfold stringBody
  split
  · next h => rw [h] at hquote; exact absurd rfl hquote
  all_goals simp_all

/-- A written text is read as that text, if it is followed far enough. -/
theorem stringBody_text (r : Rules) (fuel : Nat) (cs rest : List Char) :
    stringBody r fuel (cs.flatMap escaped ++ '"' :: rest) =
      if cs.length ≤ fuel then some (cs, rest) else none := by
  induction cs generalizing fuel with
  | nil => simp [stringBody]
  | cons c cs ih =>
    rw [List.flatMap_cons, List.append_assoc]
    cases fuel with
    | zero => simp [stringBody_zero]
    | succ fuel =>
      rw [stringBody_escaped, ih fuel, List.length_cons]
      by_cases h : cs.length ≤ fuel
      · rw [if_pos h, if_pos (Nat.succ_le_succ h)]
        rfl
      · rw [if_neg h, if_neg fun hs => h (Nat.le_of_succ_le_succ hs)]
        rfl

/-! ### Single values -/

/-- Whether a reader gives a certain value and is in front of a text if a condition holds, and gives
up otherwise. -/
def Reads (p : Prop) (x : Except Flaw (α × List Char)) (a : α) (rest : List Char) : Prop :=
  (p → x = .ok (a, rest)) ∧ (¬ p → ∃ flaw, x = .error flaw)

namespace Reads

variable {p q : Prop} {x : Except Flaw (α × List Char)} {a : α} {rest t : List Char}

theorem ok (h : p) : Reads p (.ok (a, rest)) a rest := ⟨fun _ => rfl, fun hn => absurd h hn⟩

theorem error (flaw : Flaw) (h : ¬ p) : Reads p (.error flaw) a rest :=
  ⟨fun hp => absurd hp h, fun _ => ⟨flaw, rfl⟩⟩

theorem congr (h : Reads p x a rest) (hpq : p ↔ q) : Reads q x a rest :=
  ⟨fun hq => h.1 (hpq.mpr hq), fun hq => h.2 fun hp => hq (hpq.mp hp)⟩

/-- Two readers one after the other. -/
theorem bind {f : α × List Char → Except Flaw (β × List Char)} {b : β} (hx : Reads p x a t)
    (hf : Reads q (f (a, t)) b rest) : Reads (p ∧ q) (x >>= f) b rest := by
  constructor
  · rintro ⟨hp, hq⟩
    rw [hx.1 hp]
    exact hf.1 hq
  · intro hn
    by_cases hp : p
    · rw [hx.1 hp]
      exact hf.2 fun hq => hn ⟨hp, hq⟩
    · obtain ⟨flaw, hflaw⟩ := hx.2 hp
      rw [hflaw]
      exact ⟨flaw, rfl⟩

/-- A reader whose value is used. -/
theorem map {f : α × List Char → Except Flaw (β × List Char)} {b : β} (hx : Reads p x a t)
    (hf : f (a, t) = .ok (b, rest)) : Reads p (x >>= f) b rest :=
  (hx.bind (hf ▸ Reads.ok trivial)).congr (and_iff_left trivial)

end Reads

/-- A number starts with a digit or the minus sign. -/
theorem Numeral.exists_text (m : Numeral) : ∃ c s, m.text = c :: s ∧
    (c.isDigit = true ∨ c = '-' ∧ ∃ d t, s = d :: t ∧ d.isDigit = true) := by
  obtain ⟨d, s, hbare, hd⟩ := m.exists_bare
  unfold Numeral.text Numeral.signText
  rw [hbare]
  cases m.negative with
  | true => exact ⟨'-', d :: s, rfl, Or.inr ⟨rfl, d, s, rfl, hd⟩⟩
  | false => exact ⟨d, s, rfl, Or.inl hd⟩

theorem word_text (m : Numeral) (rest : List Char) : word (m.text ++ rest) = none := by
  obtain ⟨c, s, htext, hc⟩ := m.exists_text
  rw [htext, List.cons_append]
  have hhead : ∀ {d : Char}, d.isDigit = true → ∀ a ∈ ['n', 't', 'f', 'N', 'I', '-'], a ≠ d := by
    rintro d hd a ha rfl
    simp only [List.mem_cons, List.not_mem_nil, or_false] at ha
    rcases ha with rfl | rfl | rfl | rfl | rfl | rfl <;> cases hd
  rcases hc with hc | ⟨rfl, d, t, rfl, hd⟩
  · have hne := hhead hc
    simp [word, words, dropWord?, hne]
  · have hne := hhead hd
    simp [word, words, dropWord?, hne]

/-- A number is read by the reader of values. -/
theorem value_text (m : Numeral) (r : Rules) (room fuel : Nat) (rest : List Char) :
    value r room (fuel + 1) (m.text ++ rest) = number r (m.text ++ rest) := by
  have hword := word_text m rest
  obtain ⟨c, s, htext, hc⟩ := m.exists_text
  have hne : ∀ a ∈ ['"', '[', '{'], c ≠ a := by
    rintro a ha rfl
    simp only [List.mem_cons, List.not_mem_nil, or_false] at ha
    rcases ha with rfl | rfl | rfl <;> rcases hc with hc | ⟨hc, -⟩ <;> cases hc
  rw [htext, List.cons_append] at hword ⊢
  rw [value]
  · rw [hword]
  · rintro t ⟨⟩
    exact hne '"' (by simp) rfl
  · rintro t ⟨⟩
    exact hne '[' (by simp) rfl
  · rintro t ⟨⟩
    exact hne '{' (by simp) rfl

section Scalar

variable (r : Rules) (room : Nat) {fuel : Nat} {rest : List Char}

/-- A text is read as the text that it is. -/
theorem value_string (s : String) (hfuel : s.toList.length ≤ fuel) :
    value r room (fuel + 1) (string s ++ rest) = .ok (.text s, rest) := by
  unfold string
  rw [List.cons_append, List.cons_append, List.append_assoc, value, List.singleton_append,
    stringBody_text, if_pos hfuel]
  exact congrArg (fun t => Except.ok (Data.text t, rest)) String.ofList_toList

/-- An integer is read if it is short. -/
theorem value_int (n : Int) (h : Delimits rest) :
    Reads (Short n) (value r room (fuel + 1) (intText n ++ rest)) (.int n) rest := by
  have hwhole : (Numeral.ofInt n).whole = natText n.natAbs := rfl
  rw [← Numeral.text_ofInt, value_text, Numeral.number_text _ r h, Numeral.isInteger_ofInt, hwhole,
    Bool.true_or, Bool.and_true, if_pos rfl, Numeral.int_ofInt]
  by_cases hlong : longestNumeral < (natText n.natAbs).length
  · rw [if_pos (decide_eq_true hlong)]
    exact .error _ (not_le.mpr hlong)
  · rw [if_neg (by simpa using hlong)]
    exact .ok (not_lt.mp hlong)

theorem text_record_of_not_isFinite {x : Float} (h : isFinite x = false) :
    (recordLayout.text x).toList = ['n', 'u', 'l', 'l'] := by
  have hnone : Binary.ofFloat? x = none :=
    Option.isNone_iff_eq_none.mp (Option.isSome_eq_false_iff.mp h)
  unfold Layout.text
  rw [hnone]
  dsimp only
  split
  · decide
  · split <;> decide

theorem value_null :
    value r room (fuel + 1) (['n', 'u', 'l', 'l'] ++ rest) = .ok (.null, rest) := by
  simp [value, word, words, dropWord?]

theorem value_bool (b : Bool) :
    value r room (fuel + 1) (scalar (.bool b) ++ rest) = .ok (.bool b, rest) := by
  cases b <;> simp [value, scalar, word, words, dropWord?]

/-- A double is read as what its text stands for. -/
theorem value_float (x : Float) (h : Delimits rest) :
    value r room (fuel + 1) ((recordLayout.text x).toList ++ rest) =
      .ok (.scalar (echoScalar (.float x)), rest) := by
  rw [echoScalar]
  split
  · next hx =>
    obtain ⟨m, hint, hlength, hvalue, htext⟩ := Numeral.exists_text_eq_record hx
    have hshort : ¬ longestNumeral < m.whole.length := by
      show ¬ 4300 < _
      omega
    rw [echoFloat_eq hx, ← htext, value_text, m.number_text r h, hint, decide_eq_false hshort,
      Bool.false_and, if_neg Bool.false_ne_true, if_neg Bool.false_ne_true, hvalue]
    rfl
  · next hx =>
    rw [text_record_of_not_isFinite (Bool.eq_false_iff.mpr hx)]
    exact value_null r room

/-- A single value is read as what its text stands for, unless it is an integer that is too long. -/
theorem value_scalar (s : Scalar) (hfuel : (scalar s).length ≤ fuel + 1) (h : Delimits rest) :
    Reads (∀ n ∈ integers (.scalar s), Short n) (value r room (fuel + 1) (scalar s ++ rest))
      (.scalar (echoScalar s)) rest := by
  have hstring : ∀ t : String, (string t).length ≤ fuel + 1 → t.toList.length ≤ fuel := by
    intro t ht
    have := length_string t
    omega
  have hnone : ∀ {x : Except Flaw (Data × List Char)} {s : Scalar}, integers (.scalar s) = [] →
      x = .ok (.scalar (echoScalar s), rest) →
      Reads (∀ n ∈ integers (.scalar s), Short n) x (.scalar (echoScalar s)) rest := by
    rintro x s hempty rfl
    rw [hempty]
    exact .ok nofun
  cases s with
  | null => exact hnone rfl (value_null r room)
  | bool b => exact hnone rfl (value_bool r room b)
  | int n => exact (value_int r room n h).congr (by simp [integers])
  | float x => exact hnone rfl (value_float r room x h)
  | text s => exact hnone rfl (value_string r room s (hstring s hfuel))
  | bytes bs => exact hnone rfl (value_string r room _ (hstring _ hfuel))
  | other text empty => exact hnone rfl (value_string r room text (hstring text hfuel))

end Scalar

/-! ### Lists and maps -/

/-- Neither a blank nor a closing bracket stands at the front of a value. -/
def Begins (s : List Char) : Prop := ∃ c t, s = c :: t ∧ isSpace c = false ∧ c ≠ ']' ∧ c ≠ '}'

theorem Begins.skipSpace {s : List Char} (h : Begins s) : skipSpace s = s := by
  obtain ⟨c, t, rfl, hc, -⟩ := h
  rw [Json.skipSpace, List.dropWhile_cons_of_neg (by simp [hc])]

theorem Numeral.begins_text (m : Numeral) (rest : List Char) : Begins (m.text ++ rest) := by
  obtain ⟨c, s, htext, hc⟩ := m.exists_text
  rw [htext]
  have hne : ∀ a ∈ [' ', '\n', '\r', '\t', ']', '}'], c ≠ a := by
    rintro a ha rfl
    simp only [List.mem_cons, List.not_mem_nil, or_false] at ha
    rcases ha with rfl | rfl | rfl | rfl | rfl | rfl <;> rcases hc with hc | ⟨hc, -⟩ <;> cases hc
  exact ⟨c, s ++ rest, rfl, by simp [isSpace, hne], hne _ (by simp), hne _ (by simp)⟩

theorem begins_string (s : String) (rest : List Char) : Begins (string s ++ rest) :=
  ⟨_, _, rfl, rfl, by decide, by decide⟩

theorem begins_scalar (s : Scalar) (rest : List Char) : Begins (scalar s ++ rest) := by
  have hnull : Begins (['n', 'u', 'l', 'l'] ++ rest) := ⟨_, _, rfl, rfl, by decide, by decide⟩
  cases s with
  | null => exact hnull
  | bool b => cases b <;> exact ⟨_, _, rfl, rfl, by decide, by decide⟩
  | int n =>
    rw [scalar, ← Numeral.text_ofInt]
    exact Numeral.begins_text _ rest
  | float x =>
    rw [scalar]
    cases hx : isFinite x with
    | true =>
      obtain ⟨m, -, -, -, htext⟩ := Numeral.exists_text_eq_record hx
      rw [← htext]
      exact m.begins_text rest
    | false =>
      rw [text_record_of_not_isFinite hx]
      exact hnull
  | text s => exact begins_string s rest
  | bytes bs => exact begins_string _ rest
  | other text empty => exact begins_string text rest

section Print

variable {p : Spacing} {level : Nat}

/-- Every written value begins a value. -/
theorem begins_printFrom (d : Data) (rest : List Char) : Begins (printFrom p level d rest) := by
  unfold printFrom
  split
  · exact begins_scalar _ _
  all_goals exact ⟨_, _, rfl, rfl, by decide, by decide⟩

/-- Behind blanks and a closing bracket or a comma no value goes on. -/
theorem delimits_append {g rest : List Char} (hg : ∀ c ∈ g, isSpace c = true)
    (h : Delimits rest) : Delimits (g ++ rest) := by
  cases g with
  | nil => exact h
  | cons c g =>
    have hc := hg c List.mem_cons_self
    refine delimits_cons ?_
    simp only [isSpace, Bool.or_eq_true, beq_iff_eq] at hc
    rcases hc with ((rfl | rfl) | rfl) | rfl <;> decide

variable (p) (level)

/-- The further elements of a list start with a character that ends a value. -/
theorem delimits_printElements (ds : List Data) (rest : List Char) :
    Delimits (printElements p level ds (p.gap level ++ ']' :: rest)) := by
  cases ds with
  | nil => exact delimits_append (p.isSpace_gap level) (delimits_cons (by decide))
  | cons d ds => exact delimits_cons (by decide)

theorem delimits_printEntries (es : List (Scalar × Data)) (rest : List Char) :
    Delimits (printEntries p level es (p.gap level ++ '}' :: rest)) := by
  cases es with
  | nil => exact delimits_append (p.isSpace_gap level) (delimits_cons (by decide))
  | cons e es => exact delimits_cons (by decide)

mutual

/-- A value takes up some of its text. -/
theorem length_printFrom (level : Nat) : ∀ d rest,
    rest.length + 1 ≤ (printFrom p level d rest).length
  | .scalar s, rest => by
    obtain ⟨c, t, h, -⟩ := begins_scalar s []
    rw [List.append_nil] at h
    rw [printFrom, h, List.length_append, List.length_cons]
    omega
  | .list [], rest => Nat.le_succ _
  | .list (d :: ds), rest => by
    have hd := length_printFrom (level + 1) d
      (printElements p level ds (p.gap level ++ ']' :: rest))
    have hds := length_printElements level ds (p.gap level ++ ']' :: rest)
    rw [List.length_append, List.length_cons] at hds
    rw [printFrom, List.length_cons, List.length_append]
    omega
  | .map [], rest => Nat.le_succ _
  | .map ((k, d) :: es), rest => by
    have hd := length_printFrom (level + 1) d (printEntries p level es (p.gap level ++ '}' :: rest))
    have hes := length_printEntries level es (p.gap level ++ '}' :: rest)
    rw [List.length_append, List.length_cons] at hes
    rw [printFrom, List.length_cons, List.length_append, List.length_append, List.length_cons,
      List.length_append]
    omega

theorem length_printElements (level : Nat) : ∀ ds rest,
    rest.length ≤ (printElements p level ds rest).length
  | [], rest => Nat.le_refl _
  | d :: ds, rest => by
    have hd := length_printFrom (level + 1) d (printElements p level ds rest)
    have hds := length_printElements level ds rest
    rw [printElements, List.length_cons, List.length_append]
    omega

theorem length_printEntries (level : Nat) : ∀ es rest,
    rest.length ≤ (printEntries p level es rest).length
  | [], rest => Nat.le_refl _
  | (k, d) :: es, rest => by
    have hd := length_printFrom (level + 1) d (printEntries p level es rest)
    have hes := length_printEntries level es rest
    rw [printEntries, List.length_cons, List.length_append, List.length_append, List.length_cons,
      List.length_append]
    omega

end

end Print

section Depth

variable (r : Rules) (p : Spacing) (fuel : Nat)

/-- With fuel for its text, a value is read as what it was written from if it is legible. -/
def ReadsValues : Prop := ∀ room level d rest, Delimits rest →
  (printFrom p level d rest).length ≤ fuel + rest.length →
  Reads (Legible room d) (value r room fuel (printFrom p level d rest)) (echo d) rest

/-- So are the elements of lists, -/
def ReadsElements : Prop := ∀ room level g d ds rest, (∀ c ∈ g, isSpace c = true) →
  (g ++ printFrom p (level + 1) d
    (printElements p level ds (p.gap level ++ ']' :: rest))).length ≤ fuel + rest.length →
  Reads (Legible (room + 1) (.list (d :: ds)))
    (elements r room fuel
      (g ++ printFrom p (level + 1) d (printElements p level ds (p.gap level ++ ']' :: rest))))
    (echoElements (d :: ds)) rest

/-- and the entries of maps. -/
def ReadsEntries : Prop := ∀ room level g k d es rest, (∀ c ∈ g, isSpace c = true) →
  (g ++ (string (keyText k) ++ ':' :: (p.behindColon ++ printFrom p (level + 1) d
    (printEntries p level es (p.gap level ++ '}' :: rest))))).length ≤ fuel + rest.length →
  Reads (Legible (room + 1) (.map ((k, d) :: es)))
    (entries r room fuel
      (g ++ (string (keyText k) ++ ':' :: (p.behindColon ++ printFrom p (level + 1) d
        (printEntries p level es (p.gap level ++ '}' :: rest))))))
    (echoEntries ((k, d) :: es)) rest

variable {r p fuel}

/-- A list with an element is entered if there is room. -/
theorem value_list (room : Nat) {g s : List Char} (hg : ∀ c ∈ g, isSpace c = true)
    (hs : Begins s) : value r room (fuel + 1) ('[' :: (g ++ s)) = match room with
      | 0 => .error .listTooDeep
      | room + 1 => do
        let (ds, rest) ← elements r room fuel s
        return (.list ds, rest) := by
  have hskip : skipSpace (g ++ s) = s := by rw [skipSpace_append hg, hs.skipSpace]
  obtain ⟨c, t, rfl, -, hc, -⟩ := hs
  unfold value
  simp only [hskip]
  split
  · exact absurd (List.cons.inj ‹c :: t = ']' :: _›).1 hc
  · rfl
  · rfl

/-- A map with an entry is entered if there is room. -/
theorem value_map (room : Nat) {g s : List Char} (hg : ∀ c ∈ g, isSpace c = true)
    (hs : Begins s) : value r room (fuel + 1) ('{' :: (g ++ s)) = match room with
      | 0 => .error .mapTooDeep
      | room + 1 => do
        let (es, rest) ← entries r room fuel s
        return (if r.repeats then .map es else Data.mapOf es, rest) := by
  have hskip : skipSpace (g ++ s) = s := by rw [skipSpace_append hg, hs.skipSpace]
  obtain ⟨c, t, rfl, -, -, hc⟩ := hs
  unfold value
  simp only [hskip]
  split
  · exact absurd (List.cons.inj ‹c :: t = '}' :: _›).1 hc
  · rfl
  · rfl

theorem depth_list_pos (d : Data) (ds : List Data) : 1 ≤ depth (.list (d :: ds)) := by
  rw [depth, depthOf]
  omega

theorem depth_map_pos (k : Scalar) (d : Data) (es : List (Scalar × Data)) :
    1 ≤ depth (.map ((k, d) :: es)) := by
  rw [depth, depthUnder]
  omega

/-- A value is read by way of its parts, with less fuel. -/
theorem readsValues_succ (hr : r.repeats = true) (hes : ReadsElements r p fuel)
    (hms : ReadsEntries r p fuel) : ReadsValues r p (fuel + 1) := by
  intro room level d rest hrest hfuel
  cases d with
  | scalar s =>
    rw [printFrom, List.length_append] at hfuel
    refine (value_scalar r room s (by omega) hrest).congr ?_
    exact (and_iff_left (Nat.zero_le room)).symm
  | list ds =>
    cases ds with
    | nil => exact .ok ⟨List.forall_mem_nil _, Nat.zero_le room⟩
    | cons d ds =>
      rw [printFrom] at hfuel ⊢
      rw [value_list room (p.isSpace_gap _) (begins_printFrom d _)]
      cases room with
      | zero => exact .error _ fun h => absurd (h.2.trans' (depth_list_pos d ds)) (by decide)
      | succ room =>
        refine (hes room level [] d ds rest (List.forall_mem_nil _) ?_).map rfl
        rw [List.length_cons, List.length_append] at hfuel
        rw [List.nil_append]
        omega
  | map es =>
    cases es with
    | nil => exact .ok ⟨List.forall_mem_nil _, Nat.zero_le room⟩
    | cons e es =>
      obtain ⟨k, d⟩ := e
      rw [printFrom] at hfuel ⊢
      rw [value_map room (p.isSpace_gap _) (begins_string (keyText k) _)]
      cases room with
      | zero => exact .error _ fun h => absurd (h.2.trans' (depth_map_pos k d es)) (by decide)
      | succ room =>
        refine (hms room level [] k d es rest (List.forall_mem_nil _) ?_).map ?_
        · rw [List.length_cons, List.length_append] at hfuel
          rw [List.nil_append]
          omega
        · dsimp only
          rw [if_pos hr]
          rfl

/-- A list is legible if its elements are, with less room. -/
theorem legible_list_cons {room : Nat} {d : Data} {ds : List Data} :
    Legible (room + 1) (.list (d :: ds)) ↔ Legible room d ∧ Legible (room + 1) (.list ds) := by
  have hints : integers (.list (d :: ds)) = integers d ++ integers (.list ds) := rfl
  have hdepth : depth (.list (d :: ds)) = max (depth d + 1) (depth (.list ds)) := rfl
  unfold Legible
  rw [hints, hdepth, List.forall_mem_append, Nat.max_le, Nat.add_le_add_iff_right]
  exact and_and_and_comm

theorem legible_map_cons {room : Nat} {k : Scalar} {d : Data} {es : List (Scalar × Data)} :
    Legible (room + 1) (.map ((k, d) :: es)) ↔ Legible room d ∧ Legible (room + 1) (.map es) := by
  have hints : integers (.map ((k, d) :: es)) = integers d ++ integers (.map es) := rfl
  have hdepth : depth (.map ((k, d) :: es)) = max (depth d + 1) (depth (.map es)) := rfl
  unfold Legible
  rw [hints, hdepth, List.forall_mem_append, Nat.max_le, Nat.add_le_add_iff_right]
  exact and_and_and_comm

theorem legible_list_nil (room : Nat) : Legible room (.list []) := ⟨nofun, Nat.zero_le room⟩

theorem legible_map_nil (room : Nat) : Legible room (.map []) := ⟨nofun, Nat.zero_le room⟩

theorem readsElements_succ (hv : ReadsValues r p fuel) (hes : ReadsElements r p fuel) :
    ReadsElements r p (fuel + 1) := by
  intro room level g d ds rest hg hfuel
  have hdelim := delimits_printElements p level ds rest
  have hrest := length_printElements p level ds (p.gap level ++ ']' :: rest)
  have hone := length_printFrom p (level + 1) d
    (printElements p level ds (p.gap level ++ ']' :: rest))
  rw [List.length_append, List.length_cons] at hrest
  rw [List.length_append] at hfuel
  rw [elements, skipSpace_append hg, (begins_printFrom d _).skipSpace]
  -- the first element, and then the end of the list or one element more
  refine ((hv room (level + 1) d _ hdelim (by omega)).bind ?_).congr legible_list_cons.symm
  cases ds with
  | nil =>
    have hclose : skipSpace (p.gap level ++ ']' :: rest) = ']' :: rest := by
      rw [skipSpace_append (p.isSpace_gap level)]
      rfl
    rw [printElements]
    simp only [hclose]
    exact .ok (legible_list_nil _)
  | cons d' ds =>
    have hcomma : ∀ t, skipSpace (',' :: t) = ',' :: t := fun _ => rfl
    rw [printElements] at hone hfuel ⊢
    rw [List.length_cons] at hone
    simp only [hcomma]
    exact (hes room level _ d' ds rest (p.isSpace_gap _) (by omega)).map rfl

/-- The entries of a map are read one after the other. -/
theorem readsEntries_succ (hv : ReadsValues r p fuel) (hms : ReadsEntries r p fuel) :
    ReadsEntries r p (fuel + 1) := by
  intro room level g k d es rest hg hfuel
  have hdelim := delimits_printEntries p level es rest
  have hrest := length_printEntries p level es (p.gap level ++ '}' :: rest)
  have hone := length_printFrom p (level + 1) d
    (printEntries p level es (p.gap level ++ '}' :: rest))
  have hkey := length_string (keyText k)
  rw [List.length_append, List.length_cons] at hrest
  rw [List.length_append, List.length_append, List.length_cons, List.length_append] at hfuel
  have hcolon : ∀ t, skipSpace (':' :: t) = ':' :: t := fun _ => rfl
  unfold entries
  rw [skipSpace_append hg, (begins_string _ _).skipSpace, string, List.cons_append,
    List.cons_append, List.append_assoc, List.singleton_append]
  simp only [stringBody_text]
  rw [if_pos (by omega)]
  simp only [orMalformed, bind, Except.bind, hcolon, skipSpace_append p.isSpace_behindColon,
    (begins_printFrom d _).skipSpace]
  refine ((hv room (level + 1) d _ hdelim (by omega)).bind ?_).congr legible_map_cons.symm
  cases es with
  | nil =>
    have hclose : skipSpace (p.gap level ++ '}' :: rest) = '}' :: rest := by
      rw [skipSpace_append (p.isSpace_gap level)]
      rfl
    rw [printEntries]
    simp only [hclose]
    rw [String.ofList_toList]
    exact .ok (legible_map_nil _)
  | cons e es =>
    have hcomma : ∀ t, skipSpace (',' :: t) = ',' :: t := fun _ => rfl
    rw [printEntries] at hone hfuel ⊢
    rw [List.length_cons] at hone
    simp only [hcomma]
    refine (hms room level _ e.1 e.2 es rest (p.isSpace_gap _) (by omega)).map ?_
    rw [String.ofList_toList]
    rfl

end Depth

/-- With fuel for their texts, values, elements and entries are read if they are legible. -/
theorem reads_print (r : Rules) (hr : r.repeats = true) (p : Spacing) (fuel : Nat) :
    ReadsValues r p fuel ∧ ReadsElements r p fuel ∧ ReadsEntries r p fuel := by
  -- each reader hands less fuel to the other ones, so the three are read together
  induction fuel with
  | zero =>
    refine ⟨fun room level d rest _ hfuel => ?_, fun room level g d ds rest _ hfuel => ?_,
      fun room level g k d es rest _ hfuel => ?_⟩
    · have hone := length_printFrom p level d rest
      omega
    · have hone := length_printFrom p (level + 1) d
        (printElements p level ds (p.gap level ++ ']' :: rest))
      have hrest := length_printElements p level ds (p.gap level ++ ']' :: rest)
      rw [List.length_append] at hfuel hrest
      rw [List.length_cons] at hrest
      omega
    · have hone := length_printFrom p (level + 1) d
        (printEntries p level es (p.gap level ++ '}' :: rest))
      have hrest := length_printEntries p level es (p.gap level ++ '}' :: rest)
      rw [List.length_append, List.length_append, List.length_cons, List.length_append] at hfuel
      rw [List.length_append, List.length_cons] at hrest
      omega
  | succ fuel ih =>
    obtain ⟨hv, hes, hms⟩ := ih
    exact ⟨readsValues_succ hr hes hms, readsElements_succ hv hes, readsEntries_succ hv hms⟩

/-! ### Whole texts -/

/-- What is written is read as the value that it was written from if that is legible, doubles that
are not finite aside; and nothing else is read. -/
theorem read_print {r : Rules} (hr : r.repeats = true) (p : Spacing) (d : Data) :
    (Legible r.depth d → read r (String.ofList (printFrom p 0 d [])) = .ok (echo d)) ∧
      (¬ Legible r.depth d →
        ∃ flaw, read r (String.ofList (printFrom p 0 d [])) = .error flaw) := by
  have hread := (reads_print r hr p (2 * (printFrom p 0 d []).length + 1)).1 r.depth 0 d []
    delimits_nil (by rw [List.length_nil]; omega)
  unfold read
  rw [String.toList_ofList]
  simp only [(begins_printFrom d []).skipSpace]
  constructor
  · intro h
    rw [hread.1 h]
    rfl
  · intro h
    obtain ⟨flaw, hflaw⟩ := hread.2 h
    exact ⟨flaw, by rw [hflaw]; rfl⟩

theorem compact_eq (d : Data) : compact d = String.ofList (printFrom .compact 0 d []) := by
  rw [compact, printFrom_compact]

theorem indented_eq (d : Data) : indented d = String.ofList (printFrom .indented 0 d []) := by
  rw [indented, printFrom_indented]

section Whole

variable {r : Rules} {d d' : Data} (hr : r.repeats = true)

include hr

/-- What is written on one line is read back. -/
theorem read_compact_of_legible (h : Legible r.depth d) : read r (compact d) = .ok (echo d) := by
  rw [compact_eq]
  exact (read_print hr .compact d).1 h

/-- What is written over several lines is read back. -/
theorem read_indented_of_legible (h : Legible r.depth d) : read r (indented d) = .ok (echo d) := by
  rw [indented_eq]
  exact (read_print hr .indented d).1 h

/-- Whatever is read from a written text is the value that it was written from, doubles that are not
finite aside. -/
theorem read_compact (h : read r (compact d) = .ok d') : d' = echo d := by
  rw [compact_eq] at h
  obtain ⟨hok, herror⟩ := read_print hr .compact d
  by_cases hlegible : Legible r.depth d
  · rw [hok hlegible] at h
    cases h
    rfl
  · obtain ⟨flaw, hflaw⟩ := herror hlegible
    rw [hflaw] at h
    cases h

end Whole

end Kindred.Json
