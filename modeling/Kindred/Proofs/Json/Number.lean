import Kindred.Json.Reader
import Kindred.Proofs.Number.Shortest

/-!
# Numbers in JSON text

The form of a number: a sign or none, digits without needless zeros in front, digits behind a point
or none, and a power of ten or none. A number that has this form is read up to its end, provided
that the text behind it does not go on as a number.

- `Numeral`: the form, with its `text`.
- `number_text`: how a text in that form is read.
- `ofText?_text`: the decimal number that it writes.
- `text_ofInt`, `exists_text_eq_record`: integers and finite doubles are written in that form.
-/

namespace Kindred.Json

open Kindred.Text Kindred.Number

/-- The pieces of a number in JSON text. -/
structure Numeral where
  negative : Bool
  /-- The digits in front of the point. -/
  whole : List Char
  /-- The digits behind the point; without a point there are none. -/
  part : List Char := []
  /-- Whether the power of ten is negative, and its digits. -/
  power : Option (Bool × List Char) := none
  isDigit_whole : ∀ c ∈ whole, c.isDigit = true
  whole_ne_nil : whole ≠ []
  /-- Only the number zero starts with a zero. -/
  head?_whole : whole.head? = some '0' → whole = ['0']
  isDigit_part : ∀ c ∈ part, c.isDigit = true
  isDigit_power : ∀ p ∈ power, p.2 ≠ [] ∧ ∀ c ∈ p.2, c.isDigit = true

namespace Numeral

variable (m : Numeral)

/-- The sign. -/
def signText : List Char := if m.negative then ['-'] else []

/-- The digits behind the point, with the point. -/
def partText : List Char := if m.part = [] then [] else '.' :: m.part

/-- The power of ten, with its mark and its sign. -/
def powerText : List Char :=
  match m.power with
  | none => []
  | some (below, ds) => 'e' :: (if below then '-' else '+') :: ds

/-- The number without its sign. -/
def bare : List Char := m.whole ++ (m.partText ++ m.powerText)

/-- The number. -/
def text : List Char := m.signText ++ m.bare

/-- Whether the number is written as an integer. -/
def isInteger : Bool := m.part.isEmpty && m.power.isNone

/-- The power of ten. -/
def powerValue : Int :=
  match m.power with
  | none => 0
  | some (below, ds) => if below then -(digitsValue ds : Int) else digitsValue ds

/-- The decimal number that is written. -/
def decimal : Decimal :=
  ⟨m.negative, digitsValue (m.whole ++ m.part), m.powerValue - m.part.length⟩

/-- The integer that is written, if the number is one. -/
def int : Int := if m.negative then -(digitsValue m.whole : Int) else digitsValue m.whole

end Numeral

/-! ### What ends a number -/

/-- Whether the text behind a value does not go on as a number: it ends, or a comma, a closing
bracket or a blank comes next. -/
def Delimits (rest : List Char) : Prop :=
  ∀ c ∈ rest.head?, c ∈ [',', ']', '}', ' ', '\n', '\r', '\t']

theorem delimits_nil : Delimits [] := nofun

theorem delimits_cons {c : Char} {rest : List Char}
    (h : c ∈ [',', ']', '}', ' ', '\n', '\r', '\t']) : Delimits (c :: rest) := by
  rintro d ⟨⟩
  exact h

theorem Delimits.isDigit {rest : List Char} (h : Delimits rest) :
    ∀ c ∈ rest.head?, c.isDigit = false ∧ c ≠ '.' := by
  have hall : ([',', ']', '}', ' ', '\n', '\r', '\t'].all fun c =>
      !c.isDigit && c != '.') = true := by decide
  intro c hc
  have hone := List.all_eq_true.mp hall c (h c hc)
  rw [Bool.and_eq_true, Bool.not_eq_true', bne_iff_ne] at hone
  exact hone

/-- Behind a number there is no power of ten. -/
theorem Delimits.powerPart {rest : List Char} (h : Delimits rest) :
    powerPart rest = ([], rest) := by
  have hall : ([',', ']', '}', ' ', '\n', '\r', '\t'].all fun c =>
      !(c == 'e' || c == 'E')) = true := by decide
  cases rest with
  | nil => rfl
  | cons c rest =>
    have hone := List.all_eq_true.mp hall c (h c rfl)
    rw [Bool.not_eq_true'] at hone
    exact if_neg (by rw [hone]; exact Bool.false_ne_true)

/-! ### Reading the pieces -/

namespace Numeral

variable (m : Numeral) {rest : List Char}

/-- The power of ten is read up to its end. -/
theorem powerPart_text (h : Delimits rest) :
    powerPart (m.powerText ++ rest) = (m.powerText, rest) := by
  unfold powerText
  split
  · exact h.powerPart
  · next below ds hp =>
    obtain ⟨hne, hds⟩ := m.isDigit_power _ hp
    have hspan : spanAsciiDigits (ds ++ rest) = (ds, rest) :=
      spanAsciiDigits_append hds fun c hc => (h.isDigit c hc).1
    have hempty : ds.isEmpty = false := List.isEmpty_eq_false_iff.mpr hne
    cases below <;> simp [powerPart, hspan, hempty]

/-- Neither a digit nor a point follows the digits behind the point. -/
theorem head?_powerText (h : Delimits rest) :
    ∀ c ∈ (m.powerText ++ rest).head?, c.isDigit = false ∧ c ≠ '.' := by
  intro c hc
  unfold powerText at hc
  split at hc
  · exact h.isDigit c hc
  · cases hc
    exact ⟨rfl, by decide⟩

/-- The digits behind the point are read up to their end. -/
theorem fractionPart_text (h : Delimits rest) :
    fractionPart (m.partText ++ (m.powerText ++ rest)) = (m.partText, m.powerText ++ rest) := by
  have hnext := m.head?_powerText h
  unfold partText
  split
  · unfold Json.fractionPart
    split
    · next s hs =>
      rw [List.nil_append] at hs
      exact absurd rfl (hnext '.' (by rw [hs]; rfl)).2
    · rfl
  · next hne =>
    have hspan : spanAsciiDigits (m.part ++ (m.powerText ++ rest)) =
        (m.part, m.powerText ++ rest) :=
      spanAsciiDigits_append m.isDigit_part fun c hc => (hnext c hc).1
    simp [Json.fractionPart, hspan, hne]

theorem isDigit_head?_partText (h : Delimits rest) :
    ∀ c ∈ (m.partText ++ (m.powerText ++ rest)).head?, c.isDigit = false := by
  intro c hc
  unfold partText at hc
  split at hc
  · exact (m.head?_powerText h c hc).1
  · cases hc
    rfl

/-- A number has a first digit. -/
theorem exists_bare : ∃ d s, m.bare = d :: s ∧ d.isDigit = true := by
  obtain ⟨d, ds, hds⟩ := List.exists_cons_of_ne_nil m.whole_ne_nil
  refine ⟨d, ds ++ (m.partText ++ m.powerText), ?_, ?_⟩
  · rw [bare, hds, List.cons_append]
  · exact m.isDigit_whole d (by rw [hds]; exact List.mem_cons_self)

end Numeral

/-! ### Reading a number -/

/-- A minus sign at the front of a text, and the rest. -/
def spanMinus : List Char → Bool × List Char
  | '-' :: t => (true, t)
  | t => (false, t)

/-- The digits in front of the point, and the rest. A zero stands alone. -/
def spanWhole : List Char → List Char × List Char
  | '0' :: rest => (['0'], rest)
  | t => spanAsciiDigits t

/-- What is read behind the digits in front of the point. -/
def numberBehind (r : Rules) (negative : Bool) (whole rest : List Char) :
    Except Flaw (Data × List Char) := do
  if whole.isEmpty then throw .malformed
  let (part, rest) := fractionPart rest
  let (power, rest) := powerPart rest
  let isInteger := part.isEmpty && power.isEmpty
  if longestNumeral < whole.length && (isInteger || !r.longReals) then
    throw (.numeralTooLong whole.length)
  if isInteger then
    let n : Int := digitsValue whole
    return (.int (if negative then -n else n), rest)
  else
    let d ← orMalformed (Decimal.ofText? (whole ++ part ++ power))
    return (.float ({ d with negative := negative } : Decimal).toFloat, rest)

theorem number_eq (r : Rules) (s : List Char) : number r s =
    numberBehind r (spanMinus s).1 (spanWhole (spanMinus s).2).1 (spanWhole (spanMinus s).2).2 :=
  rfl

/-- The digits behind the point of a decimal numeral, and the rest. -/
def spanPart : List Char → List Char × List Char
  | '.' :: s => spanDigits s
  | s => ([], s)

theorem ofText?_eq (s : List Char) : Decimal.ofText? s =
    let (negative, s) := spanSign s
    let (whole, s) := spanDigits s
    let (part, s) := spanPart s
    if whole.isEmpty && part.isEmpty then none
    else (readPower? s).map fun power =>
      ⟨negative, digitsValue (whole ++ part), power - part.length⟩ :=
  rfl

theorem spanMinus_of_isDigit {c : Char} {s : List Char} (h : c.isDigit = true) :
    spanMinus (c :: s) = (false, c :: s) := by
  unfold spanMinus
  split
  · next heq =>
    cases heq
    cases h
  · rfl

namespace Numeral

variable (m : Numeral) {rest : List Char}

theorem spanMinus_text : spanMinus (m.text ++ rest) = (m.negative, m.bare ++ rest) := by
  unfold text signText
  cases m.negative with
  | true => rfl
  | false =>
    obtain ⟨d, s, hbare, hd⟩ := m.exists_bare
    rw [if_neg Bool.false_ne_true, List.nil_append, hbare, List.cons_append]
    exact spanMinus_of_isDigit hd

/-- The digits in front of the point are read. -/
theorem spanWhole_bare (h : Delimits rest) :
    spanWhole (m.bare ++ rest) = (m.whole, m.partText ++ (m.powerText ++ rest)) := by
  unfold bare spanWhole
  rw [List.append_assoc, List.append_assoc]
  split
  · next t ht =>
    obtain ⟨d, ds, hds⟩ := List.exists_cons_of_ne_nil m.whole_ne_nil
    -- a zero in front stands alone, as in every number
    have hzero : m.whole = ['0'] := by
      refine m.head?_whole ?_
      rw [hds, List.cons_append] at ht
      cases ht
      rw [hds]
      rfl
    rw [hzero] at ht ⊢
    cases ht
    rfl
  · exact spanAsciiDigits_append m.isDigit_whole (m.isDigit_head?_partText h)

theorem isInteger_eq : m.isInteger = (m.partText.isEmpty && m.powerText.isEmpty) := by
  unfold isInteger partText powerText
  congr 1
  · by_cases hp : m.part = []
    · rw [if_pos hp, hp]
    · rw [if_neg hp, List.isEmpty_eq_false_iff.mpr hp]
      rfl
  · cases m.power <;> rfl

theorem isDecimal_head?_powerText : ∀ c ∈ m.powerText.head?, isDecimal c = false := by
  intro c hc
  unfold powerText at hc
  split at hc <;> cases hc
  decide

theorem isDecimal_head?_partText :
    ∀ c ∈ (m.partText ++ m.powerText).head?, isDecimal c = false := by
  intro c hc
  unfold partText at hc
  split at hc
  · exact m.isDecimal_head?_powerText c hc
  · cases hc
    decide

/-- The power of ten has the value that is written. -/
theorem readPower?_text : readPower? m.powerText = some m.powerValue := by
  unfold powerText powerValue
  split
  · rfl
  · next below ds hp =>
    obtain ⟨hne, hds⟩ := m.isDigit_power _ hp
    have hdigits : isDigits ds = true := isDigits_of_isDigit hne hds
    cases below <;> simp [readPower?, spanSign, hdigits]

theorem spanSign_text : spanSign m.text = (m.negative, m.bare) := by
  unfold text signText
  cases m.negative with
  | true => rfl
  | false =>
    obtain ⟨d, s, hbare, hd⟩ := m.exists_bare
    rw [if_neg Bool.false_ne_true, List.nil_append, hbare]
    unfold spanSign
    split
    · next heq => cases heq; cases hd
    · next heq => cases heq; cases hd
    · rfl

theorem spanPart_text : spanPart (m.partText ++ m.powerText) = (m.part, m.powerText) := by
  unfold partText
  split
  · next hp =>
    rw [hp, List.nil_append]
    unfold powerText
    cases m.power <;> rfl
  · exact spanDigits_append m.isDigit_part m.isDecimal_head?_powerText

/-- A number is a decimal numeral. -/
theorem ofText?_text : Decimal.ofText? m.text = some m.decimal := by
  have hspan : spanDigits m.bare = (m.whole, m.partText ++ m.powerText) :=
    spanDigits_append m.isDigit_whole m.isDecimal_head?_partText
  have hwhole : m.whole.isEmpty = false := List.isEmpty_eq_false_iff.mpr m.whole_ne_nil
  rw [ofText?_eq, m.spanSign_text]
  dsimp only
  rw [hspan]
  dsimp only
  rw [m.spanPart_text]
  simp [hwhole, m.readPower?_text, decimal]

theorem ofText?_bare : Decimal.ofText? (m.whole ++ m.partText ++ m.powerText) =
    some { m.decimal with negative := false } := by
  rw [List.append_assoc]
  exact ofText?_text { m with negative := false }

/-- A number is read up to its end. -/
theorem number_text (r : Rules) (h : Delimits rest) : number r (m.text ++ rest) =
    if longestNumeral < m.whole.length && (m.isInteger || !r.longReals) then
      .error (.numeralTooLong m.whole.length)
    else if m.isInteger then .ok (.int m.int, rest)
    else .ok (.float m.decimal.toFloat, rest) := by
  have hwhole : m.whole.isEmpty = false := List.isEmpty_eq_false_iff.mpr m.whole_ne_nil
  rw [number_eq, m.spanMinus_text, m.spanWhole_bare h, m.isInteger_eq]
  unfold numberBehind
  simp only [hwhole, m.fractionPart_text h, m.powerPart_text h, m.ofText?_bare]
  rw [if_neg Bool.false_ne_true]
  split
  · rfl
  · split <;> rfl

/-! ### Written numbers -/

/-- The form of an integer. -/
def ofInt (n : Int) : Numeral where
  negative := decide (n < 0)
  whole := natText n.natAbs
  isDigit_whole _ := isDigit_of_mem_natText
  whole_ne_nil := natText_ne_nil _
  head?_whole h := by
    by_cases hn : n.natAbs = 0
    · rw [hn]
      rfl
    · exact absurd h (head?_natText hn)
  isDigit_part _ h := absurd h List.not_mem_nil
  isDigit_power := by rintro p ⟨⟩

/-- An integer is written in its form. -/
@[simp] theorem text_ofInt (n : Int) : (ofInt n).text = intText n := by
  have hbare : (ofInt n).bare = natText n.natAbs := List.append_nil _
  rw [text, hbare]
  cases n with
  | ofNat n => rfl
  | negSucc n =>
    have hneg : (ofInt (Int.negSucc n)).negative = true := decide_eq_true (Int.negSucc_lt_zero n)
    rw [signText, if_pos hneg]
    rfl

@[simp] theorem int_ofInt (n : Int) : (ofInt n).int = n := by
  simp only [int, ofInt, digitsValue_natText, decide_eq_true_eq]
  split <;> omega

@[simp] theorem isInteger_ofInt (n : Int) : (ofInt n).isInteger = true := rfl

/-- A form that writes the magnitude `digits · 10 ^ exponent` with a point or a power of ten, and
has few digits in front of the point. -/
structure Writes (m : Numeral) (negative : Bool) (digits : Nat) (exponent : Int) : Prop where
  sign : m.negative = negative
  isInteger : m.isInteger = false
  value : m.decimal.value = Decimal.value ⟨negative, digits, exponent⟩
  length_whole : m.whole.length ≤ 17

/-- Digits on either side of a point are a form, and not that of an integer. -/
theorem exists_digits (negative : Bool) {whole part : List Char} {digits : Nat} {exponent : Int}
    (hw : ∀ c ∈ whole, c.isDigit = true) (hne : whole ≠ [])
    (hhead : whole.head? = some '0' → whole = ['0']) (hp : ∀ c ∈ part, c.isDigit = true)
    (hpart : part ≠ []) (hlength : whole.length ≤ 17)
    (hvalue : Decimal.value ⟨negative, digitsValue (whole ++ part), -part.length⟩ =
      Decimal.value ⟨negative, digits, exponent⟩) :
    ∃ m : Numeral, m.Writes negative digits exponent ∧ m.bare = whole ++ '.' :: part := by
  have hempty : part.isEmpty = false := List.isEmpty_eq_false_iff.mpr hpart
  refine ⟨⟨negative, whole, part, none, hw, hne, hhead, hp, nofun⟩, ⟨rfl, ?_, ?_, hlength⟩, ?_⟩
  · simp [isInteger, hempty]
  · rw [← hvalue, decimal, powerValue, Int.zero_sub]
  · rw [bare, partText, if_neg hpart]
    exact congrArg (whole ++ ·) (List.append_nil _)

section Plain

variable (negative : Bool) {digits : Nat} {exponent : Int}

/-- All digits, and zeros behind them, in front of the point. -/
theorem exists_zerosBehind (hz : digits ≠ 0) (hexp : 0 ≤ exponent)
    (hlength : ((natText digits).length : Int) + exponent ≤ 17) :
    ∃ m : Numeral, m.Writes negative digits exponent ∧
      m.bare = natText digits ++ List.replicate exponent.toNat '0' ++ ['.', '0'] := by
  have hdigit : ∀ c ∈ natText digits, c.isDigit = true := fun c => isDigit_of_mem_natText
  have hne : natText digits ≠ [] := natText_ne_nil digits
  have hw : ∀ c ∈ natText digits ++ List.replicate exponent.toNat '0', c.isDigit = true := by
    intro c hc
    rcases List.mem_append.mp hc with hc | hc
    · exact hdigit c hc
    · exact isDigit_of_mem_zeros hc
  have hhead : (natText digits ++ List.replicate exponent.toNat '0').head? ≠ some '0' := by
    rw [List.head?_append_of_ne_nil _ hne]
    exact head?_natText hz
  refine exists_digits negative hw (by simp [hne]) (fun h => absurd h hhead) (by simp) (by simp)
    ?_ ?_
  · rw [List.length_append, List.length_replicate]
    omega
  · have hzeros : digitsValue (natText digits ++ List.replicate exponent.toNat '0' ++ ['0']) =
        digits * 10 ^ (exponent.toNat + 1) := by
      rw [List.append_assoc, ← List.replicate_succ', digitsValue_append_zeros hdigit,
        digitsValue_natText, Nat.pow_eq]
    rw [hzeros]
    unfold Decimal.value
    dsimp only [List.length_singleton]
    obtain ⟨k, rfl⟩ := Int.eq_ofNat_of_zero_le hexp
    rw [Int.toNat_natCast, zpow_natCast]
    push_cast
    rw [zpow_neg_one, pow_succ, mul_assoc, mul_assoc, mul_inv_cancel₀ (by norm_num), mul_one]

/-- Digits on either side of the point. -/
theorem exists_cut (hz : digits ≠ 0) {cut : Nat} (hpos : 0 < cut) (hcut : cut ≤ 17)
    (hlt : cut < (natText digits).length)
    (hexp : (cut : Int) = (natText digits).length + exponent) :
    ∃ m : Numeral, m.Writes negative digits exponent ∧
      m.bare = (natText digits).take cut ++ '.' :: (natText digits).drop cut := by
  have hdigit : ∀ c ∈ natText digits, c.isDigit = true := fun c => isDigit_of_mem_natText
  have hpart : (natText digits).drop cut ≠ [] := by
    rw [Ne, List.drop_eq_nil_iff]
    omega
  have hwhole : (natText digits).take cut ≠ [] := by
    rw [Ne, List.take_eq_nil_iff]
    rintro (h | h)
    · omega
    · exact natText_ne_nil digits h
  have hhead : ((natText digits).take cut).head? ≠ some '0' := by
    rw [List.head?_take, if_neg (by omega)]
    exact head?_natText hz
  refine exists_digits negative (fun c hc => hdigit c (List.mem_of_mem_take hc)) hwhole
    (fun h => absurd h hhead) (fun c hc => hdigit c (List.mem_of_mem_drop hc)) hpart ?_ ?_
  · rw [List.length_take]
    omega
  · rw [List.take_append_drop, digitsValue_natText, List.length_drop]
    congr 2
    omega

/-- All digits behind the point, and zeros in front of them. -/
theorem exists_zerosInFront {k : Nat} (hexp : -exponent = (k : Int) + (natText digits).length) :
    ∃ m : Numeral, m.Writes negative digits exponent ∧
      m.bare = '0' :: '.' :: List.replicate k '0' ++ natText digits := by
  have hdigit : ∀ c ∈ natText digits, c.isDigit = true := fun c => isDigit_of_mem_natText
  have hne : natText digits ≠ [] := natText_ne_nil digits
  have hp : ∀ c ∈ List.replicate k '0' ++ natText digits, c.isDigit = true := by
    intro c hc
    rcases List.mem_append.mp hc with hc | hc
    · exact isDigit_of_mem_zeros hc
    · exact hdigit c hc
  refine exists_digits negative (by simp) (by simp) (fun _ => rfl) hp (by simp [hne]) (by simp) ?_
  have hzeros : digitsValue (['0'] ++ (List.replicate k '0' ++ natText digits)) = digits := by
    rw [← List.append_assoc, List.singleton_append, ← List.replicate_succ,
      digitsValue_zeros_append hdigit, digitsValue_natText]
  show Decimal.value ⟨negative, digitsValue (['0'] ++ (List.replicate k '0' ++ natText digits)),
    -((List.replicate k '0' ++ natText digits).length : Int)⟩ = _
  rw [hzeros, List.length_append, List.length_replicate]
  congr 2
  omega

/-- The magnitude of a double without a power of ten has digits on either side of the point. -/
theorem exists_plain {l : Layout} (hl : l.plainTo ≤ 17) (hz : digits ≠ 0)
    (hplain : (l.plainFrom ≤ ((natText digits).length : Int) - 1 + exponent &&
      ((natText digits).length : Int) - 1 + exponent < l.plainTo) = true) :
    ∃ m : Numeral, m.Writes negative digits exponent ∧
      m.bare = l.magnitudeText digits exponent := by
  have hpos : 0 < (natText digits).length := List.length_pos_iff.mpr (natText_ne_nil digits)
  have hbounds := hplain
  rw [Bool.and_eq_true, decide_eq_true_eq, decide_eq_true_eq] at hbounds
  unfold Layout.magnitudeText
  dsimp only
  rw [if_neg hz, if_pos hplain]
  split
  · next hexp => exact exists_zerosBehind negative hz hexp (by omega)
  · split
    · rw [List.splitAt_eq]
      exact exists_cut negative hz (Nat.succ_pos _) (by omega) (by omega) (by omega)
    · exact exists_zerosInFront negative (by omega)

end Plain

/-- With a power of ten one digit stands in front of the point. -/
theorem exists_power (l : Layout) (negative : Bool) {digits : Nat} {exponent : Int}
    (hz : digits ≠ 0) (hplain : ¬ (l.plainFrom ≤ ((natText digits).length : Int) - 1 + exponent &&
      ((natText digits).length : Int) - 1 + exponent < l.plainTo) = true) :
    ∃ m : Numeral, m.Writes negative digits exponent ∧
      m.bare = l.magnitudeText digits exponent := by
  have hdigit : ∀ c ∈ natText digits, c.isDigit = true := fun c => isDigit_of_mem_natText
  have hne : natText digits ≠ [] := natText_ne_nil digits
  have hhead : (natText digits).head? ≠ some '0' := head?_natText hz
  have hvalue : digitsValue (natText digits) = digits := digitsValue_natText digits
  unfold Layout.magnitudeText
  dsimp only
  rw [if_neg hz, if_neg hplain]
  generalize hfirst : ((natText digits).length : Int) - 1 + exponent = first
  have hpower : ∀ p ∈ some (decide (first < 0), padLeft l.exponentDigits (natText first.natAbs)),
      p.2 ≠ [] ∧ ∀ c ∈ p.2, c.isDigit = true := by
    rintro p ⟨⟩
    refine ⟨by simp [padLeft, natText_ne_nil], fun c hc => ?_⟩
    rcases List.mem_append.mp hc with hc | hc
    · exact isDigit_of_mem_zeros hc
    · exact isDigit_of_mem_natText hc
  have hpad : digitsValue (padLeft l.exponentDigits (natText first.natAbs)) = first.natAbs := by
    rw [padLeft, digitsValue_zeros_append fun c => isDigit_of_mem_natText, digitsValue_natText]
  obtain ⟨d, ds, hds⟩ := List.exists_cons_of_ne_nil hne
  rw [hds] at hdigit hhead hvalue hfirst ⊢
  have hw : ∀ c ∈ [d], c.isDigit = true := fun c hc => hdigit c (by simp_all)
  have hp : ∀ c ∈ ds, c.isDigit = true := fun c hc => hdigit c (List.mem_cons_of_mem d hc)
  refine ⟨⟨negative, [d], ds, _, hw, by simp, fun h => absurd h hhead, hp, hpower⟩,
    ⟨rfl, Bool.and_false _, ?_, by simp⟩, ?_⟩
  · rw [List.length_cons] at hfirst
    unfold decimal powerValue
    dsimp only
    rw [hpad, List.singleton_append, hvalue]
    congr 2
    by_cases hsign : first < 0
    · simp only [hsign, decide_true, if_true]
      omega
    · simp only [hsign, decide_false, Bool.false_eq_true, if_false]
      omega
  · unfold bare partText powerText Layout.exponentText
    cases ds with
    | nil => by_cases hsign : first < 0 <;> simp [hsign]
    | cons e rest => by_cases hsign : first < 0 <;> simp [hsign]

/-- The magnitude of a double has a form with something behind its first digits. -/
theorem exists_bare_eq_magnitudeText {l : Layout} (hl : l.plainTo ≤ 17) (negative : Bool)
    (digits : Nat) (exponent : Int) : ∃ m : Numeral, m.Writes negative digits exponent ∧
      m.bare = l.magnitudeText digits exponent := by
  by_cases hz : digits = 0
  · rw [hz]
    refine @exists_digits negative ['0'] ['0'] 0 exponent (by simp) (by simp) (fun _ => rfl)
      (by simp) (by simp) (by simp) ?_
    have hzero : digitsValue ['0', '0'] = 0 := rfl
    rw [List.singleton_append, hzero, Decimal.value, Decimal.value, Nat.cast_zero, zero_mul,
      zero_mul]
  · by_cases hplain : (l.plainFrom ≤ ((natText digits).length : Int) - 1 + exponent &&
      ((natText digits).length : Int) - 1 + exponent < l.plainTo) = true
    · exact exists_plain negative hl hz hplain
    · exact exists_power l negative hz hplain

/-- Every finite double is saved in the form of a number that is no integer and is read back as that
double. -/
theorem exists_text_eq_record {x : Float} (h : isFinite x = true) :
    ∃ m : Numeral, m.isInteger = false ∧ m.whole.length ≤ 17 ∧ m.decimal.toFloat = x ∧
      m.text = (recordLayout.text x).toList := by
  obtain ⟨b, hb⟩ := Option.isSome_iff_exists.mp h
  obtain ⟨hcanonical, hparts⟩ := assemble_of_ofFloat? hb
  obtain ⟨m, hwrites, hbare⟩ :=
    @exists_bare_eq_magnitudeText recordLayout (by decide) b.negative (shortest b).1 (shortest b).2
  refine ⟨m, hwrites.isInteger, hwrites.length_whole, ?_, ?_⟩
  · rw [← hparts, ← toFloat_shortest hcanonical]
    exact Decimal.toFloat_congr hwrites.sign hwrites.value
  · unfold Layout.text
    rw [hb, text, signText, hwrites.sign, hbare]
    cases hsign : b.negative <;> simp [hsign]

end Numeral

end Kindred.Json
