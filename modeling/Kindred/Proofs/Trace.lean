import Kindred.Trace

/-!
# The newest lines

A trace with a limit drops lines after each one that is added, so what it holds is known only from
all the calls before. It holds the last of all lines added, as many as the limit allows: what was
dropped before would have been dropped by now.

- `Trace.Entry`, `Trace.recordAll`: lines added one after another, with a tag or without.
- `keep_isSuffix`, `length_keep`: what is kept of some lines.
- `keep_keep_append`: lines that were dropped before more were added are dropped afterwards, too.
- `record_kept`, `recordAll_kept`: a trace that keeps the newest lines, after one more and after
  several.
- `newest_recordAll`: what a new trace holds after any lines.
-/

namespace Kindred.Trace

/-- What is added to a trace. -/
inductive Entry where
  | line (text : String)
  | tagged (tag message : String)
deriving DecidableEq, Repr

/-- The line that is added. -/
def Entry.text : Entry → String
  | line text => text
  | tagged tag message => "[" ++ tag ++ "] " ++ message

/-- Adds a line, with a tag or without. -/
def record (t : Trace) : Entry → Trace
  | .line text => t.add text
  | .tagged tag message => t.note tag message

/-- Adds lines one after another. -/
def recordAll (t : Trace) (es : List Entry) : Trace := es.foldl record t

variable {limit : Option Int}

/-! ### What is kept of some lines -/

/-- The oldest lines are dropped, and none between others. -/
theorem keep_isSuffix (limit : Option Int) (lines : List String) : keep limit lines <:+ lines := by
  cases limit with
  | none => exact List.suffix_refl lines
  | some most => exact List.drop_suffix _ lines

/-- As many lines are kept as the limit allows. -/
theorem length_keep (most : Int) (lines : List String) :
    ((keep (some most) lines).length : Int) = min (lines.length : Int) (max 0 most) := by
  unfold keep
  rw [List.length_drop]
  omega

/-- Dropping lines before others are added changes nothing in what is kept in the end. -/
theorem keep_keep_append (limit : Option Int) (lines more : List String) :
    keep limit (keep limit lines ++ more) = keep limit (lines ++ more) := by
  cases limit with
  | none => rfl
  | some most =>
    -- both are ends of all the lines, and equally long
    have hlines : keep (some most) lines ++ more <:+ lines ++ more := by
      obtain ⟨dropped, hsplit⟩ := keep_isSuffix (some most) lines
      exact ⟨dropped, by rw [← List.append_assoc, hsplit]⟩
    have htwice : keep (some most) (keep (some most) lines ++ more) <:+ lines ++ more :=
      (keep_isSuffix _ _).trans hlines
    have hlength : (keep (some most) (keep (some most) lines ++ more)).length =
        (keep (some most) (lines ++ more)).length := by
      have hkept := length_keep most lines
      have hleft := length_keep most (keep (some most) lines ++ more)
      have hright := length_keep most (lines ++ more)
      rw [List.length_append] at hleft hright
      omega
    have hend := List.suffix_of_suffix_length_le htwice (keep_isSuffix (some most) (lines ++ more))
      (Nat.le_of_eq hlength)
    exact hend.eq_of_length hlength

/-! ### Lines one after another -/

/-- One more line, where the newest of some lines are kept. -/
theorem record_kept (lines : List String) (e : Entry) :
    record { limit := limit, lines := keep limit lines } e =
      { limit := limit, lines := keep limit (lines ++ [e.text]) } := by
  have hadd : ∀ text, add { limit := limit, lines := keep limit lines } text =
      { limit := limit, lines := keep limit (lines ++ [text]) } := by
    intro text
    unfold add
    rw [keep_keep_append]
  cases e with
  | line text => exact hadd text
  | tagged tag message => exact hadd (tagged tag message)

/-- Several more lines. -/
theorem recordAll_kept (lines : List String) (es : List Entry) :
    recordAll { limit := limit, lines := keep limit lines } es =
      { limit := limit, lines := keep limit (lines ++ es.map Entry.text) } := by
  induction es generalizing lines with
  | nil => rw [List.map_nil, List.append_nil]; rfl
  | cons e es ih =>
    show recordAll (record _ e) es = _
    rw [record_kept, ih, List.append_assoc, List.map_cons]
    rfl

/-- What a new trace holds after any lines: without a limit all of them, and with one the newest,
none if the limit is zero or below. -/
theorem newest_recordAll (es : List Entry) :
    (recordAll { limit := none } es).lines = es.map Entry.text ∧
      ∀ most : Int, (recordAll { limit := some most } es).lines <:+ es.map Entry.text ∧
        ((recordAll { limit := some most } es).lines.length : Int) =
          min (es.length : Int) (max 0 most) := by
  have hstart : ∀ limit,
      ({ limit := limit } : Trace) = { limit := limit, lines := keep limit [] } := by
    intro limit
    rw [List.eq_nil_of_suffix_nil (keep_isSuffix limit [])]
  have hlines : ∀ limit,
      (recordAll { limit := limit } es).lines = keep limit (es.map Entry.text) := by
    intro limit
    rw [hstart, recordAll_kept, List.nil_append]
  refine ⟨hlines none, fun most => ⟨?_, ?_⟩⟩
  · rw [hlines]
    exact keep_isSuffix _ _
  · rw [hlines, length_keep, List.length_map]

example : (recordAll { limit := some 2 } [.line "a", .tagged "T" "b", .line "c"]).lines =
    ["[T] b", "c"] := by decide

end Kindred.Trace
