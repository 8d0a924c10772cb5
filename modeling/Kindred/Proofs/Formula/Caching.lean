import Kindred.Formula.Cache

/-!
# Expressions one after another

Texts are evaluated by way of one cache, which is handed on from each call to the next. What it
holds depends on all the calls before; what a call gives does not. The texts in the cache are those
that were used last, and how many they are and how often the cache was asked is bounded by the
calls.

- `Cache.evaluateAll`: calls one after another, each in its own dialect.
- `Cache.Step`, `evaluate_step`: what one call may do to a cache.
- `Cache.recent`: the expressions among the texts of the calls, the one used last in front.
- `Cache.Accounts`: what holds of a cache after some calls.
- `evaluateAll_transparent`: each call gives what it gives with an empty cache.
-/

namespace Kindred.Formula.Cache

open Kindred.Text

/-- Evaluates texts one after another, each in a dialect. -/
def evaluateAll (c : Cache) : List (Dialect × String) → List (Except Shortfall Number) × Cache
  | [] => ([], c)
  | (d, text) :: calls =>
    let (first, c) := c.evaluate d text
    let (rest, c) := c.evaluateAll calls
    (first :: rest, c)

/-- The texts that are kept, the one used last in front. -/
def texts (c : Cache) : List String := c.entries.map Cached.text

/-- Whether a text is an expression: not blank, and with a postfix form. -/
def isExpression (text : String) : Bool :=
  !isBlankString text && (postfix? text.toList).isOk

/-- The texts after one more was used: an expression comes to the front. -/
def touch (used : List String) (text : String) : List String :=
  if isExpression text then text :: used.erase text else used

/-- The expressions among the texts of calls, without repetition, the one used last in front. -/
def recent (calls : List (Dialect × String)) : List String :=
  calls.foldl (fun used call => touch used call.2) []

/-! ### One call -/

/-- What a call with a text may do to a cache. -/
inductive Step (text : String) (c : Cache) : Cache → Prop where
  | blank (blank : isBlankString text = true) : Step text c c
  | hit {e : Cached} {rest : List Cached} (solid : isBlankString text = false)
      (kept : extract text c.entries = some (e, rest)) :
      Step text c { c with entries := e :: rest, hits := c.hits + 1 }
  | unreadable {why : ReadError} (solid : isBlankString text = false)
      (missing : extract text c.entries = none) (failed : postfix? text.toList = .error why) :
      Step text c { c with misses := c.misses + 1 }
  | miss {items : List Item} (solid : isBlankString text = false)
      (missing : extract text c.entries = none) (sound : postfix? text.toList = .ok items) :
      Step text c { c with
        entries := (⟨text, items, sound⟩ :: c.entries).take capacity, misses := c.misses + 1 }

theorem read_snd_of_error {c : Cache} {text : String} {why : ReadError}
    (h : postfix? text.toList = .error why) :
    (c.read text).2 = { c with misses := c.misses + 1 } := by
  unfold read
  dsimp only
  split
  · rfl
  · next items hitems => rw [h] at hitems; cases hitems

theorem read_snd_of_ok {c : Cache} {text : String} {items : List Item}
    (h : postfix? text.toList = .ok items) :
    (c.read text).2 = { c with
      entries := (⟨text, items, h⟩ :: c.entries).take capacity, misses := c.misses + 1 } := by
  unfold read
  dsimp only
  split
  · next why hwhy => rw [h] at hwhy; cases hwhy
  · next items' hitems =>
    obtain rfl : items = items' := Except.ok.inj (h.symm.trans hitems)
    rfl

theorem evaluate_snd_of_solid {c : Cache} {d : Dialect} {text : String}
    (h : isBlankString text = false) : (c.evaluate d text).2 = (c.find text).2 := by
  unfold evaluate
  rw [h]
  rcases c.find text with ⟨_ | _, _⟩ <;> rfl

theorem evaluate_step (c : Cache) (d : Dialect) (text : String) :
    Step text c (c.evaluate d text).2 := by
  cases hblank : isBlankString text with
  | true =>
    unfold evaluate
    rw [if_pos hblank]
    exact .blank hblank
  | false =>
    rw [evaluate_snd_of_solid hblank]
    unfold find
    cases hkept : extract text c.entries with
    | some found => exact .hit hblank hkept
    | none =>
      dsimp only
      cases hread : postfix? text.toList with
      | error why =>
        rw [read_snd_of_error hread]
        exact .unreadable hblank hkept hread
      | ok items =>
        rw [read_snd_of_ok hread]
        exact .miss hblank hkept hread

/-! ### The texts that are kept -/

/-- A text that is found is taken out of the texts. -/
theorem texts_of_extract_eq_some {text : String} {es rest : List Cached} {e : Cached}
    (h : extract text es = some (e, rest)) :
    text ∈ es.map Cached.text ∧ rest.map Cached.text = (es.map Cached.text).erase text := by
  induction es generalizing rest with
  | nil => cases h
  | cons first es ih =>
    rw [List.map_cons]
    unfold extract at h
    split at h
    · next heq =>
      cases h
      rw [heq, List.erase_cons_head]
      exact ⟨List.mem_cons_self, rfl⟩
    · next hne =>
      obtain ⟨⟨e', rest'⟩, hfound, heq⟩ := Option.map_eq_some_iff.mp h
      cases heq
      obtain ⟨hmem, hrest⟩ := ih hfound
      rw [List.erase_cons_tail (by simpa using hne), List.map_cons, hrest]
      exact ⟨List.mem_cons_of_mem _ hmem, rfl⟩

/-- A text that is not found is not among the texts. -/
theorem not_mem_of_extract_eq_none {text : String} {es : List Cached}
    (h : extract text es = none) : text ∉ es.map Cached.text := by
  induction es with
  | nil => exact List.not_mem_nil
  | cons first es ih =>
    unfold extract at h
    split at h
    · cases h
    · next hne =>
      rw [List.map_cons, List.mem_cons, not_or]
      exact ⟨fun heq => hne heq.symm, ih (Option.map_eq_none_iff.mp h)⟩

theorem isExpression_of_ok {text : String} {items : List Item} (hsolid : isBlankString text = false)
    (h : postfix? text.toList = .ok items) : isExpression text = true := by
  unfold isExpression
  rw [hsolid, h]
  rfl

/-- One more call: the text is used, and the last ones make room. -/
theorem Step.texts_eq {text : String} {c c' : Cache} (h : Step text c c')
    (hsize : c.entries.length ≤ capacity) : c'.texts = (touch c.texts text).take capacity := by
  have hlength : c.texts.length = c.entries.length := List.length_map Cached.text
  have hwhole : c.texts.take capacity = c.texts :=
    List.take_of_length_le (Nat.le_trans (Nat.le_of_eq hlength) hsize)
  unfold touch
  cases h with
  | blank blank =>
    rw [if_neg (by simp [isExpression, blank]), hwhole]
  | @hit e rest solid kept =>
    have htext : e.text = text := text_of_extract kept
    have hexpression : isExpression text = true :=
      htext ▸ isExpression_of_ok (htext ▸ solid) e.sound
    obtain ⟨hmem, hrest⟩ := texts_of_extract_eq_some kept
    -- the text only changes its place, so that nothing is cut off
    have hpositive : 0 < c.texts.length := List.length_pos_of_mem hmem
    have hsame : (text :: c.texts.erase text).length ≤ capacity := by
      rw [List.length_cons, List.length_erase_of_mem (show text ∈ c.texts from hmem)]
      omega
    rw [if_pos hexpression, List.take_of_length_le hsame]
    show e.text :: rest.map Cached.text = _
    rw [htext, hrest]
    rfl
  | unreadable solid missing failed =>
    rw [if_neg (by simp [isExpression, failed, Except.isOk, Except.toBool])]
    exact hwhole.symm
  | @miss items solid missing sound =>
    have hmissing : text ∉ c.texts := not_mem_of_extract_eq_none missing
    rw [if_pos (isExpression_of_ok solid sound), List.erase_of_not_mem hmissing]
    exact List.map_take

/-- Each call with a text that is not blank is counted once. -/
theorem Step.counted {text : String} {c c' : Cache} (h : Step text c c') :
    c'.hits + c'.misses = c.hits + c.misses + if !isBlankString text then 1 else 0 := by
  cases h with
  | blank blank => rw [blank]; rfl
  | hit solid kept => rw [solid]; exact Nat.add_right_comm _ _ _
  | unreadable solid missing failed => rw [solid]; exact (Nat.add_assoc _ _ _).symm
  | miss solid missing sound => rw [solid]; exact (Nat.add_assoc _ _ _).symm

/-- Nothing comes into a cache but by a miss. -/
theorem Step.size_le_misses {text : String} {c c' : Cache} (h : Step text c c')
    (hsize : c.entries.length ≤ c.misses) : c'.entries.length ≤ c'.misses := by
  cases h with
  | blank blank => exact hsize
  | @hit e rest solid kept =>
    obtain ⟨hmem, hrest⟩ := texts_of_extract_eq_some kept
    have hlength : rest.length = c.entries.length - 1 := by
      rw [← List.length_map Cached.text, hrest, List.length_erase_of_mem hmem, List.length_map]
    have hpositive : 0 < c.entries.length := by
      rw [← List.length_map Cached.text]
      exact List.length_pos_of_mem hmem
    show rest.length + 1 ≤ c.misses
    omega
  | unreadable solid missing failed => exact Nat.le_succ_of_le hsize
  | miss solid missing sound =>
    exact Nat.le_trans (List.length_take_le' _ _) (Nat.succ_le_succ hsize)

/-- What is cut off the end does not matter for the front. -/
theorem take_erase_take {α : Type} [BEq α] [LawfulBEq α] (a : α) (l : List α) (n : Nat) :
    ((l.take (n + 1)).erase a).take n = (l.erase a).take n := by
  induction l generalizing n with
  | nil => rfl
  | cons b l ih =>
    rw [List.take_succ_cons]
    by_cases heq : b = a
    · subst heq
      rw [List.erase_cons_head, List.erase_cons_head, List.take_take, Nat.min_self]
    · have hne : ¬ (b == a) = true := by simpa using heq
      rw [List.erase_cons_tail hne, List.erase_cons_tail hne]
      cases n with
      | zero => rfl
      | succ n => rw [List.take_succ_cons, List.take_succ_cons, ih n]

/-- The texts in a cache of the capacity are used like all texts. -/
theorem take_touch_take (used : List String) (text : String) :
    (touch (used.take capacity) text).take capacity = (touch used text).take capacity := by
  unfold touch
  split
  · show (text :: (used.take (4095 + 1)).erase text).take (4095 + 1) = _
    rw [List.take_succ_cons, take_erase_take]
    rfl
  · rw [List.take_take, Nat.min_self]

/-! ### After some calls -/

/-- What holds of a cache that was empty before some calls. -/
structure Accounts (calls : List (Dialect × String)) (c : Cache) : Prop where
  /-- Each call with a text that is not blank was a hit or a miss. -/
  counted : c.hits + c.misses = calls.countP (fun call => !isBlankString call.2)
  /-- What is kept is what was used last. -/
  texts_eq : c.texts = (recent calls).take capacity
  size_le_capacity : c.entries.length ≤ capacity
  size_le_misses : c.entries.length ≤ c.misses
  /-- What is no expression is not kept. -/
  expressions : ∀ text ∈ c.texts, isExpression text = true

namespace Accounts

theorem empty : Accounts [] {} where
  counted := rfl
  texts_eq := rfl
  size_le_capacity := Nat.zero_le _
  size_le_misses := Nat.zero_le _
  expressions := List.forall_mem_nil _

/-- What is used is kept only if it is an expression. -/
theorem isExpression_of_mem_touch {used : List String} {text : String}
    (h : ∀ text ∈ used, isExpression text = true) :
    ∀ t ∈ touch used text, isExpression t = true := by
  unfold touch
  split
  · next hexpression =>
    exact List.forall_mem_cons.mpr ⟨hexpression, fun t ht => h t (List.mem_of_mem_erase ht)⟩
  · exact h

/-- One more call keeps the accounts. -/
theorem evaluate {calls : List (Dialect × String)} {c : Cache} (h : Accounts calls c) (d : Dialect)
    (text : String) : Accounts (calls ++ [(d, text)]) (c.evaluate d text).2 := by
  have hstep := evaluate_step c d text
  have htexts := hstep.texts_eq h.size_le_capacity
  have hlength : (c.evaluate d text).2.entries.length = (c.evaluate d text).2.texts.length :=
    (List.length_map Cached.text).symm
  constructor
  case counted =>
    rw [hstep.counted, h.counted, List.countP_append, List.countP_singleton]
  case texts_eq =>
    have hrecent : recent (calls ++ [(d, text)]) = touch (recent calls) text := List.foldl_append
    rw [htexts, h.texts_eq, take_touch_take, hrecent]
  case size_le_capacity =>
    rw [hlength, htexts]
    exact List.length_take_le _ _
  case size_le_misses => exact hstep.size_le_misses h.size_le_misses
  case expressions =>
    rw [htexts]
    exact fun t ht => isExpression_of_mem_touch h.expressions t (List.mem_of_mem_take ht)

/-- So do more calls. -/
theorem evaluateAll {past : List (Dialect × String)} {c : Cache} (h : Accounts past c)
    (calls : List (Dialect × String)) : Accounts (past ++ calls) (c.evaluateAll calls).2 := by
  induction calls generalizing past c with
  | nil => rwa [List.append_nil]
  | cons call calls ih =>
    have hnext := ih (h.evaluate call.1 call.2)
    rwa [List.append_assoc] at hnext

end Accounts

/-- Each call gives what it gives without a cache. -/
theorem evaluateAll_fst (c : Cache) (calls : List (Dialect × String)) :
    (c.evaluateAll calls).1 = calls.map fun call => Formula.evaluate call.1 call.2 := by
  induction calls generalizing c with
  | nil => rfl
  | cons call calls ih =>
    show (c.evaluate call.1 call.2).1 :: ((c.evaluate call.1 call.2).2.evaluateAll calls).1 = _
    rw [evaluate_fst, ih, List.map_cons]

/-- A cache is not noticed: of calls one after another, in any dialects, each one gives what it
gives with an empty cache. After each of them all calls with a text are counted, the cache holds the
expressions that were used last and nothing else, no more than its capacity and no more than there
were misses. -/
theorem evaluateAll_transparent (calls : List (Dialect × String)) :
    (evaluateAll {} calls).1 = calls.map (fun call => (evaluate {} call.1 call.2).1) ∧
      ∀ n, Accounts (calls.take n) (evaluateAll {} (calls.take n)).2 := by
  refine ⟨?_, fun n => Accounts.empty.evaluateAll (calls.take n)⟩
  rw [evaluateAll_fst]
  exact List.map_congr_left fun call _ => (evaluate_fst {} call.1 call.2).symm

end Kindred.Formula.Cache
