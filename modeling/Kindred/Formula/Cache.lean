import Kindred.Formula.Program

/-!
# The cache of read expressions

Postfix forms are kept by their text, the most recently used ones in front. When the cache is full
the one that was not used for the longest time makes room. Texts that are no expressions are not
kept.

- `Cache`: the entries, each the postfix form of its text, and the counts of hits and misses.
- `Cache.find`: the postfix form of a text, from the cache or read anew.
- `Cache.evaluate`: evaluation by way of the cache.
- `Cache.evaluate_fst`: it gives what evaluation without a cache gives.
-/

namespace Kindred.Formula

open Kindred.Text

/-- A kept text with its postfix form. -/
structure Cached where
  text : String
  items : List Item
  /-- The form kept is the one that the text has. -/
  sound : postfix? text.toList = .ok items

/-- The kept expressions, the most recently used one first. -/
structure Cache where
  entries : List Cached := []
  hits : Nat := 0
  misses : Nat := 0

namespace Cache

/-- The greatest number of entries. -/
def capacity : Nat := 4096

/-- The entry for a text, if there is one, and the entries without it. -/
def extract (text : String) : List Cached → Option (Cached × List Cached)
  | [] => none
  | e :: es =>
    if e.text = text then some (e, es)
    else (extract text es).map fun (found, rest) => (found, e :: rest)

/-- What is extracted belongs to the text. -/
theorem text_of_extract {text : String} {es rest : List Cached} {e : Cached}
    (h : extract text es = some (e, rest)) : e.text = text := by
  induction es generalizing rest with
  | nil => simp [extract] at h
  | cons d ds ih =>
    unfold extract at h
    split at h
    · simp only [Option.some.injEq, Prod.mk.injEq] at h
      exact h.1 ▸ (by assumption)
    · rcases hx : extract text ds with _ | ⟨f, r⟩
      · simp [hx] at h
      · simp only [hx, Option.map_some, Option.some.injEq, Prod.mk.injEq] at h
        exact ih (h.1 ▸ hx)

/-- The postfix form of a text that is not kept yet; an expression is kept from now on. -/
def read (c : Cache) (text : String) : Except ReadError (List Item) × Cache :=
  let counted := { c with misses := c.misses + 1 }
  match h : postfix? text.toList with
  | .error why => (.error why, counted)
  | .ok items =>
    (.ok items, { counted with entries := (⟨text, items, h⟩ :: c.entries).take capacity })

/-- The postfix form of a text, from the cache if it is kept there. -/
def find (c : Cache) (text : String) : Except ReadError (List Item) × Cache :=
  match extract text c.entries with
  | some (e, rest) => (.ok e.items, { c with entries := e :: rest, hits := c.hits + 1 })
  | none => c.read text

/-- The cache gives the postfix form of the text. -/
theorem find_fst (c : Cache) (text : String) : (c.find text).1 = postfix? text.toList := by
  unfold find
  split
  · rename_i e rest h
    exact (text_of_extract h ▸ e.sound).symm
  · unfold read
    simp only
    split <;> simp_all

/-- The value of a text without names and dice, by way of the cache. Blank texts do not reach it. -/
def evaluate (c : Cache) (d : Dialect) (expr : String) : Except Shortfall Number × Cache :=
  if isBlankString expr then (.error (.formula .emptyExpression), c)
  else
    match c.find expr with
    | (.error why, c) => (.error (.formula (.unreadable expr why)), c)
    | (.ok items, c) => (evaluateItems d expr items, c)

/-- Evaluation by way of the cache gives what evaluation without it gives. -/
theorem evaluate_fst (c : Cache) (d : Dialect) (expr : String) :
    (c.evaluate d expr).1 = Formula.evaluate d expr := by
  unfold evaluate Formula.evaluate
  split
  · rfl
  · rw [← find_fst c expr]
    rcases c.find expr with ⟨_ | _, _⟩ <;> rfl

/-- The state of the cache in one line. -/
def summary (c : Cache) : String :=
  let count (n : Nat) : String := (Number.int n).text
  "expr-cache: hits=" ++ count c.hits ++ ", misses=" ++ count c.misses ++ ", size=" ++
    count c.entries.length ++ "/" ++ count capacity

end Cache

end Kindred.Formula
