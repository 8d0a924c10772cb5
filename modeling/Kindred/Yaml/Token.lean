import Kindred.Yaml.Block
import Kindred.Yaml.Plain
import Kindred.Yaml.Property
import Kindred.Yaml.Quoted

/-!
# Tokens

YAML text as a row of tokens. Indentation shows as tokens that open and close lists and maps. What
stands in front of a colon is found to be a key only at the colon, so every token that may start a
key is remembered until then.

- `Token`: a token.
- `Scan`: how far a text has been read.
- `Scan.step`: reads one token.
- `Token.ofText`: the tokens of a text, up to its end or to a flaw.
-/

namespace Kindred.Yaml

/-- A token. -/
inductive Token where
  | directive (d : Directive)
  | documentStart
  | documentEnd
  | streamEnd
  /-- A list or a map starts by indentation, or ends. -/
  | listStart
  | mapStart
  | blockEnd
  /-- A bracket. -/
  | openList
  | closeList
  | openMap
  | closeMap
  /-- A key comes. -/
  | key
  /-- The value of a key comes. -/
  | value
  /-- An element of a list comes. -/
  | entry
  | comma
  | alias (name : String)
  | anchor (name : String)
  | tag (t : TagText)
  | scalar (text : String) (isPlain : Bool)
  /-- The text cannot be read further. -/
  | flaw (why : Flaw)
deriving DecidableEq, Repr

/-- A place where a key may have started. -/
structure PossibleKey where
  /-- The number of brackets around it. -/
  depth : Nat
  /-- The number of tokens in front. -/
  token : Nat
  /-- Whether a colon has to follow. -/
  required : Bool
  index : Nat
  line : Nat
  column : Nat
deriving DecidableEq, Repr

/-- A token that turned out to be the first one of a key. -/
structure FoundKey where
  /-- The number of tokens in front. -/
  token : Nat
  /-- Whether a map starts with the key. -/
  opens : Bool
deriving DecidableEq, Repr

/-- How far a text has been read. -/
structure Scan where
  cursor : Cursor
  /-- The tokens without those of found keys, the last one first. -/
  recent : List Token := []
  /-- How many these are. -/
  count : Nat := 0
  found : List FoundKey := []
  /-- The column of the innermost list or map that is told by indentation. -/
  indent : Int := -1
  /-- The columns of those around it. -/
  outer : List Int := []
  /-- The number of open brackets. -/
  depth : Nat := 0
  /-- Whether a key may start here. -/
  keyAllowed : Bool := true
  keys : List PossibleKey := []
deriving Repr

namespace Scan

/-- The greatest number of characters in a key without a mark of its own. -/
def longestKey : Nat := 1024

/-- Whether brackets are open. -/
def between (s : Scan) : Bool := s.depth != 0

/-- One token more. -/
def push (s : Scan) (t : Token) : Scan :=
  { s with recent := t :: s.recent, count := s.count + 1 }

/-- Moves the cursor. -/
def moveTo (s : Scan) (c : Cursor) : Scan := { s with cursor := c }

/-- One token more, of one character. -/
def pushMark (s : Scan) (t : Token) : Scan := (s.push t).moveTo s.cursor.next

/-- How many lists and maps end in front of a column, with the innermost column then and those
around it. -/
def unwound (column : Int) (indent : Int) : List Int → Nat × Int × List Int
  | [] => (0, indent, [])
  | outer :: rest =>
    if indent ≤ column then (0, indent, outer :: rest)
    else
      let (n, left) := unwound column outer rest
      (n + 1, left)

/-- Ends the lists and maps that are indented further than a column. Between brackets indentation
does not count. -/
def unwind (s : Scan) (column : Int) : Scan :=
  if s.between then s
  else
    let (n, indent, outer) := unwound column s.indent s.outer
    { s with indent := indent, outer := outer, recent := List.replicate n .blockEnd ++ s.recent,
             count := s.count + n }

/-- Enters a column that is indented further, and tells whether it is. -/
def indentTo (s : Scan) (column : Nat) : Bool × Scan :=
  if s.indent < column then (true, { s with indent := column, outer := s.indent :: s.outer })
  else (false, s)

/-- Opens a list or map at the cursor if it is indented further. -/
def openAt (s : Scan) (t : Token) : Scan :=
  match s.indentTo s.cursor.column with
  | (true, s) => s.push t
  | (false, s) => s

/-! ### Possible keys -/

/-- Forgets the possible keys of a kind. None that is required may be forgotten. -/
def forget (s : Scan) (p : PossibleKey → Bool) : Except Flaw Scan :=
  if s.keys.any fun k => p k && k.required then .error .malformed
  else .ok { s with keys := s.keys.filter (!p ·) }

/-- Forgets the possible keys that lie too far back: on another line, or too many characters. -/
def forgetStale (s : Scan) : Except Flaw Scan :=
  s.forget fun k => k.line != s.cursor.line || longestKey < s.cursor.index - k.index

/-- Forgets the possible key between the innermost brackets. -/
def forgetHere (s : Scan) : Except Flaw Scan := s.forget (·.depth == s.depth)

/-- Remembers that a key may start at the cursor. -/
def remember (s : Scan) : Except Flaw Scan := do
  if !s.keyAllowed then return s
  let s ← s.forgetHere
  let c := s.cursor
  let required := !s.between && s.indent == c.column
  return { s with keys := ⟨s.depth, s.count, required, c.index, c.line, c.column⟩ :: s.keys }

/-! ### Reading tokens -/

/-- Moves to the next character that is neither space nor in a comment. A new line may start with a
key. -/
def toToken (fuel : Nat) (s : Scan) : Scan :=
  match fuel with
  | 0 => s
  | fuel + 1 =>
    let c := s.cursor.skipSpaces.skipComment
    match c.lineBreak with
    | ([], _) => s.moveTo c
    | (_, c) => toToken fuel { s with cursor := c, keyAllowed := s.keyAllowed || !s.between }

/-- A token that a key cannot start with, and behind which none can start. -/
def pushSeparate (s : Scan) (t : Token) (c : Cursor) : Except Flaw Scan := do
  let s ← (s.unwind (-1)).forgetHere
  return ({ s with keyAllowed := false }.push t).moveTo c

/-- A bracket that opens. -/
def openBracket (s : Scan) (t : Token) : Except Flaw Scan := do
  let s ← s.remember
  return { s with depth := s.depth + 1, keyAllowed := true }.pushMark t

/-- A bracket that closes. -/
def closeBracket (s : Scan) (t : Token) : Except Flaw Scan := do
  let s ← s.forgetHere
  return { s with depth := s.depth - 1, keyAllowed := false }.pushMark t

/-- A comma. -/
def comma (s : Scan) : Except Flaw Scan := do
  let s ← s.forgetHere
  return { s with keyAllowed := true }.pushMark .comma

/-- A dash in front of an element of a list. -/
def dash (s : Scan) : Except Flaw Scan := do
  if !s.between && !s.keyAllowed then throw .malformed
  let s := if s.between then s else s.openAt .listStart
  let s ← s.forgetHere
  return { s with keyAllowed := true }.pushMark .entry

/-- A question mark in front of a key. -/
def question (s : Scan) : Except Flaw Scan := do
  if !s.between && !s.keyAllowed then throw .malformed
  let s := if s.between then s else s.openAt .mapStart
  let s ← s.forgetHere
  return { s with keyAllowed := !s.between }.pushMark .key

/-- A colon behind a key. -/
def colon (s : Scan) : Except Flaw Scan := do
  match s.keys.find? (·.depth == s.depth) with
  | some k =>
    let (opens, s) := if s.between then (false, s) else s.indentTo k.column
    return { s with keys := s.keys.filter (·.depth != s.depth),
                    found := ⟨k.token, opens⟩ :: s.found, keyAllowed := false }.pushMark .value
  | none =>
    if !s.between && !s.keyAllowed then throw .malformed
    let s := if s.between then s else s.openAt .mapStart
    let s ← s.forgetHere
    return { s with keyAllowed := !s.between }.pushMark .value

/-- A token that a key may start with, given by what is read at the cursor. -/
def pushKeyPart (s : Scan) (read : Cursor → Except Flaw (α × Cursor)) (token : α → Token) :
    Except Flaw Scan := do
  let s ← s.remember
  let (a, c) ← read s.cursor
  return ({ s with keyAllowed := false }.push (token a)).moveTo c

/-- A block scalar. -/
def pushBlock (s : Scan) (isFolded : Bool) : Except Flaw Scan := do
  let s ← { s with keyAllowed := true }.forgetHere
  let (text, c) ← blockScalar isFolded s.indent s.cursor.next
  return (s.push (.scalar (String.ofList text) false)).moveTo c

/-- A plain scalar. Behind its line a key may start. -/
def pushPlain (s : Scan) : Except Flaw Scan := do
  let s ← s.remember
  let found := plainScalar (s.cursor.rest.length + 1) s.between (s.indent + 1) s.cursor
  return ({ s with keyAllowed := found.crossed }.push
    (.scalar (String.ofList found.text) true)).moveTo found.after

/-- Reads the token at the cursor, which starts with a character. -/
def token (s : Scan) (ch : Char) (rest : List Char) : Except Flaw Scan := do
  let c := s.cursor
  if ch == '%' && c.column == 0 then
    let s ← (s.unwind (-1)).forgetHere
    let (d, c) ← directive c.next
    return ({ s with keyAllowed := false }.push (.directive d)).moveTo c
  else if c.atRow '-' then s.pushSeparate .documentStart (c.skip 3)
  else if c.atRow '.' then s.pushSeparate .documentEnd (c.skip 3)
  else if ch == '[' then s.openBracket .openList
  else if ch == '{' then s.openBracket .openMap
  else if ch == ']' then s.closeBracket .closeList
  else if ch == '}' then s.closeBracket .closeMap
  else if ch == ',' then s.comma
  else if ch == '-' && atGap rest then s.dash
  else if ch == '?' && (s.between || atGap rest) then s.question
  else if ch == ':' && (s.between || atGap rest) then s.colon
  else if ch == '*' then s.pushKeyPart (fun c => name c.next) .alias
  else if ch == '&' then s.pushKeyPart (fun c => name c.next) .anchor
  else if ch == '!' then s.pushKeyPart tagText .tag
  else if ch == '|' && !s.between then s.pushBlock false
  else if ch == '>' && !s.between then s.pushBlock true
  else if ch == '\'' || ch == '"' then
    s.pushKeyPart quotedScalar fun text => .scalar (String.ofList text) false
  else if startsPlain s.between (ch :: rest) then s.pushPlain
  else throw .malformed

/-- Reads one token, and the ends of lists and maps in front of it. -/
def step (s : Scan) : Except Flaw Scan := do
  let s ← (toToken (s.cursor.rest.length + 1) s).forgetStale
  let s := s.unwind s.cursor.column
  match s.cursor.rest with
  | [] => return (← (s.unwind (-1)).forgetHere).push .streamEnd
  | ch :: rest => s.token ch rest

/-- The tokens with those of the found keys in front of their places. -/
def withKeys : Nat → List FoundKey → List Token → List Token
  | _, _, [] => []
  | _, [], ts => ts
  | i, k :: ks, t :: ts =>
    if k.token == i then
      (if k.opens then [.mapStart] else []) ++ .key :: t :: withKeys (i + 1) ks ts
    else t :: withKeys (i + 1) (k :: ks) ts

/-- All tokens read so far. -/
def tokens (s : Scan) : List Token :=
  withKeys 0 (s.found.mergeSort fun a b => a.token ≤ b.token) s.recent.reverse

/-- Reads tokens up to the end of the text or to a flaw. -/
def run (fuel : Nat) (s : Scan) : List Token :=
  match fuel with
  | 0 => s.tokens
  | fuel + 1 =>
    match s.step with
    | .error why => (s.push (.flaw why)).tokens
    | .ok s => if s.recent.head? == some .streamEnd then s.tokens else run fuel s

end Scan

/-- The tokens of a text. A mark in front of it is left out. -/
def Token.ofText (text : List Char) : List Token :=
  let start := Cursor.ofText text
  let c := if text.head?.any isMark then start.next else start
  ({ cursor := c } : Scan).run (text.length + 1)

end Kindred.Yaml
