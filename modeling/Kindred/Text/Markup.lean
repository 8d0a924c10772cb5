import Kindred.Text.Blank

/-!
# Markup

Texts may hold tags in brackets, which tell how the text between an opening and a closing tag looks.
A tag starts with a small letter or one of three signs; behind a backslash it is a plain text.

- `Piece`, `piecesOf`: what a text is made of.
- `MarkupFlaw`: a closing tag without anything to close.
- `withoutTags`: the text that is left without the tags.
-/

namespace Kindred.Text

/-- What a text with markup is made of. -/
inductive Piece where
  | text (s : List Char)
  /-- A tag, with the number of characters in front of it. -/
  | tag (place : Nat) (content : List Char)
deriving DecidableEq, Repr

/-- Whether a tag may start with a character. -/
def startsTag (c : Char) : Bool := ('a' ≤ c && c ≤ 'z') || c == '#' || c == '/' || c == '@'

/-- The content of the tag whose bracket comes right before a text, and the text behind the tag. -/
def tagBehind? : List Char → Option (List Char × List Char)
  | [] => none
  | c :: s =>
    match s.span fun c => c != '[' && c != ']' with
    | (content, ']' :: rest) => if startsTag c then some (c :: content, rest) else none
    | _ => none

/-- A text without the backslashes in front of brackets. -/
def withoutEscapes : List Char → List Char
  | '\\' :: '[' :: s => '[' :: withoutEscapes s
  | c :: s => c :: withoutEscapes s
  | [] => []

/-- The piece that some characters before a tag are, the last one first. -/
def plainPiece (before : List Char) : List Piece :=
  if before.isEmpty then [] else [.text (withoutEscapes before.reverse)]

/-- What the tag is behind some backslashes: two of them stand for one, and a single one makes it a
plain text. -/
def escapedTag (place backslashes : Nat) (content : List Char) : List Piece :=
  (if backslashes < 2 then [] else [.text (List.replicate (backslashes / 2) '\\')]) ++
    (if backslashes % 2 = 1 then [.text ('[' :: content ++ [']'])]
    else [.tag (place + backslashes) content])

/-- The pieces of a text at a place, behind some characters that are not yet in a piece. Every step
takes a character at least, so `fuel` need not exceed the length of the text. -/
def piecesFrom (place : Nat) (before : List Char) : Nat → List Char → List Piece
  | 0, _ => plainPiece before
  | _, [] => plainPiece before
  | fuel + 1, c :: s =>
    let (backslashes, rest) := (c :: s).span (· == '\\')
    let behind := match rest with
      | '[' :: rest => tagBehind? rest
      | _ => none
    match behind with
    | some (content, rest) =>
      plainPiece before ++ escapedTag place backslashes.length content ++
        piecesFrom (place + backslashes.length + content.length + 2) [] fuel rest
    | none =>
      if backslashes.isEmpty then piecesFrom (place + 1) (c :: before) fuel s
      else piecesFrom (place + backslashes.length) (backslashes ++ before) fuel rest

/-- The pieces of a text. -/
def piecesOf (s : List Char) : List Piece := piecesFrom 0 [] s.length s

/-! ### Tags -/

/-- The looks that have a short name too. -/
def shortNames : List (String × String) :=
  [("b", "bold"), ("d", "dim"), ("i", "italic"), ("u", "underline"), ("uu", "underline2"),
   ("r", "reverse"), ("c", "conceal"), ("s", "strike"), ("o", "overline")]

/-- The name of a look as tags are compared by it. -/
def lookName (s : List Char) : String :=
  let name := String.ofList ((trim s).map Char.toLower)
  (shortNames.lookup name).getD name

/-- A closing tag without anything to close. -/
inductive MarkupFlaw where
  /-- No tag of that name is open. -/
  | unmatched (content : String) (place : Nat)
  /-- No tag is open at all. -/
  | nothingOpen (place : Nat)
deriving DecidableEq, Repr

/-- The name of a tag, in front of an equals sign. -/
def tagName (content : List Char) : List Char := content.takeWhile (· != '=')

/-- The tags that are open behind a tag, the innermost one first. -/
def openBehind (opened : List String) (place : Nat) (content : List Char) :
    Except MarkupFlaw (List String) :=
  match tagName content with
  | '/' :: name =>
    if isBlankText name then
      match opened with
      | _ :: outer => .ok outer
      | [] => .error (.nothingOpen place)
    else if opened.contains (lookName name) then .ok (opened.erase (lookName name))
    else .error (.unmatched (String.ofList content) place)
  | name => .ok (lookName name :: opened)

/-- The texts of pieces, if every closing tag has one to close. -/
def textOfPieces (opened : List String) : List Piece → Except MarkupFlaw (List Char)
  | [] => .ok []
  | .text s :: more => (s ++ ·) <$> textOfPieces opened more
  | .tag place content :: more => do textOfPieces (← openBehind opened place content) more

/-- The text that is left of a text without its tags. -/
def withoutTags (s : List Char) : Except MarkupFlaw (List Char) := textOfPieces [] (piecesOf s)

end Kindred.Text
