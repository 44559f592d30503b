/-!
# Lines of a TOML document

A document is a text of lines.  A line may end in a comment.  A line break is a line feed, before
which a carriage return may stand; other controls, the tab excepted, may stand nowhere.
-/

namespace BridgeMint

namespace Toml

/-- Writes every line break as a single line feed.  A carriage return that stands elsewhere stays,
and no part of a document takes it. -/
def unifyBreaks : List Char → List Char
  | '\r' :: '\n' :: rest => '\n' :: unifyBreaks rest
  | c :: rest => c :: unifyBreaks rest
  | [] => []

def isBlank (c : Char) : Bool :=
  c == ' ' || c == '\t'

/-- What follows the blanks at the front of a text. -/
def skipBlanks (cs : List Char) : List Char :=
  cs.dropWhile isBlank

/-- The characters that may stand in comments and texts. -/
def isTextChar (c : Char) : Bool :=
  c == '\t' || (' ' ≤ c && c != '\x7f')

/-- What follows the comment at the front of a text, if there is one. -/
def skipComment : List Char → List Char
  | '#' :: rest => rest.dropWhile isTextChar
  | cs => cs

/-- What follows the line at the front of a text, if nothing but blanks and a comment is left on
it. -/
def endLine? (cs : List Char) : Option (List Char) :=
  match skipComment (skipBlanks cs) with
  | [] => some []
  | '\n' :: rest => some rest
  | _ => none

/-- What follows the blanks, comments and line breaks at the front of a text; `fuel` bounds the
number of lines. -/
def skipLines : (fuel : Nat) → List Char → List Char
  | 0, cs => cs
  | fuel + 1, cs =>
    match skipComment (skipBlanks cs) with
    | '\n' :: rest => skipLines fuel rest
    | rest => rest

end Toml

end BridgeMint
