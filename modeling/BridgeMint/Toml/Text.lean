import BridgeMint.Toml.Line

/-!
# Reading texts in TOML

A text stands between double quotes, where a backslash gives other characters a meaning, or between
single quotes, where every character stands for itself.  Between three quotes of either kind a text
may run over several lines; a line break right after the opening quotes is not part of it, and one or
two quotes may stand anywhere in it, also right before the closing ones.
-/

namespace BridgeMint

namespace Toml

/-! ## Characters given by name or number -/

/-- The character that a letter after a backslash stands for. -/
def letterValue? (c : Char) : Option Char :=
  if c = '"' then some '"'
  else if c = '\\' then some '\\'
  else if c = 'b' then some '\x08'
  else if c = 't' then some '\t'
  else if c = 'n' then some '\n'
  else if c = 'f' then some '\x0c'
  else if c = 'r' then some '\r'
  else none

/-- The value of a hexadecimal digit of either case. -/
def hexValue? (c : Char) : Option Nat :=
  if '0' ≤ c ∧ c ≤ '9' then some (c.toNat - 48)
  else if 'a' ≤ c ∧ c ≤ 'f' then some (c.toNat - 87)
  else if 'A' ≤ c ∧ c ≤ 'F' then some (c.toNat - 55)
  else none

def hexNumber? (digits : List Char) : Option Nat :=
  digits.foldlM (fun n c => (hexValue? c).map (16 * n + ·)) 0

/-- The character whose number is spelled by hexadecimal digits. -/
def numberedChar? (digits : List Char) : Option Char :=
  match hexNumber? digits with
  | none => none
  | some n => if n.isValidChar then some (Char.ofNat n) else none

/-- Puts a character, if there is one, before what was read after it. -/
def push (c? : Option Char) (tail : Option (List Char × List Char)) :
    Option (List Char × List Char) :=
  match c?, tail with
  | some c, some (s, rest) => some (c :: s, rest)
  | _, _ => none

/-! ## Texts on one line -/

/-- Reads the rest of a text after its opening double quote: the characters, and what follows the
closing quote. -/
def readBasic : List Char → Option (List Char × List Char)
  | [] => none
  | '"' :: rest => some ([], rest)
  | '\\' :: 'u' :: a :: b :: c :: d :: rest => push (numberedChar? [a, b, c, d]) (readBasic rest)
  | '\\' :: 'U' :: a :: b :: c :: d :: e :: f :: g :: h :: rest =>
    push (numberedChar? [a, b, c, d, e, f, g, h]) (readBasic rest)
  | '\\' :: letter :: rest => push (letterValue? letter) (readBasic rest)
  | c :: rest => if isTextChar c ∧ c ≠ '\\' then push (some c) (readBasic rest) else none

/-- Reads the rest of a text after its opening single quote. -/
def readLiteral : List Char → Option (List Char × List Char)
  | [] => none
  | '\'' :: rest => some ([], rest)
  | c :: rest => if isTextChar c then push (some c) (readLiteral rest) else none

/-! ## Texts over several lines -/

/-- Whether nothing but blanks stands before the next line break. -/
def breaksLine (cs : List Char) : Bool :=
  match skipBlanks cs with
  | '\n' :: _ => true
  | _ => false

/-- Reads the rest of a text of several lines between double quotes.  A backslash at the end of a
line takes away the line break and all blanks and line breaks after it; while `trim` is set, they are
being taken away. -/
def readBasicLines : (trim : Bool) → List Char → Option (List Char × List Char)
  | _, [] => none
  | trim, '\n' :: rest =>
    if trim then readBasicLines true rest else push (some '\n') (readBasicLines false rest)
  | trim, ' ' :: rest =>
    if trim then readBasicLines true rest else push (some ' ') (readBasicLines false rest)
  | trim, '\t' :: rest =>
    if trim then readBasicLines true rest else push (some '\t') (readBasicLines false rest)
  | _, '"' :: '"' :: '"' :: '"' :: '"' :: rest => some (['"', '"'], rest)
  | _, '"' :: '"' :: '"' :: '"' :: rest => some (['"'], rest)
  | _, '"' :: '"' :: '"' :: rest => some ([], rest)
  | _, '\\' :: 'u' :: a :: b :: c :: d :: rest =>
    push (numberedChar? [a, b, c, d]) (readBasicLines false rest)
  | _, '\\' :: 'U' :: a :: b :: c :: d :: e :: f :: g :: h :: rest =>
    push (numberedChar? [a, b, c, d, e, f, g, h]) (readBasicLines false rest)
  | _, '\\' :: c :: rest =>
    if breaksLine (c :: rest) then readBasicLines true (c :: rest)
    else push (letterValue? c) (readBasicLines false rest)
  | _, c :: rest =>
    if isTextChar c ∧ c ≠ '\\' then push (some c) (readBasicLines false rest) else none

/-- Reads the rest of a text of several lines between single quotes. -/
def readLiteralLines : List Char → Option (List Char × List Char)
  | [] => none
  | '\'' :: '\'' :: '\'' :: '\'' :: '\'' :: rest => some (['\'', '\''], rest)
  | '\'' :: '\'' :: '\'' :: '\'' :: rest => some (['\''], rest)
  | '\'' :: '\'' :: '\'' :: rest => some ([], rest)
  | c :: rest =>
    if isTextChar c ∨ c = '\n' then push (some c) (readLiteralLines rest) else none

/-- A text without the line break at its front, if there is one. -/
def dropBreak : List Char → List Char
  | '\n' :: rest => rest
  | cs => cs

/-! ## All texts -/

/-- Reads a text of any kind, if the front of the input is the start of one. -/
def readText? : List Char → Option (List Char × List Char)
  | '"' :: '"' :: '"' :: rest => readBasicLines false (dropBreak rest)
  | '"' :: rest => readBasic rest
  | '\'' :: '\'' :: '\'' :: rest => readLiteralLines (dropBreak rest)
  | '\'' :: rest => readLiteral rest
  | _ => none

end Toml

end BridgeMint
