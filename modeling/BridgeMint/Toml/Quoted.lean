/-!
# Writing texts in TOML

A text is written in the plainest form that can hold it: between double quotes if no character of it
needs a backslash there, between single quotes if they can hold it, and otherwise between three
quotes.  Controls can only be written with a backslash, that is between double quotes.
-/

namespace BridgeMint

namespace Toml

/-! ## What a text contains -/

/-- The controls that must be written with a backslash wherever they stand. -/
def needsEscape (c : Char) : Bool :=
  (c < ' ' && c != '\t' && c != '\n') || c == '\x7f'

/-- The length of the longest run of a character; `run` is the length of the run right before the
text. -/
def longestRun (quote : Char) : (run : Nat) → List Char → Nat
  | run, [] => run
  | run, c :: rest =>
    if c = quote then longestRun quote (run + 1) rest else max run (longestRun quote 0 rest)

/-! ## The forms -/

/-- The forms a text can be written in. -/
inductive Quotation where
  | basic
  | literal
  | basicLines
  | literalLines
  deriving DecidableEq, Repr

/-- The form a text is written in. -/
def Quotation.choose (s : List Char) : Quotation :=
  let controls := s.any needsEscape
  let backslash := s.contains '\\'
  let breaks := s.contains '\n'
  let doubleRun := longestRun '"' 0 s
  let singleRun := longestRun '\'' 0 s
  if !controls && !backslash && doubleRun = 0 && !breaks then basic
  else if !controls && singleRun = 0 && !breaks then literal
  else if !controls && !backslash && doubleRun ≤ 2 then basicLines
  else if !controls && singleRun ≤ 2 then literalLines
  else if breaks then basicLines
  else basic

/-! ## Writing -/

/-- The upper-case hexadecimal digit of a value below sixteen. -/
def upperDigit (n : Nat) : Char :=
  if n < 10 then Nat.digitChar n else Char.ofNat (55 + n)

/-- A control by its number. -/
def numbered (c : Char) : List Char :=
  ['\\', 'u', '0', '0', upperDigit (c.toNat / 16), upperDigit (c.toNat % 16)]

/-- A character other than the quote as it is written between double quotes; line breaks may stand
for themselves in a text of several lines. -/
def writeChar (lines : Bool) (c : Char) : List Char :=
  if c = '\x08' then ['\\', 'b']
  else if c = '\t' then ['\\', 't']
  else if c = '\n' then if lines then ['\n'] else ['\\', 'n']
  else if c = '\x0c' then ['\\', 'f']
  else if c = '\r' then ['\\', 'r']
  else if c = '\\' then ['\\', '\\']
  else if needsEscape c then numbered c
  else [c]

/-- The characters of a text as they are written between double quotes.  In a text of several lines
two quotes in a row may stand for themselves; `run` counts those right before. -/
def writeChars (lines : Bool) : (run : Nat) → List Char → List Char
  | _, [] => []
  | run, '"' :: rest =>
    if lines && run < 2 then '"' :: writeChars lines (run + 1) rest
    else '\\' :: '"' :: writeChars lines 0 rest
  | _, c :: rest => writeChar lines c ++ writeChars lines 0 rest

/-- A line break before a text that contains one. -/
def openingBreak (s : List Char) : List Char :=
  if s.contains '\n' then ['\n'] else []

def Quotation.write (s : List Char) : Quotation → List Char
  | basic => '"' :: writeChars false 0 s ++ ['"']
  | literal => '\'' :: s ++ ['\'']
  | basicLines =>
    ['"', '"', '"'] ++ openingBreak s ++ writeChars true 0 s ++ ['"', '"', '"']
  | literalLines => ['\'', '\'', '\''] ++ openingBreak s ++ s ++ ['\'', '\'', '\'']

def writeText (s : List Char) : List Char :=
  (Quotation.choose s).write s

end Toml

end BridgeMint
