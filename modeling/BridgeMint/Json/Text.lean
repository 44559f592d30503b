/-!
# Text in JSON

A text stands between double quotes.  The quote, the backslash and the controls are written with a
backslash; reading also takes every other character by the number of its sixteen-bit unit, and a
character beyond those by two such units.
-/

namespace BridgeMint

namespace Json

/-! ## Writing -/

/-- The letter that stands for a character after a backslash. -/
def escapeLetter? (c : Char) : Option Char :=
  if c = '"' then some '"'
  else if c = '\\' then some '\\'
  else if c = '\x08' then some 'b'
  else if c = '\t' then some 't'
  else if c = '\n' then some 'n'
  else if c = '\x0c' then some 'f'
  else if c = '\r' then some 'r'
  else none

/-- A character as it is written inside a text. -/
def writeChar (c : Char) : List Char :=
  match escapeLetter? c with
  | some letter => ['\\', letter]
  | none =>
    if c < ' ' then
      ['\\', 'u', '0', '0', Nat.digitChar (c.toNat / 16), Nat.digitChar (c.toNat % 16)]
    else [c]

def writeText (s : List Char) : List Char :=
  '"' :: s.flatMap writeChar ++ ['"']

/-! ## Reading -/

/-- The character that a letter after a backslash stands for. -/
def letterValue? (c : Char) : Option Char :=
  if c = '"' then some '"'
  else if c = '\\' then some '\\'
  else if c = '/' then some '/'
  else if c = 'b' then some '\x08'
  else if c = 't' then some '\t'
  else if c = 'n' then some '\n'
  else if c = 'f' then some '\x0c'
  else if c = 'r' then some '\r'
  else none

/-- The value of a hexadecimal digit of either case. -/
def hexValue? (c : Char) : Option Nat :=
  if '0' ≤ c ∧ c ≤ '9' then some (c.toNat - 48)
  else if 'a' ≤ c ∧ c ≤ 'f' then some (c.toNat - 87)
  else if 'A' ≤ c ∧ c ≤ 'F' then some (c.toNat - 55)
  else none

/-- The sixteen-bit unit that four hexadecimal digits spell. -/
def unit? (a b c d : Char) : Option Nat := do
  return (((← hexValue? a) * 16 + (← hexValue? b)) * 16 + (← hexValue? c)) * 16 + (← hexValue? d)

def isLeadUnit (unit : Nat) : Bool :=
  0xd800 ≤ unit && unit < 0xdc00

def isTrailUnit (unit : Nat) : Bool :=
  0xdc00 ≤ unit && unit < 0xe000

/-- Reads the rest of a text after its opening quote: the characters, and what follows the closing
quote. -/
def readText : List Char → Option (List Char × List Char)
  | [] => none
  | '"' :: rest => some ([], rest)
  | '\\' :: 'u' :: a :: b :: c :: d :: rest =>
    match unit? a b c d with
    | none => none
    | some unit =>
      if isTrailUnit unit then none
      else if isLeadUnit unit then
        match rest with
        | '\\' :: 'u' :: e :: f :: g :: h :: rest =>
          match unit? e f g h with
          | none => none
          | some trail =>
            if isTrailUnit trail then
              (readText rest).map fun (s, rest) =>
                (Char.ofNat (0x10000 + (unit - 0xd800) * 1024 + (trail - 0xdc00)) :: s, rest)
            else none
        | _ => none
      else (readText rest).map fun (s, rest) => (Char.ofNat unit :: s, rest)
  | '\\' :: letter :: rest =>
    match letterValue? letter with
    | none => none
    | some c => (readText rest).map fun (s, rest) => (c :: s, rest)
  | c :: rest =>
    if c < ' ' ∨ c = '\\' then none
    else (readText rest).map fun (s, rest) => (c :: s, rest)

end Json

end BridgeMint
