import BridgeMint.Data.Datum
import BridgeMint.Data.Magnitude

/-!
# Numbers in TOML

Integers in four bases, numbers with a fraction or an exponent, and the names of the infinite and the
undefined.  Single underscores may stand between digits.  Integers have sixty-four bits and a sign.
-/

namespace BridgeMint

namespace Toml

/-! ## Digits -/

/-- The digits of a run in which single underscores may stand between digits. -/
def digits? (isDigit : Char → Bool) : List Char → Option (List Char)
  | [] => none
  | [c] => if isDigit c then some [c] else none
  | c :: '_' :: rest => if isDigit c then (digits? isDigit rest).map (c :: ·) else none
  | c :: rest => if isDigit c then (digits? isDigit rest).map (c :: ·) else none

/-- The value of a digit in a base up to sixteen. -/
def digitValue (c : Char) : Nat :=
  if c.toNat < 58 then c.toNat - 48 else if c.toNat < 71 then c.toNat - 55 else c.toNat - 87

def numberOf (base : Nat) (digits : List Char) : Nat :=
  digits.foldl (fun n c => base * n + digitValue c) 0

/-- Whether a character is a digit of the base sixteen. -/
def isHexDigit (c : Char) : Bool :=
  c.isDigit || ('a' ≤ c && c ≤ 'f') || ('A' ≤ c && c ≤ 'F')

/-- Takes a sign off the front of a text, and tells whether it is a minus. -/
def sign : List Char → Bool × List Char
  | '-' :: rest => (true, rest)
  | '+' :: rest => (false, rest)
  | cs => (false, cs)

/-- The digits of a whole number in the base ten, which has no leading zeros. -/
def whole? (cs : List Char) : Option (List Char) :=
  match digits? Char.isDigit cs with
  | some ('0' :: _ :: _) => none
  | digits => digits

/-! ## Integers -/

/-- An integer if it has at most sixty-three bits and a sign. -/
def inRange? (n : Int) : Option Int :=
  if -0x8000000000000000 ≤ n ∧ n < 0x8000000000000000 then some n else none

def integer? : List Char → Option Int
  | '0' :: 'x' :: rest =>
    (digits? isHexDigit rest).bind fun digits => inRange? (numberOf 16 digits)
  | '0' :: 'o' :: rest =>
    (digits? (fun c => '0' ≤ c && c ≤ '7') rest).bind fun digits => inRange? (numberOf 8 digits)
  | '0' :: 'b' :: rest =>
    (digits? (fun c => c == '0' || c == '1') rest).bind fun digits => inRange? (numberOf 2 digits)
  | cs =>
    (whole? (sign cs).2).bind fun digits =>
      let n := numberOf 10 digits
      inRange? (if (sign cs).1 then -n else n)

/-! ## Numbers with a fraction -/

def isRunChar (c : Char) : Bool :=
  c.isDigit || c == '_'

def exponent? (cs : List Char) : Option Int :=
  (digits? Char.isDigit (sign cs).2).map fun digits =>
    let n := numberOf 10 digits
    if (sign cs).1 then -n else n

/-- Whether the number with the given digits is one that the sign does not make too large. -/
def isFinite (negative : Bool) (digits : List Char) (exponent : Int) : Bool :=
  negative || !Magnitude.tooLarge digits.length (numberOf 10 digits) exponent

/-- Whether a text is a number with a fraction or an exponent. -/
def isFraction (cs : List Char) : Bool :=
  let (negative, cs) := sign cs
  match whole? (cs.takeWhile isRunChar), cs.dropWhile isRunChar with
  | some whole, '.' :: rest =>
    match digits? Char.isDigit (rest.takeWhile isRunChar), rest.dropWhile isRunChar with
    | some fraction, [] => isFinite negative (whole ++ fraction) (-fraction.length)
    | some fraction, mark :: rest =>
      match exponent? rest with
      | none => false
      | some exponent =>
        (mark == 'e' || mark == 'E') &&
          isFinite negative (whole ++ fraction) (exponent - fraction.length)
    | none, _ => false
  | some whole, mark :: rest =>
    match exponent? rest with
    | none => false
    | some exponent => (mark == 'e' || mark == 'E') && isFinite negative whole exponent
  | _, _ => false

def isSpecial (cs : List Char) : Bool :=
  let name := (sign cs).2
  name == ['i', 'n', 'f'] || name == ['n', 'a', 'n']

def number? (cs : List Char) : Option Datum :=
  match integer? cs with
  | some n => some (.integer n)
  | none => if isFraction cs || isSpecial cs then some .float else none

end Toml

end BridgeMint
