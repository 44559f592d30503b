import BridgeMint.Data.Datum
import BridgeMint.Data.Magnitude

/-!
# Numbers in JSON

A numeral is a sign, a whole part without needless zeros, and possibly a fraction and an exponent.
It denotes an integer if it has neither and fits sixty-four bits, and otherwise a number with a
fraction, also when it is minus zero.  A numeral that is too large even for that form makes no
sense.
-/

namespace BridgeMint

namespace Json

/-- A numeral taken apart. -/
structure Numeral where
  negative : Bool
  /-- The digits of the whole part. -/
  whole : List Char
  /-- The digits after the point, if there is one. -/
  fraction : Option (List Char)
  /-- Whether the exponent is negative, and its digits, if there is one. -/
  exponent : Option (Bool × List Char)

/-! ## Reading a numeral -/

/-- A run of digits at the front of a text, and what follows it. -/
def digitRun (cs : List Char) : List Char × List Char :=
  (cs.takeWhile Char.isDigit, cs.dropWhile Char.isDigit)

/-- Like `digitRun`, but there must be a digit. -/
def digitRun? (cs : List Char) : Option (List Char × List Char) :=
  match digitRun cs with
  | ([], _) => none
  | run => some run

/-- Reads the whole part: a zero, or digits that do not start with one. -/
def wholePart? (cs : List Char) : Option (List Char × List Char) :=
  match digitRun? cs with
  | some ('0' :: _ :: _, _) => none
  | run => run

/-- Reads a fraction if a point says that there is one. -/
def fraction? : List Char → Option (Option (List Char) × List Char)
  | '.' :: rest => (digitRun? rest).map fun (digits, rest) => (some digits, rest)
  | cs => some (none, cs)

def sign : List Char → Bool × List Char
  | '-' :: rest => (true, rest)
  | '+' :: rest => (false, rest)
  | cs => (false, cs)

/-- Reads the digits of an exponent after its mark. -/
def exponentDigits? (cs : List Char) : Option (Option (Bool × List Char) × List Char) :=
  (digitRun? (sign cs).2).map fun (digits, rest) => (some ((sign cs).1, digits), rest)

/-- Reads an exponent if a mark says that there is one. -/
def exponent? : List Char → Option (Option (Bool × List Char) × List Char)
  | 'e' :: rest | 'E' :: rest => exponentDigits? rest
  | cs => some (none, cs)

def numeral? (cs : List Char) : Option (Numeral × List Char) := do
  let (negative, cs) := match cs with
    | '-' :: rest => (true, rest)
    | cs => (false, cs)
  let (whole, cs) ← wholePart? cs
  let (fraction, cs) ← fraction? cs
  let (exponent, cs) ← exponent? cs
  return (⟨negative, whole, fraction, exponent⟩, cs)

/-! ## The value of a numeral -/

/-- The number that digits spell, after a number already read. -/
def digitValue (soFar : Nat) (digits : List Char) : Nat :=
  digits.foldl (fun n c => 10 * n + (c.toNat - 48)) soFar

/-- Appends digits to a number as long as it stays below `2 ^ 64`; the digits left over follow. -/
def fitDigits : (soFar : Nat) → (digits : List Char) → Nat × List Char
  | soFar, [] => (soFar, [])
  | soFar, c :: rest =>
    let next := 10 * soFar + (c.toNat - 48)
    if next < UInt64.size then fitDigits next rest else (soFar, c :: rest)

/-- The greatest exponent that is taken at its value. -/
def greatestExponent : Nat := 2147483647

namespace Numeral

/-- Whether the numeral spells a number beyond the greatest one.  Of its digits, those are used that
fit sixty-four bits; the others count as zeros. -/
def isTooLarge (numeral : Numeral) : Bool :=
  let (significand, surplus) := fitDigits 0 numeral.whole
  let fraction := numeral.fraction.getD []
  let (significand, unused) := fitDigits significand fraction
  let scale : Int := surplus.length - (fraction.length - unused.length : Nat)
  let (negative, digits) := numeral.exponent.getD (false, [])
  let exponent := digitValue 0 digits
  if greatestExponent < exponent then significand ≠ 0 && !negative
  else
    let exponent := if negative then scale - exponent else scale + exponent
    0 ≤ exponent && Magnitude.productTooLarge significand exponent.toNat

/-- The integer a numeral denotes, if it denotes one. -/
def toInt? (numeral : Numeral) : Option Int :=
  match numeral.fraction, numeral.exponent with
  | none, none =>
    let n := digitValue 0 numeral.whole
    if numeral.negative then
      if 0 < n ∧ n ≤ 0x8000000000000000 then some (-n) else none
    else if n < UInt64.size then some n
    else none
  | _, _ => none

def toDatum (numeral : Numeral) : Datum :=
  match numeral.toInt? with
  | some n => .integer n
  | none => if numeral.isTooLarge then .broken else .float

end Numeral

end Json

end BridgeMint
