import BridgeMint.UInt256.Word

/-!
# Numbers as text

A number is printed in decimal without leading zeros, or as `0x` and sixty-four hexadecimal digits.
It is read from either form: hexadecimal text after `0x` or `0X` may have any number of digits, an
odd number included, as long as it spells at most thirty-two bytes; decimal text may have leading
zeros.  Decimal text is read from the left, so the first digit at which something is wrong decides
what is reported.
-/

namespace BridgeMint

namespace UInt256

/-! ## Printing -/

/-- The decimal digits, lowest first, found by dividing by ten; `fuel` bounds their number. -/
def decimalDigits : (fuel : Nat) → UInt256 → List Char
  | 0, _ => []
  | fuel + 1, a =>
    if a.isZero then []
    else
      match a.divRem? 10 with
      | none => []
      | some (quotient, digit) => Nat.digitChar digit.toNat :: decimalDigits fuel quotient

/-- Decimal text without leading zeros.  A number of 256 bits has at most seventy-eight digits. -/
def decimal (a : UInt256) : String :=
  if a.isZero then "0" else String.ofList (decimalDigits 78 a).reverse

instance : ToString UInt256 := ⟨decimal⟩

/-- `0x` and sixty-four hexadecimal digits. -/
def hexText (a : UInt256) : String :=
  Hex.encodeMarked a.toBytes

/-! ## Reading -/

def decimalDigit? (c : Char) : Option UInt64 :=
  if '0' ≤ c ∧ c ≤ '9' then some (UInt64.ofNat (c.toNat - 48)) else none

/-- Appends the decimal digits `digits` to the number read so far; `text` is what an error quotes. -/
def appendDigits (text : String) : (soFar : UInt256) → (digits : List Char) →
    Except FormatError UInt256
  | soFar, [] => .ok soFar
  | soFar, c :: rest =>
    match decimalDigit? c with
    | none => .error (.decimal text)
    | some digit =>
      match checkedMul soFar 10 with
      | none => .error .overflow
      | some shifted =>
        match checkedAdd shifted (ofUInt64 digit) with
        | none => .error .overflow
        | some next => appendDigits text next rest

def parseDecimal (text : String) : Except FormatError UInt256 :=
  if text = "" then .error (.decimal text) else appendDigits text 0 text.toList

/-- Hexadecimal digits made even in number by a leading zero; the number is that of UTF-8 bytes. -/
def evenDigits (digits : List Char) : List Char :=
  if Hex.utf8Length digits % 2 = 1 then '0' :: digits else digits

/-- Reads decimal text, or hexadecimal text after `0x` or `0X`. -/
def parse (text : String) : Except FormatError UInt256 :=
  match Hex.unmarked? text.toList with
  | none => parseDecimal text
  | some digits =>
    match Hex.decode (evenDigits digits) with
    | .error cause => .error (.hex cause)
    | .ok bytes => ofBytes bytes

end UInt256

end BridgeMint
