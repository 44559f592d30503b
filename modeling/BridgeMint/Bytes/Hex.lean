import BridgeMint.Bytes

/-!
# Hexadecimal text

Two digits per byte, high digit first.  Writing uses lower-case digits, or upper-case ones where a
format asks for them; reading takes either case.  A text is refused for the parity of its length
before any digit is looked at, and otherwise for its first byte that is no digit, counting positions
in the text's UTF-8 form.
-/

namespace BridgeMint

/-- Why a text is not hexadecimal. -/
inductive HexError where
  /-- The text has an odd number of UTF-8 bytes. -/
  | oddLength
  /-- The UTF-8 byte at `index` is no hexadecimal digit. -/
  | badDigit (byte : UInt8) (index : Nat)
  deriving DecidableEq, Repr

namespace Hex

/-! ## Writing -/

/-- The lower-case digit of a value below sixteen. -/
def lowerDigit (n : Nat) : Char :=
  Nat.digitChar n

/-- The upper-case digit of a value below sixteen. -/
def upperDigit (n : Nat) : Char :=
  if n < 10 then Nat.digitChar n else Char.ofNat (55 + n)

/-- The two digits of each byte, in order. -/
def encodeWith (digit : Nat → Char) (bytes : Bytes) : List Char :=
  bytes.flatMap fun b => [digit (b.toNat / 16), digit (b.toNat % 16)]

/-- Lower-case hexadecimal text of a byte string. -/
def encode (bytes : Bytes) : String :=
  String.ofList (encodeWith lowerDigit bytes)

/-- Upper-case hexadecimal text of a byte string. -/
def encodeUpper (bytes : Bytes) : String :=
  String.ofList (encodeWith upperDigit bytes)

/-- Lower-case hexadecimal text after a `0x` mark. -/
def encodeMarked (bytes : Bytes) : String :=
  "0x" ++ encode bytes

/-! ## Reading -/

/-- The value of a hexadecimal digit of either case. -/
def digitValue? (c : Char) : Option Nat :=
  if '0' ≤ c ∧ c ≤ '9' then some (c.toNat - 48)
  else if 'a' ≤ c ∧ c ≤ 'f' then some (c.toNat - 87)
  else if 'A' ≤ c ∧ c ≤ 'F' then some (c.toNat - 55)
  else none

/-- How many bytes the UTF-8 form of a text has. -/
def utf8Length (text : List Char) : Nat :=
  text.foldr (fun c n => c.utf8Size + n) 0

/-- The first byte of a character's UTF-8 form. -/
def leadByte (c : Char) : UInt8 :=
  (String.utf8EncodeChar c).headD 0

/-- The first byte that is no digit, with its position; `index` is the position of the first
character of `text`, and every character before the first offender is one byte long. -/
def badDigit? (index : Nat) : List Char → Option HexError
  | [] => none
  | c :: rest =>
    match digitValue? c with
    | some _ => badDigit? (index + 1) rest
    | none => some (.badDigit (leadByte c) index)

/-- Joins digit values two by two into bytes. -/
def joinDigits : List Nat → Bytes
  | high :: low :: rest => UInt8.ofNat (16 * high + low) :: joinDigits rest
  | _ => []

def decode (text : List Char) : Except HexError Bytes :=
  if utf8Length text % 2 = 1 then .error .oddLength
  else
    match badDigit? 0 text with
    | some e => .error e
    | none => .ok (joinDigits (text.filterMap digitValue?))

/-- What follows a leading `0x` or `0X`, if there is one. -/
def unmarked? : List Char → Option (List Char)
  | '0' :: 'x' :: digits => some digits
  | '0' :: 'X' :: digits => some digits
  | _ => none

end Hex

end BridgeMint
