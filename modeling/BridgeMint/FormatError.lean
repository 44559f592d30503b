import BridgeMint.Bytes.Hex
import BridgeMint.Text.Quoted

/-!
# Why a text or byte string denotes no value

The causes for which an address, a word or an amount is refused, and the wording of each.
-/

namespace BridgeMint

/-- Why a text or byte string is not an address, a word or an amount. -/
inductive FormatError where
  /-- The text of an address lacks its `0x` mark. -/
  | addressMark (text : String)
  /-- An address has a number of bytes other than twenty. -/
  | addressLength (length : Nat)
  /-- A word has a number of bytes other than thirty-two. -/
  | wordLength (length : Nat)
  /-- The value needs more than 256 bits. -/
  | overflow
  /-- The text is no decimal numeral. -/
  | decimal (text : String)
  /-- The text is no hexadecimal numeral. -/
  | hex (cause : HexError)
  deriving DecidableEq, Repr

def HexError.message : HexError → String
  | .oddLength => "Odd number of digits"
  | .badDigit byte index =>
    s!"Invalid character {Text.quotedChar (Char.ofNat byte.toNat)} at position {index}"

/-- What is wrong with a text or byte string, in words. -/
def FormatError.message : FormatError → String
  | .addressMark text => s!"Invalid address format: {text}"
  | .addressLength length => s!"Invalid address length: expected 20, got {length}"
  | .wordLength length => s!"Invalid hash length: expected 32, got {length}"
  | .overflow => "U256 overflow"
  | .decimal text => s!"Invalid U256 decimal string: {text}"
  | .hex cause => s!"Invalid hex: {cause.message}"

end BridgeMint
