import BridgeMint.Word

/-!
# Account addresses

An address is twenty bytes.  Inside a storage word it takes the last twenty bytes, with zeros before
it.
-/

namespace BridgeMint

abbrev Address := FixedBytes 20

namespace Address

/-! ## Reading -/

/-- A byte string as an address, refused unless it has twenty bytes. -/
def ofBytes (bytes : Bytes) : Except FormatError Address :=
  match FixedBytes.ofList? bytes with
  | some address => .ok address
  | none => .error (.addressLength bytes.length)

/-- Reads an address from hexadecimal text, which must carry its `0x` mark. -/
def parse (text : String) : Except FormatError Address :=
  match Hex.unmarked? text.toList with
  | none => .error (.addressMark text)
  | some digits =>
    match Hex.decode digits with
    | .error cause => .error (.hex cause)
    | .ok bytes => ofBytes bytes

/-! ## Storage words -/

/-- The address in the last twenty bytes of a word. -/
def ofWord (word : Word) : Address :=
  ⟨word.toList.drop 12, by simp [word.length_toList]⟩

/-- The word with the address in its last twenty bytes and zeros before. -/
def toWord (address : Address) : Word :=
  ⟨Bytes.padLeft 32 address.toList,
    Bytes.length_padLeft (by simp [address.length_toList])⟩

end Address

end BridgeMint
