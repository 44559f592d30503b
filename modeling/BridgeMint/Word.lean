import BridgeMint.Bytes.Fixed
import BridgeMint.FormatError
import BridgeMint.Keccak

/-!
# Words of thirty-two bytes

Storage keys, storage values and Keccak-256 digests are opaque words of thirty-two bytes.
-/

namespace BridgeMint

/-- A storage key, a storage value or a digest. -/
abbrev Word := FixedBytes 32

namespace Word

/-! ## Digests -/

/-- The Keccak-256 digest of a byte string. -/
def keccak256 (bytes : Bytes) : Word :=
  ⟨Keccak.digest bytes, Keccak.length_digest bytes⟩

/-- The digest of the empty byte string, which accounts without code carry. -/
def emptyDigest : Word :=
  keccak256 []

/-! ## Reading -/

/-- A byte string as a word, refused unless it has thirty-two bytes. -/
def ofBytes (bytes : Bytes) : Except FormatError Word :=
  match FixedBytes.ofList? bytes with
  | some word => .ok word
  | none => .error (.wordLength bytes.length)

/-- Reads a word from hexadecimal text, with or without its `0x` mark. -/
def parse (text : String) : Except FormatError Word :=
  match Hex.decode ((Hex.unmarked? text.toList).getD text.toList) with
  | .error cause => .error (.hex cause)
  | .ok bytes => ofBytes bytes

/-! ## Small numbers -/

/-- The word that holds a 64-bit number in its last eight bytes, most significant first. -/
def ofUInt64 (n : UInt64) : Word :=
  FixedBytes.ofNat n.toNat

end Word

end BridgeMint
