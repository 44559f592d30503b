import BridgeMint.UInt256.Basic
import BridgeMint.Word

/-!
# Numbers as storage words

A number is stored as its thirty-two base-256 digits, most significant first.  Limbs are kept lowest
first, so the two orders run in opposite directions: the highest limb makes the first eight bytes.
-/

namespace BridgeMint

namespace UInt256

/-! ## Writing -/

/-- The thirty-two base-256 digits, most significant first. -/
def toBytes (a : UInt256) : Bytes :=
  a.limbs.reverse.flatMap fun limb => Bytes.bigEndian 8 limb.toNat

@[simp] theorem length_toBytes (a : UInt256) : a.toBytes.length = 32 := by
  simp [toBytes, limbs]

/-- The number as a storage word. -/
def toWord (a : UInt256) : Word :=
  ⟨a.toBytes, length_toBytes a⟩

/-! ## Reading -/

/-- The limbs of a byte string of `8 * count` bytes, highest first. -/
def limbsOfBytes : (count : Nat) → Bytes → List UInt64
  | 0, _ => []
  | count + 1, bytes =>
    UInt64.ofNat (Bytes.bigEndianValue (bytes.take 8)) :: limbsOfBytes count (bytes.drop 8)

/-- The number in a storage word. -/
def ofWord (word : Word) : UInt256 :=
  ofLimbs (limbsOfBytes 4 word.toList).reverse

/-- The number whose base-256 digits are `bytes`, most significant first; at most thirty-two. -/
def ofBytes (bytes : Bytes) : Except FormatError UInt256 :=
  if h : bytes.length ≤ 32 then .ok (ofWord ⟨Bytes.padLeft 32 bytes, Bytes.length_padLeft h⟩)
  else .error .overflow

end UInt256

end BridgeMint
