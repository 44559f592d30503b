/-!
# Byte strings and their numerals

Everything the ledger hashes, stores or puts on the wire is a byte string, kept here as a list of
bytes so that statements about it are statements about lists.  A number of fixed width is written
either most significant byte first (storage words, hashes, payloads) or least significant byte
first (the canonical encoding); both directions are here, with the value each byte string denotes.
-/

namespace BridgeMint

/-- A byte string: call data, contract code, log data, encodings. -/
abbrev Bytes := List UInt8

namespace Bytes

/-! ## Little-endian numerals -/

/-- The low `width` base-256 digits of `n`, least significant first. -/
def littleEndian : (width : Nat) → (n : Nat) → Bytes
  | 0, _ => []
  | width + 1, n => UInt8.ofNat n :: littleEndian width (n / 256)

/-- The value of a byte string read least significant byte first. -/
def littleEndianValue : Bytes → Nat
  | [] => 0
  | b :: rest => b.toNat + 256 * littleEndianValue rest

@[simp] theorem length_littleEndian (width n : Nat) : (littleEndian width n).length = width := by
  induction width generalizing n with
  | zero => rfl
  | succ width ih => simp [littleEndian, ih]

/-! ## Big-endian numerals -/

/-- The low `width` base-256 digits of `n`, most significant first. -/
def bigEndian (width n : Nat) : Bytes :=
  (littleEndian width n).reverse

/-- The value of a byte string read most significant byte first. -/
def bigEndianValue (bytes : Bytes) : Nat :=
  bytes.foldl (fun acc b => 256 * acc + b.toNat) 0

@[simp] theorem length_bigEndian (width n : Nat) : (bigEndian width n).length = width := by
  simp [bigEndian]

/-! ## Padding -/

/-- The byte string with zero bytes in front, up to `width` bytes in all. -/
def padLeft (width : Nat) (bytes : Bytes) : Bytes :=
  List.replicate (width - bytes.length) 0 ++ bytes

theorem length_padLeft {width : Nat} {bytes : Bytes} (h : bytes.length ≤ width) :
    (padLeft width bytes).length = width := by
  simp only [padLeft, List.length_append, List.length_replicate]
  omega

end Bytes

end BridgeMint
