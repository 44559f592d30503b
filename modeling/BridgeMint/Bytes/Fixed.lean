import BridgeMint.Bytes.Hex

/-!
# Byte strings of fixed length

Addresses and storage words are byte strings of a known length.  The length is part of the type, so
a value of the type is always well formed; equality is equality of bytes and the order is the
dictionary order of the bytes, the order in which accounts and storage slots are listed.
-/

namespace BridgeMint

/-- A byte string of exactly `n` bytes. -/
structure FixedBytes (n : Nat) where
  toList : Bytes
  length_toList : toList.length = n

namespace FixedBytes

variable {n : Nat}

theorem ext {a b : FixedBytes n} (h : a.toList = b.toList) : a = b := by
  cases a; cases b; cases h; rfl

instance : DecidableEq (FixedBytes n) := fun a b =>
  if h : a.toList = b.toList then .isTrue (ext h)
  else .isFalse fun e => h (e ▸ rfl)

/-! ## Order -/

/-- Dictionary order of the bytes. -/
instance : Ord (FixedBytes n) := ⟨fun a b => compare a.toList b.toList⟩

theorem compare_eq (a b : FixedBytes n) : compare a b = compare a.toList b.toList := rfl

instance : Std.OrientedOrd (FixedBytes n) where
  eq_swap {a b} := Std.OrientedOrd.eq_swap (a := a.toList) (b := b.toList)

instance : Std.TransOrd (FixedBytes n) where
  isLE_trans {a b c} := Std.TransOrd.isLE_trans (a := a.toList) (b := b.toList) (c := c.toList)

instance : Std.LawfulEqOrd (FixedBytes n) where
  compare_self {a} := Std.ReflOrd.compare_self (a := a.toList)
  eq_of_compare {a b} h := ext (Std.LawfulEqOrd.eq_of_compare (a := a.toList) (b := b.toList) h)

/-! ## Construction -/

/-- The byte string itself, when it has the right length. -/
def ofList? (bytes : Bytes) : Option (FixedBytes n) :=
  if h : bytes.length = n then some ⟨bytes, h⟩ else none

def zero : FixedBytes n :=
  ⟨List.replicate n 0, List.length_replicate⟩

instance : Inhabited (FixedBytes n) := ⟨zero⟩

def isZero (a : FixedBytes n) : Bool :=
  decide (a = zero)

/-- The big-endian numeral of `value` in `n` bytes. -/
def ofNat (value : Nat) : FixedBytes n :=
  ⟨Bytes.bigEndian n value, Bytes.length_bigEndian n value⟩

/-! ## Text -/

/-- Lower-case hexadecimal digits, without a mark. -/
def toHex (a : FixedBytes n) : String :=
  Hex.encode a.toList

/-- Lower-case hexadecimal digits after `0x`: the form addresses and words are printed in. -/
def text (a : FixedBytes n) : String :=
  Hex.encodeMarked a.toList

/-- Upper-case hexadecimal digits after `0x`. -/
def upperText (a : FixedBytes n) : String :=
  "0x" ++ Hex.encodeUpper a.toList

instance : ToString (FixedBytes n) := ⟨text⟩

end FixedBytes

end BridgeMint
