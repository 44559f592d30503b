import BridgeMint.Bytes.Fixed
import BridgeMint.UInt256.Basic

/-!
# The canonical encoding

A value has one encoding, and an encoding one value.  Integers are written least significant byte
first in their full width, byte strings and lists after their length in four bytes, an optional
value after a byte that tells whether it is there, and a record as its fields in order.  A codec
pairs the two directions; decoding takes what it needs from the front of a byte string and hands
back the rest, so that codecs compose.
-/

namespace BridgeMint

/-- Why a byte string is no encoding. -/
inductive DecodeError where
  /-- The bytes end before the value does. -/
  | unexpectedEnd
  /-- Bytes are left over after the value. -/
  | leftover
  /-- The byte that tells whether an optional value is there is neither zero nor one. -/
  | optionTag (tag : UInt8)
  deriving DecidableEq, Repr

def DecodeError.message : DecodeError → String
  | .unexpectedEnd => "Unexpected length of input"
  | .leftover => "Not all bytes read"
  | .optionTag tag => s!"Invalid Option representation: {tag}. The first byte must be 0 or 1"

/-- The two directions of an encoding: `decode` reads a value off the front of a byte string. -/
structure Codec (α : Type) where
  encode : α → Bytes
  decode : Bytes → Except DecodeError (α × Bytes)

namespace Codec

/-! ## Whole byte strings -/

/-- Decodes a byte string that must hold exactly one value. -/
def decodeAll {α : Type} (codec : Codec α) (bytes : Bytes) : Except DecodeError α :=
  match codec.decode bytes with
  | .error e => .error e
  | .ok (value, []) => .ok value
  | .ok (_, _ :: _) => .error .leftover

/-! ## Fixed widths -/

/-- A run of exactly `n` bytes. -/
def fixedBytes (n : Nat) : Codec (FixedBytes n) where
  encode a := a.toList
  decode bytes :=
    if h : n ≤ bytes.length then .ok (⟨bytes.take n, List.length_take_of_le h⟩, bytes.drop n)
    else .error .unexpectedEnd

def uint32 : Codec UInt32 where
  encode n := Bytes.littleEndian 4 n.toNat
  decode bytes :=
    if 4 ≤ bytes.length then
      .ok (UInt32.ofNat (Bytes.littleEndianValue (bytes.take 4)), bytes.drop 4)
    else .error .unexpectedEnd

def uint64 : Codec UInt64 where
  encode n := Bytes.littleEndian 8 n.toNat
  decode bytes :=
    if 8 ≤ bytes.length then
      .ok (UInt64.ofNat (Bytes.littleEndianValue (bytes.take 8)), bytes.drop 8)
    else .error .unexpectedEnd

/-! ## Combinations -/

def pair {α β : Type} (first : Codec α) (second : Codec β) : Codec (α × β) where
  encode p := first.encode p.1 ++ second.encode p.2
  decode bytes :=
    match first.decode bytes with
    | .error e => .error e
    | .ok (a, rest) =>
      match second.decode rest with
      | .error e => .error e
      | .ok (b, rest') => .ok ((a, b), rest')

/-- The codec of a type whose values are those of another type under a different name. -/
def rename {α β : Type} (codec : Codec α) (ofBase : α → β) (toBase : β → α) : Codec β where
  encode b := codec.encode (toBase b)
  decode bytes :=
    match codec.decode bytes with
    | .error e => .error e
    | .ok (a, rest) => .ok (ofBase a, rest)

/-- An optional value: a zero byte, or a one byte and the value. -/
def optional {α : Type} (codec : Codec α) : Codec (Option α) where
  encode
    | none => [0]
    | some a => 1 :: codec.encode a
  decode
    | [] => .error .unexpectedEnd
    | tag :: rest =>
      -- Only one spelling of each case is accepted.
      if tag = 0 then .ok (none, rest)
      else if tag = 1 then
        match codec.decode rest with
        | .error e => .error e
        | .ok (a, rest') => .ok (some a, rest')
      else .error (.optionTag tag)

/-- A byte string after its length. -/
def byteString : Codec Bytes where
  encode bytes := uint32.encode (UInt32.ofNat bytes.length) ++ bytes
  decode bytes :=
    match uint32.decode bytes with
    | .error e => .error e
    | .ok (length, rest) =>
      if length.toNat ≤ rest.length then .ok (rest.take length.toNat, rest.drop length.toNat)
      else .error .unexpectedEnd

def decodeMany {α : Type} (codec : Codec α) : (count : Nat) → Bytes →
    Except DecodeError (List α × Bytes)
  | 0, bytes => .ok ([], bytes)
  | count + 1, bytes =>
    match codec.decode bytes with
    | .error e => .error e
    | .ok (a, rest) =>
      match decodeMany codec count rest with
      | .error e => .error e
      | .ok (as, rest') => .ok (a :: as, rest')

/-- A list after its length. -/
def list {α : Type} (codec : Codec α) : Codec (List α) where
  encode as := uint32.encode (UInt32.ofNat as.length) ++ as.flatMap codec.encode
  decode bytes :=
    match uint32.decode bytes with
    | .error e => .error e
    | .ok (count, rest) => decodeMany codec count.toNat rest

/-! ## Numbers of 256 bits -/

/-- A number of 256 bits: its four limbs, lowest first. -/
def uint256 : Codec UInt256 :=
  (uint64.pair (uint64.pair (uint64.pair uint64))).rename
    (fun l => ⟨l.1, l.2.1, l.2.2.1, l.2.2.2⟩)
    (fun a => (a.limb0, a.limb1, a.limb2, a.limb3))

end Codec

end BridgeMint
