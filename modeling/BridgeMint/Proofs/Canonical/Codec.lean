import BridgeMint.Canonical.Codec
import BridgeMint.Proofs.UInt256.Word

/-!
# Decoding takes off what was encoded

A codec restores a value if decoding takes exactly its encoding off the front of any byte string and gives
the value back.  What is restored is determined by its encoding.  Byte strings of a fixed length and numerals
are restored, whatever they are.
-/

namespace BridgeMint

namespace Codec

variable {α : Type} {P : α → Prop}

/-- Decoding gives back every value with the property, and leaves what comes after its encoding. -/
def Restores (codec : Codec α) (P : α → Prop) : Prop :=
  ∀ a rest, P a → codec.decode (codec.encode a ++ rest) = .ok (a, rest)

/-- Different values have different encodings. -/
theorem Restores.encode_inj {codec : Codec α} (h : codec.Restores P) {a b : α} (ha : P a) (hb : P b) :
    codec.encode a = codec.encode b ↔ a = b := by
  constructor
  · intro heq
    -- The common encoding is read as either of them.
    have hdecoded := h b [] hb
    rw [← heq, h a [] ha] at hdecoded
    cases hdecoded
    rfl
  · intro heq
    rw [heq]

/-- What is restored is restored under a stronger condition, too. -/
theorem Restores.mono {codec : Codec α} {P' : α → Prop} (h : codec.Restores P)
    (himp : ∀ a, P' a → P a) : codec.Restores P' :=
  fun a rest ha => h a rest (himp a ha)

/-! ## Fixed widths -/

theorem restores_fixedBytes (n : Nat) : (fixedBytes n).Restores fun _ => True := by
  rintro ⟨bytes, rfl⟩ rest -
  have hle : bytes.length ≤ (bytes ++ rest).length := by simp
  simp only [fixedBytes, dif_pos hle, List.take_left, List.drop_left]

/-- A number that fits comes back from its numeral. -/
theorem littleEndianValue_take_append (width : Nat) {n : Nat} (h : n < 256 ^ width) (rest : Bytes) :
    width ≤ (Bytes.littleEndian width n ++ rest).length ∧
      Bytes.littleEndianValue ((Bytes.littleEndian width n ++ rest).take width) = n ∧
      (Bytes.littleEndian width n ++ rest).drop width = rest := by
  have hlength := Bytes.length_littleEndian width n
  refine ⟨?_, ?_, List.drop_left' hlength⟩
  · rw [List.length_append, hlength]
    omega
  · rw [List.take_left' hlength, Bytes.littleEndianValue_littleEndian, Nat.mod_eq_of_lt h]

theorem restores_uint32 : uint32.Restores fun _ => True := by
  intro n rest _
  obtain ⟨hle, hvalue, hrest⟩ := littleEndianValue_take_append 4 n.toNat_lt rest
  simp only [uint32, if_pos hle, hvalue, hrest, UInt32.ofNat_toNat]

theorem restores_uint64 : uint64.Restores fun _ => True := by
  intro n rest _
  obtain ⟨hle, hvalue, hrest⟩ := littleEndianValue_take_append 8 n.toNat_lt rest
  simp only [uint64, if_pos hle, hvalue, hrest, UInt64.ofNat_toNat]

end Codec

end BridgeMint
