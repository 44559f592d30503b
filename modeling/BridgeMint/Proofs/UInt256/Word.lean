import BridgeMint.Proofs.UInt256.Value
import BridgeMint.UInt256.Word
import Mathlib.Data.List.Induction

/-!
# Numbers in storage words

A number comes back from the storage word it was written to, and the bytes of the word, read most
significant first, denote it.
-/

namespace BridgeMint

namespace Bytes

/-! ## Numerals -/

/-- A numeral shows its number as far as its width reaches. -/
theorem littleEndianValue_littleEndian (width n : Nat) :
    littleEndianValue (littleEndian width n) = n % 256 ^ width := by
  induction width generalizing n with
  | zero => simp [littleEndian, littleEndianValue, Nat.mod_one]
  | succ width ih =>
    rw [littleEndian, littleEndianValue, ih, pow_succ, Nat.mul_comm (256 ^ width),
      Nat.mod_mul, UInt8.toNat_ofNat']

/-- Bytes in front are worth more by the length of those behind. -/
theorem bigEndianValue_append (front back : Bytes) :
    bigEndianValue (front ++ back) =
      256 ^ back.length * bigEndianValue front + bigEndianValue back := by
  induction back using List.reverseRecOn with
  | nil => simp [bigEndianValue]
  | append_singleton back b ih =>
    have hsnoc : ∀ l : Bytes, bigEndianValue (l ++ [b]) = 256 * bigEndianValue l + b.toNat := by
      intro l
      simp [bigEndianValue]
    rw [← List.append_assoc, hsnoc, ih, hsnoc, List.length_append, List.length_singleton, pow_succ]
    ring

/-- Read from the other end, the bytes have the other value. -/
theorem bigEndianValue_reverse (bytes : Bytes) :
    bigEndianValue bytes.reverse = littleEndianValue bytes := by
  induction bytes with
  | nil => rfl
  | cons b rest ih =>
    rw [List.reverse_cons, bigEndianValue_append, ih, littleEndianValue]
    simp [bigEndianValue, Nat.add_comm]

theorem bigEndianValue_bigEndian (width n : Nat) :
    bigEndianValue (bigEndian width n) = n % 256 ^ width := by
  rw [bigEndian, bigEndianValue_reverse, littleEndianValue_littleEndian]

/-- A byte string is the numeral of its value in its own length. -/
theorem littleEndian_littleEndianValue (bytes : Bytes) :
    littleEndian bytes.length (littleEndianValue bytes) = bytes := by
  induction bytes with
  | nil => rfl
  | cons b rest ih =>
    have hb := b.toNat_lt
    have hlow : UInt8.ofNat (b.toNat + 256 * littleEndianValue rest) = b := by
      rw [← UInt8.toNat_inj, UInt8.toNat_ofNat']
      omega
    have hrest : (b.toNat + 256 * littleEndianValue rest) / 256 = littleEndianValue rest := by omega
    rw [List.length_cons, littleEndian, littleEndianValue, hlow, hrest, ih]

theorem littleEndianValue_lt (bytes : Bytes) : littleEndianValue bytes < 256 ^ bytes.length := by
  -- The numeral of the value has the same value, and a numeral shows its value modulo the power.
  have hvalue := littleEndianValue_littleEndian bytes.length (littleEndianValue bytes)
  rw [littleEndian_littleEndianValue] at hvalue
  rw [hvalue]
  exact Nat.mod_lt _ (Nat.pow_pos (by decide))

theorem bigEndianValue_eq_reverse (bytes : Bytes) :
    bigEndianValue bytes = littleEndianValue bytes.reverse := by
  rw [← bigEndianValue_reverse, List.reverse_reverse]

theorem bigEndian_bigEndianValue (bytes : Bytes) :
    bigEndian bytes.length (bigEndianValue bytes) = bytes := by
  have hreverse := littleEndian_littleEndianValue bytes.reverse
  rw [List.length_reverse] at hreverse
  rw [bigEndian, bigEndianValue_eq_reverse, hreverse, List.reverse_reverse]

theorem bigEndianValue_lt (bytes : Bytes) : bigEndianValue bytes < 256 ^ bytes.length := by
  have hlt := littleEndianValue_lt bytes.reverse
  rw [List.length_reverse] at hlt
  rw [bigEndianValue_eq_reverse]
  exact hlt

end Bytes

namespace UInt256

/-! ## Limbs as bytes -/

private theorem limb_bytes (limb : UInt64) :
    Bytes.bigEndianValue (Bytes.bigEndian 8 limb.toNat) = limb.toNat := by
  have h := limb.toNat_lt
  rw [Bytes.bigEndianValue_bigEndian]
  omega

theorem toBytes_eq (a : UInt256) :
    a.toBytes = Bytes.bigEndian 8 a.limb3.toNat ++ (Bytes.bigEndian 8 a.limb2.toNat ++
      (Bytes.bigEndian 8 a.limb1.toNat ++ Bytes.bigEndian 8 a.limb0.toNat)) := by
  simp [toBytes, limbs]

/-- The bytes of a number denote it. -/
theorem bigEndianValue_toBytes (a : UInt256) : Bytes.bigEndianValue a.toBytes = a.toNat := by
  simp only [toBytes_eq, Bytes.bigEndianValue_append, limb_bytes, List.length_append,
    Bytes.length_bigEndian, toNat, UInt64.size]
  ring

/-- A number comes back from its storage word. -/
@[simp] theorem ofWord_toWord (a : UInt256) : ofWord a.toWord = a := by
  have hlimbs : limbsOfBytes 4 a.toBytes = [a.limb3, a.limb2, a.limb1, a.limb0] := by
    -- Cutting off eight bytes at a time finds the limbs that were joined.
    have htake : ∀ (limb : UInt64) (rest : Bytes),
        (Bytes.bigEndian 8 limb.toNat ++ rest).take 8 = Bytes.bigEndian 8 limb.toNat := fun _ _ =>
      List.take_left' (Bytes.length_bigEndian 8 _)
    have hdrop : ∀ (limb : UInt64) (rest : Bytes),
        (Bytes.bigEndian 8 limb.toNat ++ rest).drop 8 = rest := fun _ _ =>
      List.drop_left' (Bytes.length_bigEndian 8 _)
    have hlast : (Bytes.bigEndian 8 a.limb0.toNat).take 8 = Bytes.bigEndian 8 a.limb0.toNat :=
      List.take_of_length_le (by simp)
    simp only [toBytes_eq, limbsOfBytes, htake, hdrop, hlast, limb_bytes, UInt64.ofNat_toNat]
  simp only [ofWord, toWord, hlimbs]
  rfl

/-! ## Bytes as limbs -/

/-- Eight bytes come back from the limb that they make. -/
private theorem bytes_limb {bytes : Bytes} (h : bytes.length = 8) :
    Bytes.bigEndian 8 (UInt64.ofNat (Bytes.bigEndianValue bytes)).toNat = bytes := by
  have hlt := Bytes.bigEndianValue_lt bytes
  rw [h] at hlt
  have hlimb : (UInt64.ofNat (Bytes.bigEndianValue bytes)).toNat = Bytes.bigEndianValue bytes :=
    UInt64.toNat_ofNat_of_lt hlt
  rw [hlimb, ← h]
  exact Bytes.bigEndian_bigEndianValue bytes

/-- The bytes of a storage word come back from the number in it. -/
theorem toBytes_ofWord (word : Word) : (ofWord word).toBytes = word.toList := by
  obtain ⟨bytes, hlength⟩ := word
  show (ofLimbs (limbsOfBytes 4 bytes).reverse).toBytes = bytes
  -- The highest limb is made of the first eight bytes, and so on.
  rw [toBytes_eq]
  simp only [limbsOfBytes, List.reverse_cons, List.reverse_nil, List.nil_append, List.cons_append,
    ofLimbs, List.getD_cons_zero, List.getD_cons_succ, List.drop_drop, Nat.reduceAdd]
  have hchunk : ∀ n, n + 8 ≤ 32 → ((bytes.drop n).take 8).length = 8 := by
    intro n hn
    rw [List.length_take, List.length_drop, hlength]
    omega
  have hfirst : (bytes.take 8).length = 8 := hchunk 0 (by omega)
  rw [bytes_limb (hchunk 24 (by omega)), bytes_limb (hchunk 16 (by omega)),
    bytes_limb (hchunk 8 (by omega)), bytes_limb hfirst]
  -- Put together again, they are the bytes of the word.
  have hlast : (bytes.drop 24).take 8 = bytes.drop 24 := by
    apply List.take_of_length_le
    rw [List.length_drop, hlength]
  have hjoin : ∀ n, (bytes.drop n).take 8 ++ bytes.drop (n + 8) = bytes.drop n := by
    intro n
    rw [← List.drop_drop]
    exact List.take_append_drop 8 _
  rw [hlast, hjoin 16, hjoin 8]
  exact List.take_append_drop 8 bytes

theorem toWord_ofWord (word : Word) : (ofWord word).toWord = word :=
  FixedBytes.ext (toBytes_ofWord word)

/-- The number in a storage word is the value of its bytes, most significant first. -/
theorem toNat_ofWord (word : Word) : (ofWord word).toNat = Bytes.bigEndianValue word.toList := by
  rw [← bigEndianValue_toBytes, toBytes_ofWord]

end UInt256

end BridgeMint
