import BridgeMint.Address
import BridgeMint.Proofs.UInt256.Text

/-!
# What storage words hold

Numbers and addresses are stored in words of thirty-two bytes.  Every word is the numeral of one number, so
nothing is lost in either direction, and the order in which words are listed is the order of the numbers.
An address comes back from its word; a word is that of an address only if it starts with twelve zeros.
-/

namespace BridgeMint

/-! ## The order of bytes -/

namespace Bytes

theorem bigEndianValue_cons (b : UInt8) (rest : Bytes) :
    bigEndianValue (b :: rest) = bigEndianValue rest + 256 ^ rest.length * b.toNat := by
  have happend := bigEndianValue_append [b] rest
  have hb : bigEndianValue [b] = b.toNat := by simp [bigEndianValue]
  rw [hb, List.singleton_append] at happend
  rw [happend, Nat.add_comm]

/-- Dictionary order of byte strings of one length is the order of their values. -/
theorem compare_eq_compare_bigEndianValue {a b : Bytes} (h : a.length = b.length) :
    compare a b = compare (bigEndianValue a) (bigEndianValue b) := by
  induction a generalizing b with
  | nil =>
    -- Two empty strings have the value zero.
    obtain rfl := List.length_eq_zero_iff.mp h.symm
    rfl
  | cons x rest ih =>
    cases b with
    | nil => cases h
    | cons y rest' =>
      have hlength : rest.length = rest'.length := Nat.succ.inj h
      -- The first bytes decide, and the rest only if they agree.
      have hrest := bigEndianValue_lt rest
      have hrest' := bigEndianValue_lt rest'
      rw [hlength] at hrest
      rw [List.compare_cons_cons, ih hlength, bigEndianValue_cons, bigEndianValue_cons, hlength,
        UInt256.compare_add_mul hrest hrest', UInt8.compare_eq_toNat_compare_toNat]

end Bytes

/-! ## Numbers -/

namespace UInt256

/-- The bytes of a number are its numeral of thirty-two base-256 digits. -/
theorem toBytes_eq_bigEndian (a : UInt256) : a.toBytes = Bytes.bigEndian 32 a.toNat := by
  have hnumeral := Bytes.bigEndian_bigEndianValue a.toBytes
  rw [length_toBytes, bigEndianValue_toBytes] at hnumeral
  exact hnumeral.symm

/-- Numbers are ordered as their words are. -/
theorem compare_toWord (a b : UInt256) : compare a.toWord b.toWord = compare a b := by
  have hlength : a.toBytes.length = b.toBytes.length := by rw [length_toBytes, length_toBytes]
  rw [FixedBytes.compare_eq, toWord, toWord, Bytes.compare_eq_compare_bigEndianValue hlength,
    bigEndianValue_toBytes, bigEndianValue_toBytes, compare_eq_compare_toNat]

/-- At most thirty-two bytes are read, and as their value. -/
theorem ofBytes_eq_ok_iff {bytes : Bytes} {a : UInt256} :
    ofBytes bytes = .ok a ↔ bytes.length ≤ 32 ∧ a.toNat = Bytes.bigEndianValue bytes := by
  by_cases hshort : bytes.length ≤ 32
  · have hfits : Bytes.bigEndianValue bytes < size := by
      -- Thirty-two bytes are just enough for every number, so no value is cut off.
      have hpow : 256 ^ bytes.length ≤ 256 ^ 32 := Nat.pow_le_pow_right (by decide) hshort
      have hsize : 256 ^ 32 = size := by rw [size]; norm_num
      have hlt := Bytes.bigEndianValue_lt bytes
      omega
    rw [ofBytes_of_length_le hshort, Except.ok.injEq, ← toNat_inj, toNat_ofNat_of_lt hfits]
    simp only [hshort, true_and, eq_comm]
  · simp only [ofBytes, hshort, dif_neg, not_false_eq_true, reduceCtorEq, false_and]

theorem ofBytes_eq_error_iff {bytes : Bytes} {e : FormatError} :
    ofBytes bytes = .error e ↔ 32 < bytes.length ∧ e = .overflow := by
  by_cases hshort : bytes.length ≤ 32
  · simp [ofBytes, hshort]
  · simp [ofBytes, hshort, Nat.lt_of_not_le hshort, eq_comm]

end UInt256

/-! ## Addresses -/

namespace Address

/-- An address is found in the word it was put into. -/
theorem ofWord_toWord (address : Address) : ofWord address.toWord = address := by
  apply FixedBytes.ext
  have hzeros : (List.replicate (32 - address.toList.length) (0 : UInt8)).length = 12 := by
    rw [List.length_replicate, address.length_toList]
  exact List.drop_left' hzeros

/-- The twelve bytes before an address in its word are zero, so other words do not come back. -/
theorem toWord_ofWord_iff {word : Word} :
    (ofWord word).toWord = word ↔ word.toList.take 12 = List.replicate 12 0 := by
  -- The word that comes back starts with zeros in any case.
  have hzeros : (ofWord word).toWord.toList = List.replicate 12 0 ++ word.toList.drop 12 := by
    show List.replicate (32 - (ofWord word).toList.length) 0 ++ (ofWord word).toList = _
    rw [(ofWord word).length_toList]
    rfl
  constructor
  · intro hsame
    rw [hsame] at hzeros
    rw [hzeros]
    rfl
  · intro htake
    apply FixedBytes.ext
    rw [hzeros, ← htake, List.take_append_drop]

end Address

/-- Storage words keep values and their order.  The bytes of a number are its big-endian numeral, every word
is the word of exactly one number, and words are listed in the order of their numbers; at most thirty-two
bytes are read as their value, and more are refused.  An address comes back from its word, and a word from
its address exactly if it starts with twelve zeros. -/
theorem words_keep_values_and_order :
    (∀ a : UInt256, a.toBytes = Bytes.bigEndian 32 a.toNat ∧ a.toBytes.length = 32 ∧
      Bytes.bigEndianValue a.toBytes = a.toNat) ∧
    ((∀ a : UInt256, a.toWord.toList = a.toBytes ∧ UInt256.ofWord a.toWord = a) ∧
      ∀ word : Word, (UInt256.ofWord word).toWord = word) ∧
    (∀ a b : UInt256, (a < b ↔ compare a.toWord b.toWord = .lt) ∧
      (a < b ↔ a.toNat < b.toNat)) ∧
    (∀ bytes, (∀ a, UInt256.ofBytes bytes = .ok a ↔
        bytes.length ≤ 32 ∧ a.toNat = Bytes.bigEndianValue bytes) ∧
      ∀ e, UInt256.ofBytes bytes = .error e ↔ 32 < bytes.length ∧ e = .overflow) ∧
    (∀ address : Address, Address.ofWord address.toWord = address) ∧
    ∀ word : Word, (Address.ofWord word).toWord = word ↔
      word.toList.take 12 = List.replicate 12 0 := by
  refine ⟨fun a => ?numeral, ⟨fun a => ⟨rfl, UInt256.ofWord_toWord a⟩, UInt256.toWord_ofWord⟩,
    fun a b => ?order, fun bytes => ?reading, Address.ofWord_toWord, fun word => ?address⟩
  case numeral =>
    exact ⟨a.toBytes_eq_bigEndian, a.length_toBytes, a.bigEndianValue_toBytes⟩
  case order =>
    refine ⟨?_, UInt256.lt_iff_toNat_lt⟩
    rw [UInt256.compare_toWord]
    exact Iff.rfl
  case reading => exact ⟨fun a => UInt256.ofBytes_eq_ok_iff, fun e => UInt256.ofBytes_eq_error_iff⟩
  case address => exact Address.toWord_ofWord_iff

/-- Limbs and bytes stand in opposite orders: the last limb decides, and so do the first bytes. -/
example : UInt256.mk 0xffffffffffffffff 0 0 0 < UInt256.mk 0 0 0 1 ∧
    compare (UInt256.mk 0xffffffffffffffff 0 0 0).toWord (UInt256.mk 0 0 0 1).toWord = .lt := by
  decide

end BridgeMint
