import BridgeMint.Mint.Contract

/-!
# The digest of the mint contract

The digest of the contract's code is neither that of the empty byte string nor the zero word, so the
contract is never taken for an account without code, nor for an account that does not exist.
-/

namespace BridgeMint

namespace MintContract

private theorem firstByte_emptyDigest : Word.emptyDigest.toList.head? = some 0xc5 := by
  decide +kernel

private theorem firstByte_codeHash : codeHash.toList.head? = some 0x90 := by
  decide +kernel

/-- The contract has code. -/
theorem codeHash_ne_emptyDigest : codeHash ≠ .emptyDigest := by
  intro h
  -- The two digests differ in their first bytes.
  have hbyte := firstByte_codeHash
  rw [h, firstByte_emptyDigest] at hbyte
  simp at hbyte

/-- The contract is not taken for an account that does not exist. -/
theorem codeHash_ne_zero : codeHash ≠ .zero := by
  intro h
  have hbyte := firstByte_codeHash
  rw [h] at hbyte
  revert hbyte
  decide

end MintContract

/-- An account without code is told from one that does not exist. -/
theorem Word.emptyDigest_ne_zero : Word.emptyDigest ≠ .zero := by
  intro h
  have hbyte := MintContract.firstByte_emptyDigest
  rw [h] at hbyte
  revert hbyte
  decide

end BridgeMint
