import BridgeMint.Canonical.Records
import BridgeMint.Proofs.Canonical.Exact

/-!
# The canonical encodings of the ledger's records

Numbers, addresses, words, account headers, logs and messages have exact codecs, because they are put together
from parts that have.  Only the counts of topics and of bytes of data put a bound on what can be written.
-/

namespace BridgeMint

namespace Codec

theorem exact_uint256 : uint256.Exact fun _ => True := by
  have hlimbs := exact_uint64.pair (exact_uint64.pair (exact_uint64.pair exact_uint64))
  have hnumber : uint256.Exact _ := hlimbs.rename (fun _ => rfl) fun _ => rfl
  exact hnumber.congr fun _ => by simp

theorem exact_account : account.Exact fun _ => True := by
  have hfields := exact_uint64.pair (exact_uint256.pair (exact_fixedBytes 32))
  have hheader : account.Exact _ := hfields.rename (fun _ => rfl) fun _ => rfl
  exact hheader.congr fun _ => by simp

/-- A log is its address, its topics, its data and its place. -/
theorem exact_log : log.Exact fun l => l.topics.length < 2 ^ 32 ∧ l.data.length < 2 ^ 32 := by
  have hplace := exact_uint64.pair (exact_uint32.pair exact_uint32)
  have hfields := (exact_fixedBytes 20).pair
    ((exact_fixedBytes 32).list.pair (exact_byteString.pair hplace))
  have hlog : log.Exact _ := hfields.rename (fun _ => rfl) fun _ => rfl
  -- Of the conditions on the parts, those that always hold drop out.
  exact hlog.congr fun _ => by simp

/-- A message is its sender, its receiver, if any, and what it pays and carries. -/
theorem exact_message : message.Exact fun m => m.data.length < 2 ^ 32 := by
  -- The fields are paired from the last one on.
  have hpayment := exact_uint64.pair (exact_uint256.pair exact_byteString)
  have hparties := (exact_fixedBytes 20).pair ((exact_fixedBytes 20).optional.pair
    (exact_uint64.pair (exact_uint256.pair hpayment)))
  have hmessage : message.Exact _ := hparties.rename (fun _ => rfl) fun _ => rfl
  exact hmessage.congr fun _ => by simp

/-- Encoding and decoding are inverse to each other for all the records, as long as their lists can be
counted.  Every byte string that is not an encoding is refused, as too short, as too long or for its tag. -/
theorem records_canonical :
    uint256.Canonical (fun _ => True) ∧ address.Canonical (fun _ => True) ∧
      word.Canonical (fun _ => True) ∧ account.Canonical (fun _ => True) ∧
      log.Canonical (fun l => l.topics.length < 2 ^ 32 ∧ l.data.length < 2 ^ 32) ∧
      message.Canonical (fun m => m.data.length < 2 ^ 32) :=
  ⟨exact_uint256.canonical, (exact_fixedBytes 20).canonical, (exact_fixedBytes 32).canonical,
    exact_account.canonical, exact_log.canonical, exact_message.canonical⟩

/-- Data whose length is a lie end too early, however much of them there is. -/
example : byteString.decodeAll [5, 0, 0, 0, 1, 2] = .error .unexpectedEnd := by decide

end Codec

end BridgeMint
