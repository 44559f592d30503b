import BridgeMint.Address

/-!
# Event logs

What a contract announces while a message runs.  A log carries the block it belongs to, the index of
its transaction in the block and its own index among the block's logs.
-/

namespace BridgeMint

/-- An event announced by a contract. -/
structure Log where
  /-- The contract that announced it. -/
  address : Address
  /-- Indexed words; the first is usually the digest of the event's signature. -/
  topics : List Word
  data : Bytes
  blockNumber : UInt64
  txIndex : UInt32
  logIndex : UInt32
  deriving DecidableEq

namespace Log

/-- A log not yet placed in its block. -/
def unplaced (address : Address) (topics : List Word) (data : Bytes) (blockNumber : UInt64) : Log :=
  ⟨address, topics, data, blockNumber, 0, 0⟩

def describe (log : Log) : String :=
  s!"Log \x7b address: {log.address}, topics: {log.topics.length}, data: {log.data.length} bytes, block: {log.blockNumber} \x7d"

end Log

end BridgeMint
