import BridgeMint.Log

/-!
# Receipts

What a block records about each of its messages.
-/

namespace BridgeMint

/-- The record of one message in a block. -/
structure Receipt where
  /-- The message's place in the block. -/
  txIndex : UInt32
  blockNumber : UInt64
  sender : Address
  recipient : Option Address
  /-- Whether the message ran without a failure. -/
  succeeded : Bool
  gasUsed : UInt64
  /-- Gas used in the block up to and including this message. -/
  cumulativeGasUsed : UInt64
  /-- The logs announced while the message ran. -/
  logs : List Log
  /-- What the call gave as the reason of a revert. -/
  revertReason : Option Bytes
  deriving DecidableEq

namespace Receipt

def describe (receipt : Receipt) : String :=
  let status := if receipt.succeeded then "success" else "failure"
  s!"Receipt \x7b tx: {receipt.txIndex}, status: {status}, gas_used: {receipt.gasUsed}, logs: {receipt.logs.length} \x7d"

end Receipt

end BridgeMint
