import BridgeMint.Config.Chain
import BridgeMint.Gas

/-!
# What a message runs against

The header of the block a message belongs to, and the prices that apply.
-/

namespace BridgeMint

/-- The header fields of a block that execution can see. -/
structure BlockHeader where
  number : UInt64
  timestamp : UInt64
  /-- The block's producer, who receives the fees unless the chain collects them elsewhere. -/
  coinbase : Address
  /-- The most gas the block's messages may use together. -/
  gasLimit : UInt64
  parentHash : Word
  deriving DecidableEq

namespace BlockHeader

/-- A header with the usual gas limit and nothing known of time and ancestry. -/
def simple (number : UInt64) (coinbase : Address) : BlockHeader :=
  ⟨number, 0, coinbase, 30000000, .zero⟩

def withGasLimit (header : BlockHeader) (gasLimit : UInt64) : BlockHeader :=
  { header with gasLimit }

/-- A header at the gas limit of a chain. -/
def forChain (chain : ChainConfig) (number : UInt64) (coinbase : Address) : BlockHeader :=
  (simple number coinbase).withGasLimit chain.gasLimit

end BlockHeader

/-- The fixed surroundings of a message: its block and the prices. -/
structure ExecutionContext where
  block : BlockHeader
  schedule : GasSchedule
  deriving DecidableEq

namespace ExecutionContext

def ofBlock (block : BlockHeader) : ExecutionContext := ⟨block, .standard⟩

/-- One line with everything in the surroundings, and whether calls are traced. -/
def describe (context : ExecutionContext) (tracing : Bool) : String :=
  let block := context.block
  let schedule := context.schedule
  s!"ExecutionContext \x7b block: BlockContext \x7b number: {block.number}, timestamp: {block.timestamp}, coinbase: Address({block.coinbase}), gas_limit: {block.gasLimit}, parent_hash: Hash({block.parentHash}) \x7d, schedule: GasSchedule \x7b tx_base: {schedule.txBase}, tx_create: {schedule.txCreate}, tx_per_data_zero_byte: {schedule.perZeroByte}, tx_per_data_nonzero_byte: {schedule.perNonzeroByte}, mint: {schedule.mint} \x7d, tracing: {tracing} \x7d"

end ExecutionContext

end BridgeMint
