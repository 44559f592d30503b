import BridgeMint.Migration.Registry
import BridgeMint.Receipt
import BridgeMint.Transition

/-!
# Carrying out a block

The migrations of the block's height run first, then its messages in order, each committed before
the next one starts.  A block whose gas limit is above the chain's is refused before anything is
touched; a block with a message that is refused is refused as a whole, and the ledger it leaves
behind is to be thrown away.
-/

namespace BridgeMint

/-- A block ready to be carried out. -/
structure Block where
  header : BlockHeader
  messages : List Message
  deriving DecidableEq

/-- What became of a block. -/
structure BlockOutcome where
  receipts : List Receipt
  gasUsed : UInt64
  deriving DecidableEq

namespace BlockOutcome

def start : BlockOutcome := ⟨[], 0⟩

instance : Inhabited BlockOutcome := ⟨start⟩

end BlockOutcome

namespace Step

variable {σ : Type}

/-- Runs the migrations of a height. -/
def migrate (registry : MigrationRegistry) (height : UInt64) (source : String) : Step σ Unit :=
  modify fun w => w.withLedger (registry.execute height source w.toLedger)

/-- The receipt of a message, once it has been carried out and committed. -/
def receiptOf (block : BlockHeader) (txIndex : UInt32) (message : Message) (outcome : Outcome)
    (cumulative : UInt64) (s : Store) : Receipt where
  txIndex := txIndex
  blockNumber := block.number
  sender := message.sender
  recipient := message.recipient
  succeeded := outcome.succeeded
  gasUsed := outcome.gasUsed
  cumulativeGasUsed := cumulative
  logs := s.txLogs txIndex
  revertReason := outcome.revertReason

/-- Carries out one message of a block and adds its receipt. -/
def processMessage (config : ChainConfig) (executor : Executor σ) (block : BlockHeader)
    (soFar : BlockOutcome) (index : Nat) (message : Message) : Step σ BlockOutcome := do
  let txIndex := UInt32.ofNat index
  if block.gasLimit - soFar.gasUsed < message.gasLimit then
    throw (.blockGasExceeded (UInt64.saturatingAdd soFar.gasUsed message.gasLimit) block.gasLimit)
  change (·.selectTx txIndex)
  let outcome ← applyMessage config executor (.ofBlock block) message
  change (·.commit)
  let cumulative := soFar.gasUsed + outcome.gasUsed
  let receipt := receiptOf block txIndex message outcome cumulative (← store)
  note (.transactionProcessed block.number txIndex outcome.gasUsed outcome.succeeded)
  return ⟨soFar.receipts ++ [receipt], cumulative⟩

/-- Carries out the messages of a block in order; `index` is the place of the first one. -/
def processMessages (config : ChainConfig) (executor : Executor σ) (block : BlockHeader) :
    (soFar : BlockOutcome) → (index : Nat) → List Message → Step σ BlockOutcome
  | soFar, _, [] => return soFar
  | soFar, index, message :: rest => do
    let next ← processMessage config executor block soFar index message
    processMessages config executor block next (index + 1) rest

/-- Carries out a block on a chain; `source` tells who asked for it.  Calls in blocks are not
traced. -/
def processBlock (config : ChainConfig) (registry : MigrationRegistry) (executor : Executor σ)
    (block : Block) (source : String) : Step σ BlockOutcome := do
  let header := block.header
  if config.gasLimit < header.gasLimit then
    throw (.blockLimitAboveChain header.gasLimit config.gasLimit)
  modify fun w => { w with trace := none }
  -- What migrations do is committed before the first message, so no message takes it back.
  change (·.clearLogs)
  migrate registry header.number source
  change (·.commit)
  let outcome ← processMessages config executor header .start 0 block.messages
  note (.blockProcessed header.number block.messages.length outcome.gasUsed)
  return outcome

end Step

end BridgeMint
