import BridgeMint.Address
import BridgeMint.Mint.BurnNetwork
import BridgeMint.UInt256.Text

/-!
# Notices

What the program reports while it works, for whoever reads its log.  A notice is a value: computing
with the ledger collects notices and never writes them anywhere.  Each kind has a severity, the part
of the program it comes from, a sentence, and named fields.
-/

namespace BridgeMint

/-- How much a notice matters, from the gravest down. -/
inductive Severity where
  | error
  | warn
  | info
  | debug
  | trace
  deriving DecidableEq, Repr

namespace Severity

/-- The rank of a severity; greater ranks are more talkative. -/
def rank : Severity → Nat
  | error => 1
  | warn => 2
  | info => 3
  | debug => 4
  | trace => 5

/-- The severity as it stands in a log line. -/
def label : Severity → String
  | error => "ERROR"
  | warn => "WARN"
  | info => "INFO"
  | debug => "DEBUG"
  | trace => "TRACE"

end Severity

/-- The value of a named field of a notice. -/
inductive FieldValue where
  | number (n : Nat)
  | truth (b : Bool)
  | text (s : String)
  deriving DecidableEq, Repr

def FieldValue.render : FieldValue → String
  | number n => toString n
  | truth b => toString b
  | text s => s

/-- What the program reports while it works. -/
inductive Notice where
  /-- The store goes back to a snapshot, undoing so many changes. -/
  | reverting (snapshot changes : Nat)
  /-- A traced call starts. -/
  | callStart (sender recipient : Address) (gas : UInt64) (inputLength : Nat)
  /-- A traced call ends. -/
  | callEnd (gasUsed : UInt64) (failed : Bool)
  /-- Code was called, but there is nothing that could run it. -/
  | noInterpreter (caller address : Address) (block : UInt64) (inputLength : Nat)
  /-- A mint instruction names a ledger that is not known. -/
  | unknownNetwork (tag : UInt8)
  /-- The mint contract is not installed. -/
  | contractMissing
  /-- A mint instruction does not come from the contract's owner. -/
  | notOwner (sender owner : Address)
  /-- A mint instruction asks for more than is left to mint. -/
  | aboveLimit (amount limit : UInt256)
  /-- A mint instruction took effect. -/
  | mintApplied (sender : Address) (amount limit : UInt256) (burn : Word) (network : BurnNetwork)
  /-- A message was carried out. -/
  | messageApplied (sender : Address) (nonce gasUsed : UInt64) (minted failed : Bool)
  /-- A migration runs. -/
  | migrating (name : String) (height : UInt64) (source : String)
  /-- A message of a block has its receipt. -/
  | transactionProcessed (block : UInt64) (txIndex : UInt32) (gasUsed : UInt64) (success : Bool)
  /-- A block has been carried out. -/
  | blockProcessed (block : UInt64) (txs : Nat) (gasUsed : UInt64)
  /-- The configuration was read from a file. -/
  | configLoaded (path : String)
  /-- There is no configuration file, and the defaults apply. -/
  | configDefault
  /-- The chain's parameters. -/
  | chainParameters (name : String) (chainId gasLimit : UInt64)
  /-- Fees go to an account of their own. -/
  | feesCollected (collector : Address)
  /-- The chain's fork parameters are unusable. -/
  | forkInvalid (reason : String)
  /-- What the chain's fork will do. -/
  | forkSummary (summary : String)
  /-- The configuration was written to a file. -/
  | configWritten (path : String)
  deriving DecidableEq

namespace Notice

def severity : Notice → Severity
  | reverting .. | callStart .. | callEnd .. => .trace
  | noInterpreter .. | mintApplied .. | messageApplied .. | transactionProcessed .. => .debug
  | migrating .. | blockProcessed .. | configLoaded .. | configDefault | chainParameters ..
  | feesCollected .. | forkSummary .. | configWritten .. => .info
  | unknownNetwork .. | contractMissing | notOwner .. | aboveLimit .. => .warn
  | forkInvalid .. => .error

/-- The part of the program a notice comes from, by the name it has in log lines and filters. -/
def source : Notice → String
  | reverting .. => "forgemint_state::memory"
  | callStart .. | callEnd .. => "forgemint_vm::tracer"
  | noInterpreter .. => "forgemint_vm::executor"
  | unknownNetwork .. | contractMissing | notOwner .. | aboveLimit .. | mintApplied .. =>
    "forgemint_core::mint::instruction"
  | messageApplied .. => "forgemint_core::state_transition"
  | migrating .. => "forgemint_core::migrations"
  | transactionProcessed .. | blockProcessed .. => "forgemint_core::block_processor"
  | configLoaded .. | configDefault | chainParameters .. | feesCollected .. | forkInvalid ..
  | forkSummary .. | configWritten .. => "forgemint_node"

def message : Notice → String
  | reverting .. => "Reverting state"
  | callStart .. => "Call start"
  | callEnd .. => "Call end"
  | noInterpreter .. => "No bytecode interpreter configured, reverting call"
  | unknownNetwork .. => "invalid burn tx network in mint instruction"
  | contractMissing => "mint contract not found in current state"
  | notOwner .. => "transaction sender is not allowed to mint"
  | aboveLimit .. => "mint amount exceeds mint limit"
  | mintApplied .. => "Applied mint instruction"
  | messageApplied .. => "Applied message"
  | migrating .. => "Executing state migration"
  | transactionProcessed .. => "Processed transaction"
  | blockProcessed .. => "Processed block"
  | configLoaded .. => "Loaded configuration"
  | configDefault => "Using default configuration"
  | chainParameters .. => "Chain parameters"
  | feesCollected .. => "Fees go to collector"
  | forkInvalid reason => s!"Invalid fork configuration: {reason}"
  | forkSummary summary => summary
  | configWritten .. => "Wrote configuration"

def fields : Notice → List (String × FieldValue)
  | reverting snapshot changes => [("snapshot", .number snapshot), ("changes", .number changes)]
  | callStart sender recipient gas inputLength =>
    [("from", .text sender.text), ("to", .text recipient.text), ("gas", .number gas.toNat),
      ("input_len", .number inputLength)]
  | callEnd gasUsed failed => [("gas_used", .number gasUsed.toNat), ("failed", .truth failed)]
  | noInterpreter caller address block inputLength =>
    [("caller", .text caller.text), ("address", .text address.text),
      ("block", .number block.toNat), ("input_len", .number inputLength)]
  | unknownNetwork tag => [("network", .number tag.toNat)]
  | contractMissing | configDefault | forkInvalid .. | forkSummary .. => []
  | notOwner sender owner => [("sender", .text sender.text), ("owner", .text owner.text)]
  | aboveLimit amount limit => [("amount", .text amount.decimal), ("limit", .text limit.decimal)]
  | mintApplied sender amount limit burn network =>
    [("sender", .text sender.text), ("amount", .text amount.decimal),
      ("limit", .text limit.decimal), ("burn_tx", .text burn.text),
      ("network", .text network.name)]
  | messageApplied sender nonce gasUsed minted failed =>
    [("from", .text sender.text), ("nonce", .number nonce.toNat),
      ("gas_used", .number gasUsed.toNat), ("minted", .truth minted), ("failed", .truth failed)]
  | migrating name height source =>
    [("name", .text name), ("height", .number height.toNat), ("source", .text source)]
  | transactionProcessed block txIndex gasUsed success =>
    [("block", .number block.toNat), ("tx_index", .number txIndex.toNat),
      ("gas_used", .number gasUsed.toNat), ("success", .truth success)]
  | blockProcessed block txs gasUsed =>
    [("block", .number block.toNat), ("txs", .number txs), ("gas_used", .number gasUsed.toNat)]
  | configLoaded path | configWritten path => [("path", .text path)]
  | chainParameters name chainId gasLimit =>
    [("name", .text name), ("chain_id", .number chainId.toNat),
      ("gas_limit", .number gasLimit.toNat)]
  | feesCollected collector => [("collector", .text collector.text)]

end Notice

end BridgeMint
