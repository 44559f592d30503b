import BridgeMint.Account
import BridgeMint.Address
import BridgeMint.Block
import BridgeMint.Bytes
import BridgeMint.Bytes.Fixed
import BridgeMint.Bytes.Hex
import BridgeMint.CallError
import BridgeMint.CallTrace
import BridgeMint.Canonical.Codec
import BridgeMint.Canonical.Records
import BridgeMint.CommandLine.Arguments
import BridgeMint.CommandLine.Program
import BridgeMint.CommandLine.Simulated
import BridgeMint.CommandLine.Usage
import BridgeMint.Config.Chain
import BridgeMint.Config.ChainData
import BridgeMint.Config.Node
import BridgeMint.Config.NodeData
import BridgeMint.Config.NodeFile
import BridgeMint.Data.Datum
import BridgeMint.Data.Magnitude
import BridgeMint.Data.Record
import BridgeMint.Execution.Context
import BridgeMint.Execution.Executor
import BridgeMint.Execution.World
import BridgeMint.Files.Directory
import BridgeMint.Files.Fault
import BridgeMint.Files.Path
import BridgeMint.FormatError
import BridgeMint.Gas
import BridgeMint.Json.Fault
import BridgeMint.Json.Number
import BridgeMint.Json.Reader
import BridgeMint.Json.Text
import BridgeMint.Json.Writer
import BridgeMint.Keccak
import BridgeMint.Ledger
import BridgeMint.LedgerError
import BridgeMint.Log
import BridgeMint.Main
import BridgeMint.Message
import BridgeMint.Migration.MintFork
import BridgeMint.Migration.Plan
import BridgeMint.Migration.Registry
import BridgeMint.Mint.Apply
import BridgeMint.Mint.BurnNetwork
import BridgeMint.Mint.Contract
import BridgeMint.Mint.Instruction
import BridgeMint.Notice
import BridgeMint.Notice.Filter
import BridgeMint.Notice.Line
import BridgeMint.Notice.Pattern
import BridgeMint.Notice.Pattern.Bracket
import BridgeMint.Notice.Pattern.Symbol
import BridgeMint.Proofs.Bytes.Hex
import BridgeMint.Proofs.Bytes.Spelling
import BridgeMint.Proofs.CallTrace.Nesting
import BridgeMint.Proofs.CallTrace.Stack
import BridgeMint.Proofs.Canonical.Codec
import BridgeMint.Proofs.Canonical.Exact
import BridgeMint.Proofs.Canonical.Records
import BridgeMint.Proofs.Chain.Block
import BridgeMint.Proofs.Chain.Bootstrap
import BridgeMint.Proofs.Chain.Forks
import BridgeMint.Proofs.Chain.Gas
import BridgeMint.Proofs.Chain.History
import BridgeMint.Proofs.Chain.Logs
import BridgeMint.Proofs.Chain.Plan
import BridgeMint.Proofs.Chain.Quota
import BridgeMint.Proofs.Config.ChainData
import BridgeMint.Proofs.Config.NodeData
import BridgeMint.Proofs.Config.NodeFile
import BridgeMint.Proofs.Data.Record
import BridgeMint.Proofs.Execution.Executor
import BridgeMint.Proofs.Execution.Parallel
import BridgeMint.Proofs.Execution.Refusal
import BridgeMint.Proofs.Execution.Step
import BridgeMint.Proofs.Execution.Strategy
import BridgeMint.Proofs.Execution.Tracing
import BridgeMint.Proofs.Gas
import BridgeMint.Proofs.Grouping
import BridgeMint.Proofs.Json.Number
import BridgeMint.Proofs.Json.Text
import BridgeMint.Proofs.Json.Value
import BridgeMint.Proofs.Metering
import BridgeMint.Proofs.Migration.Order
import BridgeMint.Proofs.Migration.Registry
import BridgeMint.Proofs.Mint.Instruction
import BridgeMint.Proofs.Mint.Metered
import BridgeMint.Proofs.Mint.Untouched
import BridgeMint.Proofs.SortedMap
import BridgeMint.Proofs.Store.Closing
import BridgeMint.Proofs.Store.Copying
import BridgeMint.Proofs.Store.Discipline
import BridgeMint.Proofs.Store.Effects
import BridgeMint.Proofs.Store.Invariant
import BridgeMint.Proofs.Store.Nonces
import BridgeMint.Proofs.Store.Numbers
import BridgeMint.Proofs.Store.Placement
import BridgeMint.Proofs.Store.Posting
import BridgeMint.Proofs.Store.Programs
import BridgeMint.Proofs.Store.Renumbering
import BridgeMint.Proofs.Store.Revert
import BridgeMint.Proofs.Store.Root
import BridgeMint.Proofs.Toml.Document
import BridgeMint.Proofs.Toml.Range
import BridgeMint.Proofs.Toml.Scalar
import BridgeMint.Proofs.Toml.Text
import BridgeMint.Proofs.Toml.Tree
import BridgeMint.Proofs.Transition.Balances
import BridgeMint.Proofs.Transition.Call
import BridgeMint.Proofs.Transition.Conservation
import BridgeMint.Proofs.Transition.Failure
import BridgeMint.Proofs.Transition.IntrinsicGas
import BridgeMint.Proofs.Transition.Message
import BridgeMint.Proofs.Transition.Minting
import BridgeMint.Proofs.Transition.Numbering
import BridgeMint.Proofs.Transition.OpenSnapshot
import BridgeMint.Proofs.Transition.Plain
import BridgeMint.Proofs.Transition.Refusal
import BridgeMint.Proofs.Transition.RefusedMint
import BridgeMint.Proofs.Transition.Rejection
import BridgeMint.Proofs.Transition.Reordering
import BridgeMint.Proofs.Transition.Replay
import BridgeMint.Proofs.Transition.Settlement
import BridgeMint.Proofs.Transition.SuccessfulMint
import BridgeMint.Proofs.Transition.Tracing
import BridgeMint.Proofs.Transition.Transfer
import BridgeMint.Proofs.UInt256.Division
import BridgeMint.Proofs.UInt256.Grammar
import BridgeMint.Proofs.UInt256.LongDivision
import BridgeMint.Proofs.UInt256.Printing
import BridgeMint.Proofs.UInt256.Product
import BridgeMint.Proofs.UInt256.Registers
import BridgeMint.Proofs.UInt256.Saturating
import BridgeMint.Proofs.UInt256.Text
import BridgeMint.Proofs.UInt256.Word
import BridgeMint.Proofs.Word
import BridgeMint.Receipt
import BridgeMint.SortedMap
import BridgeMint.Store.Basic
import BridgeMint.Store.Journal
import BridgeMint.Store.Operation
import BridgeMint.Store.Root
import BridgeMint.Text.Alphanumeric
import BridgeMint.Text.ControlSequence
import BridgeMint.Text.Printable
import BridgeMint.Text.Quoted
import BridgeMint.Text.Runs
import BridgeMint.Text.White
import BridgeMint.Toml.Document
import BridgeMint.Toml.Line
import BridgeMint.Toml.Moment
import BridgeMint.Toml.Number
import BridgeMint.Toml.Quoted
import BridgeMint.Toml.Text
import BridgeMint.Toml.Tree
import BridgeMint.Toml.Value
import BridgeMint.Toml.Writer
import BridgeMint.Transition
import BridgeMint.UInt256.Basic
import BridgeMint.UInt256.Text
import BridgeMint.UInt256.Word
import BridgeMint.Word
