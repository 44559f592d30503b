import BridgeMint.Execution.World
import BridgeMint.Store.Operation

/-!
# Executors of contract code

Contract code is run by an executor that the ledger is given from outside.  When it is asked, the
value has already been moved.  It may do anything to the ledger and report any result; what the
ledger makes of the result is its own affair.
-/

namespace BridgeMint

/-- What an executor is asked to run. -/
structure CallRequest where
  caller : Address
  address : Address
  input : Bytes
  value : UInt256
  /-- How much gas there is for the call. -/
  gas : UInt64
  deriving DecidableEq

/-- What an executor reports. -/
structure CallResult where
  succeeded : Bool
  /-- What the code returned, or the reason it gave for a revert. -/
  output : Bytes
  /-- Gas used by the code. -/
  gasUsed : UInt64
  failure : Option CallError
  deriving DecidableEq

namespace CallResult

/-- The result of code that ran to its end. -/
def success (output : Bytes) (gasUsed : UInt64) : CallResult :=
  ⟨true, output, gasUsed, none⟩

/-- The result of code that failed; a revert's reason is its output. -/
def failed (cause : CallError) (gasUsed : UInt64) : CallResult :=
  let output := match cause with
    | .reverted (some reason) => reason
    | _ => []
  ⟨false, output, gasUsed, some cause⟩

end CallResult

abbrev Executor (σ : Type) := ExecutionContext → CallRequest → StateM (World σ) CallResult

namespace Executor

/-- The executor of a node without an interpreter: every call into code reverts and uses no gas. -/
def null {σ : Type} : Executor σ := fun context request => do
  modify fun w => w.withLedger <| w.toLedger.note <|
    .noInterpreter request.caller request.address context.block.number request.input.length
  return .failed (.reverted none) 0

/-! ## Scripts

Contract code can also be stood in for by scripts: at each address a fixed list of operations on the
store and a fixed result.  The executor of scripts remembers every call and the replies to the
operations it ran. -/

/-- What stands in for the code at an address. -/
structure Script where
  operations : List Operation
  result : CallResult

/-- A call that the executor of scripts was asked for. -/
structure ScriptedCall where
  request : CallRequest
  block : UInt64
  /-- The replies to the script's operations; none when there was no script. -/
  replies : Option (List Reply)

/-- Runs scripts, and behaves like a node without an interpreter where there is none.  Calls are
remembered oldest first. -/
def scripted (scripts : List (Address × Script)) : Executor (List ScriptedCall) :=
  fun context request => do
    match scripts.find? (·.1 == request.address) with
    | none =>
      modify fun w =>
        { w with memory := w.memory ++ [ScriptedCall.mk request context.block.number none] }
      null context request
    | some (_, script) =>
      let w ← get
      let (replies, ledger) := w.toLedger.performAll script.operations
      set { w.withLedger ledger with
        memory := w.memory ++ [ScriptedCall.mk request context.block.number (some replies)] }
      return script.result

end Executor

end BridgeMint
