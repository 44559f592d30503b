import BridgeMint.Execution.Executor
import BridgeMint.Message
import BridgeMint.Mint.Apply

/-!
# Carrying out a message

A message is first checked: its nonce, its gas limit against what it costs before anything runs, and
the sender's funds.  A message that fails a check is refused and changes nothing.  Then the sender
pays for the whole gas limit, and the message either mints or is an ordinary call, which moves its
value and runs the code of the recipient.  A call that fails is taken back, the nonce excepted.  At
the end unused gas is paid back and the fee goes to the chain's collector or the block's producer.
-/

namespace BridgeMint

/-- What became of a message. -/
structure Outcome where
  /-- All gas used, that for the message itself included. -/
  gasUsed : UInt64
  failure : Option CallError
  /-- What the code returned, or the reason it gave for a revert. -/
  output : Bytes
  /-- Whether the message was a mint instruction. -/
  minted : Bool
  deriving DecidableEq

namespace Outcome

def succeeded (outcome : Outcome) : Bool :=
  outcome.failure.isNone

/-- The reason of a revert, if the code gave one. -/
def revertReason (outcome : Outcome) : Option Bytes :=
  match outcome.failure with
  | some (.reverted _) => if outcome.output.isEmpty then none else some outcome.output
  | _ => none

end Outcome

namespace Message

/-- What a message costs before anything runs. -/
def intrinsicGas (message : Message) (schedule : GasSchedule) : UInt64 :=
  schedule.intrinsicGas message.data message.isCreation

/-- What the gas limit of a message costs, if that number fits. -/
def gasCost? (message : Message) : Option UInt256 :=
  (UInt256.ofUInt64 message.gasLimit).checkedMul message.gasPrice

/-- What the sender must hold: the cost of the gas limit and the value, if that number fits. -/
def totalCost? (message : Message) : Option UInt256 :=
  message.gasCost?.bind (·.checkedAdd message.value)

/-- Checks whether a message may run, and gives the cost of its gas limit. -/
def approve (message : Message) (schedule : GasSchedule) (s : Store) : Except LedgerError UInt256 :=
  let expected := s.nonce message.sender
  if message.nonce ≠ expected then .error (.wrongNonce message.sender expected message.nonce)
  else if message.nonce = 0xffffffffffffffff then
    .error (.nonceExhausted message.sender message.nonce)
  else
    let intrinsic := message.intrinsicGas schedule
    if message.gasLimit < intrinsic then .error (.intrinsicGas intrinsic message.gasLimit)
    else
      let held := s.balance message.sender
      match message.gasCost?, message.totalCost? with
      | some cost, some need =>
        if need ≤ held then .ok cost else .error (.insufficientFunds message.sender held need)
      | _, need => .error (.insufficientFunds message.sender held (need.getD .max))

end Message

/-- The account that receives the fees of a block's messages. -/
def ChainConfig.feeReceiver (config : ChainConfig) (block : BlockHeader) : Address :=
  config.feeCollector.getD block.coinbase

namespace Step

variable {σ : Type}

/-! ## The two ways a message runs -/

/-- How a message ran: the gas used so far, what went wrong, and what came out. -/
structure Ran where
  meter : GasMeter
  failure : Option CallError
  output : Bytes

/-- Runs a mint instruction.  Without enough gas for it, all gas is used and nothing but the nonce
changes. -/
def runInstruction (context : ExecutionContext) (meter : GasMeter) (instruction : Instruction) :
    Step σ Ran := do
  match meter.charge context.schedule.mint with
  | .error cause =>
    let nonce := (← store).nonce instruction.sender
    change (·.setNonce instruction.sender (nonce + 1))
    return ⟨meter.exhaust, some cause, []⟩
  | .ok charged =>
    applyInstruction context instruction meter.remaining
    return ⟨charged, none, []⟩

/-- What the executor's result amounts to: the failure, if any, and the output. -/
def judge (result : CallResult) : Option CallError × Bytes :=
  if result.succeeded then (none, result.output)
  else (some (result.failure.getD (.reverted none)), result.output)

/-- Moves the value of a call and runs the code of its recipient, if there is any.  Gas reported
beyond what there was does not count. -/
def runCode (executor : Executor σ) (context : ExecutionContext) (message : Message)
    (recipient : Address) (meter : GasMeter) : Step σ Ran := do
  attempt (·.subBalance message.sender message.value)
  attempt (·.addBalance recipient message.value)
  if ((← store).code recipient).isEmpty then
    return ⟨meter, none, []⟩
  else
    let result ← executor context
      ⟨message.sender, recipient, message.data, message.value, meter.remaining⟩
    let charged ← charge meter (min result.gasUsed meter.remaining)
    let (failure, output) := judge result
    return ⟨charged, failure, output⟩

/-- Runs the inside of a call: the part that is taken back when it fails.  Contracts cannot be
created. -/
def runInside (executor : Executor σ) (context : ExecutionContext) (message : Message)
    (meter : GasMeter) : Step σ Ran :=
  match message.recipient with
  | some recipient => runCode executor context message recipient meter
  | none => return ⟨meter, some (.fault "contract creation is not supported"), []⟩

/-- Takes a failed call back to where it started; running out of gas uses all there was. -/
def concludeCall (snapshot : Nat) (ran : Ran) : Step σ Ran := do
  match ran.failure with
  | none => return ran
  | some cause =>
    revertTo snapshot
    match cause with
    | .outOfGas .. => return { ran with meter := ran.meter.exhaust }
    | _ => return ran

/-- Runs an ordinary call. -/
def runCall (executor : Executor σ) (context : ExecutionContext) (message : Message)
    (meter : GasMeter) : Step σ Ran := do
  -- The nonce counts before the snapshot is taken, so a failed call keeps it.
  change (·.setNonce message.sender (message.nonce + 1))
  traceStart
    { sender := message.sender, recipient := message.recipient.getD .zero
      isCreation := message.isCreation, input := message.data, gas := meter.remaining
      value := message.value }
  let id ← snapshot
  let ran ← concludeCall id (← runInside executor context message meter)
  traceEnd
    { output := ran.output, gasUsed := meter.remaining - ran.meter.remaining
      failure := ran.failure.map CallError.message }
  return ran

/-! ## The whole message -/

/-- Pays unused gas back to the sender and the fee to its receiver. -/
def settleFees (receiver : Address) (message : Message) (meter : GasMeter) : Step σ Unit := do
  -- Neither product exceeds the cost of the gas limit, which was found to fit.
  attempt (·.addBalance message.sender (UInt256.ofUInt64 meter.remaining * message.gasPrice))
  attempt (·.addBalance receiver (UInt256.ofUInt64 meter.used * message.gasPrice))

/-- The mint instruction in a message, if it is one. -/
def instruction? (message : Message) : Step σ (Option Instruction) :=
  match message.recipient with
  | some recipient => readInstruction message.sender recipient message.data
  | none => return none

/-- Carries out a message on a chain. -/
def applyMessage (config : ChainConfig) (executor : Executor σ) (context : ExecutionContext)
    (message : Message) : Step σ Outcome := do
  -- The whole gas limit is paid for in advance; what is left over comes back at the end.
  let cost ← message.approve context.schedule (← store)
  attempt (·.subBalance message.sender cost)
  let meter ← charge (.start message.gasLimit) (message.intrinsicGas context.schedule)
  let instruction ← instruction? message
  let ran ← match instruction with
    | some instruction => runInstruction context meter instruction
    | none => runCall executor context message meter
  settleFees (config.feeReceiver context.block) message ran.meter
  note (.messageApplied message.sender message.nonce ran.meter.used instruction.isSome
    ran.failure.isSome)
  return { gasUsed := ran.meter.used, failure := ran.failure, output := ran.output
           minted := instruction.isSome }

end Step

end BridgeMint
