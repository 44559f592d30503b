import BridgeMint.Execution.World
import BridgeMint.Mint.Instruction

/-!
# Carrying out mint instructions

An instruction lowers what is left to mint, counts as a message of its sender, credits the sender and
leaves one log behind.  A trace shows it as a call of the contract, although no code runs.
-/

namespace BridgeMint

/-- The successor of a nonce, unless there is none. -/
def nextNonce? (nonce : UInt64) : Option UInt64 :=
  if nonce.toNat + 1 < UInt64.size then some (nonce + 1) else none

namespace Step

variable {σ : Type}

/-- Reads a message's data as a mint instruction and gives notice of a rejection. -/
def readInstruction (sender receiver : Address) (payload : Bytes) : Step σ (Option Instruction) := do
  match Instruction.read (← store) sender receiver payload with
  | .ok instruction => return some instruction
  | .error rejection =>
    match rejection.notice? with
    | none => return none
    | some notice =>
      note notice
      return none

/-- Carries out a mint instruction; `gas` is only shown in the trace. -/
def applyInstruction (context : ExecutionContext) (instruction : Instruction) (gas : UInt64) :
    Step σ Unit := do
  let sender := instruction.sender
  let nonce := (← store).nonce sender
  match nextNonce? nonce with
  | none => throw (.nonceExhausted sender nonce)
  | some next =>
    change (·.setWord MintContract.address MintContract.limitSlot instruction.nextLimit.toWord)
    change (·.setNonce sender next)
    attempt (·.addBalance sender instruction.amount)
    change (·.addLog (instruction.log context.block.number))
    traceStart
      { sender, recipient := MintContract.address, isCreation := false
        input := instruction.payload, gas, value := 0 }
    traceEnd { output := [], gasUsed := 0, failure := none }
    note (.mintApplied sender instruction.amount instruction.nextLimit instruction.burn
      instruction.network)

end Step

end BridgeMint
