import BridgeMint.Store.Basic

/-!
# Why a call fails

The causes for which running a message or a contract's code fails, and the wording of each.
-/

namespace BridgeMint

/-- Why a call fails. -/
inductive CallError where
  /-- More gas was needed than was there. -/
  | outOfGas (used limit : UInt64)
  /-- The code asked for its effects to be undone, possibly giving a reason. -/
  | reverted (reason : Option Bytes)
  /-- The code is too long. -/
  | codeTooLong (size limit : Nat)
  /-- The call could not be run. -/
  | fault (reason : String)
  /-- The store refused an operation. -/
  | store (cause : StoreError)
  deriving DecidableEq

/-- A reason of a revert as it stands in messages: its bytes in decimal, if there is one. -/
def renderReason : Option Bytes → String
  | none => "None"
  | some bytes => "Some([" ++ String.intercalate ", " (bytes.map fun b => toString b.toNat) ++ "])"

def CallError.message : CallError → String
  | .outOfGas used limit => s!"Out of gas: used {used}, limit {limit}"
  | .reverted reason => s!"Execution reverted: {renderReason reason}"
  | .codeTooLong size limit => s!"Code size exceeded: {size} > {limit}"
  | .fault reason => s!"Execution error: {reason}"
  | .store cause => s!"State error: {cause.message}"

end BridgeMint
