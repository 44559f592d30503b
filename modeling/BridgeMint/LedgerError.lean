import BridgeMint.CallError

/-!
# Why a block is refused

The causes for which a message cannot be part of a block, or a block part of the chain.  Failures
that a valid block may contain, such as reverts, are no causes of this kind: they are reported in a
message's outcome.
-/

namespace BridgeMint

/-- What is wrong with the fork parameters of a chain. -/
inductive ForkError where
  | ownerMissing
  | limitMissing
  deriving DecidableEq, Repr

def ForkError.message : ForkError → String
  | .ownerMissing => "owner address is not specified or equals to zero address"
  | .limitMissing => "mint limit is not specified"

/-- Why a message or a block is refused. -/
inductive LedgerError where
  /-- The message does not carry the sender's next nonce. -/
  | wrongNonce (address : Address) (expected got : UInt64)
  /-- The sender has used up its nonces. -/
  | nonceExhausted (address : Address) (nonce : UInt64)
  /-- The sender cannot pay for the gas and the value. -/
  | insufficientFunds (address : Address) (held need : UInt256)
  /-- The gas limit does not even cover the message itself. -/
  | intrinsicGas (intrinsic limit : UInt64)
  /-- The block allows more gas than the chain does. -/
  | blockLimitAboveChain (got maximum : UInt64)
  /-- The block has not enough gas left for the message. -/
  | blockGasExceeded (used limit : UInt64)
  /-- The chain's fork parameters are unusable. -/
  | fork (cause : ForkError)
  /-- The store refused an operation. -/
  | store (cause : StoreError)
  /-- A call failed where it must not. -/
  | call (cause : CallError)
  deriving DecidableEq

/-- Why a message or a block is refused, in words. -/
def LedgerError.message : LedgerError → String
  | .wrongNonce address expected got =>
    s!"Invalid nonce for {address}: expected {expected}, got {got}"
  | .nonceExhausted address nonce => s!"Nonce of {address} has reached its maximum {nonce}"
  | .insufficientFunds address held need =>
    s!"Insufficient funds for {address}: have {held}, need {need}"
  | .intrinsicGas intrinsic limit => s!"Intrinsic gas too low: need {intrinsic}, limit {limit}"
  | .blockLimitAboveChain got maximum => s!"Block gas limit {got} above chain maximum {maximum}"
  | .blockGasExceeded used limit => s!"Block gas limit exceeded: {used} > {limit}"
  | .fork cause => s!"Migration error: {cause.message}"
  | .store cause => s!"State error: {cause.message}"
  | .call cause => s!"VM error: {cause.message}"

end BridgeMint
