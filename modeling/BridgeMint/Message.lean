import BridgeMint.Address
import BridgeMint.UInt256.Text

/-!
# Messages

A message is a transaction whose sender is already known.  Without a recipient it asks for the
creation of a contract.
-/

namespace BridgeMint

/-- A transaction with its sender known. -/
structure Message where
  sender : Address
  /-- The account called; none asks for a contract to be created. -/
  recipient : Option Address
  /-- The sender's count of messages before this one. -/
  nonce : UInt64
  /-- What is moved from sender to recipient. -/
  value : UInt256
  /-- The most gas the message may use. -/
  gasLimit : UInt64
  /-- What the sender pays for one unit of gas. -/
  gasPrice : UInt256
  /-- The call data. -/
  data : Bytes
  deriving DecidableEq

namespace Message

def call (sender recipient : Address) (nonce gasLimit : UInt64) (gasPrice : UInt256) : Message :=
  ⟨sender, some recipient, nonce, 0, gasLimit, gasPrice, []⟩

def withData (message : Message) (data : Bytes) : Message :=
  { message with data }

def withValue (message : Message) (value : UInt256) : Message :=
  { message with value }

/-- Whether the message asks for a contract to be created. -/
def isCreation (message : Message) : Bool :=
  message.recipient.isNone

def describe (message : Message) : String :=
  let recipient := match message.recipient with
    | some address => address.text
    | none => "create"
  s!"Message \x7b from: {message.sender}, to: {recipient}, nonce: {message.nonce}, gas: {message.gasLimit}, data: {message.data.length} bytes \x7d"

end Message

end BridgeMint
