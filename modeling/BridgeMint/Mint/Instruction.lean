import BridgeMint.Mint.Contract
import BridgeMint.Notice

/-!
# Mint instructions

The owner of the mint contract mints by sending the contract sixty-five bytes: the amount, the digest
of the transaction that burned it on another ledger, and the tag of that ledger.  A message is an
instruction only if the contract is installed, its owner sends it and the amount is within what is
left to mint; any other message is treated like every call.
-/

namespace BridgeMint

/-- A mint instruction that may be carried out once. -/
structure Instruction where
  /-- The owner, who receives the tokens. -/
  sender : Address
  amount : UInt256
  /-- What is left to mint afterwards. -/
  nextLimit : UInt256
  /-- The digest of the burn that backs the mint. -/
  burn : Word
  network : BurnNetwork
  /-- The bytes the instruction was read from. -/
  payload : Bytes
  deriving DecidableEq

/-- Why a message is no mint instruction. -/
inductive Rejection where
  /-- It is not sixty-five bytes sent to the contract. -/
  | notAddressed
  /-- The tag belongs to no known ledger. -/
  | unknownNetwork (tag : UInt8)
  /-- The contract is not installed. -/
  | contractMissing
  /-- Someone other than the owner sent it. -/
  | notOwner (sender owner : Address)
  /-- It asks for more than is left. -/
  | aboveLimit (amount limit : UInt256)
  deriving DecidableEq

namespace Rejection

/-- What is reported of a rejection; messages that were never meant as instructions go unreported. -/
def notice? : Rejection → Option Notice
  | notAddressed => none
  | unknownNetwork tag => some (.unknownNetwork tag)
  | contractMissing => some .contractMissing
  | notOwner sender owner => some (.notOwner sender owner)
  | aboveLimit amount limit => some (.aboveLimit amount limit)

end Rejection

namespace Instruction

/-! ## The wire form -/

/-- The length of an instruction's wire form. -/
def payloadLength : Nat := 65

/-- The wire form of an amount, a burn and a ledger. -/
def encodePayload (amount : UInt256) (burn : Word) (network : BurnNetwork) : Bytes :=
  amount.toBytes ++ burn.toList ++ [network.tag]

/-- The first thirty-two bytes of a payload, as a word. -/
def amountWord (payload : Bytes) (h : payload.length = payloadLength) : Word :=
  ⟨payload.take 32, by simp [h, payloadLength]⟩

/-- The next thirty-two bytes of a payload, as a word. -/
def burnWord (payload : Bytes) (h : payload.length = payloadLength) : Word :=
  ⟨(payload.drop 32).take 32, by simp [h, payloadLength]⟩

/-! ## Reading -/

/-- Reads a message's data as a mint instruction. -/
def read (s : Store) (sender receiver : Address) (payload : Bytes) :
    Except Rejection Instruction :=
  -- The first check that fails decides which rejection is reported.
  if h : payload.length = payloadLength then
    if receiver ≠ MintContract.address then .error .notAddressed
    else
      let tag := payload.getD 64 0
      match BurnNetwork.ofTag? tag with
      | none => .error (.unknownNetwork tag)
      | some network =>
        match s.mintState? with
        | none => .error .contractMissing
        | some state =>
          if sender ≠ state.owner then .error (.notOwner sender state.owner)
          else
            let amount := UInt256.ofWord (amountWord payload h)
            match state.limit.checkedSub amount with
            | none => .error (.aboveLimit amount state.limit)
            | some nextLimit =>
              .ok { sender, amount, nextLimit, burn := burnWord payload h, network, payload }
  else .error .notAddressed

/-! ## The log of a mint -/

/-- The digest of the signature `Mint(uint256,bytes32,uint8)`: the topic of every mint's log. -/
def logTopic : Word :=
  .keccak256 "Mint(uint256,bytes32,uint8)".toUTF8.toList

/-- The data of a mint's log: amount, burn and ledger, each in a word of its own. -/
def logData (amount : UInt256) (burn : Word) (network : BurnNetwork) : Bytes :=
  amount.toBytes ++ burn.toList ++ Bytes.padLeft 32 [network.tag]

/-- The log that an instruction leaves behind. -/
def log (instruction : Instruction) (blockNumber : UInt64) : Log :=
  .unplaced MintContract.address [logTopic]
    (logData instruction.amount instruction.burn instruction.network) blockNumber

end Instruction

end BridgeMint
