import BridgeMint.Account
import BridgeMint.Canonical.Codec
import BridgeMint.Log
import BridgeMint.Message

/-!
# Canonical encodings of the ledger's records

Account headers, logs and messages are encoded as their fields in order.
-/

namespace BridgeMint

namespace Codec

def address : Codec Address := fixedBytes 20

def word : Codec Word := fixedBytes 32

/-- An account header: nonce, balance, code digest. -/
def account : Codec Account :=
  (uint64.pair (uint256.pair word)).rename
    (fun f => ⟨f.1, f.2.1, f.2.2⟩)
    (fun a => (a.nonce, a.balance, a.codeHash))

/-- A log: contract, topics, data, block, transaction index, log index. -/
def log : Codec Log :=
  (address.pair <| (list word).pair <| byteString.pair <| uint64.pair <| uint32.pair uint32).rename
    (fun f => ⟨f.1, f.2.1, f.2.2.1, f.2.2.2.1, f.2.2.2.2.1, f.2.2.2.2.2⟩)
    (fun l => (l.address, l.topics, l.data, l.blockNumber, l.txIndex, l.logIndex))

/-- A message: sender, recipient, nonce, value, gas limit, gas price, data. -/
def message : Codec Message :=
  (address.pair <| address.optional.pair <| uint64.pair <| uint256.pair <| uint64.pair <|
    uint256.pair byteString).rename
    (fun f => ⟨f.1, f.2.1, f.2.2.1, f.2.2.2.1, f.2.2.2.2.1, f.2.2.2.2.2.1, f.2.2.2.2.2.2⟩)
    (fun m => (m.sender, m.recipient, m.nonce, m.value, m.gasLimit, m.gasPrice, m.data))

end Codec

end BridgeMint
