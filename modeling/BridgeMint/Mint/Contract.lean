import BridgeMint.Store.Basic

/-!
# The mint contract

A contract with fixed code at a fixed address.  Its storage holds the account that may mint and how
much is left to mint; its code only lets others read the two.  The contract counts as installed when
the code at its address has the right digest, and what it says is then read from its storage.
-/

namespace BridgeMint

namespace MintContract

def address : Address :=
  .ofNat 0x1001

/-- The contract's code.  It answers the two calls for the owner and the remaining limit from the
storage slots below, and reverts on every other call; minting never runs it.  A chain that changes
one byte of it is a different chain. -/
def bytecode : Bytes :=
  [0x60, 0x00, 0x35, 0x60, 0xe0, 0x1c, 0x80, 0x63, 0x8d, 0xa5, 0xcb, 0x5b, 0x14, 0x61,
   0x00, 0x20, 0x57, 0x80, 0x63, 0x99, 0x65, 0x17, 0xcf, 0x14, 0x61, 0x00, 0x2c, 0x57,
   0x60, 0x00, 0x80, 0xfd, 0x5b, 0x60, 0x00, 0x54, 0x60, 0x00, 0x52, 0x60, 0x20, 0x60,
   0x00, 0xf3, 0x5b, 0x60, 0x01, 0x54, 0x60, 0x00, 0x52, 0x60, 0x20, 0x60, 0x00, 0xf3]

/-- The digest of the contract's code. -/
def codeHash : Word :=
  .keccak256 bytecode

/-- The storage slot of the owner: an address in the last twenty bytes of the word. -/
def ownerSlot : Word :=
  .zero

/-- The storage slot of what is left to mint: a number, most significant byte first. -/
def limitSlot : Word :=
  .ofUInt64 1

end MintContract

/-- What the installed mint contract says. -/
structure MintState where
  /-- The only account allowed to mint. -/
  owner : Address
  /-- How much is left to mint. -/
  limit : UInt256
  deriving DecidableEq

/-- What the mint contract says, if it is installed. -/
def Store.mintState? (s : Store) : Option MintState :=
  if s.codeHash MintContract.address = MintContract.codeHash then
    some
      { owner := .ofWord (s.word MintContract.address MintContract.ownerSlot)
        limit := .ofWord (s.word MintContract.address MintContract.limitSlot) }
  else none

end BridgeMint
