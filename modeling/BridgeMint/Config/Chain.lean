import BridgeMint.Address
import BridgeMint.UInt256.Text

/-!
# Chain parameters

The parameters every node of a chain must agree on, among them those of the fork that installs the
mint contract.
-/

namespace BridgeMint

/-- The parameters of the mint fork.  Each may be missing; whether what is there suffices is decided
where the fork is scheduled. -/
structure MintSection where
  /-- The height at which the contract is installed. -/
  activationBlock : Option UInt64
  /-- The only account allowed to mint. -/
  owner : Option Address
  /-- How much may be minted in all. -/
  limit : Option UInt256
  deriving DecidableEq

namespace MintSection

def blank : MintSection := ⟨none, none, none⟩

instance : Inhabited MintSection := ⟨blank⟩

end MintSection

/-- The parameters of a chain. -/
structure ChainConfig where
  chainId : UInt64
  /-- The most gas a block may use. -/
  gasLimit : UInt64
  /-- The account that receives fees in place of the block's producer. -/
  feeCollector : Option Address
  /-- The mint fork, if the chain has one. -/
  mint : Option MintSection
  deriving DecidableEq

namespace ChainConfig

/-- The main network: no fork scheduled. -/
def mainnet : ChainConfig := ⟨1, 30000000, none, none⟩

/-- A local network for development. -/
def devnet : ChainConfig := { mainnet with chainId := 1337 }

instance : Inhabited ChainConfig := ⟨mainnet⟩

/-- The chain with the mint fork scheduled. -/
def withMint (config : ChainConfig) (height : UInt64) (owner : Address) (limit : UInt256) :
    ChainConfig :=
  { config with mint := some ⟨some height, some owner, some limit⟩ }

/-- The chain with an account that collects the fees. -/
def withFeeCollector (config : ChainConfig) (collector : Address) : ChainConfig :=
  { config with feeCollector := some collector }

def hasValidId (config : ChainConfig) : Bool :=
  config.chainId != 0

end ChainConfig

end BridgeMint
