import BridgeMint.Config.Chain
import BridgeMint.Migration.Registry
import BridgeMint.Mint.Contract

/-!
# The mint fork

The migration that installs the mint contract with its owner and its limit.  A chain schedules it by
naming an activation height; the owner and the limit must then be usable, or the chain's parameters
are refused as a whole.
-/

namespace BridgeMint

/-- The mint fork of a chain: when the contract is installed, and with what. -/
structure MintFork where
  height : UInt64
  owner : Address
  limit : UInt256
  deriving DecidableEq

namespace MintFork

/-- The name of the migration in schedules and log lines. -/
def migrationName : String := "mint contract initialization"

/-- The fork a chain has scheduled: none without an activation height, and an error when the owner is
missing or zero, or the limit is missing. -/
def ofConfig (config : ChainConfig) : Except ForkError (Option MintFork) :=
  match config.mint with
  | none => .ok none
  | some mint =>
    match mint.activationBlock with
    | none => .ok none
    | some height =>
      match mint.owner with
      | none => .error .ownerMissing
      | some owner =>
        if owner.isZero then .error .ownerMissing
        else
          match mint.limit with
          | none => .error .limitMissing
          | some limit => .ok (some ⟨height, owner, limit⟩)

/-- Installs the contract. -/
def install (fork : MintFork) (s : Store) : Store :=
  let s := s.setCode MintContract.address MintContract.bytecode
  let s := s.setWord MintContract.address MintContract.ownerSlot fork.owner.toWord
  s.setWord MintContract.address MintContract.limitSlot fork.limit.toWord

def migration (fork : MintFork) : Migration where
  name := migrationName
  height := fork.height
  run ledger := ledger.change fork.install

def describe (fork : MintFork) : String :=
  s!"mint contract at block {fork.height}: owner {fork.owner}, limit {fork.limit} wei"

end MintFork

/-- One line about the mint fork of a chain, if it is scheduled. -/
def ChainConfig.forkSummary (config : ChainConfig) : Except ForkError (Option String) :=
  (MintFork.ofConfig config).map (·.map MintFork.describe)

/-- The migrations a chain's parameters schedule. -/
def MigrationRegistry.ofConfig (config : ChainConfig) : Except LedgerError MigrationRegistry :=
  match MintFork.ofConfig config with
  | .error cause => .error (.fork cause)
  | .ok none => .ok .empty
  | .ok (some fork) => .ok (MigrationRegistry.empty.append fork.migration)

end BridgeMint
