import BridgeMint.Config.Chain
import BridgeMint.Data.Record

/-!
# Chain parameters as structured data

The names under which chain parameters stand in configuration files and in JSON.  Both sections
refuse fields they do not know, and a field that is absent keeps the value of a default: the main
network's for the chain, none for the mint fork.
-/

namespace BridgeMint

/-! ## The mint fork -/

namespace MintSection

def shape : RecordShape MintSection where
  kind := "struct MintContractConfig"
  closed := true
  fields := [
    .of "activation_block" (·.toOption Datum.toUInt64) fun height mint =>
      { mint with activationBlock := height },
    .of "owner_address" (·.toOption Datum.toAddress) fun owner mint => { mint with owner },
    .of "mint_limit" (·.toOption Datum.toAmount) fun limit mint => { mint with limit }]

def ofDatum (surplus : Bool) (d : Datum) : Except MeaningError MintSection :=
  shape.read surplus blank d

/-- The mint fork as data; what is absent is null. -/
def toDatum (mint : MintSection) : Datum :=
  .table [
    ("activation_block", .ofOption .ofUInt64 mint.activationBlock),
    ("owner_address", .ofOption (fun owner => .text owner.text) mint.owner),
    ("mint_limit", .ofOption (fun limit => .text limit.decimal) mint.limit)] true

end MintSection

/-! ## The chain -/

namespace ChainConfig

def shape (surplus : Bool) : RecordShape ChainConfig where
  kind := "struct ChainConfig"
  closed := true
  fields := [
    .of "chain_id" Datum.toUInt64 fun chainId config => { config with chainId },
    .of "gas_limit" Datum.toUInt64 fun gasLimit config => { config with gasLimit },
    .of "fee_collector" (·.toOption Datum.toAddress) fun feeCollector config =>
      { config with feeCollector },
    .of "mint_contract" (·.toOption (MintSection.ofDatum surplus)) fun mint config =>
      { config with mint }]

def ofDatum (surplus : Bool) (d : Datum) : Except MeaningError ChainConfig :=
  (shape surplus).read surplus mainnet d

/-- A chain's parameters as data; what is absent is null. -/
def toDatum (config : ChainConfig) : Datum :=
  .table [
    ("chain_id", .ofUInt64 config.chainId),
    ("gas_limit", .ofUInt64 config.gasLimit),
    ("fee_collector", .ofOption (fun collector => .text collector.text) config.feeCollector),
    ("mint_contract", .ofOption MintSection.toDatum config.mint)] true

end ChainConfig

end BridgeMint
