import BridgeMint.Config.ChainData
import BridgeMint.Config.Node
import BridgeMint.Toml.Document
import BridgeMint.Toml.Writer

/-!
# Node configuration as a document

The names under which a node's configuration stands in a TOML document, and the document it is
written as.  Unknown fields are passed over, except in the parameters of the chain.
-/

namespace BridgeMint

/-! ## Log formats -/

namespace LogFormat

def name : LogFormat → String
  | pretty => "pretty"
  | json => "json"

def ofName (name : String) : Except MeaningError LogFormat :=
  if name = pretty.name then .ok pretty
  else if name = json.name then .ok json
  else .error (.unknownVariant name [pretty.name, json.name])

/-- The kind of a value, as a fault calls it where a format has a value of its own. -/
def valueKind : Datum → String
  | .truth _ => "boolean"
  | .integer _ => "integer"
  | .float => "float"
  | .text _ => "string"
  | .moment => "datetime"
  | _ => "table"

/-- Reads a format: its name, or a table with its name and nothing under it. -/
def ofDatum : Datum → Except MeaningError LogFormat
  | .text s => ofName s
  | .table [] _ => .error (.other "wanted exactly 1 element, found 0 elements")
  | .table [(name, value)] _ =>
    match ofName name, value with
    | .error e, _ => .error e
    | .ok format, .table [] _ | .ok format, .list [] _ => .ok format
    | .ok _, .table .. | .ok _, .list .. => .error (.other "expected empty table")
    | .ok _, value => .error (.other s!"expected table, found {valueKind value}")
  | .table .. => .error (.other "wanted exactly 1 element, more than 1 element")
  | _ => .error (.other "wanted string or table")

end LogFormat

/-! ## Reading -/

namespace Logging

def shape : RecordShape Logging where
  kind := "struct LoggingConfig"
  closed := false
  fields := [
    .of "level" (·.toText "a string") fun level logging => { logging with level },
    .of "log_file" (·.toText "path string") fun file logging => { logging with file := some file },
    .of "format" LogFormat.ofDatum fun format logging => { logging with format }]

def ofDatum (d : Datum) : Except MeaningError Logging :=
  shape.read true standard d

end Logging

namespace NodeConfig

def shape : RecordShape NodeConfig where
  kind := "struct NodeConfig"
  closed := false
  fields := [
    .of "name" (·.toText "a string") fun name config => { config with name },
    .of "chain" (ChainConfig.ofDatum true) fun chain config => { config with chain },
    .of "logging" Logging.ofDatum fun logging config => { config with logging }]

/-- Reads a node's configuration.  A chain that is given fills its gaps from the main network, one
that is not is the development chain. -/
def ofToml (text : String) : Except MeaningError NodeConfig :=
  Toml.decode (shape.read true standard) text

end NodeConfig

/-! ## Writing -/

/-- The lines of the mint fork; what is absent is left out. -/
def MintSection.scalars (mint : MintSection) : List (String × Toml.Scalar) :=
  (mint.activationBlock.map fun height => ("activation_block", .integer height)).toList ++
    (mint.owner.map fun owner => ("owner_address", .text owner.text)).toList ++
    (mint.limit.map fun limit => ("mint_limit", .text limit.decimal)).toList

def ChainConfig.scalars (config : ChainConfig) : List (String × Toml.Scalar) :=
  [("chain_id", .integer config.chainId), ("gas_limit", .integer config.gasLimit)] ++
    (config.feeCollector.map fun collector => ("fee_collector", .text collector.text)).toList

def Logging.scalars (logging : Logging) : List (String × Toml.Scalar) :=
  [("level", .text logging.level)] ++
    (logging.file.map fun file => ("log_file", .text file)).toList ++
    [("format", .text logging.format.name)]

namespace NodeConfig

/-- A node's configuration as the sections of a document. -/
def sections (config : NodeConfig) : List Toml.Section :=
  [⟨[], [("name", .text config.name)]⟩, ⟨["chain"], config.chain.scalars⟩] ++
    (config.chain.mint.map fun mint => ⟨["chain", "mint_contract"], mint.scalars⟩).toList ++
    [⟨["logging"], config.logging.scalars⟩]

def toToml (config : NodeConfig) : Except Toml.WriteError String :=
  Toml.encode config.sections

end NodeConfig

end BridgeMint
