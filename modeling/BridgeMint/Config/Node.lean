import BridgeMint.Config.Chain
import BridgeMint.Notice.Filter

/-!
# Node configuration

What a single node is configured with: a name for its log, the parameters of its chain, and how it
logs.
-/

namespace BridgeMint

/-- The form of log lines. -/
inductive LogFormat where
  /-- For people. -/
  | pretty
  /-- For programs. -/
  | json
  deriving DecidableEq, Repr

/-- How a node logs. -/
structure Logging where
  /-- The filter of notices. -/
  level : String
  /-- The file to log to instead of standard output. -/
  file : Option String
  format : LogFormat
  deriving DecidableEq

namespace Logging

def standard : Logging := ⟨"info", none, .pretty⟩

instance : Inhabited Logging := ⟨standard⟩

end Logging

/-- The configuration of a node. -/
structure NodeConfig where
  name : String
  chain : ChainConfig
  logging : Logging
  deriving DecidableEq

/-- Why a node cannot run with a configuration. -/
inductive NodeConfigFault where
  /-- The chain has no usable identifier. -/
  | zeroChainId
  /-- No block could use any gas. -/
  | zeroGasLimit
  /-- The log level is no filter. -/
  | badLevel (level : String) (cause : FilterError)
  deriving DecidableEq

/-- Why a node cannot run with a configuration, in words. -/
def NodeConfigFault.message : NodeConfigFault → String
  | .zeroChainId => "Chain ID cannot be 0"
  | .zeroGasLimit => "Block gas limit cannot be 0"
  | .badLevel level cause => s!"Invalid log level '{level}': {cause.message}"

namespace NodeConfig

/-- The configuration of a node for which there is none: one on the development chain. -/
def standard : NodeConfig := ⟨"forgemint-node", .devnet, .standard⟩

instance : Inhabited NodeConfig := ⟨standard⟩

/-- Whether a node can run with a configuration; the filter of its log is given back.  The fork
parameters are not looked at here. -/
def validate (config : NodeConfig) : Except NodeConfigFault NoticeFilter :=
  if !config.chain.hasValidId then .error .zeroChainId
  else if config.chain.gasLimit = 0 then .error .zeroGasLimit
  else (NoticeFilter.parse config.logging.level).mapError (.badLevel config.logging.level)

end NodeConfig

end BridgeMint
