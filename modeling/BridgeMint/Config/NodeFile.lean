import BridgeMint.Config.NodeData
import BridgeMint.Files.Fault

/-!
# Configuration files

Reading a node's configuration from a file and writing it to one, and the faults that either can
meet.
-/

namespace BridgeMint

/-- Why a configuration file cannot be used. -/
inductive ConfigFileFault where
  | unreadable (path : String) (cause : FileFault)
  /-- The file is no document, or the document is no configuration. -/
  | unparsable (path : String) (cause : MeaningError)
  /-- The configuration has no written form. -/
  | unwritable (cause : Toml.WriteError)
  | notWritten (path : String) (cause : FileFault)
  deriving DecidableEq

def ConfigFileFault.message : ConfigFileFault → String
  | .unreadable path cause => s!"Failed to read config file '{path}': {cause.message}"
  | .unparsable path cause =>
    s!"Failed to parse config file '{path}': TOML parse error: {cause.message}"
  | .unwritable cause => cause.message
  | .notWritten path cause => s!"Failed to write config file '{path}': {cause.message}"

namespace NodeConfig

/-- The configuration in a file, given what came of reading the file. -/
def ofFile (path : String) : Except FileFault String → Except ConfigFileFault NodeConfig
  | .error cause => .error (.unreadable path cause)
  | .ok text => (ofToml text).mapError (.unparsable path)

end NodeConfig

end BridgeMint
