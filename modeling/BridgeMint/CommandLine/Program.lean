import BridgeMint.CommandLine.Usage
import BridgeMint.Config.NodeFile
import BridgeMint.Json.Writer
import BridgeMint.Migration.Plan

/-!
# The program

The program checks a node's configuration and prints the migrations its chain will run.  What it
needs of the system it runs on is given to it: files to read and write, a log, and two places to print
to.
-/

namespace BridgeMint

/-- Where the log goes. -/
inductive LogTarget where
  /-- To standard output, in a form. -/
  | output (format : LogFormat)
  /-- To the end of a file. -/
  | file (path : String)
  deriving DecidableEq

namespace Logging

def target (logging : Logging) : LogTarget :=
  match logging.file with
  | some path => .file path
  | none => .output logging.format

end Logging

/-- What the program needs of the system it runs on. -/
structure Host (m : Type → Type) where
  readText : (path : String) → m (Except FileFault String)
  writeText : (path text : String) → m (Except FileFault Unit)
  /-- Makes sure that a file can be appended to. -/
  openLog : (path : String) → m (Except FileFault Unit)
  log : LogTarget → Notice → m Unit
  print : String → m Unit
  complain : String → m Unit

/-- Why the program fails. -/
inductive ProgramFault where
  | configFile (cause : ConfigFileFault)
  | config (cause : NodeConfigFault)
  /-- The log cannot be opened. -/
  | log (cause : FileFault)
  /-- The chain's migrations cannot be scheduled. -/
  | schedule (cause : LedgerError)
  deriving DecidableEq

def ProgramFault.message : ProgramFault → String
  | .configFile cause => cause.message
  | .config cause => cause.message
  | .log cause => cause.message
  | .schedule cause => cause.message

namespace NodeConfig

/-- The configuration as the arguments change it. -/
def override (config : NodeConfig) (args : Arguments) : NodeConfig :=
  { config with
    logging := { config.logging with
      level := args.logLevel.getD config.logging.level
      format := if args.jsonLogs then .json else config.logging.format } }

end NodeConfig

namespace Program

variable {m : Type → Type} [Monad m]

/-- A run of the program that may fail. -/
abbrev Run (m : Type → Type) (α : Type) := ExceptT ProgramFault m α

/-- A log with its filter. -/
structure Log where
  target : LogTarget
  filter : NoticeFilter

/-- Writes a notice to the log if the filter lets it pass. -/
def Log.write (host : Host m) (log : Log) (notice : Notice) : m Unit :=
  if log.filter.allows notice then host.log log.target notice else pure ()

/-- Writes a notice to the log in the middle of a run. -/
def tell (host : Host m) (log : Log) (notice : Notice) : Run m Unit :=
  ExceptT.lift (log.write host notice)

/-- Goes on with a result, or fails with a fault made of its cause. -/
def orFail {ε α : Type} (fault : ε → ProgramFault) (result : Except ε α) : Run m α :=
  ExceptT.mk (pure (result.mapError fault))

/-- The configuration to run with: that of the file if there is one, changed by the arguments. -/
def loadConfig (host : Host m) (args : Arguments) : Run m NodeConfig := do
  match args.config with
  | none => return NodeConfig.standard.override args
  | some path =>
    let config ← orFail .configFile (NodeConfig.ofFile path (← host.readText path))
    return config.override args

/-- Opens the log of a configuration that a node can run with. -/
def openLog (host : Host m) (config : NodeConfig) : Run m Log := do
  let filter ← orFail .config config.validate
  match config.logging.file with
  | none => pure ()
  | some path => orFail .log (← host.openLog path)
  return ⟨config.logging.target, filter⟩

def announce (host : Host m) (log : Log) (args : Arguments) (config : NodeConfig) : m Unit := do
  log.write host <| match args.config with
    | some path => .configLoaded path
    | none => .configDefault
  log.write host (.chainParameters config.name config.chain.chainId config.chain.gasLimit)
  match config.chain.feeCollector with
  | some collector => log.write host (.feesCollected collector)
  | none => pure ()

/-- The migrations of the chain; when they cannot be scheduled, the log tells why. -/
def schedule (host : Host m) (log : Log) (config : NodeConfig) : Run m MigrationRegistry := do
  match MigrationRegistry.ofConfig config.chain with
  | .ok registry =>
    match config.chain.forkSummary with
    | .ok (some summary) => tell host log (.forkSummary summary)
    | _ => pure ()
    return registry
  | .error cause =>
    tell host log (.forkInvalid cause.message)
    throw (.schedule cause)

def writeConfig (host : Host m) (log : Log) (config : NodeConfig) (path : String) :
    Run m Unit := do
  let text ← orFail (fun cause => .configFile (.unwritable cause)) config.toToml
  orFail (fun cause => .configFile (.notWritten path cause)) (← host.writeText path text)
  tell host log (.configWritten path)

/-- Tries the migrations out and writes the notices of the trial to the log. -/
def tryOut (host : Host m) (log : Log) (registry : MigrationRegistry) :
    m (List PlannedMigration) := do
  let (entries, ledger) := registry.trial registry.plan
  ledger.notices.forM (log.write host)
  return entries

def printed (format : OutputFormat) (entries : List PlannedMigration) : String :=
  match format with
  | .text => PlannedMigration.schedule entries
  | .json => Json.encodeIndented (PlannedMigration.listToDatum entries) ++ "\n"

/-- Runs the program. -/
def run (host : Host m) (args : Arguments) : Run m Unit := do
  let config ← loadConfig host args
  let log ← openLog host config
  ExceptT.lift (announce host log args config)
  let registry ← schedule host log config
  match args.writeConfig with
  | some path => writeConfig host log config path
  | none => pure ()
  let entries ←
    if args.simulate then ExceptT.lift (tryOut host log registry) else pure registry.plan
  host.print (printed args.output entries)

/-- Runs the program on a command line and gives the exit code; `configFile` is the configuration
file named by the environment. -/
def main (host : Host m) (arguments : List String) (configFile : Option String) : m UInt32 := do
  match Arguments.parse arguments configFile with
  | .error .help => host.print (Usage.helpText configFile); return 0
  | .error .version => host.print Usage.versionLine; return 0
  | .error (.fault cause) => host.complain s!"error: {cause.message}\n"; return 2
  | .ok args =>
    match ← (run host args).run with
    | .ok () => return 0
    | .error fault => host.complain s!"Error: {fault.message}\n"; return 1

end Program

end BridgeMint
