import BridgeMint.CommandLine.Program
import BridgeMint.Notice.Line

/-!
# The program on the command line

The outer layer: files, standard output, standard error and the environment of the process.
-/

namespace BridgeMint

/-- The fault behind an error of the system. -/
def faultOfError : IO.Error → FileFault
  | .noFileOrDirectory .. => .notFound
  | .inappropriateType .. => .notDirectory
  | e => .other (toString e)

def guarded {α : Type} (act : IO α) : IO (Except FileFault α) := do
  try
    return .ok (← act)
  catch e =>
    return .error (faultOfError e)

def readTextFile (path : String) : IO (Except FileFault String) := do
  match ← guarded (IO.FS.readBinFile path) with
  | .error fault => return .error fault
  | .ok bytes =>
    match String.fromUTF8? bytes with
    | some text => return .ok text
    | none => return .error .notText

def appendToFile (path text : String) : IO Unit := do
  let file ← IO.FS.Handle.mk path .append
  file.putStr text

/-- The time of a log line: milliseconds on the process's clock. -/
def clockReading : IO String := do
  return s!"{(← IO.monoMsNow)}ms"

def logNotice (target : LogTarget) (notice : Notice) : IO Unit := do
  let time ← clockReading
  match target with
  | .output .json => IO.println (Json.encode (notice.toDatum time))
  | .output .pretty => IO.println s!"{time} {notice.sentence}"
  | .file path => appendToFile path s!"{time} {notice.sentence}\n"

def processHost : Host IO where
  readText := readTextFile
  writeText path text := guarded (IO.FS.writeFile path text)
  openLog path := guarded (appendToFile path "")
  log := logNotice
  print text := IO.print text
  complain text := IO.eprint text

end BridgeMint

/-- Runs the program on the arguments of the process. -/
def main (arguments : List String) : IO UInt32 := do
  let configFile ← IO.getEnv BridgeMint.Usage.configVariable
  BridgeMint.Program.main BridgeMint.processHost arguments configFile
