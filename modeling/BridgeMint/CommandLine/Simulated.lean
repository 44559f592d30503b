import BridgeMint.CommandLine.Program
import BridgeMint.Files.Directory
import BridgeMint.Notice.Line

/-!
# The program on a directory given as a value

A run of the program on files that are given to it, with everything it leaves behind.
-/

namespace BridgeMint

/-- What a run of the program leaves behind. -/
structure Trail where
  directory : Directory
  /-- The notices logged to standard output for programs, oldest first. -/
  logged : List Notice
  /-- What else was printed to standard output. -/
  printed : String
  /-- What was printed to standard error. -/
  complained : String
  deriving DecidableEq

namespace Trail

def start (directory : Directory) : Trail := ⟨directory, [], "", ""⟩

/-- The trail with another directory, unless making it failed. -/
def store (trail : Trail) : Except FileFault Directory → Except FileFault Unit × Trail
  | .error e => (.error e, trail)
  | .ok directory => (.ok (), { trail with directory })

def log (trail : Trail) (target : LogTarget) (notice : Notice) : Trail :=
  match target with
  | .output .json => { trail with logged := trail.logged ++ [notice] }
  | .output .pretty => { trail with printed := trail.printed ++ notice.sentence ++ "\n" }
  | .file path => (trail.store (trail.directory.appendText path (notice.sentence ++ "\n"))).2

end Trail

namespace Host

/-- The system that consists of a directory. -/
def simulated : Host (StateM Trail) where
  readText path := do return (← get).directory.readText path
  writeText path text := modifyGet fun trail => trail.store (trail.directory.writeText path text)
  openLog path := modifyGet fun trail => trail.store (trail.directory.appendText path "")
  log target notice := modify (·.log target notice)
  print text := modify fun trail => { trail with printed := trail.printed ++ text }
  complain text := modify fun trail => { trail with complained := trail.complained ++ text }

end Host

/-- Runs the program on a directory: the exit code, and what the run leaves behind. -/
def Program.simulate (directory : Directory) (arguments : List String)
    (configFile : Option String) : UInt32 × Trail :=
  (Program.main Host.simulated arguments configFile).run (.start directory)

end BridgeMint
