import BridgeMint.Text.ControlSequence

/-!
# Arguments of the command line

The parameters of the program and how they are read.  Arguments are read from the left.  The value of
a parameter may stand in the same argument or be the next one; a value given by the next argument is
looked at when the argument after it has been understood, so that an argument that is not understood
is reported first.
-/

namespace BridgeMint

/-- How the schedule is printed. -/
inductive OutputFormat where
  | text
  | json
  deriving DecidableEq, Repr

/-- What the program is asked for. -/
structure Arguments where
  /-- The configuration file. -/
  config : Option String
  /-- The log level in place of the configured one. -/
  logLevel : Option String
  /-- Whether to log for programs, whatever the configuration says. -/
  jsonLogs : Bool
  /-- Whether to try the migrations out. -/
  simulate : Bool
  /-- The file to write the configuration to. -/
  writeConfig : Option String
  output : OutputFormat
  deriving DecidableEq, Repr

namespace Arguments

/-- What the program is asked for when nothing is said. -/
def standard : Arguments := ⟨none, none, false, false, none, .text⟩

instance : Inhabited Arguments := ⟨standard⟩

end Arguments

/-! ## Parameters -/

/-- The parameters of the program. -/
inductive Parameter where
  | config
  | logLevel
  | jsonLogs
  | simulate
  | writeConfig
  | output
  | help
  | version
  deriving DecidableEq, Repr

namespace Parameter

/-- All parameters, in the order in which they are explained. -/
def all : List Parameter :=
  [config, logLevel, jsonLogs, simulate, writeConfig, output, help, version]

def longName : Parameter → String
  | config => "config"
  | logLevel => "log-level"
  | jsonLogs => "json-logs"
  | simulate => "simulate"
  | writeConfig => "write-config"
  | output => "output"
  | help => "help"
  | version => "version"

/-- The letter of a parameter that has one. -/
def letter? : Parameter → Option Char
  | config => some 'c'
  | logLevel => some 'l'
  | help => some 'h'
  | version => some 'V'
  | _ => none

/-- What the value of a parameter is called, if it takes one. -/
def valueName? : Parameter → Option String
  | config | writeConfig => some "FILE"
  | logLevel => some "LOG_LEVEL"
  | output => some "OUTPUT"
  | _ => none

def takesValue (p : Parameter) : Bool :=
  p.valueName?.isSome

/-- A parameter as it stands in messages. -/
def label (p : Parameter) : String :=
  match p.valueName? with
  | none => s!"--{p.longName}"
  | some value => s!"--{p.longName} <{value}>"

def ofLongName? (name : String) : Option Parameter :=
  all.find? (·.longName == name)

def ofLetter? (c : Char) : Option Parameter :=
  all.find? (·.letter? == some c)

end Parameter

/-! ## Faults -/

/-- What is wrong with the arguments. -/
inductive ArgumentFault where
  /-- An argument belongs to nothing. -/
  | unexpected (argument : String)
  /-- A parameter has no value, or an empty one where that is none. -/
  | valueMissing (p : Parameter)
  /-- A parameter is given twice. -/
  | repeated (p : Parameter)
  /-- A parameter has a value but takes none. -/
  | surplusValue (value : String) (p : Parameter)
  /-- A parameter has a value that it does not take. -/
  | invalidValue (value : String) (p : Parameter)
  deriving DecidableEq, Repr

/-- What is wrong with the arguments, in words.  What the user gave is shown without control
sequences, for the message may be read on a terminal. -/
def ArgumentFault.message : ArgumentFault → String
  | .unexpected argument => s!"unexpected argument '{Text.withoutControls argument}' found"
  | .valueMissing p => s!"a value is required for '{p.label}' but none was supplied"
  | .repeated p => s!"the argument '{p.label}' cannot be used multiple times"
  | .surplusValue value p =>
    s!"unexpected value '{Text.withoutControls value}' for '{p.label}' found; no more were expected"
  | .invalidValue value p =>
    s!"invalid value '{Text.withoutControls value}' for '{p.label}'"

/-- Why the program does not run. -/
inductive Stop where
  /-- It only explains itself. -/
  | help
  /-- It only tells its version. -/
  | version
  | fault (cause : ArgumentFault)
  deriving DecidableEq, Repr

/-! ## Reading -/

/-- The arguments as far as they have been read. -/
structure ArgumentReader where
  arguments : Arguments
  /-- The parameters given so far. -/
  given : List Parameter
  /-- A parameter that has been named, with its value if that has been given. -/
  pending : Option (Parameter × Option String)
  /-- Whether a pair of dashes has ended the parameters. -/
  ended : Bool
  deriving DecidableEq

namespace ArgumentReader

def start : ArgumentReader := ⟨.standard, [], none, false⟩

/-- A path, which must not be empty. -/
def readPath (p : Parameter) (value : String) : Except Stop String :=
  if value = "" then .error (.fault (.valueMissing p)) else .ok value

def readFormat (value : String) : Except Stop OutputFormat :=
  if value = "text" then .ok .text
  else if value = "json" then .ok .json
  else if value = "" then .error (.fault (.valueMissing .output))
  else .error (.fault (.invalidValue value .output))

/-- Puts the value of a parameter into the arguments. -/
def setValue (args : Arguments) (p : Parameter) (value : String) : Except Stop Arguments :=
  match p with
  | .config => (readPath p value).map fun path => { args with config := some path }
  | .logLevel => .ok { args with logLevel := some value }
  | .writeConfig => (readPath p value).map fun path => { args with writeConfig := some path }
  | .output => (readFormat value).map fun output => { args with output }
  | _ => .ok args

/-- Takes in a parameter with its value. -/
def acceptValue (r : ArgumentReader) (p : Parameter) (value : String) :
    Except Stop ArgumentReader :=
  if r.given.contains p then .error (.fault (.repeated p))
  else
    (setValue r.arguments p value).map fun arguments =>
      { r with arguments, given := p :: r.given }

/-- Takes in the parameter that is pending. -/
def settle (r : ArgumentReader) : Except Stop ArgumentReader :=
  match r.pending with
  | none => .ok r
  | some (p, none) => .error (.fault (.valueMissing p))
  | some (p, some value) => { r with pending := none }.acceptValue p value

/-- Takes in a parameter without a value, after the one that is pending. -/
def acceptFlag (r : ArgumentReader) (p : Parameter) : Except Stop ArgumentReader := do
  let r ← r.settle
  match p with
  | .help => throw .help
  | .version => throw .version
  | p =>
    if r.given.contains p then throw (.fault (.repeated p))
    else
      let arguments := match p with
        | .jsonLogs => { r.arguments with jsonLogs := true }
        | .simulate => { r.arguments with simulate := true }
        | _ => r.arguments
      return { r with arguments, given := p :: r.given }

/-- Takes in a parameter that has a value, after the one that is pending; the value may still be to
come. -/
def acceptNamed (r : ArgumentReader) (p : Parameter) (attached : Option String) :
    Except Stop ArgumentReader := do
  let r ← r.settle
  match attached with
  | some value => r.acceptValue p value
  | none => return { r with pending := some (p, none) }

/-- Reads an argument that starts with two dashes, without them. -/
def readLong (r : ArgumentReader) (cs : List Char) : Except Stop ArgumentReader :=
  let name := String.ofList (cs.takeWhile (· ≠ '='))
  let attached := match cs.dropWhile (· ≠ '=') with
    | [] => none
    | _ :: value => some (String.ofList value)
  match Parameter.ofLongName? name, attached with
  | none, _ => .error (.fault (.unexpected ("--" ++ name)))
  | some p, attached =>
    if p.takesValue then r.acceptNamed p attached
    else
      match attached with
      | some value => .error (.fault (.surplusValue value p))
      | none => r.acceptFlag p

/-- Reads an argument that starts with one dash: a letter and what follows it.  Of the parameters
with a letter, those without a value end the reading. -/
def readShort (r : ArgumentReader) (letter : Char) (rest : List Char) :
    Except Stop ArgumentReader :=
  match Parameter.ofLetter? letter with
  | none => .error (.fault (.unexpected (String.ofList ['-', letter])))
  | some p =>
    if p.takesValue then
      -- The value may follow an equals sign or stand right after the letter.
      r.acceptNamed p <| match rest with
        | [] => none
        | '=' :: value => some (String.ofList value)
        | value => some (String.ofList value)
    else r.acceptFlag p

/-- Reads an argument that is no parameter: the value of the one that waits for it. -/
def readValue (r : ArgumentReader) (argument : String) : Except Stop ArgumentReader :=
  match r.pending with
  | some (p, none) => .ok { r with pending := some (p, some argument) }
  | _ => .error (.fault (.unexpected argument))

def read (r : ArgumentReader) (argument : String) : Except Stop ArgumentReader :=
  if r.ended then .error (.fault (.unexpected argument))
  else
    match argument.toList with
    | ['-', '-'] => .ok { r with ended := true }
    | '-' :: '-' :: name => r.readLong name
    | '-' :: letter :: rest => r.readShort letter rest
    | _ => r.readValue argument

/-- Uses the configuration file named by the environment, unless an argument names one. -/
def useEnvironment (r : ArgumentReader) (configFile : Option String) :
    Except Stop ArgumentReader :=
  match configFile with
  | none => .ok r
  | some path => if r.given.contains .config then .ok r else r.acceptValue .config path

end ArgumentReader

/-- Reads the arguments of the command line; `configFile` is the configuration file named by the
environment. -/
def Arguments.parse (arguments : List String) (configFile : Option String) :
    Except Stop Arguments := do
  let r ← arguments.foldlM ArgumentReader.read ArgumentReader.start
  let r ← r.settle
  let r ← r.useEnvironment configFile
  return r.arguments

end BridgeMint
