import BridgeMint.CommandLine.Arguments

/-!
# What the program says of itself

Its version, and the explanation of its parameters.
-/

namespace BridgeMint

namespace Usage

def programName : String := "forgemint-node"

/-- The variable of the environment that names the configuration file. -/
def configVariable : String := "FORGEMINT_CONFIG"

def versionLine : String :=
  s!"{programName} 0.1.0\n"

/-- The column in which the purposes start. -/
def purposeColumn : Nat := 31

def blanks (count : Nat) : String :=
  String.ofList (List.replicate count ' ')

/-- A text whose further lines start where the purposes start. -/
def indented (text : String) : String :=
  String.join (text.toList.map fun c =>
    if c = '\n' then "\n" ++ blanks purposeColumn else String.singleton c)

def purpose (configFile : Option String) : Parameter → String
  | .config =>
    "Config file path [env: " ++ configVariable ++ "=" ++ indented (configFile.getD "") ++ "]"
  | .logLevel => "Override the configured log level"
  | .jsonLogs => "Log as JSON"
  | .simulate => "Run every migration on an empty state and report state roots"
  | .writeConfig => "Write the effective configuration, CLI overrides included, to FILE"
  | .output => "Schedule output format [default: text] [possible values: text, json]"
  | .help => "Print help"
  | .version => "Print version"

/-- The space in front of a parameter: long names stand below each other. -/
def margin (p : Parameter) : String :=
  blanks (if p.letter?.isSome then 2 else 6)

/-- A parameter with its letter, if it has one. -/
def heading (p : Parameter) : String :=
  match p.letter? with
  | none => p.label
  | some letter => s!"-{letter}, {p.label}"

/-- Explains parameters, from the first heading on.  Headings are set off from what is between them,
and each stretch between two headings is shown without control sequences; one that is not finished
there takes the rest of its stretch with it. -/
def explanation (configFile : Option String) : List Parameter → String
  | [] => ""
  | p :: rest =>
    let padding := blanks (purposeColumn - (margin p).length - (heading p).length)
    let nextMargin := (rest.head?.map margin).getD ""
    heading p ++ Text.withoutControls (padding ++ purpose configFile p ++ "\n" ++ nextMargin) ++
      explanation configFile rest

/-- The explanation of the program; it shows the configuration file named by the environment. -/
def helpText (configFile : Option String) : String :=
  "Forgemint chain configuration checker\n\nUsage: " ++ programName ++
    " [OPTIONS]\n\nOptions:\n" ++ (Parameter.all.head?.map margin).getD "" ++
    explanation configFile Parameter.all

end Usage

end BridgeMint
