import BridgeMint.Notice.Pattern.Bracket
import BridgeMint.Text.Alphanumeric

/-!
# Patterns of values

A filter may ask for the value of a field by a pattern.  The program has nothing that such a filter
could match, so all that counts is whether the pattern can be used: whether it is well formed, asks
only for characters that are known, is not nested too deep, and does not ask where words of Unicode
start or end.
-/

namespace BridgeMint

/-- Why a pattern cannot be used. -/
inductive PatternFault where
  /-- It is not well formed, or asks for characters that are not known. -/
  | malformed
  /-- It asks where words of Unicode start or end. -/
  | wordBoundary
  deriving DecidableEq, Repr

def PatternFault.message : PatternFault → String
  | .malformed => "error building NFA"
  | .wordBoundary =>
    "unsupported regex feature for DFAs: cannot build DFAs for regexes with Unicode word boundaries; switch to ASCII word boundaries, or heuristically enable Unicode word boundaries or use a different regex engine"

namespace Pattern

/-- How deep a pattern may be nested. -/
def nestingLimit : Nat := 250

/-! ## Groups -/

/-- A part of a sequence. -/
structure Part where
  /-- How deep it is nested. -/
  depth : Nat
  /-- Whether it matches something of its own; a change of options does not. -/
  matchesText : Bool
  deriving DecidableEq

/-- A group that has been opened, or the whole pattern. -/
structure Group where
  /-- The options in force; they are those of the group around it again when it is closed. -/
  options : Options
  /-- How deep the alternatives before the current one are nested. -/
  before : List Nat
  /-- The parts of the current alternative, newest first. -/
  parts : List Part
  deriving DecidableEq

namespace Group

/-- A group of which nothing has been read. -/
def start (options : Options) : Group := ⟨options, [], []⟩

def add (g : Group) (part : Part) : Group := { g with parts := part :: g.parts }

/-- How deep the current alternative is nested. -/
def current (g : Group) : Nat := nesting (g.parts.map (·.depth))

/-- How deep what has been read is nested. -/
def depth (g : Group) : Nat := nesting (g.current :: g.before)

/-- The group at the start of another alternative. -/
def alternative (g : Group) : Group := { g with before := g.current :: g.before, parts := [] }

/-- The group with its last part repeated. -/
def repeatLast (g : Group) : Option Group :=
  match g.parts with
  | ⟨depth, true⟩ :: parts => some { g with parts := ⟨depth + 1, true⟩ :: parts }
  | _ => none

end Group

/-! ## Reading -/

/-- A pattern as far as it has been read. -/
structure Reader where
  /-- The innermost group that is open. -/
  group : Group
  /-- The groups around it, the nearest first. -/
  outer : List Group
  /-- The names given to groups. -/
  names : List String
  /-- Whether a symbol has asked where words of Unicode start or end. -/
  asksForWords : Bool
  deriving DecidableEq

/-- Whether a character may stand in the name of a group. -/
def isNameChar (c : Char) : Bool :=
  c == '_' || c == '.' || c == '[' || c == ']' || Text.isAlphanumeric c

def isGroupName : List Char → Bool
  | [] => false
  | c :: rest => (c == '_' || Text.isAlphabetic c) && rest.all isNameChar

namespace Reader

def start : Reader := ⟨.start .standard, [], [], false⟩

def openGroup (r : Reader) (options : Options) : Reader :=
  { r with group := .start options, outer := r.group :: r.outer }

/-- Opens a group with a name, which is read first. -/
def openNamed (r : Reader) (cs : List Char) : Option (Reader × List Char) :=
  let name := cs.takeWhile (· ≠ '>')
  match cs.dropWhile (· ≠ '>') with
  | [] => none
  | _ :: rest =>
    if isGroupName name && !r.names.contains (String.ofList name) then
      some ({ r with names := String.ofList name :: r.names }.openGroup r.group.options, rest)
    else none

/-- Changes options, in the rest of the group or in a group of their own. -/
def changeOptions (r : Reader) (cs : List Char) : Option (Reader × List Char) :=
  let endsLetters (c : Char) := c = ':' || c = ')'
  let letters := cs.takeWhile (!endsLetters ·)
  match r.group.options.change letters, cs.dropWhile (!endsLetters ·) with
  | some options, ':' :: rest => some (r.openGroup options, rest)
  | some options, _ :: rest =>
    if letters.isEmpty then none
    else some ({ r with group := { r.group with options }.add ⟨0, false⟩ }, rest)
  | _, _ => none

def readOpening (r : Reader) (cs : List Char) : Option (Reader × List Char) :=
  match r.group.options.skip cs with
  | '?' :: 'P' :: '<' :: rest => r.openNamed rest
  | '?' :: '<' :: rest => r.openNamed rest
  | '?' :: rest => r.changeOptions rest
  | rest => some (r.openGroup r.group.options, rest)

/-- Closes the innermost group, which becomes a part of the one around it. -/
def closeGroup (r : Reader) : Option Reader :=
  match r.outer with
  | [] => none
  | g :: outer => some { r with group := g.add ⟨r.group.depth + 1, true⟩, outer }

def addSymbol (r : Reader) (symbol : Symbol) : Option Reader :=
  if symbol.isUsable r.group.options then
    some { r with
      group := r.group.add ⟨0, true⟩
      asksForWords := r.asksForWords || symbol.asksForWords r.group.options }
  else none

def readBracket (r : Reader) (cs : List Char) : Option (Reader × List Char) :=
  match openSet r.group.options cs with
  | none => none
  | some rest =>
    match readSet r.group.options (rest.length + 1) .start [] rest with
    | none => none
    | some (depth, rest) => some ({ r with group := r.group.add ⟨depth, true⟩ }, rest)

/-- Reads a repetition after its sign; a question mark behind it makes it a reluctant one. -/
def readRepetition (r : Reader) (cs : List Char) : Option (Reader × List Char) :=
  match r.group.repeatLast with
  | none => none
  | some group =>
    some ({ r with group }, match cs with
      | '?' :: rest => rest
      | rest => rest)

/-- Reads on at a character.  A repetition in braces cannot be read, because a field ends at the
first closing brace. -/
def step (r : Reader) (c : Char) (rest : List Char) : Option (Reader × List Char) :=
  if c = '(' then r.readOpening rest
  else if c = ')' then r.closeGroup.map (·, rest)
  else if c = '|' then some ({ r with group := r.group.alternative }, rest)
  else if c = '[' then r.readBracket rest
  else if c = '*' ∨ c = '+' ∨ c = '?' then r.readRepetition rest
  else if c = '\x7b' then none
  else if c = '.' then (r.addSymbol .any).map (·, rest)
  else if c = '^' ∨ c = '$' then (r.addSymbol (.place false)).map (·, rest)
  else
    match readSymbol r.group.options (c :: rest) with
    | none => none
    | some (symbol, rest) => (r.addSymbol symbol).map (·, rest)

/-- Reads to the end.  Each step takes at least one character, so that `fuel` need not be more than
their number and one for the end. -/
def readAll : (fuel : Nat) → Reader → List Char → Option Reader
  | 0, _, _ => none
  | fuel + 1, r, cs =>
    match r.group.options.skip cs with
    | [] => if r.outer.isEmpty then some r else none
    | c :: rest =>
      match r.step c rest with
      | none => none
      | some (r, rest) => readAll fuel r rest

end Reader

/-- Whether a text is a pattern that can be used. -/
def check (cs : List Char) : Except PatternFault Unit :=
  match Reader.readAll (cs.length + 1) .start cs with
  | none => .error .malformed
  | some r =>
    if nestingLimit < r.group.depth then .error .malformed
    else if r.asksForWords then .error .wordBoundary
    else .ok ()

end Pattern

end BridgeMint
