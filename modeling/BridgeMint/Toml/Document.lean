import BridgeMint.Toml.Value

/-!
# Reading TOML documents

A document is a list of statements, one a line, though a value may run over several lines.  The whole
document must make sense before any of it is given a meaning.
-/

namespace BridgeMint

namespace Toml

/-- What a line says. -/
inductive Statement where
  /-- The line is blank or a comment. -/
  | nothing
  | openTable (name : Name)
  | openRow (name : Name)
  | assign (name : Name) (value : Datum)

namespace Statement

/-- Reads a header after its opening brackets, up to the end of its line. -/
def readHeader (closing : List Char) (make : Name → Statement) (cs : List Char) :
    Option (Statement × List Char) :=
  match readName depthLimit cs with
  | none => none
  | some (name, rest) =>
    if closing.isPrefixOf rest then (endLine? (rest.drop closing.length)).map (make name, ·)
    else none

/-- Reads the setting of a value up to the end of its line. -/
def readAssignment (cs : List Char) : Option (Statement × List Char) :=
  match readMember (readValue depthLimit) cs with
  | none => none
  | some ((name, value), rest) => (endLine? rest).map (assign name value, ·)

/-- Reads the statement at the front of a text, with its line. -/
def read (cs : List Char) : Option (Statement × List Char) :=
  match endLine? cs with
  | some rest => some (nothing, rest)
  | none =>
    match skipBlanks cs with
    | '[' :: '[' :: rest => readHeader [']', ']'] openRow rest
    | '[' :: rest => readHeader [']'] openTable rest
    | cs => readAssignment cs

/-- Reads statements to the end of a text; `fuel` bounds their number. -/
def readAll : (fuel : Nat) → List Char → Option (List Statement)
  | _, [] => some []
  | 0, _ => none
  | fuel + 1, cs =>
    match read cs with
    | none => none
    | some (statement, rest) => (readAll fuel rest).map (statement :: ·)

end Statement

/-! ## Documents -/

/-- A document as far as it has been read. -/
structure Draft where
  entries : Entries
  /-- The path of the table opened last. -/
  path : List String

namespace Draft

/-- The document of which nothing has been read. -/
def blank : Draft := ⟨[], []⟩

def add (draft : Draft) : Statement → Option Draft
  | .nothing => some draft
  | .openTable name => (draft.entries.openTable name).map (⟨·, name.parts⟩)
  | .openRow name => (draft.entries.openRow name).map (⟨·, name.parts⟩)
  | .assign name value =>
    (draft.entries.within draft.path (·.assign name.parents name.last value)).map
      fun entries => { draft with entries }

end Draft

/-- A text without the mark of its byte order. -/
def dropByteOrderMark : List Char → List Char
  | '\ufeff' :: rest => rest
  | cs => cs

def readDocument (text : String) : Option Datum :=
  let cs := unifyBreaks (dropByteOrderMark text.toList)
  match Statement.readAll cs.length cs with
  | none => none
  | some statements =>
    (statements.foldlM Draft.add Draft.blank).map (·.entries.toDatum)

/-- Reads a document and gives it a meaning. -/
def decode {α : Type} (read : Datum → Except MeaningError α) (text : String) :
    Except MeaningError α :=
  match readDocument text with
  | none => .error .malformed
  | some d => read d

end Toml

end BridgeMint
