import BridgeMint.Toml.Moment
import BridgeMint.Toml.Number
import BridgeMint.Toml.Text
import BridgeMint.Toml.Tree

/-!
# Reading values in TOML

Texts, plain words such as numbers and dates, lists, and tables written on one line.  Lists may run
over several lines and end with a comma; tables on one line may not.  Values nest to a limited depth.
-/

namespace BridgeMint

namespace Toml

/-! ## Plain words -/

/-- The characters of numbers, dates and names of values. -/
def isWordChar (c : Char) : Bool :=
  c.isAlphanum || c == '_' || c == '-' || c == '+' || c == '.' || c == ':'

def word? (cs : List Char) : Option Datum :=
  if cs = "true".toList then some (.truth true)
  else if cs = "false".toList then some (.truth false)
  else if isMoment cs then some .moment
  else number? cs

/-- Reads a word.  A date may be followed by one blank and a time. -/
def readWord (cs : List Char) : Option (Datum × List Char) :=
  let word := cs.takeWhile isWordChar
  let rest := cs.dropWhile isWordChar
  match rest with
  | ' ' :: d :: _ =>
    if isDate word && d.isDigit then
      let rest := rest.tail
      if isZonedTime (rest.takeWhile isWordChar) then some (.moment, rest.dropWhile isWordChar)
      else none
    else (word? word).map (·, rest)
  | _ => (word? word).map (·, rest)

/-! ## Names -/

def isNameChar (c : Char) : Bool :=
  c.isAlphanum || c == '_' || c == '-'

def readNamePart (cs : List Char) : Option (String × List Char) :=
  match skipBlanks cs with
  | '"' :: rest => (readBasic rest).map fun (s, rest) => (String.ofList s, rest)
  | '\'' :: rest => (readLiteral rest).map fun (s, rest) => (String.ofList s, rest)
  | cs =>
    match cs.takeWhile isNameChar with
    | [] => none
    | name => some (String.ofList name, cs.dropWhile isNameChar)

/-- How many parts a name may have, and how deep values may nest. -/
def depthLimit : Nat := 79

/-- Reads a name of at most `limit` parts, with the blanks around it. -/
def readName : (limit : Nat) → List Char → Option (Name × List Char)
  | 0, _ => none
  | limit + 1, cs =>
    match readNamePart cs with
    | none => none
    | some (part, rest) =>
      match skipBlanks rest with
      | '.' :: rest =>
        (readName limit rest).map fun (name, rest) =>
          ({ name with parents := part :: name.parents }, rest)
      | rest => some (⟨[], part⟩, rest)

/-! ## Lists and tables -/

/-- A way to read a value off the front of a text. -/
abbrev ValueReader := List Char → Option (Datum × List Char)

/-- Reads the rest of a list after its opening bracket or a comma; `fuel` bounds the number of
items. -/
def readItems (readValue : ValueReader) : (fuel : Nat) → List Char →
    Option (List Datum × List Char)
  | 0, _ => none
  | fuel + 1, cs =>
    match skipLines cs.length cs with
    | ']' :: rest => some ([], rest)
    | cs =>
      match readValue cs with
      | none => none
      | some (item, rest) =>
        match skipLines rest.length rest with
        | ',' :: rest => (readItems readValue fuel rest).map fun (items, rest) =>
            (item :: items, rest)
        | ']' :: rest => some ([item], rest)
        | _ => none

/-- Reads a name, the equals sign and a value, with the blanks around them. -/
def readMember (readValue : ValueReader) (cs : List Char) :
    Option ((Name × Datum) × List Char) :=
  match readName depthLimit cs with
  | some (name, '=' :: rest) =>
    match readValue (skipBlanks rest) with
    | none => none
    | some (value, rest) => some ((name, value), skipBlanks rest)
  | _ => none

/-- Reads the members of a table on one line up to its end; there is at least one.  `fuel` bounds
their number. -/
def readMembers (readValue : ValueReader) : (fuel : Nat) → List Char →
    Option (List (Name × Datum) × List Char)
  | 0, _ => none
  | fuel + 1, cs =>
    match readMember readValue cs with
    | none => none
    | some (member, ',' :: rest) =>
      (readMembers readValue fuel rest).map fun (members, rest) => (member :: members, rest)
    | some (member, '\x7d' :: rest) => some ([member], rest)
    | _ => none

/-- Reads a table on one line after its opening brace. -/
def readTable (readValue : ValueReader) (cs : List Char) : Option (Datum × List Char) :=
  match skipBlanks cs with
  | '\x7d' :: rest => some (.table [] true, rest)
  | _ =>
    match readMembers readValue cs.length cs with
    | none => none
    | some (members, rest) => (Entries.ofMembers? members).map (·.toDatum, rest)

/-- Reads a value in which lists and tables nest to at most `depth` levels. -/
def readValue : (depth : Nat) → ValueReader
  | _, '"' :: rest => (readText? ('"' :: rest)).map fun (s, rest) => (.text (String.ofList s), rest)
  | _, '\'' :: rest =>
    (readText? ('\'' :: rest)).map fun (s, rest) => (.text (String.ofList s), rest)
  | 0, '[' :: _ | 0, '\x7b' :: _ => none
  | depth + 1, '[' :: rest =>
    (readItems (readValue depth) rest.length rest).map fun (items, rest) => (.list items true, rest)
  | depth + 1, '\x7b' :: rest => readTable (readValue depth) rest
  | _, cs => readWord cs

end Toml

end BridgeMint
