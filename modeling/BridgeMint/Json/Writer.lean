import BridgeMint.Data.Datum
import BridgeMint.Json.Text

/-!
# Writing JSON

Data are written either on one line without blanks, or over several lines with two blanks of
indentation per level.  An empty list or table is written without a line break in both styles.
-/

namespace BridgeMint

namespace Json

/-- A value that is neither a list nor a table. -/
def writePlain : Datum → List Char
  | .truth true => "true".toList
  | .truth false => "false".toList
  | .integer n => (toString n).toList
  | .text s => writeText s.toList
  | _ => "null".toList

/-! ## On one line -/

mutual

def write : Datum → List Char
  | .list items _ => '[' :: writeItems items ++ [']']
  | .table members _ => '\x7b' :: writeMembers members ++ ['\x7d']
  | d => writePlain d

def writeItems : List Datum → List Char
  | [] => []
  | [item] => write item
  | item :: rest => write item ++ ',' :: writeItems rest

def writeMembers : List (String × Datum) → List Char
  | [] => []
  | [(name, value)] => writeText name.toList ++ ':' :: write value
  | (name, value) :: rest =>
    writeText name.toList ++ ':' :: write value ++ ',' :: writeMembers rest

end

def encode (d : Datum) : String :=
  String.ofList (write d)

/-! ## Over several lines -/

/-- A line break and the indentation of a level. -/
def lineBreak (level : Nat) : List Char :=
  '\n' :: List.replicate (2 * level) ' '

mutual

/-- Writes a value that stands at a level. -/
def writeIndented (level : Nat) : Datum → List Char
  | .list [] _ => ['[', ']']
  | .list items _ =>
    '[' :: writeIndentedItems (level + 1) items ++ lineBreak level ++ [']']
  | .table [] _ => ['\x7b', '\x7d']
  | .table members _ =>
    '\x7b' :: writeIndentedMembers (level + 1) members ++ lineBreak level ++ ['\x7d']
  | d => writePlain d

/-- Writes items on lines of a level. -/
def writeIndentedItems (level : Nat) : List Datum → List Char
  | [] => []
  | [item] => lineBreak level ++ writeIndented level item
  | item :: rest =>
    lineBreak level ++ writeIndented level item ++ ',' :: writeIndentedItems level rest

/-- Writes members on lines of a level. -/
def writeIndentedMembers (level : Nat) : List (String × Datum) → List Char
  | [] => []
  | [(name, value)] =>
    lineBreak level ++ writeText name.toList ++ ':' :: ' ' :: writeIndented level value
  | (name, value) :: rest =>
    lineBreak level ++ writeText name.toList ++ ':' :: ' ' :: writeIndented level value ++
      ',' :: writeIndentedMembers level rest

end

def encodeIndented (d : Datum) : String :=
  String.ofList (writeIndented 0 d)

end Json

end BridgeMint
