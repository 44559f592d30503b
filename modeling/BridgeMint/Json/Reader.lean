import BridgeMint.Json.Number
import BridgeMint.Json.Text

/-!
# Reading JSON

The text is read as far as it makes sense; where it stops making sense, the data it has given so far
say so.  A value read from the data then meets the first fault from the left, whether it is one of
form or one of meaning.
-/

namespace BridgeMint

namespace Json

/-- Whether a character may stand between the parts of a text. -/
def isBlank (c : Char) : Bool :=
  c == ' ' || c == '\n' || c == '\t' || c == '\r'

/-- What follows the blanks at the front of a text. -/
def skipBlanks (cs : List Char) : List Char :=
  cs.dropWhile isBlank

/-- Reads a number or one of the three names. -/
def readPlain (cs : List Char) : Datum × List Char :=
  match cs with
  | 'n' :: 'u' :: 'l' :: 'l' :: rest => (.null, rest)
  | 't' :: 'r' :: 'u' :: 'e' :: rest => (.truth true, rest)
  | 'f' :: 'a' :: 'l' :: 's' :: 'e' :: rest => (.truth false, rest)
  | cs =>
    match numeral? cs with
    | none => (.broken, cs)
    | some (numeral, rest) => (numeral.toDatum, rest)

/-- Reads the name of a member: a text. -/
def readName (cs : List Char) : Option (String × List Char) :=
  match skipBlanks cs with
  | '"' :: rest => (readText rest).map fun (name, rest) => (String.ofList name, rest)
  | _ => none

/-- What follows the colon at the front of a text. -/
def colon? (cs : List Char) : Option (List Char) :=
  match skipBlanks cs with
  | ':' :: rest => some rest
  | _ => none

mutual

/-- Reads a value; `fuel` bounds the number of steps. -/
def readValue : (fuel : Nat) → List Char → Datum × List Char
  | 0, cs => (.broken, cs)
  | fuel + 1, cs =>
    match skipBlanks cs with
    | '"' :: rest =>
      match readText rest with
      | none => (.broken, rest)
      | some (s, rest) => (.text (String.ofList s), rest)
    | '[' :: rest =>
      match skipBlanks rest with
      | ']' :: rest => (.list [] true, rest)
      | rest =>
        let (items, intact, rest) := readItems fuel rest
        (.list items intact, rest)
    | '\x7b' :: rest =>
      match skipBlanks rest with
      | '\x7d' :: rest => (.table [] true, rest)
      | rest =>
        let (members, intact, rest) := readMembers fuel rest
        (.table members intact, rest)
    | cs => readPlain cs

/-- Reads the items of a list up to its end, and tells whether the end was found. -/
def readItems : (fuel : Nat) → List Char → List Datum × Bool × List Char
  | 0, cs => ([], false, cs)
  | fuel + 1, cs =>
    let (item, rest) := readValue fuel cs
    match skipBlanks rest with
    | ',' :: rest =>
      let (items, intact, rest) := readItems fuel rest
      (item :: items, intact, rest)
    | ']' :: rest => ([item], true, rest)
    | rest => ([item], false, rest)

/-- Reads the members of a table up to its end, and tells whether the end was found. -/
def readMembers : (fuel : Nat) → List Char → List (String × Datum) × Bool × List Char
  | 0, cs => ([], false, cs)
  | fuel + 1, cs =>
    match readName cs with
    | none => ([], false, cs)
    | some (name, rest) =>
      match colon? rest with
      | none => ([(name, .broken)], false, rest)
      | some rest =>
        let (value, rest) := readValue fuel rest
        match skipBlanks rest with
        | ',' :: rest =>
          let (members, intact, rest) := readMembers fuel rest
          ((name, value) :: members, intact, rest)
        | '\x7d' :: rest => ([(name, value)], true, rest)
        | rest => ([(name, value)], false, rest)

end

/-- Reads the value at the front of a text, and what follows it. -/
def readDatum (cs : List Char) : Datum × List Char :=
  readValue (2 * cs.length + 2) cs

/-- Reads a text that holds one value; `read` gives the value its meaning. -/
def decode {α : Type} (read : Datum → Except MeaningError α) (text : String) :
    Except MeaningError α :=
  let (datum, rest) := readDatum text.toList
  match read datum with
  | .error e => .error e
  | .ok value => if (skipBlanks rest).isEmpty then .ok value else .error .malformed

end Json

end BridgeMint
