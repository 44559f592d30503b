import BridgeMint.Toml.Quoted

/-!
# Writing TOML documents

A document is written as sections: the values at its head, and after them tables with a header each,
before which a blank line stands.  Integers in TOML have sixty-three bits and a sign, so that greater
ones cannot be written.
-/

namespace BridgeMint

namespace Toml

/-- A value that a line can hold. -/
inductive Scalar where
  | integer (n : UInt64)
  | text (s : String)
  deriving DecidableEq

/-- A part of a document: the path of its header, empty at the head of the document, and the values
under it.  Names consist of letters, digits and underscores. -/
structure Section where
  path : List String
  values : List (String × Scalar)
  deriving DecidableEq

/-- Why a document cannot be written. -/
inductive WriteError where
  /-- An integer has too many bits. -/
  | integerTooLarge
  deriving DecidableEq, Repr

def WriteError.message : WriteError → String
  | .integerTooLarge => "out-of-range value for u64 type"

namespace Scalar

def isWritable : Scalar → Bool
  | integer n => n < 0x8000000000000000
  | text _ => true

def write : Scalar → List Char
  | integer n => Nat.toDigits 10 n.toNat
  | text s => writeText s.toList

end Scalar

namespace Section

def writeValue (entry : String × Scalar) : List Char :=
  entry.1.toList ++ " = ".toList ++ entry.2.write ++ ['\n']

/-- The blank line and the header of a section. -/
def writeHeader : List String → List Char
  | [] => []
  | path => ['\n', '['] ++ (String.intercalate "." path).toList ++ [']', '\n']

def write (part : Section) : List Char :=
  writeHeader part.path ++ part.values.flatMap writeValue

def isWritable (part : Section) : Bool :=
  part.values.all (·.2.isWritable)

end Section

def encode (parts : List Section) : Except WriteError String :=
  if parts.all Section.isWritable then .ok (String.ofList (parts.flatMap Section.write))
  else .error .integerTooLarge

end Toml

end BridgeMint
