import BridgeMint.Files.Fault

/-!
# Paths of files

A path leads from a directory to a file by names with slashes between them.  It is followed name by
name, so the first name that leads nowhere decides what is wrong with it.
-/

namespace BridgeMint

/-- A path as it is followed. -/
structure FilePath where
  /-- Whether it starts at the topmost directory. -/
  isAbsolute : Bool
  /-- The names on the way; none of them is empty. -/
  names : List String
  /-- Whether it ends with a slash and so can only be that of a directory. -/
  namesDirectory : Bool
  deriving DecidableEq, Repr

namespace FilePath

/-- The number of bytes from which on a path is too long. -/
def sizeLimit : Nat := 4096

/-- The greatest number of bytes in a name. -/
def nameLimit : Nat := 255

/-- The name that stays where it is. -/
def here : String := "."

/-- The name that leads to the directory above. -/
def parent : String := ".."

/-- The path without a check of its length. -/
def ofText (text : String) : FilePath where
  isAbsolute := text.toList.head? == some '/'
  names := ((text.toList.splitOn '/').filter (!·.isEmpty)).map String.ofList
  namesDirectory := text.toList.getLast? == some '/'

def parse (text : String) : Except FileFault FilePath :=
  if text.toList.contains '\x00' then .error .zeroByte
  else if text = "" then .error .notFound
  else if sizeLimit ≤ text.utf8ByteSize then .error .nameTooLong
  else .ok (ofText text)

end FilePath

end BridgeMint
