/-!
# Why a file cannot be used

The causes for which reading or writing a file fails, with the wording of the operating system.
-/

namespace BridgeMint

/-- Why a file cannot be read or written. -/
inductive FileFault where
  | notFound
  /-- A part of the path that should be a directory is a file. -/
  | notDirectory
  /-- The path is that of a directory. -/
  | isDirectory
  /-- A part of the path has too many bytes. -/
  | nameTooLong
  /-- The path contains a zero byte. -/
  | zeroByte
  /-- The file is no text in UTF-8. -/
  | notText
  /-- Another fault, in words. -/
  | other (reason : String)
  deriving DecidableEq, Repr

/-- Why a file cannot be read or written, in words. -/
def FileFault.message : FileFault → String
  | .notFound => "No such file or directory (os error 2)"
  | .notDirectory => "Not a directory (os error 20)"
  | .isDirectory => "Is a directory (os error 21)"
  | .nameTooLong => "File name too long (os error 36)"
  | .zeroByte => "file name contained an unexpected NUL byte"
  | .notText => "stream did not contain valid UTF-8"
  | .other reason => reason

end BridgeMint
