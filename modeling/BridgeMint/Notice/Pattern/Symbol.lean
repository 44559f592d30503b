import BridgeMint.Text.White

/-!
# Symbols of patterns

A pattern is a regular expression.  Its smallest parts are symbols: a character, a kind of characters,
any character, or a condition on the place.  How they are read and which of them may be used depends
on the options in force.  Patterns look for text in UTF-8 and know characters by themselves alone: of
their kinds and of their two cases only those of ASCII are known, and nothing may match a part of a
character.
-/

namespace BridgeMint

namespace Pattern

/-! ## Options -/

/-- The options in force at a place in a pattern. -/
structure Options where
  /-- Whether letters stand for both of their cases. -/
  ignoreCase : Bool
  /-- Whether symbols stand for characters of Unicode, not for single bytes. -/
  unicode : Bool
  /-- Whether blanks are skipped and number signs start comments. -/
  spaced : Bool
  deriving DecidableEq, Repr

namespace Options

/-- The options in force at the start. -/
def standard : Options := ⟨false, true, false⟩

/-- The letters of the options; not all of them matter for whether a pattern can be used. -/
def letters : List Char := ['i', 'm', 's', 'U', 'u', 'R', 'x']

/-- Turns the option of a letter on or off. -/
def set (options : Options) (on : Bool) (letter : Char) : Options :=
  if letter = 'i' then { options with ignoreCase := on }
  else if letter = 'u' then { options with unicode := on }
  else if letter = 'x' then { options with spaced := on }
  else options

/-- Turns on the options of the letters up to a dash and turns off those behind it.  No letter and no
dash may stand there twice, and a dash must have a letter behind it. -/
def change (options : Options) (cs : List Char) : Option Options :=
  if cs.all (fun c => c = '-' || letters.contains c) && decide cs.Nodup && cs.getLast? ≠ some '-' then
    let on := cs.takeWhile (· ≠ '-')
    let off := cs.dropWhile (· ≠ '-')
    some (off.foldl (·.set false) (on.foldl (·.set true) options))
  else none

end Options

def skipBlanks : (inComment : Bool) → List Char → List Char
  | _, [] => []
  | true, c :: rest => skipBlanks (c ≠ '\n') rest
  | false, c :: rest =>
    if Text.isWhite c then skipBlanks false rest
    else if c = '#' then skipBlanks true rest
    else c :: rest

/-- Skips what does not count under the options in force. -/
def Options.skip (options : Options) (cs : List Char) : List Char :=
  if options.spaced then skipBlanks false cs else cs

/-! ## Symbols -/

/-- A symbol. -/
inductive Symbol where
  /-- A character; `isByte` tells that it is given by two hexadecimal digits and so may be meant as a
  byte. -/
  | character (c : Char) (isByte : Bool)
  /-- Digits, white space or the characters of words, or all others. -/
  | kind (negated : Bool)
  | any
  /-- A condition on the place; `ofWord` tells that it is about where words start and end. -/
  | place (ofWord : Bool)
  deriving DecidableEq, Repr

namespace Symbol

def isUsable (options : Options) : Symbol → Bool
  | character c isByte =>
    if options.unicode then !options.ignoreCase else !(isByte && 128 ≤ c.toNat)
  | kind negated => !options.unicode && !negated
  | any => options.unicode
  | place _ => true

def isUsableInSet (options : Options) : Symbol → Bool
  | character c _ => if options.unicode then !options.ignoreCase else c.toNat < 128
  | kind negated => !options.unicode && !negated
  | _ => false

/-- Whether a symbol asks where words of Unicode start or end. -/
def asksForWords (options : Options) : Symbol → Bool
  | place ofWord => ofWord && options.unicode
  | _ => false

end Symbol

/-! ## Escapes -/

def hexValue? (c : Char) : Option Nat :=
  if c.isDigit then some (c.toNat - 48)
  else if 'a' ≤ c ∧ c ≤ 'f' then some (c.toNat - 87)
  else if 'A' ≤ c ∧ c ≤ 'F' then some (c.toNat - 55)
  else none

/-- Reads a number of hexadecimal digits after what is read so far. -/
def readHex (options : Options) : (digits value : Nat) → List Char → Option (Nat × List Char)
  | 0, value, cs => some (value, options.skip cs)
  | digits + 1, value, cs =>
    match options.skip cs with
    | [] => none
    | c :: rest =>
      match hexValue? c with
      | none => none
      | some digit => readHex options digits (16 * value + digit) rest

/-- Reads a character that is given by its number. -/
def readNumbered (options : Options) (digits : Nat) (cs : List Char) :
    Option (Symbol × List Char) :=
  match readHex options digits 0 cs with
  | none => none
  | some (n, rest) =>
    if n.isValidChar then some (.character (.ofNat n) (digits == 2), rest) else none

/-- The letters that stand for a control character after a backslash. -/
def controlLetters : List (Char × Char) :=
  [('a', '\x07'), ('f', '\x0c'), ('t', '\t'), ('n', '\n'), ('r', '\r'), ('v', '\x0b')]

/-- The symbol that one character stands for after a backslash. -/
def escaped (c : Char) : Option Symbol :=
  match controlLetters.lookup c with
  | some control => some (.character control false)
  | none =>
    if c = 'A' ∨ c = 'z' then some (.place false)
    else if c = 'b' ∨ c = 'B' ∨ c = '<' ∨ c = '>' then some (.place true)
    else if c = 'd' ∨ c = 's' ∨ c = 'w' then some (.kind false)
    else if c = 'D' ∨ c = 'S' ∨ c = 'W' then some (.kind true)
    -- Any other sign of ASCII stands for itself.
    else if c.toNat < 128 ∧ !c.isAlphanum then some (.character c false)
    else none

def readEscape (options : Options) : List Char → Option (Symbol × List Char)
  | [] => none
  | 'x' :: rest => readNumbered options 2 rest
  | 'u' :: rest => readNumbered options 4 rest
  | 'U' :: rest => readNumbered options 8 rest
  | c :: rest => (escaped c).map (·, rest)

/-- Reads a symbol that may be a character or start with a backslash. -/
def readSymbol (options : Options) : List Char → Option (Symbol × List Char)
  | [] => none
  | '\\' :: rest => readEscape options rest
  | c :: rest => some (.character c false, rest)

/-! ## Nesting -/

/-- How deep the parts of a sequence are nested: a sequence of one part is this part. -/
def nesting : List Nat → Nat
  | [] => 0
  | [depth] => depth
  | depths => depths.foldl max 0 + 1

end Pattern

end BridgeMint
