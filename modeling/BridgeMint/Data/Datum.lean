import BridgeMint.Address
import BridgeMint.UInt256.Text

/-!
# Structured data

What a text in JSON or TOML says, before it is given a meaning: numbers, texts, lists and tables.  A
list or table also tells whether its text is intact.  A text that stops making sense somewhere still
says what stands before that place; whoever gives it a meaning reads from left to right and so meets
either a fault of meaning or the broken place first.
-/

namespace BridgeMint

/-- What a structured text says. -/
inductive Datum where
  | null
  | truth (b : Bool)
  | integer (n : Int)
  /-- A number with a fraction or an exponent, or one too large for an integer. -/
  | float
  | text (s : String)
  /-- A date, a time or both. -/
  | moment
  /-- Items in order; unless `intact`, the text breaks after them. -/
  | list (items : List Datum) (intact : Bool)
  /-- Members in order; unless `intact`, the text breaks after them. -/
  | table (members : List (String × Datum)) (intact : Bool)
  /-- There is no value here: the text does not make sense. -/
  | broken
  deriving Inhabited

namespace Datum

def ofOption (f : α → Datum) : Option α → Datum
  | none => null
  | some a => f a

def ofUInt64 (n : UInt64) : Datum := integer n.toNat

end Datum

/-! ## Faults of meaning -/

/-- Why a structured text has no meaning of the kind wanted. -/
inductive MeaningError where
  /-- The text itself does not make sense. -/
  | malformed
  /-- There is a value of one kind where another is wanted. -/
  | wrongKind (found expected : String)
  /-- There is an integer out of the wanted range. -/
  | wrongInteger (n : Int) (expected : String)
  | unknownField (name : String) (allowed : List String)
  | duplicateField (name : String)
  | unknownVariant (name : String) (allowed : List String)
  /-- A text does not denote a value. -/
  | format (cause : FormatError)
  /-- Another fault, in words. -/
  | other (reason : String)
  deriving DecidableEq

def quoteNames (names : List String) : List String :=
  names.map fun name => s!"`{name}`"

/-- Names as alternatives: none, one, two, or several. -/
def alternatives (names : List String) : String :=
  match quoteNames names with
  | [] => "there are no fields"
  | [a] => s!"expected {a}"
  | [a, b] => s!"expected {a} or {b}"
  | several => "expected one of " ++ String.intercalate ", " several

/-- Why a structured text has no meaning of the kind wanted, in words. -/
def MeaningError.message : MeaningError → String
  | malformed => "malformed text"
  | wrongKind found expected => s!"invalid type: {found}, expected {expected}"
  | wrongInteger n expected => s!"invalid value: integer `{n}`, expected {expected}"
  | unknownField name allowed => s!"unknown field `{name}`, {alternatives allowed}"
  | duplicateField name => s!"duplicate field `{name}`"
  | unknownVariant name allowed => s!"unknown variant `{name}`, {alternatives allowed}"
  | format cause => cause.message
  | other reason => reason

/-- What a value is called where another is wanted.  The numeral of a number with a fraction is not
repeated. -/
def Datum.kind : Datum → String
  | null => "null"
  | truth b => s!"boolean `{b}`"
  | integer n => s!"integer `{n}`"
  | float => "floating point `_`"
  | text s => s!"string {Text.quoted s}"
  | list .. => "sequence"
  | moment | table .. => "map"
  | broken => "nothing"

namespace Datum

/-- The fault of finding this value where `expected` is wanted; a broken place stays broken. -/
def mismatch (d : Datum) (expected : String) : MeaningError :=
  match d with
  | broken => .malformed
  | d => .wrongKind d.kind expected

/-! ## Plain values -/

def toUInt64 : Datum → Except MeaningError UInt64
  | integer n =>
    if 0 ≤ n ∧ n < UInt64.size then .ok (UInt64.ofNat n.toNat) else .error (.wrongInteger n "u64")
  | d => .error (d.mismatch "u64")

/-- Reads a text; `expected` is what a fault calls it. -/
def toText (expected : String) : Datum → Except MeaningError String
  | text s => .ok s
  | d => .error (d.mismatch expected)

def amountKind : String :=
  "an unsigned integer, a decimal string or a 0x hex string"

/-- An amount given as an integer; integers of data are below `2 ^ 64`, other sources may give up to
`2 ^ 128`. -/
def amountOfInteger (n : Int) : Except MeaningError UInt256 :=
  if 0 ≤ n then .ok (UInt256.ofNat n.toNat) else .error (.wrongInteger n amountKind)

def amountOfText (s : String) : Except MeaningError UInt256 :=
  (UInt256.parse s).mapError .format

/-- Reads an amount: an integer, or decimal or hexadecimal text. -/
def toAmount : Datum → Except MeaningError UInt256
  | integer n => amountOfInteger n
  | text s => amountOfText s
  | d => .error (d.mismatch amountKind)

def toAddress (d : Datum) : Except MeaningError Address := do
  (Address.parse (← d.toText "a string")).mapError .format

def toWord (d : Datum) : Except MeaningError Word := do
  (Word.parse (← d.toText "a string")).mapError .format

/-- Reads an optional value: null is none. -/
def toOption {α : Type} (read : Datum → Except MeaningError α) : Datum →
    Except MeaningError (Option α)
  | null => .ok none
  | d => (read d).map some

end Datum

end BridgeMint
