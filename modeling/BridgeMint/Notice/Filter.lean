import BridgeMint.Notice
import BridgeMint.Notice.Pattern
import BridgeMint.Text.White

/-!
# Filters of notices

A filter is a list of directives with commas between them.  A directive is a level, the start of the
name of a part of the program, or such a start, an equals sign and a level; it may also ask for a
field, in brackets and braces.  Of the directives that apply to a notice the most specific one
decides, and of equally specific ones the last.  A directive may further ask for a named span of work
or for the value of a field; the program has no spans, so such a directive applies to nothing.
-/

namespace BridgeMint

/-- Why a text is no filter. -/
inductive FilterError where
  /-- A directive has no level where it should have one. -/
  | level
  /-- A directive has not the form of one. -/
  | directive
  /-- The value that a directive asks for is no pattern. -/
  | value (cause : PatternFault)
  deriving DecidableEq, Repr

def FilterError.message : FilterError → String
  | .level =>
    "error parsing level filter: expected one of \"off\", \"error\", \"warn\", \"info\", \"debug\", \"trace\", or a number 0-5"
  | .directive => "invalid filter directive"
  | .value cause => "invalid field filter: " ++ cause.message

namespace NoticeFilter

/-! ## Levels -/

/-- The level at which every notice passes. -/
def mostTalkative : Nat := 5

/-- The names of the levels; a notice passes a level at least as great as its rank. -/
def levelNames : List (String × Nat) :=
  [("off", 0), ("error", 1), ("warn", 2), ("info", 3), ("debug", 4), ("trace", 5)]

/-- A number in decimal, possibly after a plus sign. -/
def decimal? (cs : List Char) : Option Nat :=
  let digits := match cs with
    | '+' :: rest => rest
    | cs => cs
  if digits.isEmpty || !digits.all Char.isDigit then none
  else some (digits.foldl (fun n c => 10 * n + (c.toNat - 48)) 0)

/-- Reads a level: a number, or a name in letters of either case. -/
def level? (cs : List Char) : Option Nat :=
  match decimal? cs with
  | some n => if n ≤ mostTalkative then some n else none
  | none =>
    if cs.isEmpty then some 1 else levelNames.lookup (String.ofList (cs.map Char.toLower))

/-- Reads the level of a directive; none at all lets every notice pass. -/
def levelOf (cs : List Char) : Except FilterError Nat :=
  if cs.isEmpty then .ok mostTalkative
  else
    match level? cs with
    | some level => .ok level
    | none => .error .level

/-! ## Directives -/

/-- A directive. -/
structure Directive where
  level : Nat
  /-- What the name of the notice's source must start with. -/
  target : Option String
  /-- The span of work asked for. -/
  span : Option String
  /-- The field asked for, and whether its value matters. -/
  field : Option (String × Bool)
  deriving DecidableEq

namespace Directive

def blank : Directive := ⟨mostTalkative, none, none, none⟩

/-- The directive that a single word is: a level, or a target at the most talkative level. -/
def ofWord (word : List Char) : Directive :=
  match level? word with
  | some level => { blank with level }
  | none => { blank with target := some (String.ofList word) }

/-- Whether a directive can apply to a notice at all. -/
def isPlain (directive : Directive) : Bool :=
  directive.span.isNone && !(directive.field.any (·.2))

end Directive

/-- Where the reading of a directive stands; a number is the place at which the current part
starts. -/
inductive Place where
  | start
  | word (first : Nat)
  | span (first : Nat)
  | field (first : Nat)
  | afterField
  | afterSpan
  | level (first : Nat)

/-- The part of a text between two places, which count UTF-8 bytes. -/
def slice (first last : Nat) : (offset : Nat) → List Char → List Char
  | _, [] => []
  | offset, c :: rest =>
    let tail := slice first last (offset + c.utf8Size) rest
    if first ≤ offset ∧ offset < last then c :: tail else tail

/-- A number's digits without its sign, if it has one. -/
def unsigned : List Char → List Char
  | '+' :: rest => rest
  | '-' :: rest => rest
  | cs => cs

def isDigits (cs : List Char) : Bool :=
  !cs.isEmpty && cs.all Char.isDigit

def isExponent : List Char → Bool
  | [] => true
  | c :: rest => c.toLower == 'e' && isDigits (unsigned rest)

/-- The numbers that are named. -/
def numberNames : List String := ["inf", "infinity", "nan"]

/-- Whether characters are a number: whole or with a point, with an exponent or not, or a name. -/
def isNumber (cs : List Char) : Bool :=
  let cs := unsigned cs
  let whole := cs.takeWhile Char.isDigit
  let (fraction, exponent) := match cs.dropWhile Char.isDigit with
    | '.' :: rest => (rest.takeWhile Char.isDigit, rest.dropWhile Char.isDigit)
    | rest => ([], rest)
  (isDigits (whole ++ fraction) && isExponent exponent) ||
    numberNames.contains (String.ofList (cs.map Char.toLower))

/-- What a directive asks of a field: its name, and possibly its value between an equals sign and the
next.  The value is a number or a pattern. -/
def fieldOf (cs : List Char) : Except FilterError (String × Bool) :=
  let name := String.ofList (cs.takeWhile (· ≠ '='))
  match cs.dropWhile (· ≠ '=') with
  | [] => .ok (name, false)
  | _ :: rest =>
    let value := rest.takeWhile (· ≠ '=')
    if isNumber value then .ok (name, true)
    else
      match Pattern.check value with
      | .error cause => .error (.value cause)
      | .ok () => .ok (name, true)

/-- Reads one more character of a directive; `part` gives what stands between two places. -/
def step (part : Nat → Nat → List Char) (place : Place) (directive : Directive) (offset : Nat)
    (c : Char) : Except FilterError (Place × Directive) :=
  match place with
  | .start =>
    if c = '[' then .ok (.span (offset + 1), directive)
    else if c = '-' ∨ c = ':' ∨ c = '_' ∨ Text.isAlphanumeric c then .ok (.word offset, directive)
    else .error .directive
  | .word first =>
    let target := some (String.ofList (part first offset))
    if c = '=' then .ok (.level (offset + 1), { directive with target })
    else if c = '[' then .ok (.span (offset + 1), { directive with target })
    else .ok (place, directive)
  | .span first =>
    let name := String.ofList (part first offset)
    if c = ']' then .ok (.afterSpan, { directive with span := some name })
    else if c = '\x7b' then
      .ok (.field (offset + 1), { directive with span := if name = "" then none else some name })
    else .ok (place, directive)
  | .field first =>
    if c = '\x7d' then
      if (part first offset).isEmpty then .error .directive
      else
        match fieldOf (part first offset) with
        | .error e => .error e
        | .ok field => .ok (.afterField, { directive with field := some field })
    else .ok (place, directive)
  | .afterField => if c = ']' then .ok (.afterSpan, directive) else .error .directive
  | .afterSpan => if c = '=' then .ok (.level (offset + 1), directive) else .error .directive
  | .level _ => .ok (place, directive)

/-- Reads the characters of a directive one after another. -/
def steps (part : Nat → Nat → List Char) : Place → Directive → (offset : Nat) → List Char →
    Except FilterError (Place × Directive)
  | place, directive, _, [] => .ok (place, directive)
  | place, directive, offset, c :: rest =>
    match step part place directive offset c with
    | .error e => .error e
    | .ok (place, directive) => steps part place directive (offset + c.utf8Size) rest

/-- A text without the blanks at its ends. -/
def trim (cs : List Char) : List Char :=
  ((cs.dropWhile Text.isWhite).reverse.dropWhile Text.isWhite).reverse

/-- Reads a directive.  Blanks at its ends are not looked at, but places are counted without them
and used with them. -/
def readDirective (cs : List Char) : Except FilterError Directive :=
  let size := (String.ofList cs).utf8ByteSize
  let part (first last : Nat) := slice first last 0 cs
  match steps part .start .blank 0 (trim cs) with
  | .error e => .error e
  | .ok (.word first, _) => .ok (.ofWord (part first size))
  | .ok (.level first, directive) =>
    match levelOf (part first size) with
    | .error e => .error e
    | .ok level => .ok { directive with level }
  | .ok (.afterSpan, directive) => .ok directive
  | .ok _ => .error .directive

end NoticeFilter

/-! ## Filters -/

/-- A filter. -/
structure NoticeFilter where
  directives : List NoticeFilter.Directive
  deriving DecidableEq

namespace NoticeFilter

def errorsOnly : NoticeFilter := ⟨[{ Directive.blank with level := 1 }]⟩

/-- Reads directives from the left; the first that is wrong decides. -/
def readDirectives : List (List Char) → Except FilterError (List Directive)
  | [] => .ok []
  | cs :: rest =>
    match readDirective cs with
    | .error e => .error e
    | .ok directive =>
      match readDirectives rest with
      | .error e => .error e
      | .ok directives => .ok (directive :: directives)

/-- Reads a filter.  Empty directives do not count, and a filter without directives lets errors
pass. -/
def parse (text : String) : Except FilterError NoticeFilter :=
  match readDirectives ((text.toList.splitOn ',').filter (!·.isEmpty)) with
  | .error e => .error e
  | .ok [] => .ok errorsOnly
  | .ok directives => .ok ⟨directives⟩

/-! ## Passing notices -/

/-- Whether a directive applies to a notice.  Every notice has its sentence as the field
`message`. -/
def Directive.appliesTo (directive : Directive) (notice : Notice) : Bool :=
  directive.isPlain &&
    directive.target.all (fun target => target.toList.isPrefixOf notice.source.toList) &&
    directive.field.all (fun field =>
      field.1 == "message" || notice.fields.any (·.1 == field.1))

/-- How specific the target of a directive is. -/
def Directive.targetSize (directive : Directive) : Nat :=
  match directive.target with
  | none => 0
  | some target => target.utf8ByteSize + 1

/-- The field asked for, as text; none is the empty text. -/
def Directive.fieldName (directive : Directive) : String :=
  (directive.field.map (·.1)).getD ""

/-- Whether a directive is at least as specific as another that applies to the same notice: by its
target, then by asking for a field at all, then by the order of the fields' names. -/
def Directive.atLeast (a b : Directive) : Bool :=
  -- Both targets start the same name, so the longer one says more.
  if a.targetSize ≠ b.targetSize then b.targetSize < a.targetSize
  else if a.field.isSome ≠ b.field.isSome then a.field.isSome
  else b.fieldName ≤ a.fieldName

/-- The directive that decides about a notice. -/
def deciding (filter : NoticeFilter) (notice : Notice) : Option Directive :=
  (filter.directives.filter (·.appliesTo notice)).foldl
    (fun best directive =>
      match best with
      | none => some directive
      | some best => if directive.atLeast best then some directive else some best)
    none

def allows (filter : NoticeFilter) (notice : Notice) : Bool :=
  match filter.deciding notice with
  | none => false
  | some directive => notice.severity.rank ≤ directive.level

end NoticeFilter

end BridgeMint
