import BridgeMint.Notice.Pattern.Symbol

/-!
# Sets of characters in brackets

A set lists characters, ranges of characters, kinds of characters and other sets; two lists with an
operator between them stand for what both have in common, for the first without the second, or for
what only one of them has.  All that counts about a set is whether it can be used and how deep it is
nested.
-/

namespace BridgeMint

namespace Pattern

/-! ## Named kinds -/

/-- The kinds of characters that have a name in brackets and colons. -/
def kindNames : List String :=
  ["alnum", "alpha", "ascii", "blank", "cntrl", "digit", "graph", "lower", "print", "punct",
   "space", "upper", "word", "xdigit"]

/-- Whether a named kind may be used.  Not more of it is known than of single characters. -/
def Options.allowsNamedKind (options : Options) (negated : Bool) : Bool :=
  if options.unicode then !options.ignoreCase else !negated

/-- Reads a named kind after its bracket: whether it is negated. -/
def readNamedKind : List Char → Option (Bool × List Char)
  | ':' :: rest =>
    let (negated, rest) := match rest with
      | '^' :: rest => (true, rest)
      | rest => (false, rest)
    match rest.dropWhile (· ≠ ':') with
    | ':' :: ']' :: after =>
      if kindNames.contains (String.ofList (rest.takeWhile (· ≠ ':'))) then some (negated, after)
      else none
    | _ => none
  | _ => none

/-! ## Ranges -/

/-- The character to expect behind a dash; of what may be skipped, only blanks and one number sign
are looked past. -/
def behindDash (options : Options) (cs : List Char) : Option Char :=
  let visible :=
    if options.spaced then
      match cs.dropWhile Text.isWhite with
      | '#' :: rest => rest.dropWhile Text.isWhite
      | rest => rest
    else cs
  visible.head? <|> cs.head?

/-- Reads a symbol of a set or a range between two characters. -/
def readMember (options : Options) (cs : List Char) : Option (List Char) :=
  match readSymbol options cs with
  | none => none
  | some (first, rest) =>
    if first.isUsableInSet options then
      let rest := options.skip rest
      match rest with
      | '-' :: after =>
        let next := behindDash options after
        if next = some ']' ∨ next = some '-' then some rest
        else
          match first, readSymbol options (options.skip after) with
          | .character low _, some (.character high isByte, rest) =>
            if low ≤ high ∧ (Symbol.character high isByte).isUsableInSet options then some rest
            else none
          | _, _ => none
      | _ => some rest
    else none

/-! ## Sets -/

/-- A set that has been opened. -/
structure OpenSet where
  /-- How deep what stands before the last operator is nested, if there is an operator. -/
  left : Option Nat
  /-- How deep the members read since are nested. -/
  members : List Nat
  /-- Whether only dashes have been read, which then stand for themselves. -/
  atStart : Bool
  deriving DecidableEq

namespace OpenSet

def start : OpenSet := ⟨none, [], true⟩

def add (s : OpenSet) (depth : Nat) : OpenSet :=
  { s with members := depth :: s.members, atStart := false }

/-- How deep what has been read is nested. -/
def depth (s : OpenSet) : Nat :=
  match s.left with
  | none => nesting s.members
  | some left => max left (nesting s.members) + 1

/-- The set after an operator. -/
def combine (s : OpenSet) : OpenSet := ⟨some s.depth, [], false⟩

end OpenSet

/-- Opens a set after its bracket: what can be read of it next, unless it is the set of all other
characters and these are not known. -/
def openSet (options : Options) (cs : List Char) : Option (List Char) :=
  match options.skip cs with
  | '^' :: rest => if options.unicode then some rest else none
  | rest => some rest

/-- Reads on in a set that lies in others that are open: how deep the outermost one is nested, and
what stands behind it.  Each step takes at least one character, so that `fuel` need not be more than
their number. -/
def readSet (options : Options) : (fuel : Nat) → OpenSet → List OpenSet → List Char →
    Option (Nat × List Char)
  | 0, _, _, _ => none
  | fuel + 1, s, outer, cs =>
    let sign (c : Char) := (Symbol.character c false).isUsableInSet options
    let operators := ["&&", "--", "~~"]
    match options.skip cs with
    | [] => none
    | c :: rest =>
      if s.atStart && c = '-' then
        if sign c then readSet options fuel { s.add 0 with atStart := true } outer rest else none
      else if s.atStart && s.members.isEmpty && c = ']' then
        if sign c then readSet options fuel (s.add 0) outer rest else none
      else if c = '[' then
        match readNamedKind rest with
        | some (negated, rest) =>
          if options.allowsNamedKind negated then readSet options fuel (s.add 0) outer rest
          else none
        | none =>
          match openSet options rest with
          | none => none
          | some rest => readSet options fuel .start (s :: outer) rest
      else if c = ']' then
        match outer with
        | [] => some (s.depth + 1, rest)
        | t :: outer => readSet options fuel (t.add (s.depth + 1)) outer rest
      else if operators.contains (String.ofList (c :: rest.take 1)) then
        readSet options fuel s.combine outer (rest.drop 1)
      else
        match readMember options (c :: rest) with
        | none => none
        | some rest => readSet options fuel (s.add 0) outer rest

end Pattern

end BridgeMint
