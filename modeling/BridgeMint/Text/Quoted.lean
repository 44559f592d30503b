import BridgeMint.Text.Printable

/-!
# Quoted text

The form in which diagnostics show a piece of text so that nothing in it can be mistaken for the
text around it: in quotes, with the quote and the backslash marked by a backslash, the common
controls by their letters, and every other character without a glyph by its code point in braces.
-/

namespace BridgeMint

namespace Text

/-! ## Escapes -/

/-- The digits of `n` in base sixteen, lower case, with no leading zeros. -/
def hexDigits (n : Nat) : List Char :=
  Nat.toDigits 16 n

/-- A character by its code point, as in `\u{7f}`. -/
def codePointEscape (c : Char) : List Char :=
  ['\\', 'u', '\x7b'] ++ hexDigits c.toNat ++ ['\x7d']

/-- A character as it is shown between quotes of the kind `quote`. -/
def escapeChar (quote c : Char) : List Char :=
  if c = '\x00' then ['\\', '0']
  else if c = '\t' then ['\\', 't']
  else if c = '\r' then ['\\', 'r']
  else if c = '\n' then ['\\', 'n']
  else if c = '\\' then ['\\', '\\']
  else if c = quote then ['\\', quote]
  else if isPrintable c then [c]
  else codePointEscape c

/-! ## Literals -/

def quoted (s : String) : String :=
  String.ofList ('"' :: s.toList.flatMap (escapeChar '"') ++ ['"'])

def quotedChar (c : Char) : String :=
  String.ofList ('\'' :: escapeChar '\'' c ++ ['\''])

end Text

end BridgeMint
