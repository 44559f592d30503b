/-!
# White space

The characters that Unicode counts as white space.
-/

namespace BridgeMint

namespace Text

/-- The white space beyond ASCII, as ranges from the first to the last character. -/
def whiteRanges : List (Nat × Nat) :=
  [(0x85, 0x85), (0xa0, 0xa0), (0x1680, 0x1680), (0x2000, 0x200a), (0x2028, 0x2029),
   (0x202f, 0x202f), (0x205f, 0x205f), (0x3000, 0x3000)]

/-- Whether a character is white space. -/
def isWhite (c : Char) : Bool :=
  c == ' ' || ('\t' ≤ c && c ≤ '\r') ||
    whiteRanges.any fun (first, last) => first ≤ c.toNat && c.toNat ≤ last

end Text

end BridgeMint
