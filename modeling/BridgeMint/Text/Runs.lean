/-!
# Sets of characters given by run lengths

A set of code points from 128 up is kept as a list of run lengths: how many code points are outside
the set, then how many are inside, then outside again, and so on.  What lies beyond the last run is
outside.
-/

namespace BridgeMint

namespace Text

/-- Whether the code point `offset` places above the start of the runs lies in an inside run. -/
def inRuns : List Nat → (offset : Nat) → Bool
  | outside :: inside :: rest, offset =>
    if offset < outside then false
    else if offset - outside < inside then true
    else inRuns rest (offset - outside - inside)
  | _, _ => false

/-- Whether a character lies in the set of code points given by runs that start at 128. -/
def memberFrom128 (runs : List Nat) (c : Char) : Bool :=
  decide (128 ≤ c.toNat) && inRuns runs (c.toNat - 128)

end Text

end BridgeMint
