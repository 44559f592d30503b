/-!
# Foreign ledgers

The ledgers on which tokens can be burned to be minted here.  On the wire a ledger is a one-byte tag.
-/

namespace BridgeMint

/-- A ledger on which the burn that backs a mint took place. -/
inductive BurnNetwork where
  | ethereum
  | tron
  deriving DecidableEq, Repr

namespace BurnNetwork

/-- The tag of a ledger on the wire. -/
def tag : BurnNetwork → UInt8
  | ethereum => 0
  | tron => 1

def ofTag? (tag : UInt8) : Option BurnNetwork :=
  if tag = 0 then some ethereum else if tag = 1 then some tron else none

def name : BurnNetwork → String
  | ethereum => "ethereum"
  | tron => "tron"

theorem tag_of_ofTag? {t : UInt8} {network : BurnNetwork} (h : ofTag? t = some network) :
    network.tag = t := by
  simp only [ofTag?] at h
  split at h
  · next h0 => cases h; exact h0.symm
  · split at h
    · next h1 => cases h; exact h1.symm
    · cases h

end BurnNetwork

end BridgeMint
