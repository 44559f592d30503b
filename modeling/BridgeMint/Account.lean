import BridgeMint.UInt256.Text

/-!
# Account headers

What the ledger records of an account besides its code and its storage.
-/

namespace BridgeMint

/-- The header of an account. -/
structure Account where
  /-- How many messages the account has sent. -/
  nonce : UInt64
  /-- What the account holds, in the smallest unit. -/
  balance : UInt256
  /-- The digest of the account's code, that of the empty string when it has none. -/
  codeHash : Word
  deriving DecidableEq

namespace Account

/-- The header of a fresh account: nothing sent, nothing held, no code. -/
def fresh : Account :=
  ⟨0, 0, Word.emptyDigest⟩

instance : Inhabited Account := ⟨fresh⟩

def hasCode (account : Account) : Bool :=
  decide (account.codeHash ≠ Word.emptyDigest)

def describe (account : Account) : String :=
  s!"Account \x7b nonce: {account.nonce}, balance: {account.balance}, code_hash: {account.codeHash} \x7d"

end Account

end BridgeMint
