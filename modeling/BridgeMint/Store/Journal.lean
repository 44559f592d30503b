import BridgeMint.Address
import BridgeMint.UInt256.Basic

/-!
# The journal of changes

Every change to the store is noted together with what it overwrote, so that the store can be taken
back by undoing the notes from the newest to the oldest.  The journal keeps them newest first;
`Journal.entries` lists them in the order they were made.
-/

namespace BridgeMint

/-- One change to the store, with what it overwrote. -/
inductive Change where
  /-- The account was created. -/
  | created (address : Address)
  /-- The account's code was replaced; `none` when it had none. -/
  | codeSet (address : Address) (previous : Option Bytes)
  /-- A storage word was replaced. -/
  | wordSet (address : Address) (key previous : Word)
  /-- The account's nonce was replaced. -/
  | nonceSet (address : Address) (previous : UInt64)
  /-- The account's balance was replaced. -/
  | balanceSet (address : Address) (previous : UInt256)
  /-- A log was added on behalf of a transaction. -/
  | logAdded (txIndex : UInt32)
  deriving DecidableEq

def Change.address? : Change → Option Address
  | created address | codeSet address _ | wordSet address _ _ | nonceSet address _
  | balanceSet address _ => some address
  | logAdded _ => none

/-- The changes since the last commit, newest first. -/
structure Journal where
  newestFirst : List Change
  deriving DecidableEq

namespace Journal

def empty : Journal := ⟨[]⟩

instance : Inhabited Journal := ⟨empty⟩

/-- The changes in the order they were made. -/
def entries (journal : Journal) : List Change :=
  journal.newestFirst.reverse

def length (journal : Journal) : Nat :=
  journal.newestFirst.length

def isEmpty (journal : Journal) : Bool :=
  journal.newestFirst.isEmpty

def append (journal : Journal) (change : Change) : Journal :=
  ⟨change :: journal.newestFirst⟩

/-- Takes off every change but the oldest `mark`: those taken off, newest first, and what is left.
A mark beyond the end takes off nothing. -/
def unwind (journal : Journal) (mark : Nat) : List Change × Journal :=
  let surplus := journal.length - mark
  (journal.newestFirst.take surplus, ⟨journal.newestFirst.drop surplus⟩)

@[simp] theorem entries_append (journal : Journal) (change : Change) :
    (journal.append change).entries = journal.entries ++ [change] := by
  simp [entries, append]

end Journal

end BridgeMint
