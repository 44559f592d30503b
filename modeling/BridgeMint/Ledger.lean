import BridgeMint.Notice
import BridgeMint.Store.Basic

/-!
# The ledger at work

The store together with the notices given so far.  Notices are only ever added at the end, and
nothing the ledger does depends on them.
-/

namespace BridgeMint

/-- A store and the notices given while working on it, oldest first. -/
structure Ledger where
  store : Store
  notices : List Notice
  deriving DecidableEq

namespace Ledger

/-- A ledger on which nothing has been noted yet. -/
def ofStore (store : Store) : Ledger := ⟨store, []⟩

def note (ledger : Ledger) (notice : Notice) : Ledger :=
  { ledger with notices := ledger.notices ++ [notice] }

def change (ledger : Ledger) (f : Store → Store) : Ledger :=
  { ledger with store := f ledger.store }

/-- Takes the store back to an open snapshot, with a notice of how many changes that undoes. -/
def revertTo (ledger : Ledger) (id : Nat) : Except StoreError Ledger :=
  match ledger.store.revertTo id with
  | .error e => .error e
  | .ok store =>
    .ok ⟨store, ledger.notices ++
      [.reverting id (ledger.store.journal.length - store.journal.length)]⟩

end Ledger

end BridgeMint
