import BridgeMint.Ledger

/-!
# Operations on the store

The interface of the store as data: each operation with its arguments, and the reply it gets.  A list
of operations is a program that can be run on a ledger; an operation that is refused changes nothing
and the program goes on.
-/

namespace BridgeMint

/-- An operation on the store. -/
inductive Operation where
  | hasAccount (address : Address)
  | balance (address : Address)
  | addBalance (address : Address) (amount : UInt256)
  | subBalance (address : Address) (amount : UInt256)
  | nonce (address : Address)
  | setNonce (address : Address) (nonce : UInt64)
  | code (address : Address)
  | codeHash (address : Address)
  | setCode (address : Address) (code : Bytes)
  | word (address : Address) (key : Word)
  | setWord (address : Address) (key value : Word)
  | selectTx (txIndex : UInt32)
  | addLog (log : Log)
  | txLogs (txIndex : UInt32)
  | clearLogs
  | snapshot
  | revertTo (id : Nat)
  | commit
  | journal
  | logs
  deriving DecidableEq

/-- What an operation answers. -/
inductive Reply where
  | done
  | truth (b : Bool)
  | amount (a : UInt256)
  | count (n : UInt64)
  | code (bytes : Bytes)
  | word (w : Word)
  | snapshot (id : Nat)
  | changes (entries : List Change)
  | logs (logs : List Log)
  | refused (cause : StoreError)
  deriving DecidableEq

namespace Ledger

/-- The reply to an operation that may be refused, with the ledger after it. -/
def settle (ledger : Ledger) : Except StoreError Ledger → Reply × Ledger
  | .ok after => (.done, after)
  | .error cause => (.refused cause, ledger)

/-- Runs one operation. -/
def perform (ledger : Ledger) : Operation → Reply × Ledger
  | .hasAccount address => (.truth (ledger.store.hasAccount address), ledger)
  | .balance address => (.amount (ledger.store.balance address), ledger)
  | .addBalance address amount =>
    ledger.settle ((ledger.store.addBalance address amount).map fun store => { ledger with store })
  | .subBalance address amount =>
    ledger.settle ((ledger.store.subBalance address amount).map fun store => { ledger with store })
  | .nonce address => (.count (ledger.store.nonce address), ledger)
  | .setNonce address nonce => (.done, ledger.change (·.setNonce address nonce))
  | .code address => (.code (ledger.store.code address), ledger)
  | .codeHash address => (.word (ledger.store.codeHash address), ledger)
  | .setCode address code => (.done, ledger.change (·.setCode address code))
  | .word address key => (.word (ledger.store.word address key), ledger)
  | .setWord address key value => (.done, ledger.change (·.setWord address key value))
  | .selectTx txIndex => (.done, ledger.change (·.selectTx txIndex))
  | .addLog log => (.done, ledger.change (·.addLog log))
  | .txLogs txIndex => (.logs (ledger.store.txLogs txIndex), ledger)
  | .clearLogs => (.done, ledger.change (·.clearLogs))
  | .snapshot => (.snapshot ledger.store.snapshot.1, ledger.change (·.snapshot.2))
  | .revertTo id => ledger.settle (ledger.revertTo id)
  | .commit => (.done, ledger.change (·.commit))
  | .journal => (.changes ledger.store.journal.entries, ledger)
  | .logs => (.logs ledger.store.logs, ledger)

/-- Runs operations one after another and collects their replies. -/
def performAll (ledger : Ledger) : List Operation → List Reply × Ledger
  | [] => ([], ledger)
  | op :: rest =>
    let (reply, next) := ledger.perform op
    let (replies, last) := next.performAll rest
    (reply :: replies, last)

end Ledger

end BridgeMint
