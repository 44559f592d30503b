import BridgeMint.Account
import BridgeMint.Log
import BridgeMint.SortedMap
import BridgeMint.Store.Journal

/-!
# The account store

The accounts of the ledger, the logs of the current block, and the journal that allows the store to
be taken back to a snapshot.  Reading an absent account gives zeros; writing to one creates it
first, and the journal shows both.  Storage keeps no zero words, so an account's storage is
determined by what can be read from it.
-/

namespace BridgeMint

/-- Why the store refuses an operation. -/
inductive StoreError where
  /-- The balance would need more than 256 bits. -/
  | balanceOverflow (address : Address)
  /-- The account holds less than is to be taken from it. -/
  | insufficientBalance (address : Address) (held need : UInt256)
  /-- No open snapshot has this number. -/
  | unknownSnapshot (id : Nat)
  /-- The accounts could not be encoded. -/
  | encoding (reason : String)
  deriving DecidableEq

/-- What is wrong with an operation on the store, in words. -/
def StoreError.message : StoreError → String
  | .balanceOverflow address => s!"Balance overflow for {address}"
  | .insufficientBalance address held need =>
    s!"Insufficient balance for {address}: have {held}, need {need}"
  | .unknownSnapshot id => s!"Unknown snapshot id: {id}"
  | .encoding reason => s!"Serialization error: {reason}"

/-- All that is kept of one account. -/
structure AccountRecord where
  header : Account
  code : Bytes
  /-- The storage words that are not zero. -/
  storage : SortedMap Word Word
  deriving DecidableEq

namespace AccountRecord

def fresh : AccountRecord := ⟨.fresh, [], .empty⟩

instance : Inhabited AccountRecord := ⟨fresh⟩

def withBalance (record : AccountRecord) (balance : UInt256) : AccountRecord :=
  { record with header := { record.header with balance } }

def withNonce (record : AccountRecord) (nonce : UInt64) : AccountRecord :=
  { record with header := { record.header with nonce } }

/-- The record with other code and the digest of that code. -/
def withCode (record : AccountRecord) (code : Bytes) : AccountRecord :=
  { record with header := { record.header with codeHash := Word.keccak256 code }, code }

def withoutCode (record : AccountRecord) : AccountRecord :=
  { record with header := { record.header with codeHash := Word.emptyDigest }, code := [] }

/-- The storage word under a key, zero when unset. -/
def word (record : AccountRecord) (key : Word) : Word :=
  (record.storage.get? key).getD .zero

/-- The record with another storage word; a zero word is removed rather than stored. -/
def withWord (record : AccountRecord) (key value : Word) : AccountRecord :=
  { record with
    storage := if value.isZero then record.storage.erase key else record.storage.insert key value }

/-- The code to be noted when it is replaced. -/
def code? (record : AccountRecord) : Option Bytes :=
  if record.header.hasCode then some record.code else none

end AccountRecord

/-- A place in the journal that the store can be taken back to. -/
structure Snapshot where
  id : Nat
  /-- How many changes the journal held when the snapshot was taken. -/
  mark : Nat
  deriving DecidableEq

/-- The account store. -/
structure Store where
  accounts : SortedMap Address AccountRecord
  journal : Journal
  /-- The open snapshots, newest first. -/
  snapshots : List Snapshot
  /-- The number the next snapshot gets. -/
  nextSnapshot : Nat
  /-- The logs of the current block, oldest first. -/
  logs : List Log
  /-- The transaction that logs are added for. -/
  txIndex : UInt32
  deriving DecidableEq

namespace Store

def empty : Store := ⟨.empty, .empty, [], 0, [], 0⟩

instance : Inhabited Store := ⟨empty⟩

/-- A store whose accounts hold the given balances, with nothing to undo; of several balances for
one account the last counts. -/
def withBalances (balances : List (Address × UInt256)) : Store :=
  { empty with
    accounts := balances.foldl
      (fun accounts entry =>
        accounts.insert entry.1 (((accounts.get? entry.1).getD .fresh).withBalance entry.2))
      .empty }

/-! ## Reading -/

def hasAccount (s : Store) (address : Address) : Bool :=
  s.accounts.contains address

/-- The record of an account, a fresh one when it is absent. -/
def record (s : Store) (address : Address) : AccountRecord :=
  (s.accounts.get? address).getD .fresh

def balance (s : Store) (address : Address) : UInt256 :=
  (s.record address).header.balance

/-- How many messages an account has sent. -/
def nonce (s : Store) (address : Address) : UInt64 :=
  (s.record address).header.nonce

/-- The code of an account, empty when there is none. -/
def code (s : Store) (address : Address) : Bytes :=
  (s.record address).code

/-- The digest of an account's code: zero for an absent account. -/
def codeHash (s : Store) (address : Address) : Word :=
  match s.accounts.get? address with
  | none => .zero
  | some record => record.header.codeHash

/-- The storage word of an account under a key, zero when unset. -/
def word (s : Store) (address : Address) (key : Word) : Word :=
  (s.record address).word key

def txLogs (s : Store) (txIndex : UInt32) : List Log :=
  s.logs.filter fun log => log.txIndex == txIndex

/-! ## Writing -/

/-- Creates an account that does not exist yet, noting its creation. -/
def ensure (s : Store) (address : Address) : Store :=
  if s.hasAccount address then s
  else
    { s with
      accounts := s.accounts.insert address .fresh
      journal := s.journal.append (.created address) }

/-- Amends the record of an account, created first if need be, and notes the change. -/
def amend (s : Store) (address : Address) (change : AccountRecord → Change)
    (f : AccountRecord → AccountRecord) : Store :=
  let s := s.ensure address
  { s with
    accounts := s.accounts.insert address (f (s.record address))
    journal := s.journal.append (change (s.record address)) }

def setBalance (s : Store) (address : Address) (balance : UInt256) : Store :=
  s.amend address (fun r => .balanceSet address r.header.balance) (·.withBalance balance)

/-- Adds to what an account holds. -/
def addBalance (s : Store) (address : Address) (amount : UInt256) : Except StoreError Store :=
  match (s.balance address).checkedAdd amount with
  | none => .error (.balanceOverflow address)
  | some balance => .ok (s.setBalance address balance)

/-- Takes from what an account holds. -/
def subBalance (s : Store) (address : Address) (amount : UInt256) : Except StoreError Store :=
  match (s.balance address).checkedSub amount with
  | none => .error (.insufficientBalance address (s.balance address) amount)
  | some balance => .ok (s.setBalance address balance)

def setNonce (s : Store) (address : Address) (nonce : UInt64) : Store :=
  s.amend address (fun r => .nonceSet address r.header.nonce) (·.withNonce nonce)

def setCode (s : Store) (address : Address) (code : Bytes) : Store :=
  s.amend address (fun r => .codeSet address r.code?) (·.withCode code)

/-- Sets a storage word of an account. -/
def setWord (s : Store) (address : Address) (key value : Word) : Store :=
  s.amend address (fun r => .wordSet address key (r.word key)) (·.withWord key value)

/-- Selects the transaction that further logs belong to. -/
def selectTx (s : Store) (txIndex : UInt32) : Store :=
  { s with txIndex }

/-- Adds a log, giving it its transaction and its place among the block's logs. -/
def addLog (s : Store) (log : Log) : Store :=
  { s with
    logs := s.logs ++ [{ log with txIndex := s.txIndex, logIndex := .ofNat s.logs.length }]
    journal := s.journal.append (.logAdded s.txIndex) }

def clearLogs (s : Store) : Store :=
  { s with logs := [] }

/-! ## Snapshots -/

/-- Amends the record of an account that exists; an absent one stays absent. -/
def restore (s : Store) (address : Address) (f : AccountRecord → AccountRecord) : Store :=
  match s.accounts.get? address with
  | none => s
  | some record => { s with accounts := s.accounts.insert address (f record) }

/-- Takes back one change. -/
def undo (s : Store) : Change → Store
  | .created address => { s with accounts := s.accounts.erase address }
  | .codeSet address (some code) => s.restore address (·.withCode code)
  | .codeSet address none => s.restore address (·.withoutCode)
  | .wordSet address key previous => s.restore address (·.withWord key previous)
  | .nonceSet address previous => s.restore address (·.withNonce previous)
  | .balanceSet address previous => s.restore address (·.withBalance previous)
  | .logAdded _ => { s with logs := s.logs.dropLast }

/-- Takes back all changes but the oldest `mark`, newest first. -/
def unwind (s : Store) (mark : Nat) : Store :=
  let (undone, journal) := s.journal.unwind mark
  undone.foldl undo { s with journal }

/-- Opens a snapshot and tells its number. -/
def snapshot (s : Store) : Nat × Store :=
  (s.nextSnapshot,
    { s with
      snapshots := ⟨s.nextSnapshot, s.journal.length⟩ :: s.snapshots
      nextSnapshot := s.nextSnapshot + 1 })

/-- Takes the store back to an open snapshot, closing it and every later one. -/
def revertTo (s : Store) (id : Nat) : Except StoreError Store :=
  -- The newest snapshot stands first, so those skipped here are the later ones.
  match s.snapshots.dropWhile (·.id ≠ id) with
  | [] => .error (.unknownSnapshot id)
  | snapshot :: older => .ok ({ s with snapshots := older }.unwind snapshot.mark)

/-- Commits: forgets the journal and every open snapshot. -/
def commit (s : Store) : Store :=
  { s with journal := .empty, snapshots := [] }

end Store

end BridgeMint
