import BridgeMint.Proofs.SortedMap
import BridgeMint.Store.Operation

/-!
# What a write changes

All writes to an account are of one form: they amend the account's record, created first if need be,
and note what they overwrote.  A write changes the record of its own account and nothing else, and
adds one or two notes to the journal.
-/

namespace BridgeMint

/-! ## Amendments -/

/-- What a write makes of a record. -/
inductive Amendment where
  | balance (balance : UInt256)
  | nonce (nonce : UInt64)
  | code (code : Bytes)
  | word (key value : Word)

namespace Amendment

/-- The record after the write. -/
def apply : Amendment → AccountRecord → AccountRecord
  | balance b => (·.withBalance b)
  | nonce n => (·.withNonce n)
  | code c => (·.withCode c)
  | word key value => (·.withWord key value)

/-- The note of the write: what it overwrites. -/
def change (address : Address) : Amendment → AccountRecord → Change
  | balance _ => fun r => .balanceSet address r.header.balance
  | nonce _ => fun r => .nonceSet address r.header.nonce
  | code _ => fun r => .codeSet address r.code?
  | word key _ => fun r => .wordSet address key (r.word key)

end Amendment

namespace AccountRecord

theorem isZero_iff {n : Nat} (w : FixedBytes n) : w.isZero = true ↔ w = .zero := by
  simp [FixedBytes.isZero]

/-- A look-up in the storage after a word was set: nothing is kept of a zero word. -/
theorem get?_withWord (r : AccountRecord) (key value key' : Word) :
    (r.withWord key value).storage.get? key' =
      if key' = key then (if value = .zero then none else some value)
      else r.storage.get? key' := by
  simp only [withWord, isZero_iff]
  by_cases hzero : value = .zero
  · simp [hzero, SortedMap.get?_erase]
  · simp [hzero, SortedMap.get?_insert]

/-- Read as words, only the word that was set has changed. -/
theorem word_withWord (r : AccountRecord) (key value key' : Word) :
    (r.withWord key value).word key' = if key' = key then value else r.word key' := by
  simp only [word, get?_withWord]
  split
  · -- A zero word is not kept, and reads as zero again.
    split <;> simp_all
  · rfl

end AccountRecord

namespace Store

/-- A write to an account. -/
def write (s : Store) (address : Address) (m : Amendment) : Store :=
  s.amend address (m.change address) m.apply

theorem setBalance_eq_write (s : Store) (a : Address) (b : UInt256) :
    s.setBalance a b = s.write a (.balance b) := rfl

theorem setNonce_eq_write (s : Store) (a : Address) (n : UInt64) :
    s.setNonce a n = s.write a (.nonce n) := rfl

theorem setCode_eq_write (s : Store) (a : Address) (c : Bytes) :
    s.setCode a c = s.write a (.code c) := rfl

theorem setWord_eq_write (s : Store) (a : Address) (key value : Word) :
    s.setWord a key value = s.write a (.word key value) := rfl

/-! ## Records -/

theorem hasAccount_eq_isSome (s : Store) (a : Address) :
    s.hasAccount a = (s.accounts.get? a).isSome := rfl

theorem record_of_get? {s : Store} {a : Address} {r : AccountRecord}
    (h : s.accounts.get? a = some r) : s.record a = r := by
  simp [record, h]

theorem get?_of_hasAccount {s : Store} {a : Address} (h : s.hasAccount a = true) :
    s.accounts.get? a = some (s.record a) := by
  obtain ⟨r, hr⟩ := Option.isSome_iff_exists.mp h
  rw [hr, record_of_get? hr]

theorem get?_of_not_hasAccount {s : Store} {a : Address} (h : s.hasAccount a = false) :
    s.accounts.get? a = none := by
  simpa [hasAccount_eq_isSome] using h

theorem record_of_not_hasAccount {s : Store} {a : Address} (h : s.hasAccount a = false) :
    s.record a = .fresh := by
  simp [record, get?_of_not_hasAccount h]

/-- Creating an account that is missing does not show in what is read of it. -/
@[simp] theorem record_ensure (s : Store) (a a' : Address) :
    (s.ensure a).record a' = s.record a' := by
  simp only [ensure]
  split
  · rfl
  · next h =>
    have hnone : s.accounts.get? a = none := get?_of_not_hasAccount (by simpa using h)
    simp only [record, SortedMap.get?_insert]
    split
    · next heq => simp [heq, hnone]
    · rfl

/-- A write amends the record of its account, which exists from then on, and no other. -/
theorem get?_write (s : Store) (a a' : Address) (m : Amendment) :
    (s.write a m).accounts.get? a' =
      if a' = a then some (m.apply (s.record a)) else s.accounts.get? a' := by
  simp only [write, amend, SortedMap.get?_insert, record_ensure]
  split
  · rfl
  · next hne =>
    -- Another account is not touched, whether or not the written one had to be created.
    simp only [ensure]
    split
    · rfl
    · simp [SortedMap.get?_insert, hne]

theorem record_write (s : Store) (a a' : Address) (m : Amendment) :
    (s.write a m).record a' = if a' = a then m.apply (s.record a) else s.record a' := by
  simp only [record, get?_write]
  split <;> rfl

/-- What an amendment keeps of a record, a write keeps of all records. -/
theorem record_write_congr {β : Type} (f : AccountRecord → β) {s : Store} {a : Address} {m : Amendment}
    (h : f (m.apply (s.record a)) = f (s.record a)) (a' : Address) :
    f ((s.write a m).record a') = f (s.record a') := by
  rw [record_write]
  split
  · next heq =>
    rw [heq]
    exact h
  · rfl

/-! ## Everything else -/

@[simp] theorem logs_write (s : Store) (a : Address) (m : Amendment) :
    (s.write a m).logs = s.logs := by
  simp only [write, amend, ensure]
  split <;> rfl

@[simp] theorem logs_setNonce (s : Store) (a : Address) (nonce : UInt64) :
    (s.setNonce a nonce).logs = s.logs :=
  logs_write s a (.nonce nonce)

@[simp] theorem snapshots_write (s : Store) (a : Address) (m : Amendment) :
    (s.write a m).snapshots = s.snapshots := by
  simp only [write, amend, ensure]
  split <;> rfl

@[simp] theorem nextSnapshot_write (s : Store) (a : Address) (m : Amendment) :
    (s.write a m).nextSnapshot = s.nextSnapshot := by
  simp only [write, amend, ensure]
  split <;> rfl

@[simp] theorem txIndex_write (s : Store) (a : Address) (m : Amendment) :
    (s.write a m).txIndex = s.txIndex := by
  simp only [write, amend, ensure]
  split <;> rfl

/-- The notes of a write, newest first. -/
def writeNotes (s : Store) (a : Address) (m : Amendment) : List Change :=
  m.change a (s.record a) :: if s.hasAccount a then [] else [.created a]

/-- The journal after a write has its notes on top of those before. -/
theorem journal_write (s : Store) (a : Address) (m : Amendment) :
    (s.write a m).journal = ⟨s.writeNotes a m ++ s.journal.newestFirst⟩ := by
  have hrecord := record_ensure s a a
  simp only [write, amend, Journal.append, writeNotes, hrecord]
  -- The creation is noted first, if there is one, and then what is overwritten.
  simp only [ensure]
  split <;> simp_all [Journal.append]

/-! ## Sums and differences -/

theorem addBalance_eq_ok {s t : Store} {a : Address} {amount : UInt256} :
    s.addBalance a amount = .ok t ↔
      ∃ b, (s.balance a).checkedAdd amount = some b ∧ t = s.write a (.balance b) := by
  simp only [addBalance, setBalance_eq_write]
  cases (s.balance a).checkedAdd amount <;> simp [eq_comm]

theorem subBalance_eq_ok {s t : Store} {a : Address} {amount : UInt256} :
    s.subBalance a amount = .ok t ↔
      ∃ b, (s.balance a).checkedSub amount = some b ∧ t = s.write a (.balance b) := by
  simp only [subBalance, setBalance_eq_write]
  cases (s.balance a).checkedSub amount <;> simp [eq_comm]

end Store

end BridgeMint
