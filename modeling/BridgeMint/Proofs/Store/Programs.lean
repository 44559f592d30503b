import BridgeMint.Proofs.Store.Writes

/-!
# Programs on the store

What an operation can do to the store, said once: keep it, write to one account, add a log, open a
snapshot, go back to one, or act on the surroundings.  From this come the stores that there can be at
all and what holds of every one of them.
-/

namespace BridgeMint

namespace Store

/-! ## One operation -/

/-- The store after an operation. -/
def perform (s : Store) (op : Operation) : Store :=
  ((Ledger.ofStore s).perform op).2.store

/-- The store after a list of operations. -/
def after (s : Store) (ops : List Operation) : Store :=
  ops.foldl perform s

@[simp] theorem after_nil (s : Store) : s.after [] = s := rfl

@[simp] theorem after_cons (s : Store) (op : Operation) (ops : List Operation) :
    s.after (op :: ops) = (s.perform op).after ops := rfl

end Store

namespace Ledger

theorem store_settle (ledger : Ledger) (result : Except StoreError Ledger) :
    (ledger.settle result).2.store =
      match result with
      | .ok after => after.store
      | .error _ => ledger.store := by
  cases result <;> rfl

/-- Notices have no part in what an operation does. -/
theorem perform_eq (ledger : Ledger) (op : Operation) :
    (ledger.perform op).1 = ((Ledger.ofStore ledger.store).perform op).1 ∧
      (ledger.perform op).2.store = ledger.store.perform op := by
  -- Only operations that can be refused look at how they went.
  cases op with
  | addBalance a amount =>
    simp only [Store.perform, perform, ofStore]
    cases ledger.store.addBalance a amount <;> exact ⟨rfl, rfl⟩
  | subBalance a amount =>
    simp only [Store.perform, perform, ofStore]
    cases ledger.store.subBalance a amount <;> exact ⟨rfl, rfl⟩
  | revertTo id =>
    simp only [Store.perform, perform, ofStore, revertTo]
    cases ledger.store.revertTo id <;> exact ⟨rfl, rfl⟩
  | _ => exact ⟨rfl, rfl⟩

theorem store_perform (ledger : Ledger) (op : Operation) :
    (ledger.perform op).2.store = ledger.store.perform op := by
  obtain ⟨-, hstore⟩ := perform_eq ledger op
  exact hstore

/-- Going back is done, or refused without a trace. -/
theorem perform_revertTo_of_ok {ledger : Ledger} {id : Nat} {t : Store}
    (h : ledger.store.revertTo id = .ok t) :
    (ledger.perform (.revertTo id)).1 = .done ∧ (ledger.perform (.revertTo id)).2.store = t := by
  simp only [perform, revertTo, h]
  exact ⟨rfl, rfl⟩

theorem perform_revertTo_of_error {ledger : Ledger} {id : Nat} {cause : StoreError}
    (h : ledger.store.revertTo id = .error cause) :
    ledger.perform (.revertTo id) = (.refused cause, ledger) := by
  simp only [perform, revertTo, h]
  rfl

theorem store_performAll (ledger : Ledger) (ops : List Operation) :
    (ledger.performAll ops).2.store = ledger.store.after ops := by
  induction ops generalizing ledger with
  | nil => rfl
  | cons op ops ih =>
    simp only [performAll, ih, store_perform, Store.after_cons]

end Ledger

/-! ## What an operation can do -/

/-- The writes an operation may end in. -/
inductive Operation.Amends : Operation → Address → Amendment → Prop where
  | addBalance (a : Address) (amount b : UInt256) : Amends (.addBalance a amount) a (.balance b)
  | subBalance (a : Address) (amount b : UInt256) : Amends (.subBalance a amount) a (.balance b)
  | setNonce (a : Address) (n : UInt64) : Amends (.setNonce a n) a (.nonce n)
  | setCode (a : Address) (c : Bytes) : Amends (.setCode a c) a (.code c)
  | setWord (a : Address) (key value : Word) : Amends (.setWord a key value) a (.word key value)

/-- The operations that open or close snapshots. -/
def Operation.MovesSnapshots : Operation → Prop
  | .snapshot | .revertTo _ | .commit => True
  | _ => False

namespace Store

/-- What an operation can make of a store. -/
inductive Move (s : Store) : Operation → Store → Prop where
  /-- Reading, and being refused, change nothing. -/
  | keep (op : Operation) : Move s op s
  | write {op : Operation} {a : Address} {m : Amendment} : op.Amends a m → Move s op (s.write a m)
  | selectTx (i : UInt32) : Move s (.selectTx i) (s.selectTx i)
  | addLog (log : Log) : Move s (.addLog log) (s.addLog log)
  | clearLogs : Move s .clearLogs s.clearLogs
  | snapshot : Move s .snapshot s.snapshot.2
  | revertTo {id : Nat} {t : Store} : s.revertTo id = .ok t → Move s (.revertTo id) t
  | commit : Move s .commit s.commit

/-- Whatever operation is performed, the store moves in one of these ways. -/
theorem perform_move (s : Store) (op : Operation) : Move s op (s.perform op) := by
  -- Three operations can be refused, and then the store stays as it is.
  cases op with
  | addBalance a amount =>
    simp only [perform, Ledger.perform, Ledger.ofStore, Ledger.store_settle]
    cases h : s.addBalance a amount with
    | error cause => exact .keep _
    | ok t =>
      obtain ⟨b, -, rfl⟩ := addBalance_eq_ok.mp h
      exact .write (.addBalance a amount b)
  | subBalance a amount =>
    simp only [perform, Ledger.perform, Ledger.ofStore, Ledger.store_settle]
    cases h : s.subBalance a amount with
    | error cause => exact .keep _
    | ok t =>
      obtain ⟨b, -, rfl⟩ := subBalance_eq_ok.mp h
      exact .write (.subBalance a amount b)
  | setNonce a n => exact .write (.setNonce a n)
  | setCode a c => exact .write (.setCode a c)
  | setWord a key value => exact .write (.setWord a key value)
  | selectTx i => exact .selectTx i
  | addLog log => exact .addLog log
  | clearLogs => exact .clearLogs
  | snapshot => exact .snapshot
  | revertTo id =>
    simp only [perform, Ledger.perform, Ledger.ofStore, Ledger.store_settle, Ledger.revertTo]
    cases h : s.revertTo id with
    | error cause => exact .keep _
    | ok t => exact .revertTo h
  | commit => exact .commit
  | _ => exact .keep _

/-- The other operations leave the open snapshots and the numbers given out alone. -/
theorem Move.snapshots_eq {s t : Store} {op : Operation} (h : Move s op t) (hop : ¬ op.MovesSnapshots) :
    t.snapshots = s.snapshots ∧ t.nextSnapshot = s.nextSnapshot := by
  -- Three of the moves touch snapshots, and those the operation is not among.
  cases h with
  | write _ => exact ⟨snapshots_write _ _ _, nextSnapshot_write _ _ _⟩
  | snapshot => exact (hop trivial).elim
  | revertTo _ => exact (hop trivial).elim
  | commit => exact (hop trivial).elim
  | _ => exact ⟨rfl, rfl⟩

/-! ## Operations that succeed -/

theorem perform_addBalance {s t : Store} {a : Address} {amount : UInt256}
    (h : s.addBalance a amount = .ok t) : s.perform (.addBalance a amount) = t := by
  simp only [perform, Ledger.perform, Ledger.ofStore, Ledger.store_settle, h]
  rfl

theorem perform_subBalance {s t : Store} {a : Address} {amount : UInt256}
    (h : s.subBalance a amount = .ok t) : s.perform (.subBalance a amount) = t := by
  simp only [perform, Ledger.perform, Ledger.ofStore, Ledger.store_settle, h]
  rfl

theorem perform_revertTo {s t : Store} {id : Nat} (h : s.revertTo id = .ok t) :
    s.perform (.revertTo id) = t := by
  have hrevert : (Ledger.ofStore s).store.revertTo id = .ok t := h
  obtain ⟨-, hstore⟩ := Ledger.perform_revertTo_of_ok hrevert
  exact hstore

/-! ## The stores there can be -/

/-- The stores that come about: from the balances a chain starts with, by operations. -/
inductive Reachable : Store → Prop where
  | withBalances (balances : List (Address × UInt256)) : Reachable (withBalances balances)
  | perform {s : Store} (op : Operation) : Reachable s → Reachable (s.perform op)

/-- Programs lead from stores that come about to such stores. -/
theorem Reachable.after {s : Store} (hs : s.Reachable) (ops : List Operation) :
    (s.after ops).Reachable := by
  induction ops generalizing s with
  | nil => exact hs
  | cons op ops ih => exact ih (hs.perform op)

theorem Reachable.addBalance {s t : Store} (hs : s.Reachable) {a : Address} {amount : UInt256}
    (h : s.addBalance a amount = .ok t) : t.Reachable :=
  perform_addBalance h ▸ hs.perform _

theorem Reachable.subBalance {s t : Store} (hs : s.Reachable) {a : Address} {amount : UInt256}
    (h : s.subBalance a amount = .ok t) : t.Reachable :=
  perform_subBalance h ▸ hs.perform _

theorem Reachable.revertTo {s t : Store} (hs : s.Reachable) {id : Nat}
    (h : s.revertTo id = .ok t) : t.Reachable :=
  perform_revertTo h ▸ hs.perform _

end Store

end BridgeMint
