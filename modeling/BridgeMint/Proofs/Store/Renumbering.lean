import BridgeMint.Proofs.Store.Supply

/-!
# The numbers of snapshots

The store counts the snapshots it has ever opened, and a snapshot's number is what was counted before it.
The number serves to name the snapshot and for nothing else: a store whose numbers are all raised by the
same amount does the same, with the raised numbers in what it answers.
-/

namespace BridgeMint

/-- The snapshot with a number that is `d` higher. -/
def Snapshot.raise (snap : Snapshot) (d : Nat) : Snapshot :=
  { snap with id := snap.id + d }

/-- The cause with a number of a snapshot that is `d` higher, if it names one. -/
def StoreError.raise (cause : StoreError) (d : Nat) : StoreError :=
  match cause with
  | .unknownSnapshot id => .unknownSnapshot (id + d)
  | _ => cause

/-- The operation with a number of a snapshot that is `d` higher, if it names one. -/
def Operation.raise (op : Operation) (d : Nat) : Operation :=
  match op with
  | .revertTo id => .revertTo (id + d)
  | _ => op

@[simp] theorem Operation.raise_zero (op : Operation) : op.raise 0 = op := by
  cases op <;> rfl

theorem Operation.raise_raise (op : Operation) (d d' : Nat) :
    (op.raise d).raise d' = op.raise (d + d') := by
  cases op with
  | revertTo id => exact congrArg Operation.revertTo (Nat.add_assoc id d d')
  | _ => rfl

namespace Reply

/-- The reply with a number of a snapshot that is `d` higher, if it names one. -/
def raise (reply : Reply) (d : Nat) : Reply :=
  match reply with
  | .snapshot id => .snapshot (id + d)
  | .refused cause => .refused (cause.raise d)
  | _ => reply

/-- The reply with the number of a snapshot counted from `base`, if it names one. -/
def lower (reply : Reply) (base : Nat) : Reply :=
  match reply with
  | .snapshot id => .snapshot (id - base)
  | .refused (.unknownSnapshot id) => .refused (.unknownSnapshot (id - base))
  | _ => reply

@[simp] theorem lower_zero (reply : Reply) : reply.lower 0 = reply := by
  cases reply with
  | refused cause => cases cause <;> rfl
  | _ => rfl

/-- Raised numbers counted from a raised base are as they were. -/
theorem lower_raise (reply : Reply) (base d : Nat) :
    (reply.raise d).lower (base + d) = reply.lower base := by
  cases reply with
  | snapshot id => exact congrArg Reply.snapshot (Nat.add_sub_add_right id d base)
  | refused cause =>
    cases cause with
    | unknownSnapshot id =>
      simp only [raise, StoreError.raise, lower, Nat.add_sub_add_right]
    | _ => rfl
  | _ => rfl

end Reply

namespace Store

/-- The same store, had `d` more snapshots been opened before. -/
def raise (s : Store) (d : Nat) : Store :=
  { s with snapshots := s.snapshots.map (·.raise d), nextSnapshot := s.nextSnapshot + d }

theorem snapshots_raise (s : Store) (d : Nat) :
    (s.raise d).snapshots = s.snapshots.map (·.raise d) := rfl

/-- The result of a change to the store, had `d` more snapshots been opened before. -/
def raiseResult (result : Except StoreError Store) (d : Nat) : Except StoreError Store :=
  (result.map (·.raise d)).mapError (·.raise d)

/-! ## Reading and writing -/

/-- Writes do not look at the snapshots. -/
theorem write_raise (s : Store) (d : Nat) (a : Address) (m : Amendment) :
    (s.raise d).write a m = (s.write a m).raise d := by
  rw [write_eq, write_eq]
  rfl

/-- Nor does an addition, whether it succeeds or not. -/
theorem addBalance_raise (s : Store) (d : Nat) (a : Address) (amount : UInt256) :
    (s.raise d).addBalance a amount = raiseResult (s.addBalance a amount) d := by
  have hbalance : (s.raise d).balance a = s.balance a := rfl
  simp only [addBalance, setBalance_eq_write, hbalance]
  cases (s.balance a).checkedAdd amount with
  | none => rfl
  | some b => exact congrArg Except.ok (write_raise s d a (.balance b))

/-- Nor does a subtraction. -/
theorem subBalance_raise (s : Store) (d : Nat) (a : Address) (amount : UInt256) :
    (s.raise d).subBalance a amount = raiseResult (s.subBalance a amount) d := by
  have hbalance : (s.raise d).balance a = s.balance a := rfl
  simp only [subBalance, setBalance_eq_write, hbalance]
  cases (s.balance a).checkedSub amount with
  | none => rfl
  | some b => exact congrArg Except.ok (write_raise s d a (.balance b))

/-! ## Going back -/

/-- Nor does taking back changes. -/
theorem undoMany_raise (s : Store) (d n : Nat) : (s.raise d).undoMany n = (s.undoMany n).raise d := by
  -- Taking back changes leaves the snapshots and their count alone.
  obtain ⟨hsnapshots, -, hnext⟩ := undoMany_rest s n
  have hundone := undoMany_withSnapshots s (s.snapshots.map (·.raise d)) (s.nextSnapshot + d) n
  simp only [raise, hundone, hsnapshots, hnext]

/-- The search for a raised number among raised snapshots finds the same one. -/
theorem dropWhile_raise (snapshots : List Snapshot) (id d : Nat) :
    (snapshots.map (·.raise d)).dropWhile (·.id ≠ id + d) =
      (snapshots.dropWhile (·.id ≠ id)).map (·.raise d) := by
  rw [List.dropWhile_map]
  congr 2
  funext snap
  simp [Snapshot.raise]

/-- Going back to a raised number goes back to the same snapshot, and if there is none the refusal names the
raised number. -/
theorem revertTo_raise (s : Store) (d id : Nat) :
    (s.raise d).revertTo (id + d) = raiseResult (s.revertTo id) d := by
  have hsearch := dropWhile_raise s.snapshots id d
  simp only [revertTo]
  -- Marks are lengths of the journal and are not raised, so as much is taken back.
  cases hfound : s.snapshots.dropWhile (·.id ≠ id) with
  | nil =>
    rw [hfound] at hsearch
    simp only [snapshots_raise, hsearch]
    rfl
  | cons snap older =>
    rw [hfound] at hsearch
    simp only [snapshots_raise, hsearch, List.map_cons, unwind_eq_undoMany]
    exact congrArg Except.ok (undoMany_raise { s with snapshots := older } d _)

/-! ## Operations -/

/-- What an operation answers. -/
def reply (s : Store) (op : Operation) : Reply :=
  ((Ledger.ofStore s).perform op).1

/-- How an operation that may be refused ends. -/
theorem settle_raise (s : Store) (d : Nat) (result : Except StoreError Store) :
    let outcome := (Ledger.ofStore s).settle (result.map fun store => ⟨store, []⟩)
    let raised := (Ledger.ofStore (s.raise d)).settle
      ((raiseResult result d).map fun store => ⟨store, []⟩)
    raised.1 = outcome.1.raise d ∧ raised.2.store = outcome.2.store.raise d := by
  cases result <;> exact ⟨rfl, rfl⟩

/-- Going back gives a notice as well, which is neither answered nor stored. -/
theorem perform_revertTo_eq (s : Store) (id : Nat) :
    s.reply (.revertTo id) =
        ((Ledger.ofStore s).settle ((s.revertTo id).map fun store => ⟨store, []⟩)).1 ∧
      s.perform (.revertTo id) =
        ((Ledger.ofStore s).settle ((s.revertTo id).map fun store => ⟨store, []⟩)).2.store := by
  simp only [reply, perform, Ledger.perform, Ledger.revertTo, Ledger.ofStore]
  cases s.revertTo id <;> exact ⟨rfl, rfl⟩

/-- An operation does the same with raised numbers, and answers the same but for them. -/
theorem perform_raise (s : Store) (d : Nat) (op : Operation) :
    (s.raise d).reply (op.raise d) = (s.reply op).raise d ∧
      (s.raise d).perform (op.raise d) = (s.perform op).raise d := by
  cases op with
  | addBalance a amount =>
    simp only [reply, perform, Ledger.perform, Ledger.ofStore, Operation.raise, addBalance_raise]
    exact settle_raise s d (s.addBalance a amount)
  | subBalance a amount =>
    simp only [reply, perform, Ledger.perform, Ledger.ofStore, Operation.raise, subBalance_raise]
    exact settle_raise s d (s.subBalance a amount)
  | setNonce a n => exact ⟨rfl, write_raise s d a (.nonce n)⟩
  | setCode a c => exact ⟨rfl, write_raise s d a (.code c)⟩
  | setWord a key value => exact ⟨rfl, write_raise s d a (.word key value)⟩
  | snapshot =>
    -- The new snapshot gets the raised count as its number.
    refine ⟨rfl, ?_⟩
    simp only [perform, Ledger.perform, Ledger.change, Ledger.ofStore, Operation.raise, Store.snapshot,
      raise, List.map_cons, Snapshot.raise, Nat.add_right_comm]
  | revertTo id =>
    -- What the operation answers and what it stores are both read off the outcome of going back.
    obtain ⟨hreply, hstore⟩ := perform_revertTo_eq s id
    obtain ⟨hreply', hstore'⟩ := perform_revertTo_eq (s.raise d) (id + d)
    rw [revertTo_raise] at hreply' hstore'
    simp only [Operation.raise]
    rw [hreply, hstore, hreply', hstore']
    exact settle_raise s d (s.revertTo id)
  | _ => exact ⟨rfl, rfl⟩

end Store

end BridgeMint
