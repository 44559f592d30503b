import BridgeMint.Proofs.Store.Supply

/-!
# What writes leave alone

A write that does not set code keeps the code and the digest of every account, and no account but its own
can come into being.  A write of a balance changes that one balance and nothing else.  Both facts compose,
so they hold of any number of such writes, whichever of the accounts are the same.
-/

namespace BridgeMint

namespace Store

/-! ## Accounts that come into being -/

/-- Only the accounts of a list have come into being, and all of them exist now; no code has been set. -/
structure Touched (touched : List Address) (s t : Store) : Prop where
  hasAccount_iff : ∀ a, t.hasAccount a = true ↔ s.hasAccount a = true ∨ a ∈ touched
  code_eq : ∀ a, t.code a = s.code a
  digest_eq : ∀ a, (t.record a).header.codeHash = (s.record a).header.codeHash

/-- What two changes bring into being adds up. -/
theorem Touched.trans {touched touched' : List Address} {s t u : Store} (h : Touched touched s t)
    (h' : Touched touched' t u) : Touched (touched ++ touched') s u := by
  refine ⟨fun a => ?_, fun a => (h'.code_eq a).trans (h.code_eq a),
    fun a => (h'.digest_eq a).trans (h.digest_eq a)⟩
  rw [h'.hasAccount_iff, h.hasAccount_iff, List.mem_append, or_assoc]

/-- What counts is which accounts come into being, not how often they are written. -/
theorem Touched.of_mem_iff {touched touched' : List Address} {s t : Store} (h : Touched touched s t)
    (hmem : ∀ a, s.hasAccount a = true ∨ a ∈ touched ↔ s.hasAccount a = true ∨ a ∈ touched') :
    Touched touched' s t :=
  ⟨fun a => (h.hasAccount_iff a).trans (hmem a), h.code_eq, h.digest_eq⟩

theorem hasAccount_write (s : Store) (a a' : Address) (m : Amendment) :
    (s.write a m).hasAccount a' = true ↔ s.hasAccount a' = true ∨ a' = a := by
  simp only [hasAccount_eq_isSome, get?_write]
  split
  · next heq => simp [heq]
  · next hne => simp [hne]

/-- A write of anything but code touches its account. -/
theorem touched_write (s : Store) (a : Address) {m : Amendment} (hm : ∀ code, m ≠ .code code) :
    Touched [a] s (s.write a m) := by
  -- The amended record has the code and the digest of the record before.
  have hkept : ∀ r : AccountRecord, (m.apply r).code = r.code ∧
      (m.apply r).header.codeHash = r.header.codeHash := by
    intro r
    cases m with
    | code code => exact absurd rfl (hm code)
    | _ => exact ⟨rfl, rfl⟩
  refine ⟨fun a' => ?_, fun a' => ?_, fun a' => ?_⟩
  · rw [hasAccount_write, List.mem_singleton]
  · obtain ⟨hcode, -⟩ := hkept (s.record a)
    exact record_write_congr (·.code) hcode a'
  · obtain ⟨-, hdigest⟩ := hkept (s.record a)
    exact record_write_congr (·.header.codeHash) hdigest a'

/-- The digest that is read is zero if the account does not exist. -/
theorem codeHash_eq (s : Store) (a : Address) :
    s.codeHash a = if s.hasAccount a = true then (s.record a).header.codeHash else .zero := by
  cases hexists : s.hasAccount a with
  | false =>
    simp only [codeHash, get?_of_not_hasAccount hexists]
    rfl
  | true =>
    simp only [codeHash, get?_of_hasAccount hexists]
    rfl

/-- The digest of an account changes only if the account comes into being. -/
theorem Touched.codeHash_eq {touched : List Address} {s t : Store} (h : Touched touched s t)
    {a : Address} (ha : s.hasAccount a = t.hasAccount a) : t.codeHash a = s.codeHash a := by
  rw [Store.codeHash_eq, Store.codeHash_eq, ha, h.digest_eq]

/-- The digest of an account that has come into being is that of no code. -/
theorem Touched.codeHash_new {touched : List Address} {s t : Store} (h : Touched touched s t)
    {a : Address} (hs : s.hasAccount a = false) (ht : t.hasAccount a = true) :
    t.codeHash a = .emptyDigest := by
  rw [Store.codeHash_eq, if_pos ht, h.digest_eq, record_of_not_hasAccount hs]
  rfl

/-- Only an account that exists has a digest other than zero. -/
theorem hasAccount_of_codeHash_ne_zero {s : Store} {a : Address} (h : s.codeHash a ≠ .zero) :
    s.hasAccount a = true := by
  by_contra hexists
  rw [codeHash_eq, if_neg hexists] at h
  exact h rfl

/-! ## Balances -/

/-- Of the accounts of a list, balances have been written, and nothing else has changed. -/
structure BalancesWritten (touched : List Address) (s t : Store) : Prop
    extends Rebalanced s t, Touched touched s t where
  logs_eq : t.logs = s.logs
  txIndex_eq : t.txIndex = s.txIndex

/-- Writes of balances one after another are writes of balances. -/
theorem BalancesWritten.trans {touched touched' : List Address} {s t u : Store}
    (h : BalancesWritten touched s t) (h' : BalancesWritten touched' t u) :
    BalancesWritten (touched ++ touched') s u :=
  ⟨h.toRebalanced.trans h'.toRebalanced, h.toTouched.trans h'.toTouched, h'.logs_eq.trans h.logs_eq,
    h'.txIndex_eq.trans h.txIndex_eq⟩

theorem balancesWritten_write (s : Store) (a : Address) (b : UInt256) :
    BalancesWritten [a] s (s.write a (.balance b)) :=
  ⟨rebalanced_write s a b, touched_write s a nofun, logs_write _ _ _, txIndex_write _ _ _⟩

/-- Adding to a balance changes this balance by the exact amount, and nothing else. -/
theorem addBalance_effect {s t : Store} {a : Address} {amount : UInt256}
    (h : s.addBalance a amount = .ok t) :
    BalancesWritten [a] s t ∧ ∀ a', (t.balance a').toNat =
      (s.balance a').toNat + if a' = a then amount.toNat else 0 := by
  obtain ⟨b, hb, rfl⟩ := addBalance_eq_ok.mp h
  have hsum := UInt256.checkedAdd_eq_some_iff.mp hb
  refine ⟨balancesWritten_write s a b, fun a' => ?_⟩
  rw [balance_write]
  split
  · next heq =>
    rw [heq]
    exact hsum.symm
  · rfl

/-- Taking from a balance changes this balance by the exact amount, and nothing else. -/
theorem subBalance_effect {s t : Store} {a : Address} {amount : UInt256}
    (h : s.subBalance a amount = .ok t) :
    BalancesWritten [a] s t ∧ ∀ a', (t.balance a').toNat + (if a' = a then amount.toNat else 0) =
      (s.balance a').toNat := by
  obtain ⟨b, hb, rfl⟩ := subBalance_eq_ok.mp h
  have hdifference := UInt256.checkedSub_eq_some_iff.mp hb
  refine ⟨balancesWritten_write s a b, fun a' => ?_⟩
  rw [balance_write]
  split
  · next heq =>
    rw [heq]
    exact hdifference
  · rfl

theorem addBalance_written {s t : Store} {a : Address} {amount : UInt256}
    (h : s.addBalance a amount = .ok t) : BalancesWritten [a] s t := by
  obtain ⟨hwritten, -⟩ := addBalance_effect h
  exact hwritten

theorem subBalance_written {s t : Store} {a : Address} {amount : UInt256}
    (h : s.subBalance a amount = .ok t) : BalancesWritten [a] s t := by
  obtain ⟨hwritten, -⟩ := subBalance_effect h
  exact hwritten

/-! ## Taking balances back

What the journal notes of a balance is all there is to it, so taking the notes back gives the store itself and
not only what the journal knows of its records.
-/

/-- Taking back the notes that `s` has on top of `b` gives `b` itself, and no snapshot has been opened. -/
structure RewindsExactly (b s : Store) : Prop where
  undone : ∃ n, s.journal.length = b.journal.length + n ∧ s.undoMany n = b
  snapshots_eq : s.snapshots = b.snapshots

theorem RewindsExactly.refl (s : Store) : s.RewindsExactly s := ⟨⟨0, rfl, rfl⟩, rfl⟩

/-- The notes of two programs are taken back newest first. -/
theorem RewindsExactly.trans {s t u : Store} (h : s.RewindsExactly t) (h' : t.RewindsExactly u) :
    s.RewindsExactly u := by
  obtain ⟨⟨n, hlength, hn⟩, hsnapshots⟩ := h
  obtain ⟨⟨m, hlength', hm⟩, hsnapshots'⟩ := h'
  refine ⟨⟨m + n, by omega, ?_⟩, hsnapshots'.trans hsnapshots⟩
  rw [undoMany_add, hm, hn]

/-- Going back to a snapshot finds the very accounts that there were. -/
theorem RewindsExactly.revertTo {s t u : Store} (h : s.snapshot.2.RewindsExactly u)
    (hrevert : u.revertTo s.snapshot.1 = .ok t) : t.accounts = s.accounts := by
  obtain ⟨⟨n, hlength, hn⟩, hsnapshots⟩ := h
  have hopen : u.snapshots = [] ++ ⟨s.nextSnapshot, s.journal.length⟩ :: s.snapshots := hsnapshots
  have hback := revertTo_eq_ok.mpr ⟨[], _, _, hopen, rfl, nofun, rfl⟩
  -- As many notes are taken back as have been made since.
  have hcount : u.journal.length - s.journal.length = n := by
    have hsame : s.snapshot.2.journal.length = s.journal.length := rfl
    omega
  rw [show s.nextSnapshot = s.snapshot.1 from rfl, hrevert] at hback
  obtain rfl := Except.ok.inj hback
  simp only [hcount]
  rw [undoMany_withSnapshots u s.snapshots u.nextSnapshot n, hn]
  rfl

/-- Taking back the notes of a written balance gives the store before the write. -/
theorem undoMany_write_balance (s : Store) (a : Address) (b : UInt256) :
    (s.write a (.balance b)).undoMany (s.writeNotes a (.balance b)).length = s := by
  rw [write_eq]
  unfold writeNotes
  cases hexists : s.hasAccount a with
  | true =>
    -- The old balance is put back.
    have haccounts : (s.accounts.insert a ((s.record a).withBalance b)).insert a
        (((s.record a).withBalance b).withBalance (s.record a).header.balance) = s.accounts := by
      refine SortedMap.ext_get? fun a' => ?_
      rw [SortedMap.get?_insert, SortedMap.get?_insert]
      split
      · next heq =>
        rw [heq, get?_of_hasAccount hexists]
        rfl
      · rfl
    simp only [if_true, List.length_singleton, List.singleton_append, undoMany, undoNewest,
      Amendment.change, Amendment.apply, undo, restore, SortedMap.get?_insert, haccounts]
  | false =>
    -- The account that was created is dropped again.
    have haccounts : ∀ r r', ((s.accounts.insert a r).insert a r').erase a = s.accounts := by
      intro r r'
      refine SortedMap.ext_get? fun a' => ?_
      rw [SortedMap.get?_erase, SortedMap.get?_insert, SortedMap.get?_insert]
      split
      · next heq => rw [heq, get?_of_not_hasAccount hexists]
      · rfl
    simp only [Bool.false_eq_true, if_false, if_true, List.length_cons, List.length_nil,
      List.cons_append, List.nil_append, undoMany, undoNewest, Amendment.change, Amendment.apply, undo,
      restore, SortedMap.get?_insert, haccounts]

theorem rewindsExactly_write_balance (s : Store) (a : Address) (b : UInt256) :
    s.RewindsExactly (s.write a (.balance b)) := by
  refine ⟨⟨_, ?_, undoMany_write_balance s a b⟩, snapshots_write _ _ _⟩
  rw [Journal.length, journal_write, List.length_append, Nat.add_comm]
  rfl

end Store

end BridgeMint
